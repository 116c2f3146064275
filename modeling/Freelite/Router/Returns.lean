import Freelite.Lib.Progress
import Freelite.Router.Sessions

/-!
# Session threads share the connection safely, and get out

The result about `vcm_join`, `vcm_vid_nid` and `vcm_get_node_id` under all interleavings
(`sessions_share_safely`), of which `Freelite/Router/Sessions.lean` has the safety.

A thread that waits in `recv` for the manager keeps all other session threads out of
`map_mutex`, those whose answer is in the tables as well.  It does not keep them out for
ever.  Whoever asks has sent its request over a connection on which nothing else is on
its way, so either the manager still has it or the reply is there (`body_live`); and a
whole call takes no more than eight steps, the one of the manager among them
(`body_bounded`).
-/

namespace Freelite

open Lib

namespace Routing

variable {ν : Type*}

/-- The steps a call still has to take, or may cause, before its return value is known. -/
def Progress.work : Progress → ℕ
  | entered => 6
  | sending => 5
  | receiving _ => 3
  | handled _ _ _ => 2
  | noted _ => 1
  | returning _ _ => 0

/-- A request makes the manager take one step. -/
theorem body_bounded (serve : VcmMsg → ν → VcmMsg × ν) (routerNid : Int32) :
    Monitor.Bounded (body routerNid) (serveNext serve) Progress.work fun s ↦ s.requests.length where
  step o l i s l' s' h := by
    cases l with
    | entered =>
        rw [step_entered] at h
        split at h <;> obtain ⟨rfl, rfl⟩ := Prod.mk_inj.mp (Option.some_inj.mp h)
        · exact Nat.add_lt_add_right (Nat.succ_pos 5) _
        · exact Nat.add_lt_add_right (Nat.lt_succ_self 5) _
    | sending =>
        rw [step_sending] at h
        split at h
        · obtain ⟨rfl, rfl⟩ := Prod.mk_inj.mp (Option.some_inj.mp h)
          exact Nat.add_lt_add_right (Nat.succ_pos 4) _
        · cases i with
          | error =>
              obtain ⟨rfl, rfl⟩ := Prod.mk_inj.mp (Option.some_inj.mp h)
              exact Nat.add_lt_add_right (Nat.succ_pos 4) _
          | ok =>
              obtain ⟨rfl, rfl⟩ := Prod.mk_inj.mp (Option.some_inj.mp h)
              -- the request that is sent is one more step of the manager
              rw [List.length_append, List.length_singleton]
              simp only [Progress.work]
              omega
    | receiving number =>
        cases i with
        | error =>
            rw [step_receiving_error] at h
            obtain ⟨rfl, rfl⟩ := Prod.mk_inj.mp (Option.some_inj.mp h)
            exact Nat.add_lt_add_right (Nat.succ_pos 2) _
        | ok =>
            rw [step_receiving_ok] at h
            cases hrep : s.replies with
            | nil => simp [hrep] at h
            | cons e replies =>
                rw [hrep] at h
                obtain ⟨rfl, rfl⟩ := Prod.mk_inj.mp (Option.some_inj.mp h)
                exact Nat.add_lt_add_right (Nat.lt_succ_self 2) _
    | handled number answers msg =>
        cases o with
        | vcmGetNodeId cid => contradiction
        | vcmJoin cid =>
            obtain ⟨rfl, rfl⟩ := Prod.mk_inj.mp (Option.some_inj.mp h)
            exact Nat.add_lt_add_right (Nat.lt_succ_self 1) _
        | vcmVidNid vid =>
            obtain ⟨rfl, rfl⟩ := Prod.mk_inj.mp (Option.some_inj.mp h)
            exact Nat.add_lt_add_right (Nat.succ_pos 1) _
    | noted vid =>
        cases o with
        | vcmJoin cid =>
            obtain ⟨rfl, rfl⟩ := Prod.mk_inj.mp (Option.some_inj.mp h)
            exact Nat.add_lt_add_right (Nat.succ_pos 0) _
        | _ => contradiction
    | returning ret fate => cases o <;> contradiction
  env _ s s' h := by
    obtain ⟨number, msg, requests, hr, rfl⟩ := serveNext_eq h
    rw [hr]
    exact Nat.lt_succ_self _

/-- **Nobody waits for a reply that does not come.** -/
theorem body_live (serve : VcmMsg → ν → VcmMsg × ν) (routerNid : Int32) :
    Monitor.Live (body routerNid) (serveNext serve) (Within serve routerNid) (· = .ok) := by
  intro o a l s hs hres
  cases l with
  | entered =>
      refine .inl ⟨.ok, rfl, ?_⟩
      rw [step_entered]
      split <;> exact Option.some_ne_none _
  | sending =>
      refine .inl ⟨.ok, rfl, ?_⟩
      rw [step_sending]
      split <;> exact Option.some_ne_none _
  | receiving number =>
      obtain ⟨-, -, -, ⟨hreq, -⟩ | ⟨-, hrep, -⟩⟩ := hs
      · -- the manager has not handled the request yet
        refine .inr ⟨(), ?_⟩
        rw [serveNext, hreq]
        exact Option.some_ne_none _
      · refine .inl ⟨.ok, rfl, ?_⟩
        rw [step_receiving_ok, hrep]
        exact Option.some_ne_none _
  | handled number answers msg =>
      refine .inl ⟨.ok, rfl, ?_⟩
      cases o with
      | vcmGetNodeId cid => exact absurd hs.2.2.2.2.missing (Option.some_ne_none _)
      | _ => exact Option.some_ne_none _
  | noted vid =>
      obtain ⟨cid, rfl, -⟩ := hs
      exact .inl ⟨.ok, rfl, Option.some_ne_none _⟩
  | returning ret fate => contradiction

variable {τ : Type*} [DecidableEq τ]

/-- The calls of an interleaving come to an end: there are no more than eight steps for
each, and once no thread can take a step, even if no system call fails, and the manager has
nothing to handle, all of them have returned and any thread could make another one. -/
def CallsReturn (serve : VcmMsg → ν → VcmMsg × ν) (routerNid : Int32) (sock : Descriptor) (v : ν)
    (acts : List (Monitor.Act τ SessionCall Syscall Unit)) : Prop :=
  let next := Monitor.next (body routerNid) (serveNext serve)
  let s := Machine.run next (Monitor.init (.start sock v)) acts
  Machine.taken next (Monitor.init (.start sock v)) acts ≤ 8 * s.entered.length ∧
    ((∀ t, next s (.step t .ok) = none ∧ next s (.unlock t) = none) → next s (.env ()) = none →
      s.entered = Monitor.calls s.log ∧ ∀ t o, (next s (.lock t o)).isSome)

theorem callsReturn (serve : VcmMsg → ν → VcmMsg × ν) (routerNid : Int32) (sock : Descriptor)
    (v : ν) (acts : List (Monitor.Act τ SessionCall Syscall Unit)) :
    CallsReturn serve routerNid sock v acts := by
  have hR := body_refines serve routerNid
  have hrep := rep_start sock v
  constructor
  · have hle := hR.taken_le (body_bounded serve routerNid) hrep acts
    rwa [Shared.start, List.length_nil, Nat.zero_add] at hle
  · intro hstuck henv
    refine Monitor.Refines.idle_of_stuck (body_live serve routerNid) (hR.explained hrep acts) ?_
      (fun t ↦ (hstuck t).2) fun _ ↦ henv
    rintro t i rfl
    exact (hstuck t).1

/-- **The session threads share the connection safely**, whatever they call and however
their steps, the manager's and the errors of the connection are interleaved; and every call
returns. -/
theorem sessions_share_safely (serve : VcmMsg → ν → VcmMsg × ν) (routerNid : Int32)
    (sock : Descriptor) (v : ν) (acts : List (Monitor.Act τ SessionCall Syscall Unit)) :
    SharedSafely serve routerNid sock v
        (Machine.run (Monitor.next (body routerNid) (serveNext serve))
          (Monitor.init (.start sock v)) acts) ∧
      CallsReturn serve routerNid sock v acts := by
  have hexpl := (body_refines serve routerNid).explained (rep_start sock v) acts
  exact ⟨sharedSafely_of_explained hexpl, callsReturn serve routerNid sock v acts⟩

end Routing

end Freelite
