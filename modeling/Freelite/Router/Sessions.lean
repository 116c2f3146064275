import Freelite.Router.Sections

/-!
# Session threads share the connection

All session threads of a router use one connection to the manager, and nothing in a
reply says which request it answers.  That it is the thread's own follows from the
lock being held from `send` to `recv`: the connection is idle whenever the lock is
taken, as long as there is one.  When an exchange fails, its request or reply may stay
behind; but then the connection is given up, and nobody receives from it again.
-/

namespace Freelite

open Lib

namespace Routing

variable {ν : Type*} (serve : VcmMsg → ν → VcmMsg × ν) (routerNid : Int32)

/-! ## What the shared state looks like -/

/-- The requests are numbered in the order in which they are sent and handled. -/
def Numbered (s : Shared ν) : Prop :=
  s.answers.map Prod.fst ++ s.requests.map Prod.fst = List.range s.asked.length

/-- The state between two calls. -/
structure Rep (a : Sequential ν) (s : Shared ν) : Prop where
  routing : s.routing = a.routing
  asked : s.asked = a.asked
  numbered : Numbered s
  outstanding : s.requests.length + s.replies.length ≤ 1
  /-- Over a connection that still exists, nothing is on its way. -/
  idle : a.routing.clientSock ≠ -1 → s.requests = [] ∧ s.replies = [] ∧ s.vcm = a.vcm

/-- A call has had to ask, and has sent its request. -/
structure Asking (o : SessionCall) (a : Sequential ν) (s : Shared ν) : Prop where
  missing : o.lookup a.routing = none
  connected : a.routing.clientSock ≠ -1
  asked : s.asked = a.asked ++ [o]
  numbered : Numbered s

/-- Its request is the only message on its way, or the manager's reply to it is. -/
def OnItsWay (o : SessionCall) (a : Sequential ν) (s : Shared ν) : Prop :=
  let req := o.request routerNid
  let rsp := (serve req a.vcm).1
  (s.requests = [(a.asked.length, req)] ∧ s.replies = [] ∧ s.vcm = a.vcm) ∨
    (s.requests = [] ∧ s.replies = [(a.asked.length, rsp)] ∧ s.vcm = (serve req a.vcm).2 ∧
      (a.asked.length, req, rsp) ∈ s.answers)

/-- The reply has been received. -/
structure Answered (o : SessionCall) (a : Sequential ν) (s : Shared ν) : Prop
    extends Asking o a s where
  requests : s.requests = []
  replies : s.replies = []
  vcm : s.vcm = (serve (o.request routerNid) a.vcm).2
  mem : (a.asked.length, o.request routerNid, (serve (o.request routerNid) a.vcm).1) ∈ s.answers

/-- The state while a call is on its way from the state `a`. -/
def Within (o : SessionCall) (a : Sequential ν) : Progress → Shared ν → Prop
  | .entered, s => Rep a s
  | .sending, s => Rep a s ∧ o.lookup a.routing = none
  | .receiving number, s =>
      number = a.asked.length ∧ s.routing = a.routing ∧ Asking o a s ∧
        OnItsWay serve routerNid o a s
  | .handled number answers msg, s =>
      number = a.asked.length ∧ answers = number ∧
        msg = (serve (o.request routerNid) a.vcm).1 ∧ s.routing = a.routing ∧
        Answered serve routerNid o a s
  | .noted vid, s =>
      ∃ cid, o = .vcmJoin cid ∧ vid = (serve (o.request routerNid) a.vcm).1.id ∧
        s.routing = { a.routing with cidVidMap := a.routing.cidVidMap.insert cid vid } ∧
        Answered serve routerNid o a s
  | .returning r fate, s => ∃ a', Atomic serve routerNid o a (r, fate) a' ∧ Rep a' s

variable {serve routerNid} {o : SessionCall} {a : Sequential ν} {s s' : Shared ν}

/-! ## The manager handles a request -/

theorem serveNext_eq (h : serveNext serve () s = some s') :
    ∃ number msg requests, s.requests = (number, msg) :: requests ∧
      s' = { s with
        vcm := (serve msg s.vcm).2
        requests
        replies := s.replies ++ [(number, (serve msg s.vcm).1)]
        answers := s.answers ++ [(number, msg, (serve msg s.vcm).1)] } := by
  rw [serveNext] at h
  cases hr : s.requests with
  | nil => simp [hr] at h
  | cons e requests =>
      simp only [hr, Option.some_inj] at h
      exact ⟨e.1, e.2, requests, rfl, h.symm⟩

theorem Numbered.serveNext (hs : Numbered s) (h : serveNext serve () s = some s') :
    Numbered s' := by
  obtain ⟨number, msg, requests, hr, rfl⟩ := serveNext_eq h
  rw [Numbered, hr] at hs
  simpa [Numbered] using hs

theorem Rep.serveNext (hs : Rep a s) (h : serveNext serve () s = some s') : Rep a s' := by
  have hnumbered := hs.numbered.serveNext h
  obtain ⟨number, msg, requests, hr, rfl⟩ := serveNext_eq h
  have hlen := hs.outstanding
  rw [hr, List.length_cons] at hlen
  refine ⟨hs.routing, hs.asked, hnumbered, ?_, fun hc ↦ ?_⟩
  · rw [List.length_append, List.length_singleton]
    change requests.length + (s.replies.length + 1) ≤ 1
    omega
  · rw [(hs.idle hc).1] at hr
    contradiction

theorem Within.serveNext {l : Progress} (hs : Within serve routerNid o a l s)
    (h : serveNext serve () s = some s') : Within serve routerNid o a l s' := by
  cases l with
  | entered => exact Rep.serveNext hs h
  | sending => exact ⟨hs.1.serveNext h, hs.2⟩
  | receiving number =>
      obtain ⟨hnumber, hrouting, hasking, hway⟩ := hs
      have hnumbered := hasking.numbered.serveNext h
      obtain ⟨k, msg, requests, hr, rfl⟩ := serveNext_eq h
      obtain ⟨hreq, hrep, hvcm⟩ | ⟨hreq, -⟩ := hway
      · rw [hr, List.cons.injEq, Prod.mk_inj] at hreq
        obtain ⟨⟨rfl, rfl⟩, rfl⟩ := hreq
        refine ⟨hnumber, hrouting, { hasking with numbered := hnumbered }, .inr ?_⟩
        simp [hrep, hvcm]
      · rw [hr] at hreq
        contradiction
  | handled number answers msg =>
      obtain ⟨_, _, _, hr, -⟩ := serveNext_eq h
      rw [hs.2.2.2.2.requests] at hr
      contradiction
  | noted vid =>
      obtain ⟨cid, -, -, -, hanswered⟩ := hs
      obtain ⟨_, _, _, hr, -⟩ := serveNext_eq h
      rw [hanswered.requests] at hr
      contradiction
  | returning r fate =>
      obtain ⟨a', hatomic, hrep⟩ := hs
      exact ⟨a', hatomic, hrep.serveNext h⟩

/-! ## The steps of a call -/

/-- The state after a call that has been answered. -/
theorem Answered.rep (hs : Answered serve routerNid o a s)
    (hr : s.routing = o.note routerNid (serve (o.request routerNid) a.vcm).1.id a.routing) :
    Rep
      { routing := o.note routerNid (serve (o.request routerNid) a.vcm).1.id a.routing
        vcm := (serve (o.request routerNid) a.vcm).2
        asked := a.asked ++ [o] } s where
  routing := hr
  asked := hs.asked
  numbered := hs.numbered
  outstanding := by simp [hs.requests, hs.replies]
  idle _ := ⟨hs.requests, hs.replies, hs.vcm⟩

theorem within_entered {i : Syscall} {l' : Progress} (hs : Rep a s)
    (h : (body routerNid).step o .entered i s = some (l', s')) :
    Within serve routerNid o a l' s' := by
  rw [step_entered] at h
  rw [hs.routing] at h
  cases hl : o.lookup a.routing with
  | some ret =>
      simp only [hl, Option.some_inj, Prod.mk_inj] at h
      obtain ⟨rfl, rfl⟩ := h
      exact ⟨a, atomic_known hl, hs⟩
  | none =>
      simp only [hl, Option.some_inj, Prod.mk_inj] at h
      obtain ⟨rfl, rfl⟩ := h
      exact ⟨hs, hl⟩

/-- The state after a call that has given up the connection. -/
theorem rep_vcmDisconn {asked : List SessionCall} (hr : s.routing = a.routing)
    (hasked : s.asked = asked) (hnumbered : Numbered s)
    (hlen : s.requests.length + s.replies.length ≤ 1) :
    Rep { a with routing := a.routing.vcmDisconn, asked }
      { s with routing := s.routing.vcmDisconn } where
  routing := congrArg vcmDisconn hr
  asked := hasked
  numbered := hnumbered
  outstanding := hlen
  idle h := (h rfl).elim

theorem within_sending {i : Syscall} {l' : Progress} (hs : Rep a s)
    (hl : o.lookup a.routing = none)
    (h : (body routerNid).step o .sending i s = some (l', s')) :
    Within serve routerNid o a l' s' := by
  rw [step_sending] at h
  by_cases hc : a.routing.clientSock = -1
  · rw [if_pos (hs.routing ▸ hc), Option.some_inj, Prod.mk_inj] at h
    obtain ⟨rfl, rfl⟩ := h
    exact ⟨a, atomic_down hl hc, hs⟩
  · rw [if_neg (hs.routing ▸ hc)] at h
    obtain ⟨hreq, hrep, hvcm⟩ := hs.idle hc
    cases i with
    | error =>
        simp only [Option.some_inj, Prod.mk_inj] at h
        obtain ⟨rfl, rfl⟩ := h
        exact ⟨_, atomic_sendError hl hc,
          rep_vcmDisconn hs.routing hs.asked hs.numbered hs.outstanding⟩
    | ok =>
        simp only [Option.some_inj, Prod.mk_inj] at h
        obtain ⟨rfl, rfl⟩ := h
        refine ⟨congrArg List.length hs.asked, hs.routing, ⟨hl, hc, ?_, ?_⟩, .inl ?_⟩
        · rw [hs.asked]
        · have hnumbered := hs.numbered
          simp only [Numbered, hreq, List.map_nil, List.append_nil] at hnumbered
          simp [Numbered, hreq, hnumbered, List.range_succ]
        · exact ⟨by rw [hreq, hs.asked]; rfl, hrep, hvcm⟩

theorem within_receiving {i : Syscall} {number : Nat} {l' : Progress}
    (hs : Within serve routerNid o a (.receiving number) s)
    (h : (body routerNid).step o (.receiving number) i s = some (l', s')) :
    Within serve routerNid o a l' s' := by
  obtain ⟨rfl, hrouting, hasking, hway⟩ := hs
  cases i with
  | error =>
      rw [step_receiving_error] at h
      simp only [Option.some_inj, Prod.mk_inj] at h
      obtain ⟨rfl, rfl⟩ := h
      refine ⟨_, atomic_recvError hasking.missing hasking.connected,
        rep_vcmDisconn hrouting hasking.asked hasking.numbered ?_⟩
      obtain ⟨hreq, hrep, -⟩ | ⟨hreq, hrep, -⟩ := hway <;> simp [hreq, hrep]
  | ok =>
      rw [step_receiving_ok] at h
      obtain ⟨-, hrep, -⟩ | ⟨hreq, hrep, hvcm, hmem⟩ := hway
      · simp [hrep] at h
      · simp only [hrep, Option.some_inj, Prod.mk_inj] at h
        obtain ⟨rfl, rfl⟩ := h
        exact ⟨rfl, rfl, rfl, hrouting,
          { hasking with
            numbered := hasking.numbered
            requests := hreq
            replies := rfl
            vcm := hvcm
            mem := hmem }⟩

theorem within_handled {i : Syscall} {number answers : Nat} {msg : VcmMsg} {l' : Progress}
    (hs : Within serve routerNid o a (.handled number answers msg) s)
    (h : (body routerNid).step o (.handled number answers msg) i s = some (l', s')) :
    Within serve routerNid o a l' s' := by
  obtain ⟨-, -, rfl, hrouting, hanswered⟩ := hs
  cases o with
  | vcmJoin cid =>
      simp only [body, Option.some_inj, Prod.mk_inj] at h
      obtain ⟨rfl, rfl⟩ := h
      refine ⟨cid, rfl, rfl, by rw [hrouting], ?_⟩
      exact { hanswered with }
  | vcmVidNid vid =>
      simp only [body, Option.some_inj, Prod.mk_inj] at h
      obtain ⟨rfl, rfl⟩ := h
      refine ⟨_, atomic_answered hanswered.missing hanswered.connected, Answered.rep ?_ ?_⟩
      · exact { hanswered with }
      · rw [hrouting, SessionCall.note]
  | vcmGetNodeId cid => simp [body] at h

theorem within_noted {i : Syscall} {vid : Int32} {l' : Progress}
    (hs : Within serve routerNid o a (.noted vid) s)
    (h : (body routerNid).step o (.noted vid) i s = some (l', s')) :
    Within serve routerNid o a l' s' := by
  obtain ⟨cid, rfl, rfl, hrouting, hanswered⟩ := hs
  simp only [body, Option.some_inj, Prod.mk_inj] at h
  obtain ⟨rfl, rfl⟩ := h
  refine ⟨_, atomic_answered hanswered.missing hanswered.connected, Answered.rep ?_ ?_⟩
  · exact { hanswered with }
  · rw [hrouting, SessionCall.note]

variable (serve routerNid) in
/-- **The bodies refine the calls.** -/
theorem body_refines : Monitor.Refines (body routerNid) (serveNext serve) Rep
    (Within serve routerNid) (Atomic serve routerNid) where
  enter _ _ _ hs := hs
  step o a l i s l' s' hs h := by
    cases l with
    | entered => exact within_entered hs h
    | sending => exact within_sending hs.1 hs.2 h
    | receiving number => exact within_receiving hs h
    | handled number answers msg => exact within_handled hs h
    | noted vid => exact within_noted hs h
    | returning ret fate => cases o <;> simp [body] at h
  leave o a l s r hs h := by
    cases l with
    | returning ret fate =>
        obtain rfl := Option.some_inj.mp h
        exact hs
    | _ => simp [body] at h
  env_rep _ _ _ _ hs h := hs.serveNext h
  env_within _ _ _ _ _ _ hs h := hs.serveNext h

/-! ## What one sees from outside -/

theorem Within.numbered {l : Progress} (hs : Within serve routerNid o a l s) : Numbered s := by
  cases l with
  | entered => exact Rep.numbered hs
  | sending => exact hs.1.numbered
  | receiving number => exact hs.2.2.1.numbered
  | handled number answers msg => exact hs.2.2.2.2.numbered
  | noted vid =>
      obtain ⟨cid, -, -, -, hanswered⟩ := hs
      exact hanswered.numbered
  | returning r fate =>
      obtain ⟨a', -, hrep⟩ := hs
      exact hrep.numbered

theorem Within.outstanding {l : Progress} (hs : Within serve routerNid o a l s) :
    s.requests.length + s.replies.length ≤ 1 := by
  cases l with
  | entered => exact Rep.outstanding hs
  | sending => exact hs.1.outstanding
  | receiving number =>
      obtain ⟨-, -, -, ⟨hreq, hrep, -⟩ | ⟨hreq, hrep, -⟩⟩ := hs <;> simp [hreq, hrep]
  | handled number answers msg => simp [hs.2.2.2.2.requests, hs.2.2.2.2.replies]
  | noted vid =>
      obtain ⟨cid, -, -, -, hanswered⟩ := hs
      simp [hanswered.requests, hanswered.replies]
  | returning r fate =>
      obtain ⟨a', -, hrep⟩ := hs
      exact hrep.outstanding

/-- Nothing is on its way over a connection that still exists, except while a call is
in `recv`. -/
theorem Within.idle {l : Progress} (hs : Within serve routerNid o a l s)
    (hl : ∀ number, l ≠ .receiving number) (hc : s.routing.clientSock ≠ -1) :
    s.requests = [] ∧ s.replies = [] := by
  have of_rep {b : Sequential ν} (h : Rep b s) : s.requests = [] ∧ s.replies = [] :=
    ⟨(h.idle (h.routing ▸ hc)).1, (h.idle (h.routing ▸ hc)).2.1⟩
  cases l with
  | entered => exact of_rep hs
  | sending => exact of_rep hs.1
  | receiving number => exact (hl number rfl).elim
  | handled number answers msg => exact ⟨hs.2.2.2.2.requests, hs.2.2.2.2.replies⟩
  | noted vid =>
      obtain ⟨cid, -, -, -, hanswered⟩ := hs
      exact ⟨hanswered.requests, hanswered.replies⟩
  | returning r fate =>
      obtain ⟨a', -, hrep⟩ := hs
      exact of_rep hrep

/-! ## Joins -/

variable {τ : Type*}

/-- What a sequence of calls says about the containers that have joined. -/
structure Settled (log : List (τ × SessionCall × Int32 × Option Fate)) (a : Sequential ν) :
    Prop where
  joins : ∀ t cid r fate, (t, .vcmJoin cid, r, fate) ∈ log →
    a.routing.cidVidMap.find cid = some r ∨
      a.routing.cidVidMap.find cid = none ∧ r = -1 ∧ a.routing.clientSock = -1
  fresh : ∀ cid, a.routing.cidVidMap.find cid = none → a.routing.clientSock ≠ -1 →
    .vcmJoin cid ∉ a.asked
  once : ∀ cid, a.asked.count (.vcmJoin cid) ≤ 1

theorem settled_start (sock : Descriptor) (v : ν) :
    Settled (τ := τ) [] ⟨Routing.start sock, v, []⟩ := by
  constructor <;> simp

namespace Settled

variable {log : List (τ × SessionCall × Int32 × Option Fate)} {a' : Sequential ν} {r : Int32}
  {fate : Option Fate}

/-- A call that has to ask is not the second to ask for the container. -/
theorem once_concat (hs : Settled log a) (hl : o.lookup a.routing = none)
    (hc : a.routing.clientSock ≠ -1) (cid : Cid) :
    (a.asked ++ [o]).count (.vcmJoin cid) ≤ 1 := by
  by_cases ho : o = .vcmJoin cid
  · subst ho
    have hnot := hs.fresh cid hl hc
    rw [List.count_append, List.count_eq_zero_of_not_mem hnot]
    simp
  · rw [List.count_append, List.count_singleton, if_neg (by simpa using ho)]
    exact hs.once cid

theorem known (hs : Settled log a) (hl : o.lookup a.routing = some r) (t : τ)
    (hrouting : a'.routing = a.routing) (hasked : a'.asked = a.asked) :
    Settled (log ++ [(t, o, r, fate)]) a' where
  joins u cid r' fate' hmem := by
    rw [List.mem_append, List.mem_singleton, Prod.mk_inj, Prod.mk_inj, Prod.mk_inj] at hmem
    rw [hrouting]
    obtain hmem | ⟨-, rfl, rfl, -⟩ := hmem
    · exact hs.joins u cid r' fate' hmem
    · exact .inl hl
  fresh := by
    rw [hrouting, hasked]
    exact hs.fresh
  once := by
    rw [hasked]
    exact hs.once

theorem failed (hs : Settled log a) (hl : o.lookup a.routing = none) (t : τ)
    (hrouting : a'.routing = a.routing.vcmDisconn)
    (hasked : a'.asked = a.asked ∨ a.routing.clientSock ≠ -1 ∧ a'.asked = a.asked ++ [o]) :
    Settled (log ++ [(t, o, -1, fate)]) a' where
  joins u cid r' fate' hmem := by
    rw [List.mem_append, List.mem_singleton, Prod.mk_inj, Prod.mk_inj, Prod.mk_inj] at hmem
    rw [hrouting]
    obtain hmem | ⟨-, rfl, rfl, -⟩ := hmem
    · obtain hfind | ⟨hfind, hr, -⟩ := hs.joins u cid r' fate' hmem
      · exact .inl hfind
      · exact .inr ⟨hfind, hr, rfl⟩
    · exact .inr ⟨hl, rfl, rfl⟩
  fresh cid _ hc := by
    rw [hrouting] at hc
    exact (hc rfl).elim
  once cid := by
    obtain h | ⟨hc, h⟩ := hasked <;> rw [h]
    · exact hs.once cid
    · exact hs.once_concat hl hc cid

theorem answered (hs : Settled log a) (hl : o.lookup a.routing = none) (t : τ)
    (hc : a.routing.clientSock ≠ -1) (hrouting : a'.routing = o.note routerNid r a.routing)
    (hasked : a'.asked = a.asked ++ [o]) : Settled (log ++ [(t, o, r, fate)]) a' where
  joins u cid r' fate' hmem := by
    rw [List.mem_append, List.mem_singleton, Prod.mk_inj, Prod.mk_inj, Prod.mk_inj] at hmem
    rw [hrouting]
    obtain hmem | ⟨-, rfl, rfl, -⟩ := hmem
    · obtain hfind | ⟨-, -, hdown⟩ := hs.joins u cid r' fate' hmem
      · cases o with
        | vcmJoin cid' => exact .inl (UnorderedMap.find_mono hfind _ _)
        | _ => exact .inl hfind
      · exact (hc hdown).elim
    · exact .inl ((UnorderedMap.find_insert_of_none hl _ _).trans (if_pos rfl))
  fresh cid hfind _ := by
    rw [hrouting] at hfind
    rw [hasked, List.mem_append, List.mem_singleton]
    rintro (hmem | rfl)
    · refine hs.fresh cid ?_ hc hmem
      cases o with
      | vcmJoin cid' =>
          by_contra hne
          obtain ⟨vid, hvid⟩ := Option.ne_none_iff_exists'.mp hne
          simp [SessionCall.note, UnorderedMap.find_mono hvid] at hfind
      | _ => exact hfind
    · simp [SessionCall.note] at hfind
  once cid := by
    rw [hasked]
    exact hs.once_concat hl hc cid

theorem atomic (hs : Settled log a) (h : Atomic serve routerNid o a (r, fate) a') (t : τ) :
    Settled (log ++ [(t, o, r, fate)]) a' := by
  obtain ⟨hl, hr, hasked⟩ | ⟨hl, rfl, hr, hasked⟩ | ⟨hl, hc, hr, hasked⟩ := atomic_cases h
  · exact hs.known hl t hr hasked
  · exact hs.failed hl t hr hasked
  · exact hs.answered hl t hc hr hasked

theorem serial (hs : Settled (τ := τ) [] a) (h : Monitor.Serial (Atomic serve routerNid) a log a') :
    Settled log a' := by
  induction h with
  | nil => exact hs
  | snoc t _ hatomic ih => exact ih.atomic hatomic t

/-- Two joins of one container have returned the same. -/
theorem joins_eq (hs : Settled log a) {t u : τ} {cid : Cid} {r r' : Int32}
    {fate fate' : Option Fate} (ht : (t, .vcmJoin cid, r, fate) ∈ log)
    (hu : (u, .vcmJoin cid, r', fate') ∈ log) : r = r' := by
  obtain hr | ⟨hr, rfl, -⟩ := hs.joins t cid r fate ht <;>
    obtain hr' | ⟨hr', rfl, -⟩ := hs.joins u cid r' fate' hu
  · exact Option.some_inj.mp (hr.symm.trans hr')
  · simp [hr] at hr'
  · simp [hr] at hr'
  · rfl

end Settled

/-- While a call is on its way, no container has been asked for twice. -/
theorem Within.once {log : List (τ × SessionCall × Int32 × Option Fate)} {l : Progress}
    (hs : Within serve routerNid o a l s) (hlog : Settled log a) (t : τ) (cid : Cid) :
    s.asked.count (.vcmJoin cid) ≤ 1 := by
  have of_asking (h : Asking o a s) : s.asked.count (.vcmJoin cid) ≤ 1 := by
    rw [h.asked]
    exact hlog.once_concat h.missing h.connected cid
  cases l with
  | entered => exact (Rep.asked hs).symm ▸ hlog.once cid
  | sending => exact hs.1.asked.symm ▸ hlog.once cid
  | receiving number => exact of_asking hs.2.2.1
  | handled number answers msg => exact of_asking hs.2.2.2.2.toAsking
  | noted vid =>
      obtain ⟨_, -, -, -, hanswered⟩ := hs
      exact of_asking hanswered.toAsking
  | returning r fate =>
      obtain ⟨a', hatomic, hrep⟩ := hs
      rw [hrep.asked]
      exact (hlog.atomic hatomic t).once cid

/-! ## Every interleaving -/

/-- The state of the session threads is one in which they share the connection safely;
it started with the connection `sock` and the manager in state `v`. -/
structure SharedSafely (serve : VcmMsg → ν → VcmMsg × ν) (routerNid : Int32) (sock : Descriptor)
    (v : ν) (s : Monitor τ SessionCall Progress (Shared ν) (Int32 × Option Fate)) : Prop where
  /-- At most one thread is between taking the lock and giving it back. -/
  exclusive : ∀ t u, s.inside t ≠ none → s.inside u ≠ none → t = u
  /-- At most one request or reply is on its way. -/
  outstanding : s.shared.requests.length + s.shared.replies.length ≤ 1
  /-- No two answers of the manager are to one request. -/
  distinct : (s.shared.answers.map Prod.fst).Nodup
  /-- A successful `vcm_handler` has the manager's answer to the request it sent. -/
  own : ∀ t o number answers msg, s.inside t = some (o, .handled number answers msg) →
    answers = number ∧ s.shared.asked[number]? = some o ∧
      (number, o.request routerNid, msg) ∈ s.shared.answers
  /-- Unless a thread is in `recv`, nothing is left on a connection that still exists. -/
  clean : (∀ t o number, s.inside t ≠ some (o, .receiving number)) →
    s.shared.routing.clientSock ≠ -1 → s.shared.requests = [] ∧ s.shared.replies = []
  /-- The calls return in the order of their critical sections. -/
  order : Monitor.calls s.log <+: s.entered
  /-- In that order, calls made one after the other, each of which meets with what the
  system calls of this one have met with, return the same values and leave the same
  tables. -/
  sequential : ∃ a, Monitor.Serial (Atomic serve routerNid) ⟨.start sock, v, []⟩ s.log a ∧
    (s.mutex = none → s.shared.routing = a.routing)
  /-- The joins of a container return one vid. -/
  joins : ∀ t u cid r r' fate fate', (t, .vcmJoin cid, r, fate) ∈ s.log →
    (u, .vcmJoin cid, r', fate') ∈ s.log → r = r'
  /-- For a container the manager is asked once. -/
  once : ∀ cid, s.shared.asked.count (.vcmJoin cid) ≤ 1

/-- The router before the first call. -/
def Shared.start (sock : Descriptor) (v : ν) : Shared ν := ⟨.start sock, v, [], [], [], []⟩

theorem rep_start (sock : Descriptor) (v : ν) : Rep ⟨.start sock, v, []⟩ (Shared.start sock v) where
  routing := rfl
  asked := rfl
  numbered := rfl
  outstanding := Nat.zero_le _
  idle _ := ⟨rfl, rfl, rfl⟩

theorem Numbered.nodup (hs : Numbered s) : (s.answers.map Prod.fst).Nodup := by
  have h : (s.answers.map Prod.fst ++ s.requests.map Prod.fst).Nodup := by
    rw [hs]
    exact List.nodup_range
  exact h.of_append_left

/-- What an explanation says about the state it explains. -/
theorem sharedSafely_of_explained [DecidableEq τ] {sock : Descriptor} {v : ν}
    {s : Monitor τ SessionCall Progress (Shared ν) (Int32 × Option Fate)}
    (h : Monitor.Explained Rep (Within serve routerNid) (Atomic serve routerNid)
      ⟨.start sock, v, []⟩ s) : SharedSafely serve routerNid sock v s := by
  obtain ⟨a, hlog, h⟩ := h
  have hsettled := (settled_start (τ := τ) sock v).serial hlog
  obtain ⟨hmutex, hin, hent, hrep⟩ | ⟨t, o, l, hmutex, hin, hent, hwithin⟩ := h
  · exact
      { exclusive := fun t u ht ↦ (ht (hin t)).elim
        outstanding := hrep.outstanding
        distinct := hrep.numbered.nodup
        own := fun t o _ _ _ ht ↦ by simp [hin t] at ht
        clean := fun _ hc ↦ ⟨(hrep.idle (hrep.routing ▸ hc)).1, (hrep.idle (hrep.routing ▸ hc)).2.1⟩
        order := hent ▸ List.prefix_refl _
        sequential := ⟨a, hlog, fun _ ↦ hrep.routing⟩
        joins := fun t u cid r r' fate fate' ↦ hsettled.joins_eq
        once := fun cid ↦ hrep.asked.symm ▸ hsettled.once cid }
  · have ht : s.inside t = some (o, l) := by rw [hin, Function.update_self]
    refine
      { exclusive := fun u w hu hw ↦ ?_
        outstanding := hwithin.outstanding
        distinct := hwithin.numbered.nodup
        own := fun u o' number answers msg hu ↦ ?_
        clean := fun hl hc ↦ hwithin.idle (fun number hrec ↦ hl t o number (hrec ▸ ht)) hc
        order := hent ▸ List.prefix_append _ _
        sequential := ⟨a, hlog, fun hfree ↦ by simp [hfree] at hmutex⟩
        joins := fun t u cid r r' fate fate' ↦ hsettled.joins_eq
        once := hwithin.once hsettled t }
    · obtain ⟨⟨_, _⟩, hu⟩ := Option.ne_none_iff_exists'.mp hu
      obtain ⟨⟨_, _⟩, hw⟩ := Option.ne_none_iff_exists'.mp hw
      rw [(Monitor.Refines.eq_of_inside hin hu).1, (Monitor.Refines.eq_of_inside hin hw).1]
    · obtain ⟨-, rfl, rfl⟩ := Monitor.Refines.eq_of_inside hin hu
      obtain ⟨rfl, rfl, rfl, -, hanswered⟩ := hwithin
      refine ⟨rfl, ?_, hanswered.mem⟩
      rw [hanswered.asked, List.getElem?_concat_length]

end Routing

end Freelite
