import Freelite.Lib.Progress
import Freelite.Vcm.Registry

/-!
# The critical sections of the manager, step by step

`get_new_vid` and `get_nid_by_vid` hold `vcm_mutex` from entry to return.  Here they
are bodies of a monitor: the increment, the insertion and the read of the counter for
the return value are steps of their own.

The abstract side is the registry, with one atomic operation for each function.  The
counter is the length of the registry modulo `2 ^ 32` however long the manager runs;
what the table says is only claimed while the counter has not left the positive
integers.
-/

namespace Freelite

open Lib

namespace Vcm

open Registry

/-- A call of one of the two functions. -/
inductive Request
  | getNewVid (nid : Int32)
  | getNidByVid (vid : Int32)
deriving DecidableEq

/-- How far a call has got. -/
inductive Progress
  /-- The lock is taken. -/
  | entered
  /-- `get_new_vid` has incremented the counter. -/
  | incremented
  /-- `get_new_vid` has inserted the pair. -/
  | inserted
  /-- The return value is known. -/
  | returning (ret : Int32)
deriving DecidableEq

/-- The bodies of the two functions. -/
def body : Body Request Progress Unit Vcm Int32 where
  enter := .entered
  step
    | .getNewVid _, .entered, _, s => some (.incremented, { s with vid := s.vid + 1 })
    | .getNewVid nid, .incremented, _, s =>
        some (.inserted, { s with vidNidMap := s.vidNidMap.insert s.vid nid })
    | .getNewVid _, .inserted, _, s => some (.returning s.vid, s)
    | .getNidByVid vid, .entered, _, s => some (.returning (s.getNidByVid vid), s)
    | _, _, _, _ => none
  result
    | .returning ret => some ret
    | _ => none

/-- Run on its own, the body of `get_new_vid` is the function. -/
theorem body_getNewVid (nid : Int32) (s : Vcm) :
    (do
      let (l, s) ← body.step (.getNewVid nid) body.enter () s
      let (l, s) ← body.step (.getNewVid nid) l () s
      let (l, s) ← body.step (.getNewVid nid) l () s
      let ret ← body.result l
      pure (ret, s)) = some (getNewVid nid s) := rfl

/-- Run on its own, the body of `get_nid_by_vid` is the function. -/
theorem body_getNidByVid (vid : Int32) (s : Vcm) :
    (do
      let (l, s) ← body.step (.getNidByVid vid) body.enter () s
      let ret ← body.result l
      pure (ret, s)) = some (getNidByVid vid s, s) := rfl

/-! ## The registry they keep -/

/-- The table is that of the registry, if all vids of it are positive. -/
def TableOf (L : Registry) (s : Vcm) : Prop :=
  L.length < 2 ^ 31 → ∀ v, s.vidNidMap.find v = L.resolve v

/-- The manager's variables hold the registry. -/
def Rep (L : Registry) (s : Vcm) : Prop := s.vid = vidOf L.length ∧ TableOf L s

/-- The registry's answer to a request for a nid. -/
def answer (L : Registry) (vid : Int32) : Int32 := (L.resolve vid).getD (-1)

/-- A call as one operation on the registry: the return value and the registry after it. -/
def Atomic : Request → Registry → Int32 → Registry → Prop
  | .getNewVid nid, L, r, L' => L' = L ++ [nid] ∧ r = vidOf (L.length + 1)
  | .getNidByVid vid, L, r, L' => L' = L ∧ (L.length < 2 ^ 31 → r = answer L vid)

/-- The variables while a call is on its way from the registry `L`. -/
def Within : Request → Registry → Progress → Vcm → Prop
  | .getNewVid _, L, .entered, s => Rep L s
  | .getNewVid _, L, .incremented, s => s.vid = vidOf (L.length + 1) ∧ TableOf L s
  | .getNewVid nid, L, .inserted, s => Rep (L ++ [nid]) s
  | .getNewVid nid, L, .returning r, s => Rep (L ++ [nid]) s ∧ r = vidOf (L.length + 1)
  | .getNidByVid _, L, .entered, s => Rep L s
  | .getNidByVid vid, L, .returning r, s => Rep L s ∧ (L.length < 2 ^ 31 → r = answer L vid)
  | .getNidByVid _, _, _, _ => False

/-- The insertion under the new vid appends to the registry. -/
theorem TableOf.insert {L : Registry} {s : Vcm} (h : TableOf L s)
    (hvid : s.vid = vidOf (L.length + 1)) (nid : Int32) :
    TableOf (L ++ [nid]) { s with vidNidMap := s.vidNidMap.insert s.vid nid } := by
  intro hlen v
  have hL : L.length + 1 < 2 ^ 31 := by simpa using hlen
  have hfind := h (Nat.lt_of_succ_lt hL)
  have hfree : s.vidNidMap.find s.vid = none := by rw [hfind, hvid, resolve_next hL]
  change (s.vidNidMap.insert s.vid nid).find v = _
  rw [UnorderedMap.find_insert_of_none hfree, resolve_append_singleton hL, hvid, hfind]

/-- **The two functions refine the registry**, step by step. -/
theorem body_refines : Monitor.Refines body (fun e : Empty ↦ nomatch e) Rep Within Atomic where
  enter o L s h := by cases o <;> exact h
  step o L l i s l' s' h hstep := by
    cases o with
    | getNewVid nid =>
        cases l with
        | entered =>
            obtain ⟨rfl, rfl⟩ := Prod.mk_inj.mp (Option.some_inj.mp hstep)
            refine ⟨?_, h.2⟩
            change s.vid + 1 = _
            rw [h.1]
            exact (Int32.ofNat_add L.length 1).symm
        | incremented =>
            obtain ⟨rfl, rfl⟩ := Prod.mk_inj.mp (Option.some_inj.mp hstep)
            exact ⟨by rw [List.length_append]; exact h.1, TableOf.insert h.2 h.1 nid⟩
        | inserted =>
            obtain ⟨rfl, rfl⟩ := Prod.mk_inj.mp (Option.some_inj.mp hstep)
            exact ⟨h, by rw [h.1, List.length_append]; rfl⟩
        | returning r => contradiction
    | getNidByVid vid =>
        cases l with
        | entered =>
            obtain ⟨rfl, rfl⟩ := Prod.mk_inj.mp (Option.some_inj.mp hstep)
            exact ⟨h, fun hlen ↦ by rw [getNidByVid_eq, h.2 hlen]; rfl⟩
        | _ => contradiction
  leave o L l s r h hret := by
    cases l with
    | returning r' =>
        obtain rfl := Option.some_inj.mp hret
        cases o with
        | getNewVid nid => exact ⟨L ++ [nid], ⟨rfl, h.2⟩, h.1⟩
        | getNidByVid vid => exact ⟨L, ⟨rfl, h.2⟩, h.1⟩
    | _ => contradiction
  env_rep e := nomatch e
  env_within e := nomatch e

/-! ## They return -/

/-- The steps a call still has to take before its return value is known. -/
def Progress.work : Progress → ℕ
  | entered => 3
  | incremented => 2
  | inserted => 1
  | returning _ => 0

theorem work_lt {o : Request} {l l' : Progress} {s s' : Vcm}
    (h : body.step o l () s = some (l', s')) : l'.work < l.work := by
  cases o with
  | getNewVid nid =>
      cases l with
      | entered =>
          obtain ⟨rfl, rfl⟩ := Prod.mk_inj.mp (Option.some_inj.mp h)
          exact Nat.lt_succ_self 2
      | incremented =>
          obtain ⟨rfl, rfl⟩ := Prod.mk_inj.mp (Option.some_inj.mp h)
          exact Nat.lt_succ_self 1
      | inserted =>
          obtain ⟨rfl, rfl⟩ := Prod.mk_inj.mp (Option.some_inj.mp h)
          exact Nat.lt_succ_self 0
      | returning r => contradiction
  | getNidByVid vid =>
      cases l with
      | entered =>
          obtain ⟨rfl, rfl⟩ := Prod.mk_inj.mp (Option.some_inj.mp h)
          exact Nat.succ_pos 2
      | _ => contradiction

/-- Neither function waits for anything. -/
theorem body_live : Monitor.Live body (fun e : Empty ↦ nomatch e) Within fun _ ↦ True := by
  intro o L l s hs hres
  refine .inl ⟨(), trivial, ?_⟩
  cases o with
  | getNewVid nid =>
      cases l with
      | returning r => contradiction
      | _ => exact Option.some_ne_none _
  | getNidByVid vid =>
      cases l with
      | entered => exact Option.some_ne_none _
      | returning r => contradiction
      | _ => exact hs.elim

theorem rep_init : Rep [] init := ⟨rfl, fun _ ↦ represents_init.find_eq⟩

/-! ## What a sequence of calls returns -/

/-- The nids of the calls of `get_new_vid`, in order. -/
def nids {τ ρ : Type*} (log : List (τ × Request × ρ)) : Registry :=
  log.filterMap fun e ↦
    match e.2.1 with
    | .getNewVid nid => some nid
    | .getNidByVid _ => none

section Serial

variable {τ : Type*} {log : List (τ × Request × Int32)}

theorem nids_concat_new (c : τ) (nid r : Int32) :
    nids (log ++ [(c, .getNewVid nid, r)]) = nids log ++ [nid] := by
  simp [nids]

theorem nids_concat_find (c : τ) (vid r : Int32) :
    nids (log ++ [(c, .getNidByVid vid, r)]) = nids log := by
  simp [nids]

theorem nids_take (i : Nat) : nids (log.take i) <+: nids log := by
  have h := List.take_append_drop i log
  refine ⟨nids (log.drop i), ?_⟩
  rw [nids, nids, ← List.filterMap_append, h, nids]

theorem nids_take_succ {i : Nat} {c : τ} {nid r : Int32}
    (hi : log[i]? = some (c, .getNewVid nid, r)) :
    nids (log.take (i + 1)) = nids (log.take i) ++ [nid] := by
  rw [List.take_add_one, hi, Option.toList_some, nids_concat_new]

/-- The registry after a sequence of calls is the list of their nids. -/
theorem registry_eq {L : Registry} (h : Monitor.Serial Atomic [] log L) : L = nids log := by
  induction h with
  | nil => rfl
  | @snoc log b c o r t _ hop ih =>
      cases o with
      | getNewVid nid => rw [nids_concat_new, ← ih, hop.1]
      | getNidByVid vid => rw [nids_concat_find, ← ih, hop.1]

/-- Every call is answered by the registry of the calls before it. -/
theorem atomic_getElem {L : Registry} (h : Monitor.Serial Atomic [] log L) {i : Nat} {c : τ}
    {o : Request} {r : Int32} (hi : log[i]? = some (c, o, r)) :
    ∃ L', Atomic o (nids (log.take i)) r L' := by
  induction h with
  | nil => simp at hi
  | @snoc log b d o' r' t hlog hop ih =>
      rcases Nat.lt_trichotomy i log.length with hlt | rfl | hgt
      · rw [List.getElem?_append_left hlt] at hi
        rw [List.take_append_of_le_length hlt.le]
        exact ih hi
      · rw [List.getElem?_concat_length, Option.some_inj, Prod.mk_inj, Prod.mk_inj] at hi
        obtain ⟨-, rfl, rfl⟩ := hi
        rw [List.take_left, ← registry_eq hlog]
        exact ⟨d, hop⟩
      · rw [List.getElem?_eq_none (by rw [List.length_append]; exact hgt)] at hi
        contradiction

end Serial

end Vcm

end Freelite
