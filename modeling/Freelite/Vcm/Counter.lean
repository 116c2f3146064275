import Freelite.Lib.Machine
import Freelite.Vcm.Server

/-!
# How long the vids last

`vcm/vcm.cpp`, lines 23–51.  `get_new_vid` increments a 32-bit counter and inserts
under the new value, and no vid is ever given back.  Here the two functions are called
one after the other, any number of times.

What the manager needs of a new vid is `Fresh`: it is not the error value of
`get_nid_by_vid`, nobody has it already, and it resolves to the nid it was made for.
All vids of a run are fresh if and only if fewer than 2^31 were asked for
(`all_fresh_iff`).  The next one is negative, and once the counter has gone round, the
insertion finds its key taken and does nothing.
-/

namespace Freelite

open Lib

namespace Registry

/-- Of the number of a vid only the residue is left. -/
theorem vidOf_mod (n : ℕ) : vidOf (n % 2 ^ 32) = vidOf n := by
  rw [← Int32.toInt_inj, vidOf, vidOf, Int32.toInt_ofNat', Int32.toInt_ofNat', Int.natCast_mod]
  exact Int.emod_bmod n _

/-- The positive values of the counter. -/
theorem vidOf_pos_iff (n : ℕ) : 0 < vidOf n ↔ 0 < n % 2 ^ 32 ∧ n % 2 ^ 32 < 2 ^ 31 := by
  rw [Int32.lt_iff_toInt_lt, Int32.toInt_zero, vidOf, Int32.toInt_ofNat', Int.bmod_def, Int32.size]
  split_ifs with h
  · omega
  · omega

/-- A positive value of the counter that is not its number was its value before. -/
theorem vidOf_eq_of_le {n : ℕ} (hn : 2 ^ 31 ≤ n) (hpos : 0 < vidOf n) :
    ∃ k, 1 ≤ k ∧ k < n ∧ vidOf n = vidOf k := by
  rw [vidOf_pos_iff] at hpos
  obtain ⟨hpos, hlt⟩ := hpos
  exact ⟨n % 2 ^ 32, hpos, hlt.trans_le hn, (vidOf_mod n).symm⟩

end Registry

namespace Vcm

open Registry

namespace Request

/-- The state after a call. -/
def after (s : Vcm) : Request → Vcm
  | getNidByVid _ => s
  | getNewVid nid => (Vcm.getNewVid nid s).2

/-- Does the call take a vid? -/
def takesVid : Request → Bool
  | getNidByVid _ => false
  | getNewVid _ => true

/-- The `switch` leaves behind the state after the call. -/
theorem handle_msg (o : Request) (s : Vcm) : (handle o.msg s).map Prod.snd = some (o.after s) := by
  cases o with
  | getNidByVid vid => rw [msg, handle_vidNid, Option.map_some, after]
  | getNewVid nid => rw [msg, handle_nidVid, Option.map_some, after]

end Request

/-- A call as a step. -/
def call (s : Vcm) (o : Request) : Option Vcm := some (o.after s)

/-- What is expected of `get_new_vid nid`: the vid is positive, no key of the table, and
resolves to `nid` right after the call. -/
structure Fresh (s : Vcm) (nid : Int32) : Prop where
  pos : 0 < (getNewVid nid s).1
  not_key : s.vidNidMap.find (getNewVid nid s).1 = none
  resolves : getNidByVid (getNewVid nid s).1 (getNewVid nid s).2 = nid

/-- The expectation, where the call is one of `get_new_vid`. -/
def FreshIfNew (s : Vcm) : Request → Prop
  | .getNidByVid _ => True
  | .getNewVid nid => Fresh s nid

/-- The number of vids a list of calls takes. -/
def newVids (calls : List Request) : ℕ := calls.countP Request.takesVid

theorem newVids_getNidByVid (vid : Int32) (calls : List Request) :
    newVids (.getNidByVid vid :: calls) = newVids calls := rfl

theorem newVids_getNewVid (nid : Int32) (calls : List Request) :
    newVids (.getNewVid nid :: calls) = newVids calls + 1 :=
  List.countP_cons_of_pos rfl

/-! ## What the variables are after `n` vids -/

/-- `n` vids have been taken: the counter has gone `n` steps, and its values on the way
are the keys. -/
structure Taken (s : Vcm) (n : ℕ) : Prop where
  vid_eq : s.vid = vidOf n
  isSome_find : ∀ v, (s.vidNidMap.find v).isSome ↔ ∃ k, 1 ≤ k ∧ k ≤ n ∧ v = vidOf k

theorem taken_init : Taken init 0 where
  vid_eq := rfl
  isSome_find v := by
    constructor
    · intro h
      contradiction
    · rintro ⟨k, hk, hk', -⟩
      omega

namespace Taken

variable {s : Vcm} {n : ℕ}

theorem nextVid_eq (h : Taken s n) : s.nextVid = vidOf (n + 1) := by
  rw [nextVid, h.vid_eq]
  exact (Int32.ofNat_add n 1).symm

theorem getNewVid (h : Taken s n) (nid : Int32) : Taken (getNewVid nid s).2 (n + 1) where
  vid_eq := h.nextVid_eq
  isSome_find v := by
    change ((s.vidNidMap.insert s.nextVid nid).find v).isSome ↔ _
    by_cases hv : v = s.nextVid
    · subst hv
      rw [UnorderedMap.find_insert_self]
      constructor
      · intro _
        exact ⟨n + 1, n.succ_pos, le_rfl, h.nextVid_eq⟩
      · intro _
        rfl
    · rw [UnorderedMap.find_insert_of_ne _ _ hv, h.isSome_find]
      constructor
      · rintro ⟨k, hk, hkn, rfl⟩
        exact ⟨k, hk, hkn.trans n.le_succ, rfl⟩
      · rintro ⟨k, hk, hkn, rfl⟩
        refine ⟨k, hk, Nat.le_of_lt_succ (lt_of_le_of_ne hkn ?_), rfl⟩
        rintro rfl
        exact hv h.nextVid_eq.symm

/-- **A new vid is fresh** exactly while the counter has not used up the positive
integers. -/
theorem fresh_iff (h : Taken s n) (nid : Int32) : Fresh s nid ↔ n + 1 < 2 ^ 31 := by
  constructor
  · intro hf
    by_contra hn
    have hpos : 0 < vidOf (n + 1) := by
      rw [← h.nextVid_eq]
      exact hf.pos
    obtain ⟨k, hk, hkn, he⟩ := vidOf_eq_of_le (not_lt.mp hn) hpos
    have hkey : (s.vidNidMap.find s.nextVid).isSome := by
      rw [h.isSome_find, h.nextVid_eq]
      exact ⟨k, hk, Nat.le_of_lt_succ hkn, he⟩
    have hfree : s.vidNidMap.find s.nextVid = none := hf.not_key
    rw [hfree] at hkey
    contradiction
  · intro hn
    have hfree : s.vidNidMap.find s.nextVid = none := by
      rw [← Option.not_isSome_iff_eq_none, h.isSome_find, h.nextVid_eq]
      rintro ⟨k, hk, hkn, he⟩
      rw [vidOf_inj hn (by omega)] at he
      omega
    refine ⟨?_, hfree, ?_⟩
    · change 0 < s.nextVid
      rw [h.nextVid_eq, vidOf_pos_iff]
      omega
    · change Vcm.getNidByVid s.nextVid ⟨s.nextVid, s.vidNidMap.insert s.nextVid nid⟩ = nid
      rw [getNidByVid_eq, UnorderedMap.find_insert_self, hfree]
      rfl

/-- From there on, all vids of a run are fresh exactly while the counter does not reach
the end. -/
theorem meets_fresh_iff (h : Taken s n) (hn : n < 2 ^ 31) (calls : List Request) :
    Machine.Meets call FreshIfNew s calls ↔ n + newVids calls < 2 ^ 31 := by
  induction calls generalizing s n with
  | nil => exact ⟨fun _ ↦ hn, fun _ ↦ trivial⟩
  | cons o calls ih =>
      cases o with
      | getNidByVid vid =>
          rw [newVids_getNidByVid, ← ih h hn]
          constructor
          · intro hm
            exact hm.2
          · intro hm
            exact ⟨fun _ ↦ trivial, hm⟩
      | getNewVid nid =>
          rw [newVids_getNewVid]
          constructor
          · rintro ⟨hf, hm⟩
            have hn' := (h.fresh_iff nid).mp (hf rfl)
            have hrest := (ih (h.getNewVid nid) hn').mp hm
            omega
          · intro hlt
            have hn' : n + 1 < 2 ^ 31 := by omega
            refine ⟨fun _ ↦ (h.fresh_iff nid).mpr hn', ?_⟩
            apply (ih (h.getNewVid nid) hn').mpr
            omega

/-- What is taken after a run. -/
theorem run (h : Taken s n) (calls : List Request) :
    Taken (Machine.run call s calls) (n + newVids calls) := by
  induction calls generalizing s n with
  | nil => exact h
  | cons o calls ih =>
      rw [Machine.run_cons]
      cases o with
      | getNidByVid vid => exact ih h
      | getNewVid nid =>
          rw [newVids_getNewVid, ← Nat.add_assoc, Nat.add_right_comm]
          exact ih (h.getNewVid nid)

end Taken

/-- **All vids of a run are fresh** if and only if fewer than 2^31 are asked for. -/
theorem all_fresh_iff (calls : List Request) :
    Machine.Meets call FreshIfNew init calls ↔ newVids calls < 2 ^ 31 := by
  have h := taken_init.meets_fresh_iff (Nat.two_pow_pos 31) calls
  rwa [Nat.zero_add] at h

/-- The request number 2^31 is answered with the smallest integer there is. -/
theorem not_all_fresh_replicate :
    (Machine.run call init (List.replicate (2 ^ 31 - 1) (.getNewVid 0))).nextVid = Int32.minValue ∧
      ¬ Machine.Meets call FreshIfNew init (List.replicate (2 ^ 31) (.getNewVid 0)) := by
  have hnew (n : ℕ) : newVids (List.replicate n (.getNewVid 0)) = n := by
    rw [newVids, List.countP_replicate]
    rfl
  constructor
  · have h := taken_init.run (List.replicate (2 ^ 31 - 1) (.getNewVid 0))
    rw [hnew] at h
    rw [h.nextVid_eq]
    decide
  · intro hm
    have h := (taken_init.meets_fresh_iff (Nat.two_pow_pos 31) _).mp hm
    rw [hnew, Nat.zero_add] at h
    exact lt_irrefl _ h

end Vcm

end Freelite
