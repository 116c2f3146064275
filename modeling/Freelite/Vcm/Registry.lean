import Freelite.Vcm.Basic

/-!
# What the virtual cluster manager is for

A *registry* is the list of the nids that asked for a vid, in the order they
asked.  The vid of the `k`-th of them is `k`, and a vid resolves to the entry at
its place.  Registries only grow at the end, so a vid never changes its meaning.

`Represents s L` says that the counter and the table of `s` are such a registry
`L`.  It is kept by both operations as long as the counter has not reached the
end of the positive integers.
-/

namespace Freelite

open Lib

/-- The nids that asked for a vid, oldest first. -/
abbrev Registry := List Int32

namespace Registry

/-- The nid behind a vid: the entry at its place, counted from one. -/
def resolve (L : Registry) (v : Int32) : Option Int32 :=
  if 1 ≤ v.toInt then L[v.toInt.toNat - 1]? else none

/-- The vid of the `k`-th entry. -/
def vidOf (k : Nat) : Int32 := Int32.ofNat k

theorem toInt_vidOf {k : Nat} (h : k < 2 ^ 31) : (vidOf k).toInt = k :=
  Int32.toInt_ofNat_of_lt h

/-- Different places have different vids. -/
theorem vidOf_inj {j k : Nat} (hj : j < 2 ^ 31) (hk : k < 2 ^ 31) : vidOf j = vidOf k ↔ j = k := by
  rw [← Int32.toInt_inj, toInt_vidOf hj, toInt_vidOf hk]
  omega

/-- A vid is never the error value. -/
theorem vidOf_ne_neg_one {k : Nat} (h : k < 2 ^ 31) : vidOf k ≠ -1 := by
  intro he
  have hi := congrArg Int32.toInt he
  rw [toInt_vidOf h] at hi
  have : (-1 : Int32).toInt = -1 := by decide
  omega

/-- The entry at a place, resolved through its vid. -/
theorem resolve_vidOf {L : Registry} {k : Nat} (h : k + 1 < 2 ^ 31) :
    L.resolve (vidOf (k + 1)) = L[k]? := by
  rw [resolve, toInt_vidOf h, if_pos (by omega)]
  congr 1

/-- Only the vids of the entries resolve. -/
theorem resolve_eq_some_iff {L : Registry} (hL : L.length < 2 ^ 31) {v n : Int32} :
    L.resolve v = some n ↔ ∃ k, v = vidOf (k + 1) ∧ L[k]? = some n := by
  constructor
  · intro h
    rw [resolve] at h
    split at h
    · rename_i hv
      have hk : v.toInt.toNat - 1 < L.length := (List.getElem?_eq_some_iff.mp h).1
      refine ⟨v.toInt.toNat - 1, ?_, h⟩
      rw [← Int32.toInt_inj, toInt_vidOf (by omega)]
      omega
    · contradiction
  · rintro ⟨k, rfl, h⟩
    have hk : k < L.length := (List.getElem?_eq_some_iff.mp h).1
    rw [resolve_vidOf (by omega), h]

/-- Resolution in a registry after a new entry. -/
theorem resolve_append_singleton {L : Registry} (hL : L.length + 1 < 2 ^ 31) (n v : Int32) :
    Registry.resolve (L ++ [n]) v = if v = vidOf (L.length + 1) then some n else L.resolve v := by
  by_cases hv : v = vidOf (L.length + 1)
  · subst hv
    rw [if_pos rfl, resolve_vidOf hL]
    simp
  · rw [if_neg hv]
    simp only [resolve]
    split
    · rename_i h1
      have hne : v.toInt.toNat - 1 ≠ L.length := by
        intro h
        apply hv
        rw [← Int32.toInt_inj, toInt_vidOf hL]
        omega
      rw [List.getElem?_append]
      split
      · rfl
      · rw [List.getElem?_eq_none (by rw [List.length_singleton]; omega),
          List.getElem?_eq_none (by omega)]
    · rfl

/-- The next vid does not resolve yet. -/
theorem resolve_next {L : Registry} (hL : L.length + 1 < 2 ^ 31) :
    L.resolve (vidOf (L.length + 1)) = none := by
  rw [resolve_vidOf hL, List.getElem?_eq_none (le_refl _)]

/-- **Resolution is for ever**: in a longer registry a resolved vid resolves to
the same nid. -/
theorem resolve_of_prefix {L L' : Registry} (h : L <+: L') {v n : Int32}
    (hv : L.resolve v = some n) : L'.resolve v = some n := by
  obtain ⟨M, rfl⟩ := h
  simp only [resolve] at hv ⊢
  split at hv
  · rename_i h1
    rw [if_pos h1, List.getElem?_append_left (List.getElem?_eq_some_iff.mp hv).1, hv]
  · contradiction

end Registry

namespace Vcm

open Registry

/-- The manager's variables hold the registry `L`. -/
structure Represents (s : Vcm) (L : Registry) : Prop where
  vid_eq : s.vid = vidOf L.length
  find_eq : ∀ v, s.vidNidMap.find v = L.resolve v

theorem represents_init : Represents init [] where
  vid_eq := rfl
  find_eq v := by simp [init, resolve]

namespace Represents

variable {s : Vcm} {L : Registry}

theorem nextVid_eq (h : Represents s L) : s.nextVid = vidOf (L.length + 1) := by
  rw [nextVid, h.vid_eq]
  exact (Int32.ofNat_add L.length 1).symm

/-- `get_nid_by_vid` resolves in the registry. -/
theorem getNidByVid_eq (h : Represents s L) (v : Int32) :
    getNidByVid v s = (L.resolve v).getD (-1) := by
  rw [Vcm.getNidByVid_eq, h.find_eq]

/-- `get_new_vid` appends to the registry. -/
theorem getNewVid (h : Represents s L) (hL : L.length + 1 < 2 ^ 31) (nid : Int32) :
    Represents (getNewVid nid s).2 (L ++ [nid]) where
  vid_eq := by
    rw [List.length_append]
    exact h.nextVid_eq
  find_eq v := by
    have hfree : s.vidNidMap.find s.nextVid = none := by
      rw [h.nextVid_eq, h.find_eq, resolve_next hL]
    rw [resolve_append_singleton hL, ← h.nextVid_eq, ← h.find_eq]
    exact UnorderedMap.find_insert_of_none hfree nid v

end Represents

end Vcm

end Freelite
