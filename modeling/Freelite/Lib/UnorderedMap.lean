import Mathlib

/-!
# Maps that are only ever extended

`UnorderedMap κ ν` is the part of a hash map's interface that a table filled by
`find` and `insert` uses.  Its one peculiarity is the one of the standard
container: inserting under a key that is already bound does *nothing*, so a
binding, once made, is never changed.  `find_mono` and `find_insert_iff` are the
two facts every user of such a table rests on.
-/

universe u v

namespace Freelite.Lib

/-- A table from keys to values, known through its lookup function. -/
@[ext]
structure UnorderedMap (κ : Type u) (ν : Type v) where
  /-- The value bound to a key, if there is one. -/
  find : κ → Option ν

namespace UnorderedMap

variable {κ : Type u} {ν : Type v}

/-- The table with no binding. -/
def empty : UnorderedMap κ ν := ⟨fun _ ↦ none⟩

@[simp] theorem find_empty (k : κ) : (empty : UnorderedMap κ ν).find k = none := rfl

section

variable [DecidableEq κ]

/-- Bind `k` to `v` unless `k` is bound already. -/
def insert (m : UnorderedMap κ ν) (k : κ) (v : ν) : UnorderedMap κ ν :=
  match m.find k with
  | some _ => m
  | none => ⟨Function.update m.find k (some v)⟩

/-- Inserting under a bound key leaves the table as it was. -/
theorem insert_of_find {m : UnorderedMap κ ν} {k : κ} {w : ν} (h : m.find k = some w) (v : ν) :
    m.insert k v = m := by
  simp [insert, h]

/-- After an insertion the key is bound: to its old value if it had one. -/
@[simp] theorem find_insert_self (m : UnorderedMap κ ν) (k : κ) (v : ν) :
    (m.insert k v).find k = some ((m.find k).getD v) := by
  cases h : m.find k with
  | none => simp [insert, h]
  | some w => simp [insert_of_find h, h]

/-- Other keys do not notice an insertion. -/
theorem find_insert_of_ne (m : UnorderedMap κ ν) {k k' : κ} (v : ν) (h : k' ≠ k) :
    (m.insert k v).find k' = m.find k' := by
  cases hk : m.find k with
  | none => simp [insert, hk, Function.update_of_ne h]
  | some w => rw [insert_of_find hk]

/-- Inserting under an unbound key is a pointwise update. -/
theorem find_insert_of_none {m : UnorderedMap κ ν} {k : κ} (h : m.find k = none) (v : ν) (k' : κ) :
    (m.insert k v).find k' = if k' = k then some v else m.find k' := by
  by_cases hk : k' = k
  · subst hk
    simp [h]
  · simp [find_insert_of_ne m v hk, hk]

/-- **A binding is never changed** by a later insertion. -/
theorem find_mono {m : UnorderedMap κ ν} {k : κ} {w : ν} (h : m.find k = some w) (k' : κ) (v : ν) :
    (m.insert k' v).find k = some w := by
  by_cases hk : k = k'
  · subst hk
    rw [insert_of_find h, h]
  · rw [find_insert_of_ne m v hk, h]

/-- What is not bound after an insertion was not bound before. -/
theorem find_eq_none_of_insert {m : UnorderedMap κ ν} {k k' : κ} {v : ν}
    (h : (m.insert k' v).find k = none) : m.find k = none := by
  by_contra hne
  obtain ⟨w, hw⟩ := Option.ne_none_iff_exists'.mp hne
  rw [find_mono hw] at h
  contradiction

/-- The bindings after an insertion are the old ones and, if the key was free,
the new one. -/
theorem find_insert_iff {m : UnorderedMap κ ν} {k k' : κ} {v w : ν} :
    (m.insert k v).find k' = some w ↔
      m.find k' = some w ∨ (k' = k ∧ m.find k = none ∧ w = v) := by
  cases hk : m.find k with
  | none =>
      rw [find_insert_of_none hk]
      by_cases h : k' = k
      · subst h
        simp [hk, eq_comm]
      · simp [h]
  | some x => simp [insert_of_find hk]

end

end UnorderedMap

end Freelite.Lib
