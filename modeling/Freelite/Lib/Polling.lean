import Mathlib

/-!
# Waiting for a cell that somebody else writes

A program that polls looks at a memory cell again and again while another party stores
into it whenever it likes.  Time is counted in the program's looks: `w t` is what the
other party stores between the looks `t - 1` and `t`, if anything, and `cell` is what
the look at `t` finds.

`poll` is a loop that goes on until a look succeeds.  Nothing makes it end but the other
party, so it has fuel, and whether it ends is whether some fuel is enough
(`exists_poll`, `poll_eq_none`).  `spin` is the same loop with a bound on its looks.
-/

namespace Freelite.Lib

variable {α : Type*}

/-! ## Cells -/

/-- What the look at `t` finds in a cell that held `a` when the other party started. -/
def cell (a : α) (w : ℕ → Option α) : ℕ → α
  | 0 => (w 0).getD a
  | t + 1 => (w (t + 1)).getD (cell a w t)

section

variable {a c : α} {w : ℕ → Option α} {s t : ℕ}

/-- Stores that repeat what is there change nothing. -/
theorem cell_eq_of_le (hs : cell a w s = c) (hst : s ≤ t)
    (hw : ∀ u, s < u → u ≤ t → ∀ x, w u = some x → x = c) : cell a w t = c := by
  induction t with
  | zero =>
      obtain rfl := Nat.le_zero.mp hst
      exact hs
  | succ t ih =>
      rcases Nat.le_succ_iff.mp hst with hle | rfl
      · have hprev := ih hle fun u hu hut ↦ hw u hu (Nat.le_succ_of_le hut)
        rw [cell]
        cases hx : w (t + 1) with
        | none => exact hprev
        | some x => exact hw (t + 1) (Nat.lt_succ_of_le hle) le_rfl x hx
      · exact hs

theorem cell_of_some {x : α} (h : w t = some x) : cell a w t = x := by
  cases t <;> rw [cell, h, Option.getD_some]

/-- A cell nobody writes. -/
theorem cell_of_quiet (h : ∀ u, w u = none) : cell a w t = a := by
  refine cell_eq_of_le (s := 0) ?_ (Nat.zero_le t) fun u _ _ x hx ↦ ?_
  · rw [cell, h, Option.getD_none]
  · rw [h] at hx
    contradiction

end

/-! ## Loops -/

/-- `while (!p) ;` from the look at `t` on: when the look that ended it is over. -/
def poll (p : ℕ → Bool) : ℕ → ℕ → Option ℕ
  | 0, _ => none
  | fuel + 1, t => if p t then some (t + 1) else poll p fuel (t + 1)

/-- The same with at most so many looks. -/
def spin (p : ℕ → Bool) : ℕ → ℕ → ℕ
  | 0, t => t
  | looks + 1, t => if p t then t + 1 else spin p looks (t + 1)

section

variable {p : ℕ → Bool} {t n : ℕ}

/-- A loop whose look never succeeds does not end. -/
theorem poll_eq_none (h : ∀ u, t ≤ u → p u = false) (fuel : ℕ) : poll p fuel t = none := by
  induction fuel generalizing t with
  | zero => rfl
  | succ fuel ih =>
      rw [poll, h t le_rfl]
      exact ih fun u hu ↦ h u (Nat.le_of_succ_le hu)

/-- Enough fuel ends it at the first look that succeeds. -/
theorem exists_poll (htn : t ≤ n) (hn : p n = true) (hfirst : ∀ u, t ≤ u → u < n → p u = false) :
    ∃ fuel, poll p fuel t = some (n + 1) := by
  induction htn using Nat.decreasingInduction with
  | self => exact ⟨1, by rw [poll, hn]; rfl⟩
  | of_succ t ht ih =>
      obtain ⟨fuel, hfuel⟩ := ih fun u hu ↦ hfirst u (Nat.le_of_succ_le hu)
      refine ⟨fuel + 1, ?_⟩
      rw [poll, hfirst t le_rfl ht]
      exact hfuel

/-- More fuel makes no difference. -/
theorem poll_unique {fuel fuel' u u' : ℕ} (h : poll p fuel t = some u)
    (h' : poll p fuel' t = some u') : u = u' := by
  induction fuel generalizing fuel' t with
  | zero => contradiction
  | succ fuel ih =>
      cases fuel' with
      | zero => contradiction
      | succ fuel' =>
          rw [poll] at h h'
          cases hp : p t with
          | true =>
              rw [hp] at h h'
              exact Option.some_inj.mp (h.symm.trans h')
          | false =>
              rw [hp] at h h'
              exact ih h h'

/-- A bounded loop that ends early. -/
theorem spin_of_lt {looks : ℕ} (htn : t ≤ n) (hlt : n < t + looks) (hn : p n = true)
    (hfirst : ∀ u, t ≤ u → u < n → p u = false) : spin p looks t = n + 1 := by
  induction looks generalizing t with
  | zero => omega
  | succ looks ih =>
      rcases htn.eq_or_lt with rfl | ht
      · rw [spin, hn]
        rfl
      · rw [spin, hfirst t le_rfl ht]
        exact ih ht (by omega) fun u hu ↦ hfirst u (Nat.le_of_succ_le hu)

/-- A bounded loop that runs to its bound. -/
theorem spin_of_forall {looks : ℕ} (h : ∀ u, t ≤ u → u < t + looks → p u = false) :
    spin p looks t = t + looks := by
  induction looks generalizing t with
  | zero => rfl
  | succ looks ih =>
      rw [spin, h t le_rfl (by omega)]
      refine (ih fun u hu hlt ↦ h u (by omega) (by omega)).trans ?_
      omega

end

end Freelite.Lib
