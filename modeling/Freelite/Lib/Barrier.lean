import Freelite.Lib.Machine

/-!
# A barrier that all threads share

The barrier of POSIX threads, for as many threads as it waits for.  A thread enters the
barrier and leaves it again when all threads have entered; one of them, whichever it is,
is told that it is the one of this round.  A thread that has left may enter the next
round while others are still leaving.

The state counts how often each thread has entered and left.  The waits of a thread are
numbered from zero, so that everybody's `k`-th wait is the `k`-th round.
`Barrier.Steady` is the invariant; what one uses a barrier for is
`Steady.lt_entered_of_lt_left`: nobody is past a wait that somebody has not come to.
-/

namespace Freelite.Lib

/-- How often each thread has entered and left, and who was told in each round. -/
structure Barrier (τ : Type*) where
  entered : τ → Nat
  left : τ → Nat
  /-- The thread that is told, for every round that is complete. -/
  leaders : List τ

namespace Barrier

variable {τ : Type*} [DecidableEq τ]

/-- Nobody has come yet. -/
def init : Barrier τ := ⟨fun _ ↦ 0, fun _ ↦ 0, []⟩

/-- A thread that is outside enters. -/
def enter (b : Barrier τ) (t : τ) : Option (Barrier τ) :=
  if b.entered t = b.left t then
    some { b with entered := Function.update b.entered t (b.entered t + 1) }
  else none

/-- When everybody has entered the round is complete, and one thread is chosen. -/
def complete [Fintype τ] (b : Barrier τ) (l : τ) : Option (Barrier τ) :=
  if ∀ u, b.leaders.length < b.entered u then some { b with leaders := b.leaders ++ [l] }
  else none

/-- A thread that is inside leaves when the round is complete. -/
def leave (b : Barrier τ) (t : τ) : Option (Barrier τ) :=
  if b.left t < b.entered t ∧ b.left t < b.leaders.length then
    some { b with left := Function.update b.left t (b.left t + 1) }
  else none

/-! ## What the operations do -/

section Inversion

variable {b b' : Barrier τ} {t : τ}

theorem enter_eq (h : b.enter t = some b') :
    b.entered t = b.left t ∧
      b' = { b with entered := Function.update b.entered t (b.entered t + 1) } := by
  rw [enter] at h
  split_ifs at h with hout
  exact ⟨hout, (Option.some_inj.mp h).symm⟩

omit [DecidableEq τ] in
theorem complete_eq [Fintype τ] {l : τ} (h : b.complete l = some b') :
    (∀ u, b.leaders.length < b.entered u) ∧ b' = { b with leaders := b.leaders ++ [l] } := by
  rw [complete] at h
  split_ifs at h with hall
  exact ⟨hall, (Option.some_inj.mp h).symm⟩

theorem leave_eq (h : b.leave t = some b') :
    b.left t < b.entered t ∧ b.left t < b.leaders.length ∧
      b' = { b with left := Function.update b.left t (b.left t + 1) } := by
  rw [leave] at h
  split_ifs at h with hin
  exact ⟨hin.1, hin.2, (Option.some_inj.mp h).symm⟩

end Inversion

/-! ## The invariant -/

omit [DecidableEq τ] in
/-- Every thread is in the round that is under way, or has left the one before it or is
about to. -/
structure Steady (b : Barrier τ) : Prop where
  left_le_entered : ∀ t, b.left t ≤ b.entered t
  entered_le : ∀ t, b.entered t ≤ b.left t + 1
  left_le : ∀ t, b.left t ≤ b.leaders.length
  le_entered : ∀ t, b.leaders.length ≤ b.entered t

namespace Steady

variable {b b' : Barrier τ} {t u : τ} {k : Nat}

omit [DecidableEq τ] in
theorem init : Steady (init : Barrier τ) := by
  constructor <;> intro t <;> exact Nat.zero_le _

theorem enter (hb : Steady b) (h : b.enter t = some b') : Steady b' := by
  obtain ⟨hout, rfl⟩ := enter_eq h
  constructor
  · intro u
    rcases eq_or_ne u t with rfl | hu
    · exact (hb.left_le_entered u).trans (by simp)
    · simpa [Function.update_of_ne hu] using hb.left_le_entered u
  · intro u
    rcases eq_or_ne u t with rfl | hu
    · simp [hout]
    · simpa [Function.update_of_ne hu] using hb.entered_le u
  · exact hb.left_le
  · intro u
    rcases eq_or_ne u t with rfl | hu
    · exact (hb.le_entered u).trans (by simp)
    · simpa [Function.update_of_ne hu] using hb.le_entered u

omit [DecidableEq τ] in
theorem complete [Fintype τ] (hb : Steady b) {l : τ} (h : b.complete l = some b') :
    Steady b' := by
  obtain ⟨hall, rfl⟩ := complete_eq h
  refine { hb with left_le := fun u ↦ ?_, le_entered := fun u ↦ ?_ }
  · exact (hb.left_le u).trans (by simp)
  · simpa using hall u

theorem leave (hb : Steady b) (h : b.leave t = some b') : Steady b' := by
  obtain ⟨hin, hdone, rfl⟩ := leave_eq h
  constructor
  · intro u
    rcases eq_or_ne u t with rfl | hu
    · simpa using hin
    · simpa [Function.update_of_ne hu] using hb.left_le_entered u
  · intro u
    rcases eq_or_ne u t with rfl | hu
    · exact (hb.entered_le u).trans (by simp)
    · simpa [Function.update_of_ne hu] using hb.entered_le u
  · intro u
    rcases eq_or_ne u t with rfl | hu
    · simpa using hdone
    · simpa [Function.update_of_ne hu] using hb.left_le u
  · exact hb.le_entered

omit [DecidableEq τ] in
/-- **Nobody is past a wait that somebody has not come to.** -/
theorem lt_entered_of_lt_left (hb : Steady b) (h : k < b.left t) (u : τ) : k < b.entered u :=
  (h.trans_le (hb.left_le t)).trans_le (hb.le_entered u)

omit [DecidableEq τ] in
/-- When nobody inside can leave, everybody inside is in the round under way. -/
theorem left_eq_of_stuck (hb : Steady b) (hstuck : ¬ b.left t < b.leaders.length) :
    b.left t = b.leaders.length := le_antisymm (hb.left_le t) (Nat.le_of_not_lt hstuck)

end Steady

end Barrier

end Freelite.Lib
