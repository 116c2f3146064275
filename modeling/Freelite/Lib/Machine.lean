import Mathlib

/-!
# Runs of a machine

A machine is a partial step function: an action is possible in a state or it is not.
A run is given by any list of actions, of which those that are not possible when
their turn comes are skipped, so every list is the schedule of some run and a
statement about all lists is a statement about all reachable states.

`run_induction` is the invariant rule.  `Meets` says that every step of a run, taken
from the state it is taken in, satisfies a condition, and `run_induction_of_meets` is
the rule for invariants that only such steps keep; `meets_iff_forall_prefix` and
`meets_iff_forall_prefix_of_meets` are for conditions that are exact.  `taken_add_le` and
`taken_add_le_of_gain` bound how many steps a run can have.
-/

namespace Freelite.Lib.Machine

variable {σ ι : Type*} (next : σ → ι → Option σ)

/-- The state after a list of actions. -/
def run (s : σ) (acts : List ι) : σ := acts.foldl (fun s i ↦ (next s i).getD s) s

/-- How many of the actions are possible when their turn comes. -/
def taken : σ → List ι → ℕ
  | _, [] => 0
  | s, i :: acts => (if (next s i).isSome then 1 else 0) + taken ((next s i).getD s) acts

/-- Every step of the run satisfies `G` in the state it is taken in. -/
def Meets (G : σ → ι → Prop) : σ → List ι → Prop
  | _, [] => True
  | s, i :: acts => ((next s i).isSome → G s i) ∧ Meets G ((next s i).getD s) acts

variable {next}

@[simp] theorem run_nil (s : σ) : run next s [] = s := rfl

theorem run_cons (s : σ) (i : ι) (acts : List ι) :
    run next s (i :: acts) = run next ((next s i).getD s) acts := rfl

/-- An invariant of the steps that satisfy `G` holds at the end of a run of such steps. -/
theorem run_induction_of_meets {P : σ → Prop} {G : σ → ι → Prop} {s : σ} {acts : List ι}
    (hinit : P s) (hmeets : Meets next G s acts)
    (hstep : ∀ s i s', P s → G s i → next s i = some s' → P s') : P (run next s acts) := by
  induction acts generalizing s with
  | nil => exact hinit
  | cons i acts ih =>
      obtain ⟨hG, hrest⟩ := hmeets
      rw [run_cons]
      refine ih ?_ hrest
      cases hi : next s i with
      | none => rwa [Option.getD_none]
      | some s' =>
          rw [Option.getD_some]
          exact hstep s i s' hinit (hG (by rw [hi, Option.isSome_some])) hi

/-- Under an invariant that such steps keep, one condition can be replaced by another. -/
theorem meets_of_meets {P : σ → Prop} {G H : σ → ι → Prop} {s : σ} {acts : List ι}
    (hinit : P s) (hmeets : Meets next G s acts)
    (hstep : ∀ s i s', P s → G s i → next s i = some s' → H s i ∧ P s') :
    Meets next H s acts := by
  induction acts generalizing s with
  | nil => trivial
  | cons i acts ih =>
      obtain ⟨hG, hrest⟩ := hmeets
      cases hi : next s i with
      | none =>
          rw [hi] at hrest
          refine ⟨fun h ↦ by rw [hi] at h; contradiction, ?_⟩
          rw [hi]
          exact ih hinit hrest
      | some s' =>
          obtain ⟨hH, hP⟩ := hstep s i s' hinit (hG (by rw [hi, Option.isSome_some])) hi
          rw [hi] at hrest
          refine ⟨fun _ ↦ hH, ?_⟩
          rw [hi]
          exact ih hP hrest

theorem meets_true (s : σ) (acts : List ι) : Meets next (fun _ _ ↦ True) s acts := by
  induction acts generalizing s with
  | nil => trivial
  | cons i acts ih => exact ⟨fun _ ↦ trivial, ih _⟩

/-- An invariant of every step holds at the end of every run. -/
theorem run_induction {P : σ → Prop} {s : σ} (acts : List ι) (hinit : P s)
    (hstep : ∀ s i s', P s → next s i = some s' → P s') : P (run next s acts) :=
  run_induction_of_meets hinit (meets_true s acts) fun s i s' hs _ ↦ hstep s i s' hs

/-- When a condition on the step is what it takes to keep `P`, given an invariant `I` of
the steps that satisfy it, a run meets it if and only if `P` holds all along. -/
theorem meets_iff_forall_prefix_of_meets {I P : σ → Prop} {G : σ → ι → Prop} {s : σ}
    {acts : List ι} (hI : I s) (hIP : ∀ s, I s → P s)
    (hstep : ∀ s i s', I s → next s i = some s' → (G s i → I s') ∧ (P s' → G s i)) :
    Meets next G s acts ↔ ∀ acts', acts' <+: acts → P (run next s acts') := by
  induction acts generalizing s with
  | nil =>
      refine ⟨fun _ acts' h ↦ ?_, fun _ ↦ trivial⟩
      rw [List.prefix_nil.mp h]
      exact hIP s hI
  | cons i acts ih =>
      have hall : (∀ acts', acts' <+: i :: acts → P (run next s acts')) ↔
          ∀ acts', acts' <+: acts → P (run next ((next s i).getD s) acts') := by
        refine ⟨fun h acts' h' ↦ h (i :: acts') (List.cons_prefix_cons.mpr ⟨rfl, h'⟩), ?_⟩
        intro h acts' h'
        obtain rfl | ⟨acts'', rfl, h''⟩ := List.prefix_cons_iff.mp h'
        · exact hIP s hI
        · exact h acts'' h''
      rw [hall, Meets]
      cases hi : next s i with
      | none =>
          rw [Option.getD_none, ih hI]
          simp
      | some s' =>
          obtain ⟨hkeep, hneed⟩ := hstep s i s' hI hi
          rw [Option.getD_some]
          constructor
          · intro ⟨hg, hrest⟩
            exact (ih (hkeep (hg rfl))).mp hrest
          · intro h
            have hg : G s i := hneed (h [] List.nil_prefix)
            exact ⟨fun _ ↦ hg, (ih (hkeep hg)).mpr h⟩

/-- The same for an invariant of every step. -/
theorem meets_iff_forall_prefix {I P : σ → Prop} {G : σ → ι → Prop} {s : σ} {acts : List ι}
    (hI : I s) (hP : P s) (hinv : ∀ s i s', I s → next s i = some s' → I s')
    (hstep : ∀ s i s', I s → P s → next s i = some s' → (G s i ↔ P s')) :
    Meets next G s acts ↔ ∀ acts', acts' <+: acts → P (run next s acts') := by
  refine meets_iff_forall_prefix_of_meets (I := fun s ↦ I s ∧ P s) ⟨hI, hP⟩
    (fun s h ↦ h.2) fun s i s' h hi ↦ ?_
  have hG := hstep s i s' h.1 h.2 hi
  exact ⟨fun hg ↦ ⟨hinv s i s' h.1 hi, hG.mp hg⟩, hG.mpr⟩

/-- When one of many parties moves, a sum over them changes by what that one changes by. -/
theorem sum_add_eq_of_eq_off {τ : Type*} [DecidableEq τ] {f g : τ → ℕ} {t : τ} {T : Finset τ}
    (ht : t ∈ T) (h : ∀ u, u ≠ t → g u = f u) : ∑ u ∈ T, g u + f t = ∑ u ∈ T, f u + g t := by
  have hrest : ∑ u ∈ T.erase t, g u = ∑ u ∈ T.erase t, f u :=
    Finset.sum_congr rfl fun u hu ↦ h u (Finset.ne_of_mem_erase hu)
  rw [← Finset.add_sum_erase _ _ ht, hrest, ← Finset.add_sum_erase T f ht]
  omega

theorem sum_update_add {τ α : Type*} [Fintype τ] [DecidableEq τ] (g : α → ℕ) (f : τ → α) (t : τ)
    (a : α) : ∑ u, g (Function.update f t a u) + g (f t) = ∑ u, g (f u) + g a := by
  have h := sum_add_eq_of_eq_off (f := fun u ↦ g (f u)) (g := fun u ↦ g (Function.update f t a u))
    (Finset.mem_univ t) fun u hu ↦ congrArg g (Function.update_of_ne hu a f)
  rwa [Function.update_self] at h

/-- Where every step lowers a measure unless it gains something for that, a run is no longer
than the measure and what it gains. -/
theorem taken_add_le_of_gain {I : σ → Prop} (μ g : σ → ℕ) {s : σ} (acts : List ι) (hI : I s)
    (hinv : ∀ s i s', I s → next s i = some s' → I s')
    (hlower : ∀ s, ∀ i ∈ acts, ∀ s', I s → next s i = some s' → μ s' + g s + 1 ≤ μ s + g s') :
    taken next s acts + μ (run next s acts) + g s ≤ μ s + g (run next s acts) := by
  induction acts generalizing s with
  | nil => simp [taken]
  | cons i acts ih =>
      have hrest {s : σ} (hs : I s) :=
        ih hs fun s j hj ↦ hlower s j (List.mem_cons_of_mem i hj)
      rw [run_cons, taken]
      cases hi : next s i with
      | none => simpa using hrest hI
      | some s' =>
          have hle := hlower s i List.mem_cons_self s' hI hi
          have hrest' := hrest (hinv s i s' hI hi)
          simp only [Option.isSome_some, if_true, Option.getD_some]
          omega

/-- A run is no longer than a measure that every step lowers. -/
theorem taken_add_le {I : σ → Prop} (μ : σ → ℕ) {s : σ} (acts : List ι) (hI : I s)
    (hinv : ∀ s i s', I s → next s i = some s' → I s')
    (hlower : ∀ s i s', I s → next s i = some s' → μ s' < μ s) :
    taken next s acts + μ (run next s acts) ≤ μ s :=
  taken_add_le_of_gain μ (fun _ ↦ 0) acts hI hinv fun s i _ s' ↦ hlower s i s'

end Freelite.Lib.Machine
