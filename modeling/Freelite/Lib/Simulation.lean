import Freelite.Lib.Machine

/-!
# Simulations between machines

A machine simulates another one when every step of the other is answered by a list of
its own actions, and the answer leads from related states to related states.  The list
may be empty, so the simulating machine may do in one action what the other does in
several, and it may do it earlier or later.

Only the steps that satisfy a condition `G` have to be answered: `Simulates.run` is
about the runs whose steps all do.  The answers are a record of the run as well, whatever
they are, and `image_induction` is the rule for what the record says.
-/

namespace Freelite.Lib.Machine

variable {σ ι α κ : Type*} {next : σ → ι → Option σ} {anext : α → κ → Option α}

theorem run_append (s : σ) (acts acts' : List ι) :
    run next s (acts ++ acts') = run next (run next s acts) acts' := List.foldl_append

/-- The answers to the steps of a run, one after the other. -/
def image (next : σ → ι → Option σ) (answer : σ → ι → List κ) : σ → List ι → List κ
  | _, [] => []
  | s, i :: acts =>
      (if (next s i).isSome then answer s i else []) ++ image next answer ((next s i).getD s) acts

/-- The invariant rule for a run and its answers. -/
theorem image_induction {f : σ → ι → List κ} {P : σ → List κ → Prop} {s : σ}
    (acts : List ι) (hinit : P s [])
    (hstep : ∀ s ks i s', i ∈ acts → P s ks → next s i = some s' → P s' (ks ++ f s i)) :
    P (run next s acts) (image next f s acts) := by
  suffices hall : ∀ ks, P s ks → P (run next s acts) (ks ++ image next f s acts) from
    hall [] hinit
  clear hinit
  induction acts generalizing s with
  | nil =>
      intro ks hks
      rwa [image, List.append_nil]
  | cons i acts ih =>
      intro ks hks
      rw [run_cons, image]
      have hrest := ih (s := (next s i).getD s) fun s ks j s' hj ↦
        hstep s ks j s' (List.mem_cons_of_mem i hj)
      cases hi : next s i with
      | none =>
          rw [hi] at hrest
          simpa using hrest ks hks
      | some s' =>
          rw [hi] at hrest
          simp only [Option.isSome_some, if_true, Option.getD_some, ← List.append_assoc]
          exact hrest _ (hstep s ks i s' List.mem_cons_self hks hi)

/-- Every step of `next` that satisfies `G` is answered by actions of `anext` that keep
`Sim`. -/
def Simulates (next : σ → ι → Option σ) (anext : α → κ → Option α) (G : σ → ι → Prop)
    (answer : σ → ι → List κ) (Sim : σ → α → Prop) : Prop :=
  ∀ s a i s', Sim s a → G s i → next s i = some s' → Sim s' (run anext a (answer s i))

/-- **A simulation of the steps is a simulation of the runs.** -/
theorem Simulates.run {G : σ → ι → Prop} {answer : σ → ι → List κ} {Sim : σ → α → Prop}
    (h : Simulates next anext G answer Sim) {s : σ} {a : α} {acts : List ι} (hs : Sim s a)
    (hmeets : Meets next G s acts) :
    Sim (Machine.run next s acts) (Machine.run anext a (image next answer s acts)) := by
  induction acts generalizing s a with
  | nil => exact hs
  | cons i acts ih =>
      obtain ⟨hG, hrest⟩ := hmeets
      rw [run_cons, image, run_append]
      refine ih ?_ hrest
      cases hi : next s i with
      | none => simpa using hs
      | some s' =>
          simp only [Option.isSome_some, if_true, Option.getD_some]
          exact h s a i s' hs (hG (by rw [hi, Option.isSome_some])) hi

end Freelite.Lib.Machine
