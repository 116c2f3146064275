import Freelite.Lib.Monitor

/-!
# Calls under one lock come to an end

Mutual exclusion says nothing about whether anybody ever gets out.  For that, the bodies
must have only so much to do, and the environment too (`Bounded`), and a body must not
wait for something that never comes: as long as it has not got to its end, it or the
environment can take a step (`Live`).  Some choices of the environment, such as errors,
one does not want to rely on; so `Live` is relative to the choices that are.

Then the number of steps is bounded by the number of calls (`Refines.taken_le`), and where
no step can be taken but by another call all calls have returned (`Refines.idle_of_stuck`).
-/

namespace Freelite.Lib.Monitor

variable {τ op loc ι ε σ ρ α : Type*} {B : Body op loc ι σ ρ} {env : ε → σ → Option σ}
  {Rep : α → σ → Prop} {Within : op → α → loc → σ → Prop} {Atomic : op → α → ρ → α → Prop}
  {a₀ : α} {work : loc → ℕ} {pending : σ → ℕ}

/-- What the bodies and the environment have to do becomes less. -/
structure Bounded (B : Body op loc ι σ ρ) (env : ε → σ → Option σ) (work : loc → ℕ)
    (pending : σ → ℕ) : Prop where
  step : ∀ o l i s l' s', B.step o l i s = some (l', s') →
    work l' + pending s' < work l + pending s
  env : ∀ e s s', env e s = some s' → pending s' < pending s

/-- A body that has not got to its end can go on, or the environment can. -/
def Live (B : Body op loc ι σ ρ) (env : ε → σ → Option σ) (Within : op → α → loc → σ → Prop)
    (Expected : ι → Prop) : Prop :=
  ∀ o a l s, Within o a l s → B.result l = none →
    (∃ i, Expected i ∧ B.step o l i s ≠ none) ∨ ∃ e, env e s ≠ none

/-- What the call that holds the lock and the environment have to do. -/
def remaining (work : loc → ℕ) (pending : σ → ℕ) (s : Monitor τ op loc σ ρ) : ℕ :=
  ((s.mutex.bind s.inside).elim 0 fun p ↦ work p.2 + 1) + pending s.shared

theorem remaining_of_free {s : Monitor τ op loc σ ρ} (h : s.mutex = none) :
    remaining work pending s = pending s.shared := by
  rw [remaining, h, Option.bind_none, Option.elim_none, Nat.zero_add]

theorem remaining_of_inside {s : Monitor τ op loc σ ρ} {t : τ} {o : op} {l : loc}
    (hmutex : s.mutex = some t) (hin : s.inside t = some (o, l)) :
    remaining work pending s = work l + 1 + pending s.shared := by
  rw [remaining, hmutex, Option.bind_some, hin, Option.elim_some]

variable [DecidableEq τ]

/-- Whoever is inside holds the lock. -/
theorem Explained.mutex {s : Monitor τ op loc σ ρ} (hs : Explained Rep Within Atomic a₀ s) {t : τ}
    {o : op} {l : loc} (h : s.inside t = some (o, l)) : s.mutex = some t := by
  obtain ⟨a, -, ⟨-, hin, -⟩ | ⟨u, o', l', hmutex, hin, -⟩⟩ := hs
  · rw [hin t] at h
    contradiction
  · rw [hmutex, (Refines.eq_of_inside hin h).1]

/-- **One step.**  Only a new call makes work. -/
theorem Bounded.next (hB : Bounded B env work pending) {s s' : Monitor τ op loc σ ρ}
    {act : Act τ op ι ε} (hs : Explained Rep Within Atomic a₀ s) (h : next B env s act = some s') :
    remaining work pending s' + (work B.enter + 2) * s.entered.length + 1 ≤
      remaining work pending s + (work B.enter + 2) * s'.entered.length := by
  cases act with
  | lock t o =>
      obtain ⟨hfree, -, rfl⟩ := lock_eq h
      rw [remaining_of_free hfree, remaining_of_inside rfl (Function.update_self ..),
        List.length_append, List.length_singleton, Nat.mul_succ]
      dsimp only
      omega
  | step t i =>
      obtain ⟨o, l, l', shared, hin, hstep, rfl⟩ := step_eq h
      have hmutex := hs.mutex hin
      have hlt := hB.step o l i _ l' shared hstep
      have hrem : remaining work pending
          { s with shared, inside := Function.update s.inside t (some (o, l')) } =
            work l' + 1 + pending shared :=
        remaining_of_inside hmutex (Function.update_self ..)
      rw [remaining_of_inside hmutex hin, hrem]
      dsimp only
      omega
  | unlock t =>
      obtain ⟨o, l, r, hin, -, rfl⟩ := unlock_eq h
      rw [remaining_of_inside (hs.mutex hin) hin, remaining_of_free rfl]
      dsimp only
      omega
  | env e =>
      obtain ⟨shared, henv, rfl⟩ := env_eq h
      have hlt := hB.env e _ shared henv
      unfold remaining
      dsimp only
      omega

namespace Refines

/-- **The number of steps** is bounded by the number of calls. -/
theorem taken_le (hR : Refines B env Rep Within Atomic) (hB : Bounded B env work pending) {s : σ}
    (hs : Rep a₀ s) (acts : List (Act τ op ι ε)) :
    Machine.taken (next B env) (init s) acts ≤
      pending s + (work B.enter + 2) * (Machine.run (next B env) (init s) acts).entered.length := by
  have hinv (s s' : Monitor τ op loc σ ρ) (act : Act τ op ι ε)
      (hs : Explained Rep Within Atomic a₀ s) (h : next B env s act = some s') :
      Explained Rep Within Atomic a₀ s' := hR.explained_next hs h
  have hle := Machine.taken_add_le_of_gain (remaining work pending)
    (fun s ↦ (work B.enter + 2) * s.entered.length) acts (explained_init hs)
    (fun s i s' ↦ hinv s s' i) fun _ _ _ _ hs h ↦ hB.next hs h
  rw [remaining_of_free (s := init s) rfl] at hle
  simp only [init, List.length_nil, Nat.mul_zero, Nat.add_zero] at hle
  exact (Nat.le_add_right _ _).trans hle

/-- **Nobody waits for ever.**  Where nothing can happen but another call, all calls have
returned and anybody can take the lock. -/
theorem idle_of_stuck {Expected : ι → Prop} (hL : Live B env Within Expected)
    {s : Monitor τ op loc σ ρ} (hs : Explained Rep Within Atomic a₀ s)
    (hstep : ∀ t i, Expected i → next B env s (.step t i) = none)
    (hunlock : ∀ t, next B env s (.unlock t) = none) (henv : ∀ e, next B env s (.env e) = none) :
    s.entered = calls s.log ∧ ∀ t o, (next B env s (.lock t o)).isSome := by
  obtain ⟨a, -, ⟨hfree, hin, hent, -⟩ | ⟨t, o, l, hmutex, hin, -, hwithin⟩⟩ := hs
  · refine ⟨hent, fun t o ↦ ?_⟩
    rw [next, if_pos ⟨hfree, hin t⟩]
    rfl
  · have ht : s.inside t = some (o, l) := by rw [hin, Function.update_self]
    cases hres : B.result l with
    | some r =>
        have h := hunlock t
        simp only [next, ht, hres] at h
        contradiction
    | none =>
        rcases hL o a l s.shared hwithin hres with ⟨i, hi, hgo⟩ | ⟨e, hgo⟩
        · obtain ⟨⟨l', shared⟩, hgo⟩ := Option.ne_none_iff_exists'.mp hgo
          have h := hstep t i hi
          simp only [next, ht, hgo] at h
          contradiction
        · exact absurd (Option.map_eq_none_iff.mp (henv e)) hgo

end Refines

end Freelite.Lib.Monitor
