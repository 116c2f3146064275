import Freelite.Lib.Machine

/-!
# Functions that hold one lock throughout

A *monitor* is some shared state and a family of functions on it, every one of which
takes the same lock on entry and gives it back on return.  Their bodies run in steps,
between which other threads take steps of their own, and parts of the shared state
may also be changed from outside (`env`), by a process that does not know the lock.

`Refines` is what has to be checked about the bodies, one step at a time: `Rep`
relates the shared state to an abstract one while nobody is inside, `Within` while a
body is on its way from a given abstract state, and a body that is about to return
has done one `Atomic` operation.  `Refines.explained` is what follows for every
interleaving: at most one thread is inside, and the calls, in the order in which they
took the lock, are a sequence of atomic operations.
-/

namespace Freelite.Lib

/-- The bodies of the functions: where they start, their steps, which may depend on a
choice `ι` of the environment, and when and with which value they return. -/
structure Body (op loc ι σ ρ : Type*) where
  enter : loc
  step : op → loc → ι → σ → Option (loc × σ)
  result : loc → Option ρ

/-- The state of a monitor with the threads `τ`. -/
structure Monitor (τ op loc σ ρ : Type*) where
  shared : σ
  /-- Who holds the lock. -/
  mutex : Option τ
  /-- The call a thread is inside of, and how far it has got. -/
  inside : τ → Option (op × loc)
  /-- The calls in the order in which they took the lock. -/
  entered : List (τ × op)
  /-- The calls that have returned, with their values, in the order in which they did. -/
  log : List (τ × op × ρ)

namespace Monitor

variable {τ op loc ι ε σ ρ α : Type*} [DecidableEq τ]

/-- What can happen next. -/
inductive Act (τ op ι ε : Type*)
  /-- A thread calls a function and gets the lock. -/
  | lock (t : τ) (o : op)
  /-- The body of a thread's call takes a step. -/
  | step (t : τ) (i : ι)
  /-- A thread's call gives the lock back and returns. -/
  | unlock (t : τ)
  | env (e : ε)
deriving DecidableEq

/-- Nobody is inside. -/
def init (s : σ) : Monitor τ op loc σ ρ := ⟨s, none, fun _ ↦ none, [], []⟩

variable (B : Body op loc ι σ ρ) (env : ε → σ → Option σ)

/-- One action.  Only `lock` looks at the lock: that no two bodies take steps at the
same time is a theorem. -/
def next (s : Monitor τ op loc σ ρ) : Act τ op ι ε → Option (Monitor τ op loc σ ρ)
  | .lock t o =>
      if s.mutex = none ∧ s.inside t = none then
        some { s with
          mutex := some t
          inside := Function.update s.inside t (some (o, B.enter))
          entered := s.entered ++ [(t, o)] }
      else none
  | .step t i =>
      match s.inside t with
      | none => none
      | some (o, l) =>
          match B.step o l i s.shared with
          | none => none
          | some (l', shared) =>
              some { s with shared, inside := Function.update s.inside t (some (o, l')) }
  | .unlock t =>
      match s.inside t with
      | none => none
      | some (o, l) =>
          match B.result l with
          | none => none
          | some r =>
              some { s with
                mutex := none
                inside := Function.update s.inside t none
                log := s.log ++ [(t, o, r)] }
  | .env e => (env e s.shared).map fun shared ↦ { s with shared }

section Inversion

variable {B env} {s s' : Monitor τ op loc σ ρ} {t : τ}

theorem lock_eq {o : op} (h : next B env s (.lock t o) = some s') :
    s.mutex = none ∧ s.inside t = none ∧ s' = { s with
      mutex := some t
      inside := Function.update s.inside t (some (o, B.enter))
      entered := s.entered ++ [(t, o)] } := by
  rw [next] at h
  split_ifs at h with hfree
  exact ⟨hfree.1, hfree.2, (Option.some_inj.mp h).symm⟩

theorem step_eq {i : ι} (h : next B env s (.step t i) = some s') :
    ∃ o l l' shared, s.inside t = some (o, l) ∧ B.step o l i s.shared = some (l', shared) ∧
      s' = { s with shared, inside := Function.update s.inside t (some (o, l')) } := by
  rw [next] at h
  cases hin : s.inside t with
  | none => simp [hin] at h
  | some p =>
      cases hstep : B.step p.1 p.2 i s.shared with
      | none => simp [hin, hstep] at h
      | some q =>
          simp only [hin, hstep, Option.some_inj] at h
          exact ⟨p.1, p.2, q.1, q.2, rfl, hstep, h.symm⟩

theorem unlock_eq (h : next B env s (.unlock t) = some s') :
    ∃ o l r, s.inside t = some (o, l) ∧ B.result l = some r ∧
      s' = { s with
        mutex := none
        inside := Function.update s.inside t none
        log := s.log ++ [(t, o, r)] } := by
  rw [next] at h
  cases hin : s.inside t with
  | none => simp [hin] at h
  | some p =>
      cases hret : B.result p.2 with
      | none => simp [hin, hret] at h
      | some r =>
          simp only [hin, hret, Option.some_inj] at h
          exact ⟨p.1, p.2, r, rfl, hret, h.symm⟩

theorem env_eq {e : ε} (h : next B env s (.env e) = some s') :
    ∃ shared, env e s.shared = some shared ∧ s' = { s with shared } := by
  rw [next, Option.map_eq_some_iff] at h
  obtain ⟨shared, henv, rfl⟩ := h
  exact ⟨shared, henv, rfl⟩

end Inversion

/-- What has to be shown about the bodies. -/
structure Refines (Rep : α → σ → Prop) (Within : op → α → loc → σ → Prop)
    (Atomic : op → α → ρ → α → Prop) : Prop where
  enter : ∀ o a s, Rep a s → Within o a B.enter s
  step : ∀ o a l i s l' s', Within o a l s → B.step o l i s = some (l', s') → Within o a l' s'
  leave : ∀ o a l s r, Within o a l s → B.result l = some r → ∃ a', Atomic o a r a' ∧ Rep a' s
  env_rep : ∀ e a s s', Rep a s → env e s = some s' → Rep a s'
  env_within : ∀ e o a l s s', Within o a l s → env e s = some s' → Within o a l s'

/-- The calls of the list, one after the other, are atomic operations with these values. -/
inductive Serial (Atomic : op → α → ρ → α → Prop) (a : α) : List (τ × op × ρ) → α → Prop
  | nil : Serial Atomic a [] a
  | snoc {log : List (τ × op × ρ)} {b c : α} {o : op} {r : ρ} (t : τ) :
      Serial Atomic a log b → Atomic o b r c → Serial Atomic a (log ++ [(t, o, r)]) c

/-- The calls of a log, without their values. -/
def calls (log : List (τ × op × ρ)) : List (τ × op) := log.map fun e ↦ (e.1, e.2.1)

omit [DecidableEq τ] in
@[simp] theorem calls_append (log log' : List (τ × op × ρ)) :
    calls (log ++ log') = calls log ++ calls log' := List.map_append

/-- The state as a sequence of atomic operations from `a₀` explains it: after the calls
that have returned, and with one call on its way if the lock is held. -/
def Explained (Rep : α → σ → Prop) (Within : op → α → loc → σ → Prop)
    (Atomic : op → α → ρ → α → Prop) (a₀ : α) (s : Monitor τ op loc σ ρ) : Prop :=
  ∃ a, Serial Atomic a₀ s.log a ∧
    ((s.mutex = none ∧ (∀ t, s.inside t = none) ∧ s.entered = calls s.log ∧ Rep a s.shared) ∨
      ∃ t o l, s.mutex = some t ∧ s.inside = Function.update (fun _ ↦ none) t (some (o, l)) ∧
        s.entered = calls s.log ++ [(t, o)] ∧ Within o a l s.shared)

namespace Refines

variable {B env} {Rep : α → σ → Prop} {Within : op → α → loc → σ → Prop}
  {Atomic : op → α → ρ → α → Prop} {a₀ : α}

/-- Only the holder of the lock is inside. -/
theorem eq_of_inside {f : τ → Option (op × loc)} {t u : τ} {o o' : op} {l l' : loc}
    (hf : f = Function.update (fun _ ↦ none) t (some (o, l))) (h : f u = some (o', l')) :
    u = t ∧ o' = o ∧ l' = l := by
  subst hf
  by_cases hu : u = t
  · subst hu
    rw [Function.update_self, Option.some_inj, Prod.mk_inj] at h
    exact ⟨rfl, h.1.symm, h.2.symm⟩
  · rw [Function.update_of_ne hu] at h
    contradiction

theorem explained_init {s : σ} (h : Rep a₀ s) :
    Explained (τ := τ) Rep Within Atomic a₀ (init s) :=
  ⟨a₀, .nil, .inl ⟨rfl, fun _ ↦ rfl, rfl, h⟩⟩

theorem explained_lock (hR : Refines B env Rep Within Atomic) {s s' : Monitor τ op loc σ ρ}
    (hs : Explained Rep Within Atomic a₀ s) {t : τ} {o : op}
    (h : next B env s (.lock t o) = some s') : Explained Rep Within Atomic a₀ s' := by
  obtain ⟨hfree, -, rfl⟩ := lock_eq h
  obtain ⟨a, hlog, ⟨-, hin, hent, hrep⟩ | ⟨u, _, _, hmutex, -⟩⟩ := hs
  · refine ⟨a, hlog, .inr ⟨t, o, B.enter, rfl, ?_, ?_, hR.enter o a _ hrep⟩⟩
    · rw [show s.inside = fun _ ↦ none from funext hin]
    · rw [hent]
  · rw [hfree] at hmutex
    contradiction

theorem explained_step (hR : Refines B env Rep Within Atomic) {s s' : Monitor τ op loc σ ρ}
    (hs : Explained Rep Within Atomic a₀ s) {t : τ} {i : ι}
    (h : next B env s (.step t i) = some s') : Explained Rep Within Atomic a₀ s' := by
  obtain ⟨o, l, l', shared, hu, hstep, rfl⟩ := step_eq h
  obtain ⟨a, hlog, ⟨-, hin, -⟩ | ⟨u, o, l, hmutex, hin, hent, hwithin⟩⟩ := hs
  · rw [hin t] at hu
    contradiction
  · obtain ⟨rfl, rfl, rfl⟩ := eq_of_inside hin hu
    have hwithin' := hR.step _ _ _ _ _ _ _ hwithin hstep
    refine ⟨a, hlog, .inr ⟨t, _, l', hmutex, ?_, hent, hwithin'⟩⟩
    rw [hin, Function.update_idem]

theorem explained_unlock (hR : Refines B env Rep Within Atomic) {s s' : Monitor τ op loc σ ρ}
    (hs : Explained Rep Within Atomic a₀ s) {t : τ}
    (h : next B env s (.unlock t) = some s') : Explained Rep Within Atomic a₀ s' := by
  obtain ⟨o, l, r, hu, hret, rfl⟩ := unlock_eq h
  obtain ⟨a, hlog, ⟨-, hin, -⟩ | ⟨u, o, l, hmutex, hin, hent, hwithin⟩⟩ := hs
  · rw [hin t] at hu
    contradiction
  · obtain ⟨rfl, rfl, rfl⟩ := eq_of_inside hin hu
    obtain ⟨b, hatomic, hrep⟩ := hR.leave _ _ _ _ _ hwithin hret
    refine ⟨b, hlog.snoc t hatomic, .inl ⟨rfl, fun u ↦ ?_, ?_, hrep⟩⟩
    · change Function.update s.inside t none u = none
      rw [hin, Function.update_idem]
      exact congrFun (Function.update_eq_self t fun _ ↦ none) u
    · rw [hent, calls_append]
      rfl

theorem explained_env (hR : Refines B env Rep Within Atomic) {s s' : Monitor τ op loc σ ρ}
    (hs : Explained Rep Within Atomic a₀ s) {e : ε}
    (h : next B env s (.env e) = some s') : Explained Rep Within Atomic a₀ s' := by
  obtain ⟨shared, henv, rfl⟩ := env_eq h
  obtain ⟨a, hlog, ⟨hmutex, hin, hent, hrep⟩ | ⟨u, o, l, hmutex, hin, hent, hwithin⟩⟩ := hs
  · exact ⟨a, hlog, .inl ⟨hmutex, hin, hent, hR.env_rep e a _ _ hrep henv⟩⟩
  · exact ⟨a, hlog, .inr ⟨u, o, l, hmutex, hin, hent, hR.env_within e o a l _ _ hwithin henv⟩⟩

theorem explained_next (hR : Refines B env Rep Within Atomic) {s s' : Monitor τ op loc σ ρ}
    (hs : Explained Rep Within Atomic a₀ s) {act : Act τ op ι ε}
    (h : next B env s act = some s') : Explained Rep Within Atomic a₀ s' := by
  cases act with
  | lock t o => exact hR.explained_lock hs h
  | step t i => exact hR.explained_step hs h
  | unlock t => exact hR.explained_unlock hs h
  | env e => exact hR.explained_env hs h

/-- **Calls under one lock are atomic**, whatever the interleaving. -/
theorem explained (hR : Refines B env Rep Within Atomic) {s : σ} (hs : Rep a₀ s)
    (acts : List (Act τ op ι ε)) :
    Explained Rep Within Atomic a₀ (Machine.run (next B env) (init s) acts) :=
  Machine.run_induction acts (explained_init hs) fun _ _ _ h hn ↦ hR.explained_next h hn

end Refines

end Monitor

end Freelite.Lib
