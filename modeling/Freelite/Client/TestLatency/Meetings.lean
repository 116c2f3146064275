import Freelite.Client.TestLatency

/-!
# The meetings of the benchmark

Where a thread is in `rdma_write_read` says how often it has come to the barrier and how
often it has left it (`Placed`).  So whoever is past a wait knows that everybody has come
to it, which is all that the threads know of each other.

The thread that is chosen at the first wait allocates the remote memory.  Whoever reads is
past the second wait, and the chosen thread has come to that one after the allocation
(`Keyed.of_lt_left`); whoever writes is only past the first.
-/

namespace Freelite

open Lib

namespace TestLatency

variable {n : ℕ} {M : Type*}

/-! ## The meetings -/

/-- How often a thread has entered the barrier. -/
def Loc.entered : Loc → ℕ
  | allocating | exited true => 0
  | before k => k
  | inside k => k + 1
  | keying | calling .write _ _ => 1
  | printing .write _ | calling .read _ _ => 2
  | printing .read _ | freeing | exited false => 3

/-- How often a thread has left the barrier. -/
def Loc.left : Loc → ℕ
  | inside k => k
  | l => l.entered

/-- The loops are within their bounds. -/
def Loc.Bounded (n tests : ℕ) : Loc → Prop
  | before k | inside k => k < 3
  | calling _ i j => i < nrSizes ∧ j ≤ tests
  | printing _ p => p ≤ nrSizes * n
  | _ => True

/-- The wait that only the chosen thread comes from. -/
def Loc.serves : Loc → Option ℕ
  | keying => some 0
  | printing half _ => some half.wait
  | _ => none

/-- Where the threads are, and what the barrier knows of it. -/
structure Placed (tests : ℕ) (loc : Fin n → Loc) (b : Barrier (Fin n)) : Prop where
  steady : b.Steady
  entered : ∀ t, b.entered t = (loc t).entered
  left : ∀ t, b.left t = (loc t).left
  bounded : ∀ t, (loc t).Bounded n tests
  chosen : ∀ t, ∀ k ∈ (loc t).serves, b.leaders[k]? = some t

namespace Placed

variable {tests : ℕ} {loc : Fin n → Loc} {b b' : Barrier (Fin n)} {t : Fin n} {k : ℕ}

theorem init : Placed (n := n) tests (fun _ ↦ .allocating) .init where
  steady := .init
  entered _ := rfl
  left _ := rfl
  bounded _ := trivial
  chosen _ _ h := nomatch h

/-- A thread goes on without the barrier. -/
theorem goto (h : Placed tests loc b) {l : Loc} (he : (loc t).entered = l.entered)
    (hl : (loc t).left = l.left) (hb : l.Bounded n tests)
    (hc : ∀ k ∈ l.serves, k ∈ (loc t).serves) :
    Placed tests (Function.update loc t l) b where
  steady := h.steady
  entered := by
    rw [Function.forall_update_iff (p := fun u l ↦ b.entered u = Loc.entered l)]
    exact ⟨he ▸ h.entered t, fun u _ ↦ h.entered u⟩
  left := by
    rw [Function.forall_update_iff (p := fun u l ↦ b.left u = Loc.left l)]
    exact ⟨hl ▸ h.left t, fun u _ ↦ h.left u⟩
  bounded := by
    rw [Function.forall_update_iff (p := fun _ l ↦ Loc.Bounded n tests l)]
    exact ⟨hb, fun u _ ↦ h.bounded u⟩
  chosen := by
    rw [Function.forall_update_iff (p := fun u l ↦ ∀ k ∈ Loc.serves l, b.leaders[k]? = some u)]
    exact ⟨fun k hk ↦ h.chosen t k (hc k hk), fun u _ ↦ h.chosen u⟩

theorem enter (h : Placed tests loc b) (hloc : loc t = .before k) (hb : b.enter t = some b') :
    Placed tests (Function.update loc t (.inside k)) b' where
  steady := h.steady.enter hb
  entered := by
    obtain ⟨-, rfl⟩ := Barrier.enter_eq hb
    intro u
    rcases eq_or_ne u t with rfl | hu
    · simp [h.entered, hloc, Loc.entered]
    · simp [Function.update_of_ne hu, h.entered]
  left := by
    obtain ⟨-, rfl⟩ := Barrier.enter_eq hb
    rw [Function.forall_update_iff (p := fun u l ↦ b.left u = Loc.left l)]
    refine ⟨?_, fun u _ ↦ h.left u⟩
    rw [h.left t, hloc]
    rfl
  bounded := by
    rw [Function.forall_update_iff (p := fun _ l ↦ Loc.Bounded n tests l)]
    refine ⟨?_, fun u _ ↦ h.bounded u⟩
    have := h.bounded t
    rwa [hloc] at this
  chosen := by
    obtain ⟨-, rfl⟩ := Barrier.enter_eq hb
    rw [Function.forall_update_iff (p := fun u l ↦ ∀ k ∈ Loc.serves l, b.leaders[k]? = some u)]
    exact ⟨nofun, fun u _ ↦ h.chosen u⟩

theorem complete (h : Placed tests loc b) (hb : b.complete t = some b') :
    Placed tests loc b' where
  steady := h.steady.complete hb
  entered := by
    obtain ⟨-, rfl⟩ := Barrier.complete_eq hb
    exact h.entered
  left := by
    obtain ⟨-, rfl⟩ := Barrier.complete_eq hb
    exact h.left
  bounded := h.bounded
  chosen := by
    obtain ⟨-, rfl⟩ := Barrier.complete_eq hb
    intro u k hk
    rw [List.getElem?_append_left (List.getElem?_eq_some_iff.mp (h.chosen u k hk)).1]
    exact h.chosen u k hk

theorem left_afterWait (hk : k < 3) (c : Bool) : (afterWait k c).left = k + 1 := by
  match k, c, hk with
  | 0, true, _ | 0, false, _ | 1, true, _ | 1, false, _ | 2, true, _ | 2, false, _ => rfl

theorem entered_afterWait (hk : k < 3) (c : Bool) : (afterWait k c).entered = k + 1 := by
  match k, c, hk with
  | 0, true, _ | 0, false, _ | 1, true, _ | 1, false, _ | 2, true, _ | 2, false, _ => rfl

theorem bounded_afterWait (hk : k < 3) (c : Bool) : (afterWait k c).Bounded n tests := by
  match k, c, hk with
  | 0, true, _ | 2, false, _ => trivial
  | 0, false, _ | 1, false, _ => exact ⟨by decide, Nat.zero_le _⟩
  | 1, true, _ | 2, true, _ => exact Nat.zero_le _

/-- Only the chosen thread prints or allocates. -/
theorem serves_afterWait (hk : k < 3) {c : Bool} {k' : ℕ} (h : k' ∈ (afterWait k c).serves) :
    c = true ∧ k' = k := by
  match k, c, hk with
  | 0, false, _ | 1, false, _ | 2, false, _ => exact nomatch h
  | 0, true, _ | 1, true, _ | 2, true, _ => exact ⟨rfl, (Option.some_inj.mp h).symm⟩

theorem leave (h : Placed tests loc b) (hloc : loc t = .inside k) (hb : b.leave t = some b') :
    Placed tests (Function.update loc t (afterWait k (b.leaders[k]? = some t))) b' where
  steady := h.steady.leave hb
  entered := by
    obtain ⟨-, -, rfl⟩ := Barrier.leave_eq hb
    have hk := h.bounded t
    rw [hloc] at hk
    rw [Function.forall_update_iff (p := fun u l ↦ b.entered u = Loc.entered l)]
    refine ⟨?_, fun u _ ↦ h.entered u⟩
    rw [h.entered, hloc, entered_afterWait hk, Loc.entered]
  left := by
    obtain ⟨-, -, rfl⟩ := Barrier.leave_eq hb
    have hk := h.bounded t
    rw [hloc] at hk
    intro u
    rcases eq_or_ne u t with rfl | hu
    · have hleft : b.left u = k := by rw [h.left, hloc, Loc.left]
      simp only [Function.update_self, left_afterWait hk, hleft]
    · simp [Function.update_of_ne hu, h.left]
  bounded := by
    have hk := h.bounded t
    rw [hloc] at hk
    rw [Function.forall_update_iff (p := fun _ l ↦ Loc.Bounded n tests l)]
    exact ⟨bounded_afterWait hk _, fun u _ ↦ h.bounded u⟩
  chosen := by
    obtain ⟨-, -, rfl⟩ := Barrier.leave_eq hb
    have hk := h.bounded t
    rw [hloc] at hk
    rw [Function.forall_update_iff (p := fun u l ↦ ∀ k ∈ Loc.serves l, b.leaders[k]? = some u)]
    refine ⟨fun k' hk' ↦ ?_, fun u _ ↦ h.chosen u⟩
    obtain ⟨hc, rfl⟩ := serves_afterWait hk hk'
    exact of_decide_eq_true hc

end Placed

/-- A step of a process is one of its threads. -/
theorem Step.placed {P : Params n} {s s' : State n M} (h : Step P s s')
    (hs : Placed P.tests s.loc s.barrier) : Placed P.tests s'.loc s'.barrier := by
  cases h with
  | refused t hl | dies t hl => refine hs.goto ?_ ?_ trivial nofun <;> rw [hl] <;> rfl
  | allocates t buf remoteAddr hl =>
      refine hs.goto ?_ ?_ (Nat.zero_lt_succ 2) nofun <;> rw [hl] <;> rfl
  | enters t k b hl hb => exact hs.enter hl hb
  | chooses t b hb => exact hs.complete hb
  | leaves t k b hl hb => exact hs.leave hl hb
  | keys t ret hl =>
      refine hs.goto ?_ ?_ ⟨by decide, Nat.zero_le _⟩ nofun <;> rw [hl] <;> rfl
  | calls t half i j hl hj =>
      have hb := hs.bounded t
      rw [hl] at hb
      refine hs.goto ?_ ?_ ⟨hb.1, hj⟩ nofun <;> rw [hl] <;> cases half <;> rfl
  | stores t half i j m hl hj =>
      by_cases hi : i + 1 < nrSizes
      · rw [if_pos hi]
        refine hs.goto ?_ ?_ ⟨hi, Nat.zero_le _⟩ nofun <;> rw [hl] <;> cases half <;> rfl
      · rw [if_neg hi]
        refine hs.goto ?_ ?_ ?_ nofun
        · rw [hl]
          cases half <;> rfl
        · rw [hl]
          cases half <;> rfl
        · cases half <;> change _ < 3 <;> decide
  | prints t half p hl hp =>
      refine hs.goto ?_ ?_ hp ?_
      · rw [hl]
        cases half <;> rfl
      · rw [hl]
        cases half <;> rfl
      · rw [hl]
        exact fun k hk ↦ hk
  | printed t half p hl hp =>
      cases half with
      | write => refine hs.goto ?_ ?_ ⟨by decide, Nat.zero_le _⟩ nofun <;> rw [hl] <;> rfl
      | read => refine hs.goto ?_ ?_ trivial nofun <;> rw [hl] <;> rfl
  | frees t hl => refine hs.goto ?_ ?_ trivial nofun <;> rw [hl] <;> rfl

/-- When a thread has passed a wait, everybody has come to it. -/
theorem Placed.lt_entered {tests k : ℕ} {loc : Fin n → Loc} {b : Barrier (Fin n)} {t : Fin n}
    (h : Placed tests loc b) (ht : k < (loc t).left) (u : Fin n) : k < (loc u).entered := by
  rw [← h.entered u]
  exact h.steady.lt_entered_of_lt_left (h.left t ▸ ht) u

/-! ## The key -/

/-- The thread has not come to the allocation of the remote memory, or is about to. -/
def Loc.unkeyed : Loc → Bool
  | allocating | exited true | before 0 | inside 0 | keying => true
  | _ => false

/-- The remote memory is allocated by the thread chosen at the first wait. -/
def Keyed (s : State n M) : Prop :=
  (s.keys = [] ∧ s.testKey = 0 ∧
    ∀ t, s.barrier.leaders[0]? = some t → (s.loc t).unkeyed = true) ∨
  ∃ ret t, s.keys = [ret] ∧ s.testKey = keyOf ret ∧ s.barrier.leaders[0]? = some t ∧
    (s.loc t).unkeyed = false

namespace Keyed

variable {s : State n M} {t : Fin n} {l : Loc} {b : Barrier (Fin n)}

/-- A thread goes on; if it is the chosen one, then on the same side of the allocation. -/
theorem goto (h : Keyed s)
    (hl : s.barrier.leaders[0]? = some t → l.unkeyed = (s.loc t).unkeyed) :
    Keyed (s.goto t l) := by
  have hkeep (u : Fin n) (hu : s.barrier.leaders[0]? = some u) :
      (Function.update s.loc t l u).unkeyed = (s.loc u).unkeyed := by
    rcases eq_or_ne u t with rfl | hne
    · rw [Function.update_self, hl hu]
    · rw [Function.update_of_ne hne]
  rcases h with ⟨hkeys, hkey, hall⟩ | ⟨ret, u, hkeys, hkey, hu, hpast⟩
  · exact .inl ⟨hkeys, hkey, fun u hu ↦ (hkeep u hu).trans (hall u hu)⟩
  · exact .inr ⟨ret, u, hkeys, hkey, hu, (hkeep u hu).trans hpast⟩

/-- Another thread is chosen. -/
theorem complete (h : Keyed s) {tests : ℕ} (hs : Placed tests s.loc s.barrier)
    (hb : s.barrier.complete t = some b) : Keyed { s with barrier := b } := by
  obtain ⟨-, rfl⟩ := Barrier.complete_eq hb
  rcases h with ⟨hkeys, hkey, hall⟩ | ⟨ret, u, hkeys, hkey, hu, hpast⟩
  · refine .inl ⟨hkeys, hkey, fun u hu ↦ ?_⟩
    cases hlen : s.barrier.leaders with
    | cons l leaders =>
        simp only [hlen, List.cons_append, List.getElem?_cons_zero] at hu
        exact hall u (by rw [hlen]; exact hu)
    | nil =>
        -- nobody has left the first wait
        have hleft := hs.steady.left_le u
        rw [hs.left u, hlen] at hleft
        have hb := hs.bounded u
        cases hlu : s.loc u with
        | allocating | keying => rfl
        | exited failed => cases failed <;> simp_all [Loc.left, Loc.entered, Loc.unkeyed]
        | before k | inside k => simp_all [Loc.left, Loc.entered, Loc.unkeyed]
        | calling half i j | printing half p =>
            cases half <;> simp_all [Loc.left, Loc.entered]
        | freeing => simp_all [Loc.left, Loc.entered]
  · refine .inr ⟨ret, u, hkeys, hkey, ?_, hpast⟩
    rw [List.getElem?_append_left (List.getElem?_eq_some_iff.mp hu).1]
    exact hu

end Keyed

theorem unkeyed_afterWait {k : ℕ} (hk : k < 3) (c : Bool) (h : k = 0 → c = true) :
    (afterWait k c).unkeyed = (Loc.inside k).unkeyed := by
  match k, c, hk with
  | 0, false, _ => exact absurd (h rfl) Bool.false_ne_true
  | 0, true, _ | 1, true, _ | 1, false, _ | 2, true, _ | 2, false, _ => rfl

/-- **The remote memory is allocated once**, by the thread chosen at the first wait. -/
theorem Step.keyed {P : Params n} {s s' : State n M} (h : Step P s s')
    (hs : Placed P.tests s.loc s.barrier) (hk : Keyed s) : Keyed s' := by
  cases h with
  | refused t hl | dies t hl => exact hk.goto (t := t) fun _ ↦ by rw [hl]; rfl
  | allocates t buf remoteAddr hl => exact hk.goto (t := t) fun _ ↦ by rw [hl]; rfl
  | enters t k b hl hb =>
      obtain ⟨-, rfl⟩ := Barrier.enter_eq hb
      refine hk.goto (t := t) fun _ ↦ ?_
      rw [hl]
      cases k <;> rfl
  | chooses t b hb => exact hk.complete hs hb
  | leaves t k b hl hb =>
      obtain ⟨-, -, rfl⟩ := Barrier.leave_eq hb
      have hlt := hs.bounded t
      rw [hl] at hlt
      refine hk.goto (t := t) fun ht ↦ ?_
      rw [hl]
      refine unkeyed_afterWait hlt _ fun hzero ↦ ?_
      subst hzero
      exact decide_eq_true ht
  | keys t ret hl =>
      have ht : s.barrier.leaders[0]? = some t := hs.chosen t 0 (by rw [hl]; rfl)
      rcases hk with ⟨hkeys, -, -⟩ | ⟨ret', u, -, -, hu, hpast⟩
      · refine .inr ⟨ret, t, ?_, rfl, ht, ?_⟩
        · change s.keys ++ [ret] = [ret]
          rw [hkeys, List.nil_append]
        · change (Function.update s.loc t _ t).unkeyed = false
          rw [Function.update_self]
          rfl
      · obtain rfl := Option.some_inj.mp (hu.symm.trans ht)
        rw [hl] at hpast
        contradiction
  | calls t half i j hl hj => exact hk.goto (t := t) fun _ ↦ by rw [hl]; rfl
  | stores t half i j m hl hj =>
      refine hk.goto (t := t) fun _ ↦ ?_
      rw [hl]
      split_ifs
      · rfl
      · cases half <;> rfl
  | prints t half p hl hp => exact hk.goto (t := t) fun _ ↦ by rw [hl]; rfl
  | printed t half p hl hp =>
      refine hk.goto (t := t) fun _ ↦ ?_
      rw [hl]
      cases half <;> rfl
  | frees t hl => exact hk.goto (t := t) fun _ ↦ by rw [hl]; rfl

/-- Whoever reads does so with the key. -/
theorem Keyed.of_lt_left {tests : ℕ} {s : State n M} {t : Fin n} (h : Keyed s)
    (hs : Placed tests s.loc s.barrier) (ht : 1 < (s.loc t).left) :
    ∃ ret, s.keys = [ret] ∧ s.testKey = keyOf ret := by
  rcases h with ⟨hkeys, hkey, hall⟩ | ⟨ret, u, hkeys, hkey, -, -⟩
  · have hlen := (hs.left t ▸ ht).trans_le (hs.steady.left_le t)
    have hu : s.barrier.leaders[0]? = some (s.barrier.leaders[0]) := List.getElem?_eq_getElem _
    have hent := hs.lt_entered ht (s.barrier.leaders[0])
    have hun := hall _ hu
    generalize s.loc (s.barrier.leaders[0]) = l at hent hun
    cases l with
    | allocating | keying => simp [Loc.entered] at hent
    | exited failed => cases failed <;> simp_all [Loc.entered, Loc.unkeyed]
    | before k | inside k => cases k <;> simp_all [Loc.entered, Loc.unkeyed]
    | calling half i j | printing half p | freeing => contradiction
  · exact ⟨ret, hkeys, hkey⟩

/-! ## How long a run can be -/

/-- What a thread can still do, from the second wait on and in all. -/
def Loc.remaining (n tests : ℕ) : Loc → ℕ
  | exited _ => 0
  | freeing => 1
  | printing .read p => nrSizes * n - p + 2
  | calling .read i j => (nrSizes - i) * (tests + 1) - j + (nrSizes * n + 4)
  | printing .write p => nrSizes * n - p + nrSizes * (tests + 1) + (nrSizes * n + 5)
  | inside 1 => nrSizes * n + nrSizes * (tests + 1) + (nrSizes * n + 6)
  | before 1 => nrSizes * n + nrSizes * (tests + 1) + (nrSizes * n + 7)
  | calling .write i j =>
      (nrSizes - i) * (tests + 1) - j + nrSizes * n + nrSizes * (tests + 1) + (nrSizes * n + 7)
  | keying => 2 * (nrSizes * n + nrSizes * (tests + 1)) + 8
  | inside 0 => 2 * (nrSizes * n + nrSizes * (tests + 1)) + 9
  | before 0 => 2 * (nrSizes * n + nrSizes * (tests + 1)) + 10
  | allocating => 2 * (nrSizes * n + nrSizes * (tests + 1)) + 11
  | inside (_ + 2) => nrSizes * n + 3
  | before (_ + 2) => nrSizes * n + 4

/-- What the process can still do. -/
def State.remaining (s : State n M) (tests : ℕ) : ℕ :=
  ∑ t, (s.loc t).remaining n tests + (3 - s.barrier.leaders.length)

theorem remaining_goto {s : State n M} {t : Fin n} {l : Loc} {tests : ℕ}
    (h : l.remaining n tests < (s.loc t).remaining n tests) :
    (s.goto t l).remaining tests < s.remaining tests := by
  have hsum := Machine.sum_update_add (fun l ↦ Loc.remaining n tests l) s.loc t l
  refine Nat.add_lt_add_right ?_ _
  change ∑ u, Loc.remaining n tests (Function.update s.loc t l u) < _
  omega

theorem entered_le {tests : ℕ} {l : Loc} (h : l.Bounded n tests) : l.entered ≤ 3 := by
  cases l with
  | before k => exact Nat.le_of_lt h
  | inside k => exact h
  | exited failed => cases failed <;> simp [Loc.entered]
  | calling half i j | printing half p => cases half <;> simp [Loc.entered]
  | _ => simp [Loc.entered]

theorem remaining_afterWait {k tests : ℕ} (hk : k < 3) (c : Bool) :
    (afterWait k c).remaining n tests < (Loc.inside k).remaining n tests := by
  match k, c, hk with
  | 0, true, _ | 0, false, _ | 1, true, _ | 1, false, _ | 2, true, _ | 2, false, _ =>
      simp only [afterWait, Loc.remaining, Nat.sub_zero]
      omega

theorem remaining_stored {half : Half} {i j tests : ℕ} (hi : i < nrSizes) (hj : j ≤ tests) :
    (if i + 1 < nrSizes then Loc.calling half (i + 1) 0 else .before half.wait).remaining n tests <
      (Loc.calling half i j).remaining n tests := by
  have hmul : (nrSizes - i) * (tests + 1) = (nrSizes - (i + 1)) * (tests + 1) + (tests + 1) := by
    rw [← Nat.succ_mul]
    congr 1
    omega
  split_ifs <;> cases half <;> simp only [Half.wait, Loc.remaining, hmul] <;> omega

/-- **Every step brings the end nearer.** -/
theorem Step.remaining_lt {P : Params n} {s s' : State n M} (h : Step P s s')
    (hs : Placed P.tests s.loc s.barrier) : s'.remaining P.tests < s.remaining P.tests := by
  cases h with
  | refused t hl | dies t hl | allocates t buf remoteAddr hl | frees t hl =>
      refine remaining_goto (s := s) (t := t) ?_
      rw [hl]
      simp [Loc.remaining]
  | enters t k b hl hb =>
      obtain ⟨-, rfl⟩ := Barrier.enter_eq hb
      refine remaining_goto (s := s) (t := t) ?_
      rw [hl]
      match k with
      | 0 | 1 | _ + 2 => simp [Loc.remaining]
  | chooses t b hb =>
      have hlt := (Barrier.complete_eq hb).1 t
      obtain ⟨-, rfl⟩ := Barrier.complete_eq hb
      rw [hs.entered t] at hlt
      have hle := entered_le (hs.bounded t)
      simp only [State.remaining, List.length_append, List.length_singleton]
      omega
  | leaves t k b hl hb =>
      have hlt := hs.bounded t
      rw [hl] at hlt
      obtain ⟨-, -, rfl⟩ := Barrier.leave_eq hb
      refine remaining_goto (s := s) (t := t) ?_
      rw [hl]
      exact remaining_afterWait hlt _
  | keys t ret hl =>
      refine remaining_goto (s := s) (t := t) ?_
      rw [hl]
      simp only [Loc.remaining, Nat.sub_zero]
      omega
  | calls t half i j hl hj =>
      refine remaining_goto (s := s) (t := t) ?_
      have hb := hs.bounded t
      rw [hl] at hb ⊢
      have hmul := Nat.le_mul_of_pos_left (P.tests + 1) (Nat.sub_pos_of_lt hb.1)
      cases half <;> simp only [Loc.remaining] <;> omega
  | stores t half i j m hl hj =>
      refine remaining_goto (s := s) (t := t) ?_
      have hb := hs.bounded t
      rw [hl] at hb ⊢
      exact remaining_stored hb.1 hb.2
  | prints t half p hl hp =>
      refine remaining_goto (s := s) (t := t) ?_
      rw [hl]
      cases half <;> simp only [Loc.remaining] <;> omega
  | printed t half p hl hp =>
      refine remaining_goto (s := s) (t := t) ?_
      rw [hl]
      cases half <;> simp only [Half.afterPrint, Loc.remaining, Nat.sub_zero] <;> omega

end TestLatency

end Freelite
