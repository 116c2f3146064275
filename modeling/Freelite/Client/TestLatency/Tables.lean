import Freelite.Client.TestLatency.Meetings

/-!
# The tables of the benchmark

Every thread has its own entries of `per_rps`, and they are from the half that the thread
has come to (`Loc.slot`).  The second half overwrites the first.  The thread that prints
the first table has only met the others before they go on to the second half, so their
entries may have been overwritten when it comes to them; its own have not.
-/

namespace Freelite

open Lib

namespace TestLatency

variable {n : ℕ} {M : Type*}

/-! ## The tables -/

/-- The half that the entry of size `i` of a thread is from. -/
def Loc.slot (i : ℕ) : Loc → Option Half
  | allocating | exited true | before 0 | inside 0 | keying => none
  | calling .write i' _ => if i < i' then some .write else none
  | before 1 | inside 1 | printing .write _ => some .write
  | calling .read i' _ => if i < i' then some .read else some .write
  | before _ | inside _ | printing .read _ | freeing | exited false => some .read

/-- How much of a table the thread has printed, if it is the one that prints it. -/
def Loc.shown (n : ℕ) : Half → Loc → ℕ
  | .write, printing .write p | .read, printing .read p => p
  | .write, calling .read _ _ | .write, before (_ + 2) | .write, inside (_ + 2) => nrSizes * n
  | .write, printing .read _ => nrSizes * n
  | _, freeing | _, exited false => nrSizes * n
  | _, _ => 0

/-- How much of a table has been printed. -/
def shown (loc : Fin n → Loc) (leaders : List (Fin n)) (half : Half) : ℕ :=
  ((leaders[half.wait]?).map fun t ↦ (loc t).shown n half).getD 0

/-- The indices that a table shows. -/
def indices (printed : List (Half × ℕ × Option (Half × M))) (half : Half) : List ℕ :=
  (printed.filter fun e ↦ e.1 = half).map fun e ↦ e.2.1

/-- An entry of a table: it has been measured, and in the half of the table if this is
the second or the entry is that of the thread that prints. -/
def Shows (leaders : List (Fin n)) (half : Half) (p : ℕ) (v : Option (Half × M)) : Prop :=
  ∃ t measured m, leaders[half.wait]? = some t ∧ v = some (measured, m) ∧
    (half = .read ∨ p % n = t → measured = half)

/-- The measurements and what has been printed of them. -/
structure Tabled (loc : Fin n → Loc) (leaders : List (Fin n)) (perRps : ℕ → Option (Half × M))
    (printed : List (Half × ℕ × Option (Half × M))) : Prop where
  slot : ∀ i < nrSizes, ∀ t : Fin n, (perRps (i * n + t)).map Prod.fst = (loc t).slot i
  shows : ∀ half p v, (half, p, v) ∈ printed → Shows leaders half p v
  indices : ∀ half, indices printed half = List.range (shown loc leaders half)

/-- The entries of the threads are apart. -/
theorem index_inj {i j : ℕ} {t u : Fin n} (h : i * n + t = j * n + u) : i = j ∧ t = u := by
  have hpos : 0 < n := t.pos
  have hmod := congrArg (· % n) h
  have hdiv := congrArg (· / n) h
  simp only [Nat.mul_add_mod_self_right, Nat.mod_eq_of_lt t.isLt, Nat.mod_eq_of_lt u.isLt] at hmod
  simp only [Nat.mul_comm _ n, Nat.mul_add_div hpos, Nat.div_eq_of_lt t.isLt,
    Nat.div_eq_of_lt u.isLt, Nat.add_zero] at hdiv
  exact ⟨hdiv, Fin.ext hmod⟩

theorem slot_afterWait {k : ℕ} (hk : k < 3) (c : Bool) (i : ℕ) :
    (afterWait k c).slot i = (Loc.inside k).slot i := by
  match k, c, hk with
  | 0, true, _ | 1, true, _ | 2, true, _ | 2, false, _ => rfl
  | 0, false, _ | 1, false, _ => simp [afterWait, Loc.slot]

/-- After the last size of a half all entries of a thread are from it. -/
theorem slot_stored {half : Half} {i i' j : ℕ} (hi : i < nrSizes) :
    (if i' + 1 < nrSizes then Loc.calling half (i' + 1) 0 else .before half.wait).slot i =
      if i = i' then some half else (Loc.calling half i' j).slot i := by
  rcases lt_trichotomy i i' with hlt | rfl | hgt
  · rw [if_neg hlt.ne]
    split_ifs
    · cases half <;> simp [Loc.slot, hlt, hlt.trans (Nat.lt_succ_self i')]
    · cases half <;> simp [Loc.slot, Half.wait, hlt]
  · rw [if_pos rfl]
    split_ifs
    · cases half <;> simp [Loc.slot]
    · cases half <;> rfl
  · rw [if_neg hgt.ne', if_pos (hi.trans_le' hgt)]
    have hle : ¬ i < i' + 1 := Nat.not_lt.mpr hgt
    cases half <;> simp [Loc.slot, hle, hgt.not_gt]

theorem shown_of_left_le {half : Half} {l : Loc} (h : l.left ≤ half.wait) :
    l.shown n half = 0 := by
  cases l with
  | allocating | keying => cases half <;> rfl
  | exited failed =>
      cases failed
      · cases half <;> simp [Loc.left, Loc.entered, Half.wait] at h
      · cases half <;> rfl
  | freeing => cases half <;> simp [Loc.left, Loc.entered, Half.wait] at h
  | calling half' i j | printing half' p =>
      cases half <;> cases half' <;> first | rfl | simp [Loc.left, Loc.entered, Half.wait] at h
  | before k | inside k =>
      cases half with
      | read => rfl
      | write =>
          obtain rfl | rfl := Nat.le_one_iff_eq_zero_or_eq_one.mp h <;> rfl

/-- Who has come to the wait that ends a half has measured in it. -/
theorem slot_of_lt_entered {half : Half} {l : Loc} (h : half.wait < l.entered) (i : ℕ) :
    ∃ measured, l.slot i = some measured ∧ (half = .read → measured = .read) := by
  cases l with
  | allocating | keying => cases half <;> simp [Loc.entered, Half.wait] at h
  | exited failed =>
      cases failed
      · exact ⟨.read, rfl, fun _ ↦ rfl⟩
      · exact absurd h (Nat.not_lt_zero _)
  | freeing => exact ⟨.read, rfl, fun _ ↦ rfl⟩
  | printing half' p =>
      cases half' with
      | write => exact ⟨.write, rfl, fun hr ↦ by subst hr; exact absurd h (lt_irrefl _)⟩
      | read => exact ⟨.read, rfl, fun _ ↦ rfl⟩
  | calling half' i' j =>
      cases half' with
      | write => cases half <;> simp [Loc.entered, Half.wait] at h
      | read =>
          refine ⟨if i < i' then .read else .write, ?_, fun hr ↦ ?_⟩
          · rw [Loc.slot]
            split_ifs <;> rfl
          · subst hr
            exact absurd h (lt_irrefl _)
  | before k =>
      rcases k with _ | _ | k
      · exact absurd h (Nat.not_lt_zero _)
      · cases half <;> simp [Loc.entered, Half.wait] at h
      · exact ⟨.read, rfl, fun _ ↦ rfl⟩
  | inside k =>
      rcases k with _ | _ | k
      · cases half <;> simp [Loc.entered, Half.wait] at h
      · exact ⟨.write, rfl, fun hr ↦ by subst hr; exact absurd h (lt_irrefl _)⟩
      · exact ⟨.read, rfl, fun _ ↦ rfl⟩

/-- Who is chosen has printed nothing yet. -/
theorem shown_afterWait {half : Half} {k : ℕ} (hk : k < 3) (c : Bool)
    (h : k = half.wait → c = true) :
    (afterWait k c).shown n half = (Loc.inside k).shown n half := by
  match half, k, c, hk with
  | .write, 1, false, _ | .read, 2, false, _ => exact absurd (h rfl) Bool.false_ne_true
  | .write, 0, true, _ | .write, 0, false, _ | .write, 1, true, _ => rfl
  | .write, 2, true, _ | .write, 2, false, _ => rfl
  | .read, 0, true, _ | .read, 0, false, _ | .read, 1, true, _ | .read, 1, false, _ => rfl
  | .read, 2, true, _ => rfl

theorem Shows.mono {leaders leaders' : List (Fin n)} {half : Half} {p : ℕ}
    {v : Option (Half × M)} (h : Shows leaders half p v) (hl : leaders <+: leaders') :
    Shows leaders' half p v := by
  obtain ⟨t, measured, m, ht, hv⟩ := h
  obtain ⟨rest, rfl⟩ := hl
  refine ⟨t, measured, m, ?_, hv⟩
  rw [List.getElem?_append_left (List.getElem?_eq_some_iff.mp ht).1]
  exact ht

namespace Tabled

variable {loc : Fin n → Loc} {leaders : List (Fin n)} {perRps : ℕ → Option (Half × M)}
  {printed : List (Half × ℕ × Option (Half × M))} {t : Fin n} {l : Loc}

theorem shown_goto {half : Half}
    (h : leaders[half.wait]? = some t → l.shown n half = (loc t).shown n half) :
    shown (Function.update loc t l) leaders half = shown loc leaders half := by
  rw [shown, shown]
  cases hl : leaders[half.wait]? with
  | none => rfl
  | some u =>
      rcases eq_or_ne u t with rfl | hu
      · simp [h hl]
      · simp [Function.update_of_ne hu]

/-- A thread goes on without a measurement, and without printing. -/
theorem goto (h : Tabled loc leaders perRps printed)
    (hslot : ∀ i < nrSizes, l.slot i = (loc t).slot i)
    (hshown : ∀ half : Half, leaders[half.wait]? = some t →
      l.shown n half = (loc t).shown n half) :
    Tabled (Function.update loc t l) leaders perRps printed where
  slot i hi := by
    refine (Function.forall_update_iff loc
      (p := fun u l ↦ (perRps (i * n + u.val)).map Prod.fst = Loc.slot i l)).mpr ?_
    exact ⟨(h.slot i hi t).trans (hslot i hi).symm, fun u _ ↦ h.slot i hi u⟩
  shows := h.shows
  indices half := by rw [h.indices half, shown_goto (hshown half)]

theorem complete (h : Tabled loc leaders perRps printed) (hlen : (loc t).left ≤ leaders.length) :
    Tabled loc (leaders ++ [t]) perRps printed where
  slot := h.slot
  shows half p v hmem := (h.shows half p v hmem).mono (List.prefix_append _ _)
  indices half := by
    rw [h.indices half, shown, shown]
    rcases lt_trichotomy half.wait leaders.length with hlt | heq | hgt
    · rw [List.getElem?_append_left hlt]
    · -- nobody has left this wait
      have hzero : (loc t).shown n half = 0 := shown_of_left_le (heq ▸ hlen)
      simp [heq, hzero]
    · rw [List.getElem?_eq_none hgt.le,
        List.getElem?_eq_none (by rw [List.length_append]; exact hgt)]

/-- A thread stores a measurement. -/
theorem store (h : Tabled loc leaders perRps printed) {half : Half} {i j : ℕ} (m : M)
    (hl : loc t = .calling half i j) :
    Tabled (Function.update loc t
        (if i + 1 < nrSizes then .calling half (i + 1) 0 else .before half.wait)) leaders
      (Function.update perRps (i * n + t) (some (half, m))) printed where
  slot i' hi' u := by
    rcases eq_or_ne u t with rfl | hu
    · rw [Function.update_self, slot_stored (j := j) hi']
      split_ifs with hi
      · rw [hi, Function.update_self]
        rfl
      · rw [Function.update_of_ne fun h ↦ hi (index_inj h).1, h.slot i' hi', hl]
    · rw [Function.update_of_ne hu, Function.update_of_ne fun h ↦ hu (index_inj h).2,
        h.slot i' hi']
  shows := h.shows
  indices half' := by
    rw [h.indices half', shown_goto fun _ ↦ ?_]
    rw [hl]
    split_ifs
    · cases half <;> cases half' <;> rfl
    · cases half <;> cases half' <;> rfl

/-- A thread prints an entry. -/
theorem print (h : Tabled loc leaders perRps printed) {half : Half} {p : ℕ}
    (hl : loc t = .printing half p) (hp : p < nrSizes * n)
    (hlead : leaders[half.wait]? = some t)
    (hentered : ∀ u, half.wait < (loc u).entered) :
    Tabled (Function.update loc t (.printing half (p + 1))) leaders perRps
      (printed ++ [(half, p, perRps p)]) where
  slot i hi := by
    refine (Function.forall_update_iff loc
      (p := fun u l ↦ (perRps (i * n + u.val)).map Prod.fst = Loc.slot i l)).mpr ?_
    refine ⟨?_, fun u _ ↦ h.slot i hi u⟩
    rw [h.slot i hi t, hl]
    cases half <;> rfl
  shows half' p' v hmem := by
    rcases List.mem_append.mp hmem with hold | hnew
    · exact h.shows half' p' v hold
    · obtain ⟨rfl, hpv⟩ := Prod.mk.inj (List.mem_singleton.mp hnew)
      obtain ⟨rfl, rfl⟩ := Prod.mk.inj hpv
      obtain ⟨u, hu⟩ : ∃ u : Fin n, u.val = p' % n := ⟨⟨p' % n, Nat.mod_lt _ t.pos⟩, rfl⟩
      have hslot := h.slot (p' / n) (Nat.div_lt_of_lt_mul (Nat.mul_comm n _ ▸ hp)) u
      rw [hu, Nat.div_add_mod'] at hslot
      obtain ⟨measured, hmeasured, hread⟩ := slot_of_lt_entered (hentered u) (p' / n)
      obtain ⟨⟨_, m⟩, hv, rfl⟩ := Option.map_eq_some_iff.mp (hslot.trans hmeasured)
      refine ⟨t, _, m, hlead, hv, ?_⟩
      rintro (hhalf | hmine)
      · exact (hread hhalf).trans hhalf.symm
      · obtain rfl : u = t := Fin.ext (hu.trans hmine)
        rw [hl] at hmeasured
        cases half' <;> exact (Option.some_inj.mp hmeasured).symm
  indices half' := by
    rw [TestLatency.indices, List.filter_append, List.map_append, ← TestLatency.indices,
      h.indices half']
    rcases eq_or_ne half half' with rfl | hne
    · have hold : shown loc leaders half = p := by
        rw [shown, hlead, Option.map_some, Option.getD_some, hl]
        cases half <;> rfl
      have hnew : shown (Function.update loc t (.printing half (p + 1))) leaders half = p + 1 := by
        rw [shown, hlead, Option.map_some, Option.getD_some, Function.update_self]
        cases half <;> rfl
      rw [hold, hnew, List.range_succ]
      simp
    · rw [shown_goto fun _ ↦ ?_]
      · simp [hne]
      · rw [hl]
        cases half <;> cases half' <;> first | rfl | contradiction

end Tabled

/-- **The tables are kept by every step.** -/
theorem Step.tabled {P : Params n} {s s' : State n M} (h : Step P s s')
    (hs : Placed P.tests s.loc s.barrier)
    (hT : Tabled s.loc s.barrier.leaders s.perRps s.printed) :
    Tabled s'.loc s'.barrier.leaders s'.perRps s'.printed := by
  cases h with
  | refused t hl | dies t hl | allocates t buf remoteAddr hl | frees t hl =>
      refine hT.goto (fun i _ ↦ ?_) fun half _ ↦ ?_ <;> rw [hl]
      · rfl
      · cases half <;> rfl
  | enters t k b hl hb =>
      obtain ⟨-, rfl⟩ := Barrier.enter_eq hb
      refine hT.goto (fun i _ ↦ ?_) fun half _ ↦ ?_ <;> rw [hl]
      · match k with
        | 0 | 1 | _ + 2 => rfl
      · match half, k with
        | .write, 0 | .write, 1 | .write, _ + 2 | .read, _ => rfl
  | chooses t b hb =>
      have hle := hs.steady.left_le t
      obtain ⟨-, rfl⟩ := Barrier.complete_eq hb
      exact hT.complete (hs.left t ▸ hle)
  | leaves t k b hl hb =>
      have hlt := hs.bounded t
      rw [hl] at hlt
      obtain ⟨-, -, rfl⟩ := Barrier.leave_eq hb
      refine hT.goto (fun i _ ↦ ?_) fun half ht ↦ ?_ <;> rw [hl]
      · rw [slot_afterWait hlt]
      · refine shown_afterWait hlt _ fun hk ↦ ?_
        subst hk
        exact decide_eq_true ht
  | keys t ret hl =>
      refine hT.goto (fun i _ ↦ ?_) fun half _ ↦ ?_ <;> rw [hl]
      · simp [Loc.slot]
      · cases half <;> rfl
  | calls t half i j hl hj =>
      refine hT.goto (fun i _ ↦ ?_) fun half' _ ↦ ?_ <;> rw [hl]
      · cases half <;> rfl
      · cases half <;> cases half' <;> rfl
  | stores t half i j m hl hj => exact hT.store m hl
  | prints t half p hl hp =>
      have hleft : half.wait < (s.loc t).left := by
        rw [hl]
        cases half <;> exact Nat.lt_succ_self _
      exact hT.print hl hp (hs.chosen t half.wait (by rw [hl]; rfl)) (hs.lt_entered hleft)
  | printed t half p hl hp =>
      have hb := hs.bounded t
      rw [hl] at hb
      obtain rfl : p = nrSizes * n := le_antisymm hb (Nat.not_lt.mp hp)
      refine hT.goto (fun i _ ↦ ?_) fun half' _ ↦ ?_ <;> rw [hl]
      · cases half <;> simp [Half.afterPrint, Loc.slot]
      · cases half <;> cases half' <;> rfl

end TestLatency

end Freelite
