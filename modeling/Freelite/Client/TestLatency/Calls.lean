import Freelite.Client.TestLatency.Meetings

/-!
# The calls of the benchmark

Two invariants of the calls that the threads have made: what a thread knows when it makes
a call (`Logged`), and that the calls of each thread are those that lead it through the
program to where it is (`Traced`).
-/

namespace Freelite

open Lib

namespace TestLatency

variable {n : ℕ} {M : Type*}

/-! ## The handlers -/

/-- The call allocates remote memory. -/
def allocatesRemote : Forwarded → Bool
  | .allocRemoteMem .. => true
  | _ => false

/-- What leads a thread to a call. -/
def Justified (P : Params n) (s : State n M) (t : Fin n) : Forwarded → Prop
  | .allocLocalMem name size addr => .allocLocalMem name size addr = allocLocalMem P t
  | .freeLocalMem name .. => s.barrier.leaders ≠ [] ∧ name = shmName t
  | .allocRemoteMem nodeId size atomicFlag pw =>
      s.barrier.leaders[0]? = some t ∧
        .allocRemoteMem nodeId size atomicFlag pw = allocRemoteMem P
  | .rdmaWrite h .. => s.barrier.leaders ≠ [] ∧ (h = 0 ∨ ∃ ret ∈ s.keys, h = ret.toUInt32)
  | .rdmaRead h .. => s.barrier.leaders ≠ [] ∧ ∃ ret ∈ s.keys, h = ret.toUInt32
  | _ => False

/-- The calls that have been made. -/
structure Logged (P : Params n) (s : State n M) : Prop where
  justified : ∀ t c, (t, c) ∈ s.calls → Justified P s t c
  keys : s.calls.countP (fun e ↦ allocatesRemote e.2) = s.keys.length

theorem toUInt32_keyOf (ret : Int32) : (keyOf ret).toUInt32 = ret.toUInt32 := by
  apply UInt32.toBitVec_inj.mp
  change (ret.toBitVec.signExtend 64).setWidth 32 = ret.toBitVec
  ext i hi
  have hlt : i < 64 := hi.trans (by decide)
  rw [BitVec.getElem_setWidth, BitVec.getLsbD_signExtend]
  simp [hi, hlt]

/-- The barrier has been passed when a thread comes from it. -/
theorem Placed.leaders_ne_nil {tests k : ℕ} {loc : Fin n → Loc} {b : Barrier (Fin n)} {t : Fin n}
    (h : Placed tests loc b) (ht : k < (loc t).left) : b.leaders ≠ [] := by
  intro hnil
  have hle := h.steady.left_le t
  rw [hnil, h.left t] at hle
  exact Nat.not_lt_zero k (ht.trans_le hle)

theorem Justified.mono {P : Params n} {s s' : State n M} {t : Fin n} {c : Forwarded}
    (h : Justified P s t c) (hl : s.barrier.leaders <+: s'.barrier.leaders) (hk : s.keys <+: s'.keys) :
    Justified P s' t c := by
  have hne (h : s.barrier.leaders ≠ []) : s'.barrier.leaders ≠ [] := by
    intro hnil
    rw [hnil, List.prefix_nil] at hl
    exact h hl
  cases c with
  | allocLocalMem => exact h
  | freeLocalMem => exact ⟨hne h.1, h.2⟩
  | allocRemoteMem =>
      obtain ⟨hchosen, hcall⟩ := h
      obtain ⟨rest, hrest⟩ := hl
      refine ⟨?_, hcall⟩
      rw [← hrest, List.getElem?_append_left (List.getElem?_eq_some_iff.mp hchosen).1]
      exact hchosen
  | rdmaWrite =>
      obtain ⟨hpassed, hzero | ⟨ret, hret, hh⟩⟩ := h
      · exact ⟨hne hpassed, .inl hzero⟩
      · exact ⟨hne hpassed, .inr ⟨ret, hk.subset hret, hh⟩⟩
  | rdmaRead =>
      obtain ⟨hpassed, ret, hret, hh⟩ := h
      exact ⟨hne hpassed, ret, hk.subset hret, hh⟩
  | _ => exact h

/-- Nobody is chosen twice for a wait, and no key is forgotten. -/
theorem Step.grows {P : Params n} {s s' : State n M} (h : Step P s s') :
    s.barrier.leaders <+: s'.barrier.leaders ∧ s.keys <+: s'.keys := by
  cases h with
  | enters t k b hl hb =>
      obtain ⟨-, rfl⟩ := Barrier.enter_eq hb
      exact ⟨List.prefix_rfl, List.prefix_rfl⟩
  | chooses t b hb =>
      obtain ⟨-, rfl⟩ := Barrier.complete_eq hb
      exact ⟨List.prefix_append _ _, List.prefix_rfl⟩
  | leaves t k b hl hb =>
      obtain ⟨-, -, rfl⟩ := Barrier.leave_eq hb
      exact ⟨List.prefix_rfl, List.prefix_rfl⟩
  | keys t ret hl => exact ⟨List.prefix_rfl, List.prefix_append _ _⟩
  | _ => exact ⟨List.prefix_rfl, List.prefix_rfl⟩

/-- A step of a thread logs at most one call of the thread. -/
theorem Step.logs {P : Params n} {s s' : State n M} (h : Step P s s')
    (hs : Placed P.tests s.loc s.barrier) (hk : Keyed s) :
    (s'.calls = s.calls ∧ s'.keys = s.keys) ∨
    ∃ t c, s'.calls = s.calls ++ [(t, c)] ∧ Justified P s' t c ∧
      s'.keys.length = s.keys.length + if allocatesRemote c then 1 else 0 := by
  cases h with
  | refused t hl | dies t hl | allocates t buf remoteAddr hl => exact .inr ⟨t, _, rfl, rfl, rfl⟩
  | frees t hl =>
      refine .inr ⟨t, _, rfl, ⟨hs.leaders_ne_nil (t := t) (k := 0) ?_, rfl⟩, rfl⟩
      rw [hl]
      exact Nat.zero_lt_succ 2
  | keys t ret hl =>
      refine .inr ⟨t, _, rfl, ⟨hs.chosen t 0 (by rw [hl]; rfl), rfl⟩, ?_⟩
      exact List.length_append
  | calls t half i j hl hj =>
      refine .inr ⟨t, _, rfl, ?_, by cases half <;> rfl⟩
      have hleft : 0 < (s.loc t).left := by
        rw [hl]
        cases half <;> exact Nat.zero_lt_succ _
      have hpassed := hs.leaders_ne_nil hleft
      cases half with
      | write =>
          refine ⟨hpassed, ?_⟩
          rcases hk with ⟨-, hkey, -⟩ | ⟨ret, u, hkeys, hkey, -, -⟩
          · exact .inl (by rw [hkey]; rfl)
          · refine .inr ⟨ret, ?_, by rw [hkey, toUInt32_keyOf]⟩
            exact hkeys ▸ List.mem_singleton_self ret
      | read =>
          have hlt : 1 < (s.loc t).left := by
            rw [hl]
            exact Nat.lt_succ_self 1
          obtain ⟨ret, hkeys, hkey⟩ := hk.of_lt_left hs hlt
          refine ⟨hpassed, ret, ?_, by rw [hkey, toUInt32_keyOf]⟩
          exact hkeys ▸ List.mem_singleton_self ret
  | _ => exact .inl ⟨rfl, rfl⟩

theorem Step.logged {P : Params n} {s s' : State n M} (h : Step P s s')
    (hs : Placed P.tests s.loc s.barrier) (hk : Keyed s) (hlog : Logged P s) : Logged P s' := by
  obtain ⟨hleaders, hkeys⟩ := h.grows
  rcases h.logs hs hk with ⟨hc, hk'⟩ | ⟨t, c, hc, hj, hcount⟩
  · constructor
    · intro u d hmem
      rw [hc] at hmem
      exact (hlog.justified u d hmem).mono hleaders hkeys
    · rw [hc, hk', hlog.keys]
  · constructor
    · intro u d hmem
      rw [hc] at hmem
      rcases List.mem_append.mp hmem with hold | hnew
      · exact (hlog.justified u d hold).mono hleaders hkeys
      · obtain ⟨rfl, rfl⟩ := Prod.mk.inj (List.mem_singleton.mp hnew)
        exact hj
    · rw [hc, hcount, List.countP_append, hlog.keys, List.countP_singleton]

/-! ## The calls of a thread -/

/-- A call without its handler. -/
def eraseHandler : Forwarded → Forwarded
  | .rdmaWrite _ addr size offset pw => .rdmaWrite 0 addr size offset pw
  | .rdmaRead _ addr size offset pw => .rdmaRead 0 addr size offset pw
  | c => c

/-- The calls of a thread in their order, handlers aside. -/
def callsOf (calls : List (Fin n × Forwarded)) (t : Fin n) : List Forwarded :=
  (calls.filter fun e ↦ e.1 = t).map fun e ↦ eraseHandler e.2

/-- The calls of the first `i` turns of the loop over `i`, handlers aside. -/
def block (tests : ℕ) (half : Half) (remoteAddr : UInt64) (i : ℕ) : List Forwarded :=
  (List.range i).flatMap fun i ↦ List.replicate tests (half.call 0 remoteAddr i)

/-- The calls of a thread before the first loop. -/
def opening (P : Params n) (t : Fin n) (chosen : Bool) : List Forwarded :=
  allocLocalMem P t :: if chosen then [allocRemoteMem P] else []

/-- The calls that lead a thread to where it is. -/
def Loc.calls (P : Params n) (t : Fin n) (chosen : Bool) (buf remoteAddr : UInt64) :
    Loc → List Forwarded
  | allocating => []
  | exited true | before 0 | inside 0 | keying => [allocLocalMem P t]
  | calling .write i j =>
      opening P t chosen ++ block P.tests .write remoteAddr i ++
        List.replicate j (Half.write.call 0 remoteAddr i)
  | before 1 | inside 1 | printing .write _ =>
      opening P t chosen ++ block P.tests .write remoteAddr nrSizes
  | calling .read i j =>
      opening P t chosen ++ block P.tests .write remoteAddr nrSizes ++
        block P.tests .read remoteAddr i ++ List.replicate j (Half.read.call 0 remoteAddr i)
  | before _ | inside _ | printing .read _ | freeing =>
      opening P t chosen ++ block P.tests .write remoteAddr nrSizes ++
        block P.tests .read remoteAddr nrSizes
  | exited false =>
      opening P t chosen ++ block P.tests .write remoteAddr nrSizes ++
        block P.tests .read remoteAddr nrSizes ++ [freeLocalMem t buf remoteAddr]

/-- The thread has been chosen at the first wait. -/
def State.chosen (s : State n M) (t : Fin n) : Bool := s.barrier.leaders[0]? = some t

/-- Every thread has made the calls that lead it to where it is. -/
def Traced (P : Params n) (s : State n M) : Prop :=
  ∀ t, callsOf s.calls t = (s.loc t).calls P t (s.chosen t) (s.buf t) (s.remoteAddr t)

theorem callsOf_append_self (calls : List (Fin n × Forwarded)) (t : Fin n) (c : Forwarded) :
    callsOf (calls ++ [(t, c)]) t = callsOf calls t ++ [eraseHandler c] := by
  simp [callsOf]

theorem callsOf_append_of_ne (calls : List (Fin n × Forwarded)) {t u : Fin n} (h : u ≠ t)
    (c : Forwarded) : callsOf (calls ++ [(t, c)]) u = callsOf calls u := by
  simp [callsOf, h.symm]

theorem eraseHandler_call (half : Half) (key remoteAddr : UInt64) (i : ℕ) :
    eraseHandler (half.call key remoteAddr i) = half.call 0 remoteAddr i := by
  cases half <;> rfl

theorem block_succ (tests : ℕ) (half : Half) (remoteAddr : UInt64) (i : ℕ) :
    block tests half remoteAddr (i + 1) =
      block tests half remoteAddr i ++ List.replicate tests (half.call 0 remoteAddr i) := by
  rw [block, List.range_succ, List.flatMap_append, List.flatMap_singleton, block]

section Locations

variable {P : Params n} {t : Fin n} {buf remoteAddr : UInt64}

/-- Nobody knows before the first wait who is chosen at it. -/
theorem calls_of_left_le {l : Loc} (h : l.left ≤ 0) (c : Bool) :
    l.calls P t c buf remoteAddr = l.calls P t false buf remoteAddr := by
  cases l with
  | allocating => rfl
  | exited failed =>
      cases failed
      · exact absurd h (Nat.not_succ_le_zero 2)
      · rfl
  | keying | freeing => exact absurd h (Nat.not_succ_le_zero _)
  | calling half i j | printing half p => cases half <;> exact absurd h (Nat.not_succ_le_zero _)
  | before k | inside k =>
      obtain rfl := Nat.le_zero.mp h
      rfl

theorem calls_inside (k : ℕ) (c : Bool) :
    (Loc.inside k).calls P t c buf remoteAddr = (Loc.before k).calls P t c buf remoteAddr := by
  match k with
  | 0 | 1 | _ + 2 => rfl

theorem calls_afterWait {k : ℕ} (hk : k < 3) (c chosen : Bool) (h : k = 0 → c = chosen) :
    (afterWait k c).calls P t chosen buf remoteAddr =
      (Loc.inside k).calls P t chosen buf remoteAddr := by
  match k, c, hk with
  | 0, true, _ | 1, true, _ | 2, true, _ | 2, false, _ => rfl
  | 0, false, _ =>
      rw [← h rfl]
      rfl
  | 1, false, _ => simp [afterWait, Loc.calls, block]

theorem calls_calling_succ (half : Half) (i j : ℕ) (c : Bool) :
    (Loc.calling half i (j + 1)).calls P t c buf remoteAddr =
      (Loc.calling half i j).calls P t c buf remoteAddr ++ [half.call 0 remoteAddr i] := by
  cases half <;> simp [Loc.calls, List.replicate_succ']

/-- After the last turn of the loop over `j`. -/
theorem calls_stored {half : Half} {i : ℕ} (hi : i < nrSizes) (c : Bool) :
    (if i + 1 < nrSizes then Loc.calling half (i + 1) 0 else .before half.wait).calls P t c
        buf remoteAddr = (Loc.calling half i P.tests).calls P t c buf remoteAddr := by
  split_ifs with hlast
  · cases half <;> simp [Loc.calls, block_succ]
  · have hsizes : nrSizes = i + 1 := le_antisymm (Nat.not_lt.mp hlast) hi
    cases half <;> simp [Loc.calls, Half.wait, hsizes, block_succ]

end Locations

namespace Traced

variable {P : Params n} {s : State n M} {t : Fin n} {l : Loc}

/-- A thread goes on without a call. -/
theorem goto (h : Traced P s)
    (hl : l.calls P t (s.chosen t) (s.buf t) (s.remoteAddr t) =
      (s.loc t).calls P t (s.chosen t) (s.buf t) (s.remoteAddr t)) : Traced P (s.goto t l) := by
  intro u
  refine (h u).trans ?_
  change _ = (Function.update s.loc t l u).calls P u (s.chosen u) (s.buf u) (s.remoteAddr u)
  rcases eq_or_ne u t with rfl | hu
  · rw [Function.update_self, hl]
  · rw [Function.update_of_ne hu]

/-- A thread makes a call. -/
theorem call (h : Traced P s) {c : Forwarded}
    (hl : l.calls P t (s.chosen t) (s.buf t) (s.remoteAddr t) =
      (s.loc t).calls P t (s.chosen t) (s.buf t) (s.remoteAddr t) ++ [eraseHandler c]) :
    Traced P ((s.log t c).goto t l) := by
  intro u
  change callsOf (s.calls ++ [(t, c)]) u =
    (Function.update s.loc t l u).calls P u (s.chosen u) (s.buf u) (s.remoteAddr u)
  rcases eq_or_ne u t with rfl | hu
  · rw [callsOf_append_self, h u, Function.update_self, hl]
  · rw [callsOf_append_of_ne _ hu, h u, Function.update_of_ne hu]

end Traced

/-- **Every step of a thread is where its calls lead.** -/
theorem Step.traced {P : Params n} {s s' : State n M} (h : Step P s s')
    (hs : Placed P.tests s.loc s.barrier) (hT : Traced P s) : Traced P s' := by
  cases h with
  | refused t hl | dies t hl => exact hT.call (by rw [hl]; rfl)
  | allocates t buf remoteAddr hl =>
      have hcall := hT.call (t := t) (l := .before 0) (c := allocLocalMem P t) (by rw [hl]; rfl)
      intro u
      refine (hcall u).trans ?_
      change (Function.update s.loc t _ u).calls P u (s.chosen u) (s.buf u) (s.remoteAddr u) =
        (Function.update s.loc t _ u).calls P u (s.chosen u) (Function.update s.buf t buf u)
          (Function.update s.remoteAddr t remoteAddr u)
      rcases eq_or_ne u t with rfl | hu
      · rw [Function.update_self]
        rfl
      · rw [Function.update_of_ne hu, Function.update_of_ne hu, Function.update_of_ne hu]
  | enters t k b hl hb =>
      obtain ⟨-, rfl⟩ := Barrier.enter_eq hb
      exact hT.goto (t := t) (by rw [hl, calls_inside])
  | chooses t b hb =>
      have hle := hs.steady.left_le
      obtain ⟨-, rfl⟩ := Barrier.complete_eq hb
      intro u
      refine (hT u).trans ?_
      rw [State.chosen, State.chosen]
      cases hlen : s.barrier.leaders with
      | cons l leaders => rfl
      | nil =>
          have hleft := hle u
          rw [hs.left u, hlen] at hleft
          exact (calls_of_left_le hleft _).trans (calls_of_left_le hleft _).symm
  | leaves t k b hl hb =>
      have hlt := hs.bounded t
      rw [hl] at hlt
      obtain ⟨-, -, rfl⟩ := Barrier.leave_eq hb
      refine hT.goto (t := t) ?_
      rw [hl, calls_afterWait hlt]
      rintro rfl
      rfl
  | keys t ret hl =>
      refine hT.call (t := t) ?_
      rw [hl, State.chosen, hs.chosen t 0 (by rw [hl]; rfl)]
      simp [Loc.calls, opening, block, eraseHandler, allocRemoteMem]
  | calls t half i j hl hj =>
      refine hT.call ?_
      rw [hl, calls_calling_succ, eraseHandler_call]
  | stores t half i j m hl hj =>
      have hb := hs.bounded t
      rw [hl] at hb
      obtain rfl : j = P.tests := le_antisymm hb.2 (Nat.not_lt.mp hj)
      exact hT.goto (t := t) (by rw [hl, calls_stored hb.1])
  | prints t half p hl hp => exact hT.goto (t := t) (by rw [hl]; cases half <;> rfl)
  | printed t half p hl hp =>
      refine hT.goto (t := t) ?_
      rw [hl]
      cases half <;> simp [Half.afterPrint, Loc.calls, block]
  | frees t hl => exact hT.call (by rw [hl]; rfl)

end TestLatency

end Freelite
