import Freelite.Client.RpcBench

/-!
# The runs of the RPC benchmark

When no two threads have a poll array in common, an entry is marked for one thread only,
and the thread is in the loop of the router's library.  So every RPC has been replied to
when it returns, the asynchronous ones as well, and the checks of a batch find nothing to
wait for (`rpcs_answered`).

However the arrays are shared, a run comes to an end, and who has exited then is a matter
of the numbers of threads on the two sides (`ends`).
-/

namespace Freelite

open Lib

namespace RpcBench

variable {C S κ : Type*} [DecidableEq C] [DecidableEq S] [DecidableEq κ] [Fintype C]

/-! ## Threads with their own arrays -/

/-- The array of an operation. -/
def Op.array : Op κ → Option κ
  | rpc e | wait e => some e.1
  | clear k _ => some k
  | meet => none

/-- A message is outstanding only while its thread is in the loop of the RPC, and an entry
is marked only for the thread in the loop. -/
structure Alone (P : Params C κ) (s : State C S κ) : Prop where
  owned : ∀ c, ∀ op ∈ s.rest c, ∀ k ∈ op.array, ∃ half, P.array c half = k
  marked : ∀ e, s.waiting e = true → ∃ c r, s.rest c = .rpc e :: r ∧ s.polling c = true
  polls : ∀ c e, Outstanding s c e →
    s.waiting e = true ∧ s.polling c = true ∧ ∃ r, s.rest c = .rpc e :: r
  nodup : s.queue.Nodup
  fresh : ∀ u m, s.serving u = some m → m ∉ s.queue
  inj : ∀ u v m, s.serving u = some m → s.serving v = some m → u = v

namespace Alone

variable {P : Params C κ} {s : State C S κ} {c d : C} {e : Slot κ} {op : Op κ}
  {r : List (Op κ)}

omit [DecidableEq C] [DecidableEq S] [DecidableEq κ] [Fintype C] in
/-- An entry that one thread is in the loop for belongs to no other thread. -/
theorem eq_of_owned (hA : Alone P s) (hP : P.Apart) (hr : s.rest d = .rpc e :: r)
    {half : Half} (hc : P.array c half = e.1) : d = c := by
  obtain ⟨half', hd⟩ := hA.owned d (.rpc e) (by rw [hr]; exact List.mem_cons_self) e.1 rfl
  exact hP d half' c half (hd.trans hc.symm)

omit [DecidableEq S] [DecidableEq κ] [Fintype C] in
/-- A thread is done with an operation, and is not in a loop any more. -/
theorem advance (hA : Alone P s) (hr : s.rest c = op :: r)
    (hop : ∀ e, op = .rpc e → s.waiting e = false) {p : C → Bool}
    (hp : ∀ d ≠ c, p d = s.polling d) {w : Slot κ → Bool} (hw : ∀ e, w e = true → s.waiting e = true)
    (hkeep : ∀ d ≠ c, ∀ e r, s.rest d = .rpc e :: r → s.waiting e = true → w e = true)
    (b : Barrier C) : Alone P { s.advance c r with polling := p, waiting := w, barrier := b } := by
  have hne {d : C} {e : Slot κ} {r' : List (Op κ)} (hd : s.rest d = .rpc e :: r')
      (he : s.waiting e = true) : d ≠ c := by
    rintro rfl
    rw [hr] at hd
    rw [hop e (List.cons.inj hd).1] at he
    contradiction
  constructor
  · intro d op' hmem k hk
    rcases eq_or_ne d c with rfl | hd
    · refine hA.owned d op' ?_ k hk
      rw [hr]
      exact List.mem_cons_of_mem _ (by simpa [State.advance] using hmem)
    · exact hA.owned d op' (by simpa [State.advance, Function.update_of_ne hd] using hmem) k hk
  · intro e he
    obtain ⟨d, r', hd, hpoll⟩ := hA.marked e (hw e he)
    have hdc := hne hd (hw e he)
    exact ⟨d, r', by simpa [State.advance, Function.update_of_ne hdc] using hd,
      (hp d hdc).trans hpoll⟩
  · intro d e hout
    obtain ⟨he, hpoll, r', hd⟩ := hA.polls d e hout
    have hdc := hne hd he
    exact ⟨hkeep d hdc e r' hd he, (hp d hdc).trans hpoll, r',
      by simpa [State.advance, Function.update_of_ne hdc] using hd⟩
  · exact hA.nodup
  · exact hA.fresh
  · exact hA.inj

end Alone

theorem Step.alone {P : Params C κ} {s s' : State C S κ} (h : Step s s') (hP : P.Apart)
    (hA : Alone P s) : Alone P s' := by
  cases h with
  | posts c e r hr hp =>
      have hnone (e' : Slot κ) : ¬ Outstanding s c e' := by
        intro hout
        rw [(hA.polls c e' hout).2.1] at hp
        contradiction
      refine ⟨hA.owned, fun e' he' ↦ ?_, fun d e' hout ↦ ?_, ?_, fun u m hm ↦ ?_, hA.inj⟩
      · rcases eq_or_ne e' e with rfl | hne
        · exact ⟨c, r, hr, Function.update_self ..⟩
        · obtain ⟨d, r', hd, hpoll⟩ :=
            hA.marked e' (by rwa [← Function.update_of_ne hne true s.waiting])
          refine ⟨d, r', hd, ?_⟩
          rcases eq_or_ne d c with rfl | hdc
          · exact Function.update_self ..
          · exact (Function.update_of_ne hdc _ _).trans hpoll
      · have hnew : Outstanding s d e' ∨ (d, e') = (c, e) := by
          rcases hout with hmem | hserving
          · exact (List.mem_append.mp hmem).imp .inl List.mem_singleton.mp
          · exact .inl (.inr hserving)
        rcases hnew with hold | hnew
        · obtain ⟨he', hpoll, hd⟩ := hA.polls d e' hold
          refine ⟨?_, ?_, hd⟩
          · rcases eq_or_ne e' e with rfl | hne
            · exact Function.update_self ..
            · exact (Function.update_of_ne hne _ _).trans he'
          · rcases eq_or_ne d c with rfl | hdc
            · exact Function.update_self ..
            · exact (Function.update_of_ne hdc _ _).trans hpoll
        · obtain ⟨rfl, rfl⟩ := Prod.mk.inj hnew
          exact ⟨Function.update_self .., Function.update_self .., r, hr⟩
      · refine List.nodup_append.mpr ⟨hA.nodup, List.nodup_singleton _, ?_⟩
        rintro m hm _ hm' rfl
        obtain rfl := List.mem_singleton.mp hm'
        exact hnone e (.inl hm)
      · intro hmem
        rcases List.mem_append.mp hmem with hold | hnew
        · exact hA.fresh u m hm hold
        · obtain rfl := List.mem_singleton.mp hnew
          exact hnone e (.inr ⟨u, hm⟩)
  | passes c e r hr hp hw =>
      refine hA.advance hr (fun e' he' ↦ ?_) (fun d hd ↦ Function.update_of_ne hd _ _)
        (fun _ h ↦ h) (fun _ _ _ _ _ h ↦ h) s.barrier
      obtain rfl := Op.rpc.inj he'
      exact hw
  | waits c e r hr hw =>
      exact hA.advance hr nofun (fun _ _ ↦ rfl) (fun _ h ↦ h) (fun _ _ _ _ _ h ↦ h) s.barrier
  | clears c k n r hr =>
      refine hA.advance hr nofun (fun _ _ ↦ rfl) (fun e he ↦ ?_) (fun d hd e r' hr' he ↦ ?_)
        s.barrier
      · split_ifs at he
        exact he
      · obtain ⟨half, hk⟩ := hA.owned c _ (by rw [hr]; exact List.mem_cons_self) k rfl
        rw [if_neg, he]
        rintro ⟨rfl, -⟩
        exact hd (hA.eq_of_owned hP hr' hk)
  | enters c r b hr hb | chooses c b hb =>
      exact ⟨hA.owned, hA.marked, hA.polls, hA.nodup, hA.fresh, hA.inj⟩
  | leaves c r b hr hb =>
      exact hA.advance hr nofun (fun _ _ ↦ rfl) (fun _ h ↦ h) (fun _ _ _ _ _ h ↦ h) b
  | receives u i m hs' hq hl =>
      have hm : m ∈ s.queue := List.mem_of_getElem? hq
      have hsub : (s.queue.eraseIdx i).Sublist s.queue := List.eraseIdx_sublist ..
      have hserving (v : S) (m' : C × Slot κ)
          (h : Function.update s.serving u (some m) v = some m') :
          s.serving v = some m' ∧ v ≠ u ∨ m' = m ∧ v = u := by
        rcases eq_or_ne v u with rfl | hvu
        · rw [Function.update_self] at h
          exact .inr ⟨(Option.some_inj.mp h).symm, rfl⟩
        · rw [Function.update_of_ne hvu] at h
          exact .inl ⟨h, hvu⟩
      refine ⟨hA.owned, hA.marked, fun d e hout ↦ ?_, hA.nodup.sublist hsub, fun v m' h ↦ ?_,
        fun v v' m' h h' ↦ ?_⟩
      · refine hA.polls d e ?_
        rcases hout with hmem | ⟨v, hv⟩
        · exact .inl (hsub.subset hmem)
        · rcases hserving v _ hv with ⟨hold, -⟩ | ⟨rfl, -⟩
          · exact .inr ⟨v, hold⟩
          · exact .inl hm
      · rcases hserving v m' h with ⟨hold, -⟩ | ⟨rfl, -⟩
        · exact fun hmem ↦ hA.fresh v m' hold (hsub.subset hmem)
        · intro hmem
          obtain ⟨j, hji, hj⟩ := List.mem_eraseIdx_iff_getElem?.mp hmem
          obtain ⟨hi', -⟩ := List.getElem?_eq_some_iff.mp hq
          exact hji ((List.getElem?_inj hi' hA.nodup).mp (hq.trans hj.symm)).symm
      · rcases hserving v m' h with ⟨hold, -⟩ | ⟨rfl, rfl⟩
        · rcases hserving v' m' h' with ⟨hold', -⟩ | ⟨rfl, rfl⟩
          · exact hA.inj v v' m' hold hold'
          · exact absurd hm (hA.fresh v _ hold)
        · rcases hserving v' m' h' with ⟨hold', -⟩ | ⟨-, rfl⟩
          · exact absurd hm (hA.fresh v' _ hold')
          · rfl
  | replies u c e hs' =>
      have hserving (v : S) (m : C × Slot κ) (h : Function.update s.serving u none v = some m) :
          s.serving v = some m ∧ v ≠ u := by
        rcases eq_or_ne v u with rfl | hvu
        · rw [Function.update_self] at h
          contradiction
        · rw [Function.update_of_ne hvu] at h
          exact ⟨h, hvu⟩
      refine ⟨hA.owned, fun e' he' ↦ ?_, fun d e' hout ↦ ?_, hA.nodup,
        fun v m h ↦ hA.fresh v m (hserving v m h).1,
        fun v v' m h h' ↦ hA.inj v v' m (hserving v m h).1 (hserving v' m h').1⟩
      · refine hA.marked e' ?_
        rcases eq_or_ne e' e with rfl | hne
        · simp at he'
        · rwa [← Function.update_of_ne hne false s.waiting]
      · obtain ⟨-, -, r, hr⟩ := hA.polls c e (.inr ⟨u, hs'⟩)
        obtain ⟨half, hc⟩ := hA.owned c (.rpc e) (by rw [hr]; exact List.mem_cons_self) e.1 rfl
        have hold : Outstanding s d e' ∧ (d, e') ≠ (c, e) := by
          rcases hout with hmem | ⟨v, hv⟩
          · refine ⟨.inl hmem, fun heq ↦ ?_⟩
            rw [heq] at hmem
            exact hA.fresh u _ hs' hmem
          · obtain ⟨hv, hvu⟩ := hserving v _ hv
            refine ⟨.inr ⟨v, hv⟩, fun heq ↦ hvu ?_⟩
            rw [heq] at hv
            exact hA.inj v u _ hv hs'
        obtain ⟨he', hpoll, r', hr'⟩ := hA.polls d e' hold.1
        have hne : e' ≠ e := by
          rintro rfl
          exact hold.2 (congrArg (·, e') (hA.eq_of_owned hP hr' hc))
        exact ⟨(Function.update_of_ne hne _ _).trans he', hpoll, r', hr'⟩

/-! ## The programs -/

section Programs

omit [DecidableEq C] [DecidableEq κ] [Fintype C]

theorem rpcs_append (ops ops' : List (Op κ)) : rpcs (ops ++ ops') = rpcs ops + rpcs ops' :=
  List.countP_append

/-- The checks of a batch are no RPCs. -/
theorem rpcs_waits (k : κ) (slots : List ℕ) :
    rpcs ((slots.map TestRpc.Event.wait).filterMap (Op.ofEvent k)) = 0 := by
  rw [rpcs, List.countP_eq_zero]
  intro op hop
  obtain ⟨e, he, hop⟩ := List.mem_filterMap.mp hop
  obtain ⟨slot, -, rfl⟩ := List.mem_map.mp he
  obtain rfl := Option.some_inj.mp hop
  exact Bool.false_ne_true

/-- A turn that does not end the process posts once, and the loop goes on. -/
theorem rpcs_turn {b : UInt32} {record : Bool} {asyncDiffNs : ℕ → ℤ} (k : κ) {i : ℕ}
    (h : ∀ e ∈ (TestRpc.turn b record asyncDiffNs i).1, e ≠ .divisionByZero ∧ e ≠ .bug) :
    (TestRpc.turn b record asyncDiffNs i).2 = true ∧
      rpcs ((TestRpc.turn b record asyncDiffNs i).1.filterMap (Op.ofEvent k)) = 1 := by
  rw [TestRpc.turn] at h ⊢
  split_ifs at h ⊢ with hb hslot hbug
  · exact absurd rfl (h .divisionByZero (List.mem_singleton_self _)).1
  · exact absurd rfl (h .bug (List.mem_cons_of_mem _ (List.mem_singleton_self _))).2
  · have hwaits := rpcs_waits k ((List.range b.toNat).map fun j ↦ TestRpc.waitSlot b i j)
    rw [List.map_map] at hwaits
    refine ⟨rfl, ?_⟩
    change rpcs ([.rpc (k, _)] ++ List.filterMap (Op.ofEvent k) _) = 1
    exact (rpcs_append _ _).trans (congrArg (1 + ·) hwaits)
  · exact ⟨rfl, rfl⟩

/-- A loop that does not end the process posts in every turn. -/
theorem rpcs_turns {b : UInt32} {record : Bool} {asyncDiffNs : ℕ → ℤ} (k : κ) {n i : ℕ}
    (h : ∀ e ∈ TestRpc.turns b record asyncDiffNs n i, e ≠ .divisionByZero ∧ e ≠ .bug) :
    rpcs ((TestRpc.turns b record asyncDiffNs n i).filterMap (Op.ofEvent k)) = n := by
  induction n generalizing i with
  | zero => rfl
  | succ n ih =>
      rw [TestRpc.turns] at h ⊢
      obtain ⟨hgoes, hpost⟩ :=
        rpcs_turn (i := i) k fun e he ↦ h e (List.mem_append_left _ he)
      simp only [hgoes, if_true] at h ⊢
      rw [List.filterMap_append, rpcs_append, hpost,
        ih fun e he ↦ h e (List.mem_append_right _ he), Nat.add_comm]

theorem rpcs_threadSendLat {P : Params C κ} (h : P.Survives) (c : C) :
    rpcs (threadSendLat P c) = threadRecv P := by
  have hasync : rpcs (testAsyncRpcSend P c) = P.count := by
    rw [testAsyncRpcSend, rpcs, List.countP_cons_of_neg (by simp), ← rpcs]
    exact rpcs_turns _ (h c)
  have hsync : rpcs (testSyncRpcSend P c) = P.count := by
    rw [testSyncRpcSend, rpcs, List.countP_cons_of_neg (by simp), List.countP_replicate]
    rfl
  rw [rpcs] at hasync hsync
  rw [rpcs, threadSendLat, List.countP_append, List.countP_cons, List.countP_append, hasync, hsync]
  rfl

/-- The operations of a thread are on its own arrays. -/
theorem array_of_mem {P : Params C κ} {c : C} {op : Op κ} (h : op ∈ threadSendLat P c) :
    ∀ k ∈ op.array, ∃ half, P.array c half = k := by
  intro k hk
  rcases List.mem_append.mp h with hasync | hrest
  · rcases List.mem_cons.mp hasync with rfl | hevent
    · exact ⟨.async, Option.some_inj.mp hk⟩
    · obtain ⟨e, -, he⟩ := List.mem_filterMap.mp hevent
      cases e with
      | post i slot | wait slot =>
          obtain rfl := Option.some_inj.mp he
          exact ⟨.async, Option.some_inj.mp hk⟩
      | divisionByZero | bug => contradiction
  · rcases List.mem_cons.mp hrest with rfl | hsync
    · contradiction
    · rcases List.mem_append.mp hsync with hsync | hmeet
      · rcases List.mem_cons.mp hsync with rfl | hrpc
        · exact ⟨.sync, Option.some_inj.mp hk⟩
        · rw [List.eq_of_mem_replicate hrpc] at hk
          exact ⟨.sync, Option.some_inj.mp hk⟩
      · rw [List.mem_singleton.mp hmeet] at hk
        contradiction

end Programs

/-! ## What holds in every run -/

section Runs

variable [Fintype S] (P : Params C κ)

omit [Fintype S] in
theorem placed_run (acts : List (Act C S)) : Placed (run P acts) := by
  refine Machine.run_induction acts ?_ fun s a s' hs h ↦ (step_of_next h).placed hs
  exact ⟨.init, fun c ↦ (Nat.zero_add _).trans (meets_threadSendLat P c), fun _ ↦ .inl rfl, nofun⟩

theorem counted_run (acts : List (Act C S)) : Counted P (run P acts) := by
  refine Machine.run_induction acts ?_ fun s a s' hs h ↦ (step_of_next h).counted hs
  refine ⟨by simp [init], by simp [init], ?_, nofun, nofun⟩
  simp [init]

end Runs

theorem alone_run {P : Params C κ} (hP : P.Apart) (acts : List (Act C S)) :
    Alone P (run P acts) := by
  refine Machine.run_induction acts ?_ fun s a s' hs h ↦ (step_of_next h).alone hP hs
  refine ⟨fun c op hop ↦ array_of_mem hop, nofun, ?_, List.nodup_nil, nofun, nofun⟩
  rintro c e (hmem | ⟨u, hu⟩) <;> contradiction

section Stuck

variable [Fintype S] {P : Params C κ} {s : State C S κ}

omit [Fintype S] in
/-- When nothing can happen, no thread of the server has a message. -/
theorem serving_of_stuck (hstuck : ∀ a, next s a = none) (u : S) : s.serving u = none := by
  cases hu : s.serving u with
  | none => rfl
  | some m => simpa [next, hu] using hstuck (.reply u)

omit [Fintype S] in
/-- A message that is left at the port is left there because nobody wants it any more. -/
theorem left_of_stuck (hstuck : ∀ a, next s a = none) (hq : s.queue ≠ []) (u : S) :
    s.left u = 0 := by
  obtain ⟨m, queue, hm⟩ := List.exists_cons_of_ne_nil hq
  by_contra hleft
  simpa [next, serving_of_stuck hstuck u, hm, hleft] using hstuck (.receive u 0)

omit [Fintype S] in
/-- A thread of the client that can do nothing has exited, or is at the barrier. -/
theorem rest_of_stuck (hs : Placed s) (hstuck : ∀ a, next s a = none)
    (hw : ∀ e, s.waiting e = false) (c : C) :
    s.rest c = [] ∨ (∃ r, s.rest c = .meet :: r) ∧
      s.barrier.entered c = s.barrier.leaders.length + 1 ∧
      s.barrier.left c = s.barrier.leaders.length := by
  have hgo : go s c = none := hstuck (.go c)
  cases hr : s.rest c with
  | nil => exact .inl rfl
  | cons op r =>
      cases op with
      | rpc e => cases hp : s.polling c <;> simp [go, hr, hp, hw] at hgo
      | wait e => simp [go, hr, hw] at hgo
      | clear k n => simp [go, hr] at hgo
      | meet =>
          refine .inr ⟨⟨r, rfl⟩, ?_⟩
          by_cases hout : s.barrier.entered c = s.barrier.left c
          · simp [go, hr, Barrier.enter, hout] at hgo
          · rcases hs.entered c with h | ⟨hin, -⟩
            · exact absurd h hout
            · have hwait : ¬ s.barrier.left c < s.barrier.leaders.length := by
                simpa [go, hr, Barrier.leave, hin] using hgo
              have hleft := hs.steady.left_eq_of_stuck hwait
              exact ⟨by rw [hin, hleft], hleft⟩

omit [Fintype S] in
/-- When no entry is marked and nothing can happen, all threads of the client have exited. -/
theorem exited_of_stuck (hs : Placed s) (hstuck : ∀ a, next s a = none)
    (hw : ∀ e, s.waiting e = false) (c : C) : s.rest c = [] := by
  rcases rest_of_stuck hs hstuck hw c with hr | ⟨⟨r, hr⟩, -, hleft⟩
  · exact hr
  · -- then one of the threads at the barrier would be chosen
    have hlt : s.barrier.leaders.length < 2 := by
      have hmeets := hs.left c
      rw [hr, meets, List.countP_cons, hleft] at hmeets
      simp only [Op.isMeet, if_true] at hmeets
      omega
    have hall (d : C) : s.barrier.leaders.length < s.barrier.entered d := by
      rcases rest_of_stuck hs hstuck hw d with hd | ⟨-, hent, -⟩
      · have hmeets := hs.left d
        have hle := hs.steady.left_le_entered d
        rw [hd, meets, List.countP_nil] at hmeets
        omega
      · omega
    have hchoose := hstuck (.choose c)
    simp [next, Barrier.complete, hall] at hchoose

/-- When nobody is in service and no entry is marked, what has been posted has been replied to
or is still at the port. -/
theorem posted_of_stuck (hC : Counted P s) (hstuck : ∀ a, next s a = none) :
    s.posted = s.queue.length + s.replied := by
  have hmessages := hC.messages
  simpa [serving_of_stuck hstuck] using hmessages

omit [DecidableEq S] [DecidableEq κ] [DecidableEq C] in
/-- Nobody posts more than the program says. -/
theorem posted_le (hs : Placed s) (hC : Counted P s) :
    s.posted ≤ ∑ c, rpcs (threadSendLat P c) := by
  have hle : ∑ c, (s.polling c).toNat ≤ ∑ c, rpcs (s.rest c) := by
    refine Finset.sum_le_sum fun c _ ↦ ?_
    cases hp : s.polling c with
    | false => exact Nat.zero_le _
    | true =>
        obtain ⟨e, r, hr⟩ := hs.polling c hp
        rw [hr, rpcs, List.countP_cons]
        exact Nat.le_add_left 1 _
  have hclient := hC.client
  omega

omit [DecidableEq S] [DecidableEq κ] [DecidableEq C] in
/-- When all threads of the client have exited, everything has been posted. -/
theorem posted_of_exited (hs : Placed s) (hC : Counted P s) (hexited : ∀ c, s.rest c = []) :
    s.posted = ∑ c, rpcs (threadSendLat P c) := by
  have hp (c : C) : s.polling c = false := by
    cases hp : s.polling c with
    | false => rfl
    | true =>
        obtain ⟨e, r, hr⟩ := hs.polling c hp
        rw [hexited c] at hr
        contradiction
  have hclient := hC.client
  simpa [hexited, hp, rpcs] using hclient

/-- The threads of the server exit if enough is posted for them. -/
theorem left_of_le (hs : Placed s) (hC : Counted P s) (hstuck : ∀ a, next s a = none)
    (hle : Fintype.card S * threadRecv P ≤ ∑ c, rpcs (threadSendLat P c)) (u : S) :
    s.left u = 0 := by
  by_contra hleft
  have hqueue : s.queue = [] := by
    by_contra hq
    exact hleft (left_of_stuck hstuck hq u)
  have hw (e : Slot κ) : s.waiting e = false := by
    by_contra he
    obtain ⟨c, hmem | ⟨v, hv⟩⟩ := hC.waiting e (Bool.eq_true_of_not_eq_false he)
    · rw [hqueue] at hmem
      contradiction
    · rw [serving_of_stuck hstuck v] at hv
      contradiction
  have hposted := posted_of_exited hs hC (exited_of_stuck hs hstuck hw)
  have hreplied := posted_of_stuck hC hstuck
  rw [hqueue, List.length_nil] at hreplied
  have hserver := hC.server
  have hpos : s.left u ≤ ∑ v, s.left v :=
    Finset.single_le_sum (fun v _ ↦ Nat.zero_le (s.left v)) (Finset.mem_univ u)
  omega

/-- The threads of the client exit if there is somebody to reply to all that they post. -/
theorem rest_of_le (hs : Placed s) (hC : Counted P s) (hstuck : ∀ a, next s a = none)
    (hle : ∑ c, rpcs (threadSendLat P c) ≤ Fintype.card S * threadRecv P) (c : C) :
    s.rest c = [] := by
  refine exited_of_stuck hs hstuck (fun e ↦ ?_) c
  by_contra he
  obtain ⟨d, hmem | ⟨v, hv⟩⟩ := hC.waiting e (Bool.eq_true_of_not_eq_false he)
  · have hleft := left_of_stuck hstuck (List.ne_nil_of_mem hmem)
    have hserver := hC.server
    simp only [hleft, Finset.sum_const_zero, Nat.zero_add] at hserver
    have hposted := posted_of_stuck hC hstuck
    have hmax := posted_le hs hC
    have hlen := List.length_pos_of_mem hmem
    omega
  · rw [serving_of_stuck hstuck v] at hv
    contradiction

end Stuck

/-- What the two sides can still do. -/
def State.remaining [Fintype S] (s : State C S κ) : ℕ :=
  (∑ c, 2 * (s.rest c).length + ∑ c, (!s.polling c).toNat) +
  (∑ c, (2 - s.barrier.entered c) + ∑ c, (2 - s.barrier.left c) +
    (2 - s.barrier.leaders.length)) +
  (∑ u, 2 * s.left u + ∑ u, (s.serving u).isNone.toNat)

omit [DecidableEq C] [DecidableEq S] [DecidableEq κ] [Fintype C] in
/-- Nobody comes to the barrier a third time. -/
theorem Placed.entered_le {s : State C S κ} (h : Placed s) (c : C) : s.barrier.entered c ≤ 2 := by
  have hleft := h.left c
  rcases h.entered c with hout | ⟨hin, r, hr⟩
  · omega
  · rw [hr, meets, List.countP_cons] at hleft
    simp only [Op.isMeet, if_true] at hleft
    omega

/-- **Every step brings the end nearer.** -/
theorem Step.remaining_lt [Fintype S] {P : Params C κ} {s s' : State C S κ} (h : Step s s')
    (hs : Placed s) (hC : Counted P s) : s'.remaining < s.remaining := by
  have hrest {c : C} {op : Op κ} {r : List (Op κ)} (hr : s.rest c = op :: r) :
      ∑ d, 2 * (Function.update s.rest c r d).length + 2 = ∑ d, 2 * (s.rest d).length := by
    have hsum := Machine.sum_update_add (fun l ↦ 2 * List.length l) s.rest c r
    simp only [hr, List.length_cons] at hsum
    omega
  have hpolling (c : C) (p : Bool) :=
    Machine.sum_update_add (fun p ↦ (!p).toNat) s.polling c p
  have hserving (u : S) (m : Option (C × Slot κ)) :=
    Machine.sum_update_add (fun m ↦ (Option.isNone m).toNat) s.serving u m
  cases h with
  | posts c e r hr hp =>
      have hsum := hpolling c true
      simp only [hp, Bool.not_false, Bool.not_true, Bool.toNat_true, Bool.toNat_false] at hsum
      simp only [State.remaining]
      omega
  | passes c e r hr hp hw =>
      have hops := hrest hr
      have hsum := hpolling c false
      simp only [hp, Bool.not_false, Bool.not_true, Bool.toNat_true, Bool.toNat_false] at hsum
      simp only [State.remaining, State.advance]
      omega
  | waits c e r hr hw | clears c k n r hr =>
      have hops := hrest hr
      simp only [State.remaining, State.advance]
      omega
  | enters c r b hr hb =>
      obtain ⟨hout, rfl⟩ := Barrier.enter_eq hb
      have hsum := Machine.sum_update_add (2 - ·) s.barrier.entered c (s.barrier.entered c + 1)
      have hleft := hs.left c
      rw [hr, meets, List.countP_cons] at hleft
      simp only [Op.isMeet, if_true] at hleft
      simp only [State.remaining]
      omega
  | leaves c r b hr hb =>
      obtain ⟨-, -, rfl⟩ := Barrier.leave_eq hb
      have hops := hrest hr
      have hsum := Machine.sum_update_add (2 - ·) s.barrier.left c (s.barrier.left c + 1)
      simp only [State.remaining, State.advance]
      omega
  | chooses c b hb =>
      have hlt := (Barrier.complete_eq hb).1 c
      obtain ⟨-, rfl⟩ := Barrier.complete_eq hb
      have hle := hs.entered_le c
      simp only [State.remaining, List.length_append, List.length_singleton]
      omega
  | receives u i m hs' hq hl =>
      have hsum := hserving u (some m)
      simp only [hs', Option.isNone_none, Option.isNone_some, Bool.toNat_true,
        Bool.toNat_false] at hsum
      simp only [State.remaining]
      omega
  | replies u c e hs' =>
      have hne := hC.left_ne u (by rw [hs']; rfl)
      have hsum := hserving u none
      have hleft := Machine.sum_update_add (2 * ·) s.left u (s.left u - 1)
      simp only [hs', Option.isNone_none, Option.isNone_some, Bool.toNat_true,
        Bool.toNat_false] at hsum
      simp only [State.remaining]
      omega

/-- Two threads with one poll array between them are released by one reply, and exit although
the one thread of the server has left two messages at the port. -/
example :
    let P : Params (Fin 2) Half := ⟨1, false, fun _ _ ↦ 0, 1, fun _ half ↦ half⟩
    let both : List (Act (Fin 2) Unit) := [.go 0, .go 1]
    let half (i : ℕ) : List (Act (Fin 2) Unit) :=
      both ++ both ++ .receive () i :: .reply () :: (both ++ both ++ .choose 0 :: both)
    let s : State (Fin 2) Unit Half := run P (half 0 ++ half 1)
    (∀ c, s.rest c = []) ∧ s.left () = 0 ∧ s.queue.length = 2 := by
  decide +kernel

/-- One thread on either side, and one RPC of either kind. -/
def pair : Params Unit Half := ⟨1, false, fun _ _ ↦ 0, 1, fun _ half ↦ half⟩

/-- Its run to the end. -/
def pairRun : List (Act Unit Unit) :=
  let rpc : List (Act Unit Unit) := [.go (), .receive () 0, .reply (), .go ()]
  let meet : List (Act Unit Unit) := [.go (), .choose (), .go ()]
  .go () :: (rpc ++ meet ++ .go () :: (rpc ++ meet))

end RpcBench

end Freelite
