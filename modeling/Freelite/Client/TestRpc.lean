import Mathlib

/-!
# The batches of the RPC benchmark

`client/test_rpc.c`: `test_async_rpc_send` posts RPCs to the slots of an array of
`async_batch_size` entries, RPC `i` to slot `i % async_batch_size`, and once in a batch
calls `wait_for_completion` on what are meant to be the slots of the batch before.

The loop is known through what it does in order, its *trace*.  A call may never return,
so a run of the loop is any prefix of the trace.

The first RPC of a batch is posted before the batch before it is waited for, and the
index of the slot to wait for is made with `&` where the slot was chosen with `%`.  All
is well if and only if there is no second batch (`batches_sound_iff`).
-/

namespace Freelite

namespace TestRpc

/-! ## The options -/

/-- `ASYNC_BATCH_LIMIT`. -/
def asyncBatchLimit : UInt32 := 1024

/-- What `getopt_long` finds.  A number is what `strtoul` makes of the argument. -/
inductive Opt
  | server
  | client
  | asyncLatency
  | asyncBatch (arg : UInt64)
  | remoteNid (arg : UInt64)
  | thread (arg : UInt64)
  | unknown
deriving DecidableEq

/-- The variables `main` sets. -/
structure Config where
  serverMode : Bool
  clientMode : Bool
  recordAsyncLatency : Bool
  asyncBatchSize : UInt32
  remoteNid : UInt32
  nrThreads : UInt32
deriving DecidableEq

/-- The variables before the options. -/
def Config.init : Config where
  serverMode := false
  clientMode := false
  recordAsyncLatency := false
  asyncBatchSize := 32
  remoteNid := -1
  nrThreads := 1

/-- One turn of the loop over the options.  There is no result where `main` returns. -/
def Opt.apply (c : Config) : Opt → Option Config
  | server => some { c with serverMode := true }
  | client => some { c with clientMode := true }
  | asyncLatency => some { c with recordAsyncLatency := true }
  | asyncBatch arg =>
      if arg.toUInt32 > asyncBatchLimit then none
      else some { c with asyncBatchSize := arg.toUInt32 }
  | remoteNid arg =>
      if arg.toUInt32 > 16 then none else some { c with remoteNid := arg.toUInt32 }
  | thread arg =>
      if arg.toUInt32 > 56 then none else some { c with nrThreads := arg.toUInt32 }
  | unknown => none

/-- `main`, up to the call of `run`. -/
def main (opts : List Opt) : Option Config :=
  (opts.foldlM Opt.apply .init).bind fun c ↦
    if !c.serverMode && !c.clientMode then none
    else if c.clientMode && c.remoteNid == -1 then none
    else if c.serverMode && c.remoteNid == -1 then none
    else some c

theorem Opt.asyncBatchSize_le {c c' : Config} {o : Opt} (h : o.apply c = some c')
    (hc : c.asyncBatchSize ≤ asyncBatchLimit) : c'.asyncBatchSize ≤ asyncBatchLimit := by
  cases o with
  | server | client | asyncLatency =>
      obtain rfl := Option.some_inj.mp h
      exact hc
  | asyncBatch arg =>
      rw [apply] at h
      split_ifs at h with harg
      obtain rfl := Option.some_inj.mp h
      exact UInt32.not_lt.mp harg
  | remoteNid arg | thread arg =>
      rw [apply] at h
      split_ifs at h
      obtain rfl := Option.some_inj.mp h
      exact hc
  | unknown => contradiction

theorem foldlM_asyncBatchSize_le {opts : List Opt} {c c' : Config}
    (h : opts.foldlM Opt.apply c = some c') (hc : c.asyncBatchSize ≤ asyncBatchLimit) :
    c'.asyncBatchSize ≤ asyncBatchLimit := by
  induction opts generalizing c with
  | nil =>
      obtain rfl := Option.some_inj.mp h
      exact hc
  | cons o opts ih =>
      obtain ⟨c₁, ho, h⟩ := Option.bind_eq_some_iff.mp h
      exact ih h (Opt.asyncBatchSize_le ho hc)

/-- The command line of a client with a batch size. -/
theorem main_client {b : UInt32} (hb : b ≤ asyncBatchLimit) :
    main [.asyncBatch b.toUInt64, .client, .remoteNid 1] =
      some { Config.init with clientMode := true, remoteNid := 1, asyncBatchSize := b } := by
  have hfirst : Opt.apply .init (.asyncBatch b.toUInt64) =
      some { Config.init with asyncBatchSize := b } := by
    rw [Opt.apply, UInt32.toUInt32_toUInt64, if_neg (UInt32.not_lt.mpr hb)]
  rw [main, List.foldlM_cons, hfirst]
  rfl

/-- **The batch sizes the options admit**: zero is one of them. -/
theorem admits_iff (b : UInt32) :
    (∃ opts c, main opts = some c ∧ c.asyncBatchSize = b) ↔ b ≤ asyncBatchLimit := by
  constructor
  · rintro ⟨opts, c, hc, rfl⟩
    obtain ⟨c', hfold, hc⟩ := Option.bind_eq_some_iff.mp hc
    split_ifs at hc
    obtain rfl := Option.some_inj.mp hc
    exact foldlM_asyncBatchSize_le hfold (by decide)
  · intro hb
    exact ⟨_, _, main_client hb, rfl⟩

/-! ## The loop -/

/-- What `test_async_rpc_send` does. -/
inductive Event
  /-- A remainder by zero, which ends the process. -/
  | divisionByZero
  /-- `async_rpc` is called for RPC `i` with an entry of `remote_poll_array`. -/
  | post (i slot : ℕ)
  /-- `wait_for_completion` is called with an entry of `poll_array`. -/
  | wait (slot : ℕ)
  /-- `BUG`, which ends the process. -/
  | bug
deriving DecidableEq

/-- The index of the slot of RPC `i`. -/
def slot (b : UInt32) (i : ℕ) : ℕ := (UInt32.ofNat i % b).toNat

/-- The index `(base + k) & async_batch_size` with `base = i - async_batch_size`. -/
def waitSlot (b : UInt32) (i k : ℕ) : ℕ :=
  ((UInt32.ofNat i - b + UInt32.ofNat k) &&& b).toNat

/-- One turn of the loop, and whether the loop goes on.  The latency that has been
measured before the check of the clocks is `asyncDiffNs i`. -/
def turn (b : UInt32) (record : Bool) (asyncDiffNs : ℕ → ℤ) (i : ℕ) : List Event × Bool :=
  if b = 0 then ([.divisionByZero], false)
  else if slot b i = 0 ∧ i ≠ 0 then
    if record ∧ asyncDiffNs i ≤ 0 then ([.post i (slot b i), .bug], false)
    else (.post i (slot b i) :: (List.range b.toNat).map fun k ↦ .wait (waitSlot b i k), true)
  else ([.post i (slot b i)], true)

/-- The turns from `i` on, of which there are `n`. -/
def turns (b : UInt32) (record : Bool) (asyncDiffNs : ℕ → ℤ) : ℕ → ℕ → List Event
  | 0, _ => []
  | n + 1, i =>
      let (events, goesOn) := turn b record asyncDiffNs i
      events ++ if goesOn then turns b record asyncDiffNs n (i + 1) else []

/-- The loop of `test_async_rpc_send`. -/
def testAsyncRpcSend (b : UInt32) (record : Bool) (asyncDiffNs : ℕ → ℤ) (nrAsyncRpc : Int32) :
    List Event :=
  turns b record asyncDiffNs nrAsyncRpc.toInt.toNat 0

variable {b : UInt32} {record : Bool} {asyncDiffNs : ℕ → ℤ} {i n m : ℕ}

theorem slot_of_lt (hi : i < b.toNat) : slot b i = i := by
  have hlt := b.toNat_lt
  rw [slot, UInt32.toNat_mod, UInt32.toNat_ofNat_of_lt' (by rw [UInt32.size]; omega)]
  exact Nat.mod_eq_of_lt hi

theorem slot_self (b : UInt32) : slot b b.toNat = 0 := by
  rw [slot, UInt32.ofNat_toNat, UInt32.toNat_mod, Nat.mod_self]

/-- Within the first batch nothing is waited for. -/
theorem turn_of_lt (hi : i < b.toNat) : turn b record asyncDiffNs i = ([.post i i], true) := by
  have hb : b ≠ 0 := by
    rintro rfl
    exact Nat.not_lt_zero i hi
  rw [turn, if_neg hb, slot_of_lt hi, if_neg]
  rintro ⟨h, h'⟩
  exact h' h

theorem turns_succ_of_lt (hi : i < b.toNat) :
    turns b record asyncDiffNs (n + 1) i = .post i i :: turns b record asyncDiffNs n (i + 1) := by
  rw [turns, turn_of_lt hi]
  rfl

/-- The turns of the first batch come down to their posts. -/
theorem turns_add (hn : i + n ≤ b.toNat) :
    turns b record asyncDiffNs (n + m) i =
      (List.range' i n).map (fun j ↦ .post j j) ++ turns b record asyncDiffNs m (i + n) := by
  induction n generalizing i with
  | zero => rw [Nat.zero_add, Nat.add_zero, List.range'_zero, List.map_nil, List.nil_append]
  | succ n ih =>
      have hrest := ih (i := i + 1) (by omega)
      rw [Nat.add_right_comm, turns_succ_of_lt (by omega), hrest, List.range'_succ, List.map_cons,
        List.cons_append, Nat.add_right_comm, Nat.add_assoc]

/-- The turn after the first batch posts to slot zero, whatever it does then. -/
theorem turns_first_of_second_batch (hb : b ≠ 0) (record : Bool) (asyncDiffNs : ℕ → ℤ) (n : ℕ) :
    ∃ rest, turns b record asyncDiffNs (n + 1) b.toNat = .post b.toNat 0 :: rest := by
  rw [turns, turn, if_neg hb, slot_self]
  split_ifs with h hbug
  · exact ⟨_, rfl⟩
  · exact ⟨_, rfl⟩
  · exact ⟨_, rfl⟩

theorem turns_of_zero : turns 0 record asyncDiffNs (n + 1) i = [.divisionByZero] := by
  rw [turns, turn, if_pos rfl]
  rfl

/-! ## The discipline of the slots -/

/-- What is expected of a run with `b` slots. -/
structure Sound (b : UInt32) (run : List Event) : Prop where
  no_division : Event.divisionByZero ∉ run
  post_lt : ∀ i s, Event.post i s ∈ run → s < b.toNat
  wait_lt : ∀ s, Event.wait s ∈ run → s < b.toNat
  /-- Between the posts of RPCs that share a slot, the slot is waited for. -/
  waited : ∀ before rest i s, run = before ++ .post (i + b.toNat) s :: rest →
    ∃ earlier later, before = earlier ++ .post i s :: later ∧ Event.wait s ∈ later

/-- Posts to different slots are sound. -/
theorem sound_of_prefix {run : List Event}
    (h : run <+: (List.range' 0 n).map fun j ↦ .post j j) (hn : n ≤ b.toNat) : Sound b run := by
  have hmem {e : Event} (he : e ∈ run) : ∃ j < b.toNat, e = .post j j := by
    obtain ⟨j, hj, rfl⟩ := List.mem_map.mp (h.subset he)
    rw [List.mem_range'_1] at hj
    exact ⟨j, by omega, rfl⟩
  refine ⟨fun he ↦ ?_, fun i s he ↦ ?_, fun s he ↦ ?_, fun before rest i s he ↦ ?_⟩
  · obtain ⟨j, -, he⟩ := hmem he
    contradiction
  · obtain ⟨j, hj, he⟩ := hmem he
    injection he with hi hs
    rwa [hs]
  · obtain ⟨j, -, he⟩ := hmem he
    contradiction
  · have hpost : Event.post (i + b.toNat) s ∈ run := by
      rw [he]
      exact List.mem_append_right _ (List.mem_cons_self ..)
    obtain ⟨j, hj, he⟩ := hmem hpost
    injection he with hi hs
    omega

/-- The first post of the second batch is not. -/
theorem not_sound_second_batch (s : ℕ) :
    ¬ Sound b ((List.range' 0 b.toNat).map (fun j ↦ .post j j) ++ [.post b.toNat s]) := by
  intro h
  obtain ⟨earlier, later, hbefore, hwait⟩ := h.waited
    ((List.range' 0 b.toNat).map fun j ↦ .post j j) [] 0 s (by rw [Nat.zero_add])
  have hmem : Event.wait s ∈ (List.range' 0 b.toNat).map fun j ↦ Event.post j j := by
    rw [hbefore]
    exact List.mem_append_right _ (List.mem_cons_of_mem _ hwait)
  obtain ⟨j, -, hj⟩ := List.mem_map.mp hmem
  contradiction

/-- With no more RPCs than slots, every run is sound. -/
theorem sound_of_le {nrAsyncRpc : Int32} (h : nrAsyncRpc.toInt ≤ b.toNat) {run : List Event}
    (hrun : run <+: testAsyncRpcSend b record asyncDiffNs nrAsyncRpc) : Sound b run := by
  have hn : nrAsyncRpc.toInt.toNat ≤ b.toNat := by omega
  refine sound_of_prefix ?_ hn
  rwa [testAsyncRpcSend, ← Nat.add_zero nrAsyncRpc.toInt.toNat, turns_add (by omega), turns,
    List.append_nil] at hrun

/-- With more of them, one is not. -/
theorem exists_not_sound {nrAsyncRpc : Int32} (h : b.toNat < nrAsyncRpc.toInt) (record : Bool)
    (asyncDiffNs : ℕ → ℤ) :
    ∃ run, run <+: testAsyncRpcSend b record asyncDiffNs nrAsyncRpc ∧ ¬ Sound b run := by
  obtain ⟨m, hm⟩ : ∃ m, nrAsyncRpc.toInt.toNat = b.toNat + (m + 1) :=
    ⟨nrAsyncRpc.toInt.toNat - b.toNat - 1, by omega⟩
  rw [testAsyncRpcSend, hm]
  by_cases hb : b = 0
  · subst hb
    refine ⟨[.divisionByZero], ?_, fun hsound ↦ hsound.no_division (List.mem_singleton_self _)⟩
    rw [← Nat.add_assoc, turns_of_zero]
  · obtain ⟨rest, hrest⟩ := turns_first_of_second_batch hb record asyncDiffNs m
    refine ⟨_, ⟨rest, ?_⟩, not_sound_second_batch 0⟩
    rw [turns_add (by omega), Nat.zero_add, hrest, List.append_assoc, List.singleton_append]

/-- **When every slot is waited for before it is used again**: in every run of the loop,
however far it gets, the discipline is kept if and only if there are no more RPCs than
slots. -/
theorem batches_sound_iff (b : UInt32) (record : Bool) (asyncDiffNs : ℕ → ℤ)
    (nrAsyncRpc : Int32) :
    (∀ run, run <+: testAsyncRpcSend b record asyncDiffNs nrAsyncRpc → Sound b run) ↔
      nrAsyncRpc.toInt ≤ b.toNat := by
  constructor
  · intro h
    by_contra hlt
    obtain ⟨run, hrun, hnot⟩ := exists_not_sound (not_le.mp hlt) record asyncDiffNs
    exact hnot (h run hrun)
  · intro h run hrun
    exact sound_of_le h hrun

/-! ## The slots that are waited for -/

/-- Without the check of the clocks the loop does all its turns. -/
theorem turns_false (hb : b ≠ 0) (n i : ℕ) :
    turns b false asyncDiffNs n i =
      (List.range' i n).flatMap fun j ↦ (turn b false asyncDiffNs j).1 := by
  have hgoes (j : ℕ) : (turn b false asyncDiffNs j).2 = true := by
    rw [turn, if_neg hb]
    split_ifs with h hbug
    · exact hbug.1.elim
    · rfl
    · rfl
  induction n generalizing i with
  | zero => rfl
  | succ n ih =>
      rw [turns, List.range'_succ, List.flatMap_cons, ← ih (i + 1)]
      simp only [hgoes, if_true]

/-- In the third batch the index of a slot is `async_batch_size` itself. -/
theorem waitSlot_third_batch (b : UInt32) : waitSlot b (b.toNat + b.toNat) 0 = b.toNat := by
  have hsum : UInt32.ofNat (b.toNat + b.toNat) = b + b := by
    rw [UInt32.ofNat_add, UInt32.ofNat_toNat]
  have hzero : UInt32.ofNat 0 = 0 := rfl
  rw [waitSlot, hsum, hzero, UInt32.add_zero, UInt32.add_sub_cancel, UInt32.and_self]

/-- **The loop leaves the array** as soon as there is a third batch. -/
theorem wait_outside {nrAsyncRpc : Int32} (hb : b ≠ 0)
    (h : b.toNat + b.toNat < nrAsyncRpc.toInt) (asyncDiffNs : ℕ → ℤ) :
    .wait b.toNat ∈ testAsyncRpcSend b false asyncDiffNs nrAsyncRpc := by
  have hpos : 0 < b.toNat := Nat.pos_of_ne_zero fun h ↦ hb (UInt32.toNat_inj.mp h)
  have hmax := nrAsyncRpc.toInt_lt
  have hslot : slot b (b.toNat + b.toNat) = 0 := by
    rw [slot, UInt32.toNat_mod, UInt32.toNat_ofNat_of_lt' (by rw [UInt32.size]; omega),
      Nat.add_mod_right, Nat.mod_self]
  rw [testAsyncRpcSend, turns_false hb, List.mem_flatMap]
  refine ⟨b.toNat + b.toNat, List.mem_range'_1.mpr (by omega), ?_⟩
  rw [turn, if_neg hb, hslot, if_pos ⟨rfl, by omega⟩, if_neg fun h ↦ Bool.false_ne_true h.1]
  refine List.mem_cons_of_mem _ (List.mem_map.mpr ⟨0, List.mem_range.mpr hpos, ?_⟩)
  rw [waitSlot_third_batch]

/-- The benchmark as it is run without a batch size. -/
theorem not_batches_sound_default :
    ∃ c, main [.client, .remoteNid 1] = some c ∧ c.asyncBatchSize = 32 ∧
      ¬ (∀ run, run <+: testAsyncRpcSend c.asyncBatchSize c.recordAsyncLatency (fun _ ↦ 1)
        1000000 → Sound c.asyncBatchSize run) ∧
      .wait 32 ∈ testAsyncRpcSend c.asyncBatchSize c.recordAsyncLatency (fun _ ↦ 1) 1000000 := by
  refine ⟨_, rfl, rfl, ?_, wait_outside (b := 32) (by decide) (by decide) _⟩
  intro h
  have hlt : ((32 : UInt32).toNat : ℤ) < (1000000 : Int32).toInt := by decide
  obtain ⟨run, hrun, hnot⟩ := exists_not_sound hlt false fun _ ↦ 1
  exact hnot (h run hrun)

end TestRpc

end Freelite
