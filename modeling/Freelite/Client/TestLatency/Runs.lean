import Freelite.Client.TestLatency.Calls
import Freelite.Client.TestLatency.Tables

/-!
# The runs of the benchmark

The invariants together, and what they say of every run: with which handlers the threads
read and write (`handlers`), what is printed (`tables`), what the threads ask the router
for (`requests_admissible`, `calls_of_exited`), and how a run ends (`settles`).
-/

namespace Freelite

open Lib

namespace TestLatency

variable {n : ℕ} {M : Type*}

/-! ## What holds in every run -/

/-- The invariant of the process. -/
structure Sound (P : Params n) (s : State n M) : Prop where
  placed : Placed P.tests s.loc s.barrier
  keyed : Keyed s
  logged : Logged P s
  tabled : Tabled s.loc s.barrier.leaders s.perRps s.printed
  traced : Traced P s

theorem Sound.init (P : Params n) : Sound P (init : State n M) where
  placed := .init
  keyed := .inl ⟨rfl, rfl, fun _ h ↦ nomatch h⟩
  logged := ⟨fun _ _ h ↦ absurd h List.not_mem_nil, rfl⟩
  tabled := ⟨fun _ _ _ ↦ rfl, fun _ _ _ h ↦ absurd h List.not_mem_nil, fun _ ↦ rfl⟩
  traced _ := rfl

theorem Sound.next {P : Params n} {s s' : State n M} {a : Act n M} (hs : Sound P s)
    (h : next P s a = some s') : Sound P s' :=
  have hstep := step_of_next h
  ⟨hstep.placed hs.placed, hstep.keyed hs.placed hs.keyed,
    hstep.logged hs.placed hs.keyed hs.logged, hstep.tabled hs.placed hs.tabled,
    hstep.traced hs.placed hs.traced⟩

theorem sound_run (P : Params n) (acts : List (Act n M)) : Sound P (run P acts) :=
  Machine.run_induction acts (.init P) fun _ _ _ hs h ↦ hs.next h

theorem Keyed.length_le {s : State n M} (h : Keyed s) : s.keys.length ≤ 1 := by
  rcases h with ⟨hkeys, -⟩ | ⟨ret, t, hkeys, -⟩ <;> rw [hkeys]
  · exact Nat.zero_le 1
  · exact le_refl 1

/-- A thread that has given up has not come to the barrier, so nobody has left it. -/
theorem Placed.leaders_of_failed {tests : ℕ} {loc : Fin n → Loc} {b : Barrier (Fin n)} {t : Fin n}
    (h : Placed tests loc b) (ht : loc t = .exited true) : b.leaders = [] := by
  have hle := h.steady.le_entered t
  rw [h.entered t, ht] at hle
  exact List.eq_nil_of_length_eq_zero (Nat.le_zero.mp hle)

/-- **The handlers of the benchmark.**  In every run the remote memory is allocated at most
once.  Whatever is read is read with the handler that this allocation has returned, even if
that is an error; whatever is written is written with that handler or with zero.  When a
thread has no local memory, nobody reads or writes or allocates. -/
theorem handlers (P : Params n) (acts : List (Act n M)) :
    (run P acts).calls.countP (fun e ↦ allocatesRemote e.2) = (run P acts).keys.length ∧
    (run P acts).keys.length ≤ 1 ∧
    (∀ t h addr size offset pw,
      (t, Forwarded.rdmaRead h addr size offset pw) ∈ (run P acts).calls →
      ∃ ret, (run P acts).keys = [ret] ∧ h = ret.toUInt32) ∧
    (∀ t h addr size offset pw,
      (t, Forwarded.rdmaWrite h addr size offset pw) ∈ (run P acts).calls →
      h = 0 ∨ ∃ ret, (run P acts).keys = [ret] ∧ h = ret.toUInt32) ∧
    ∀ t, (run P acts).loc t = .exited true → ∀ e ∈ (run P acts).calls,
      e.2 = allocLocalMem P e.1 := by
  obtain ⟨hplaced, hkeyed, hlogged, -, -⟩ := sound_run P acts
  have hone {ret : Int32} (h : ret ∈ (run P acts).keys) : (run P acts).keys = [ret] := by
    rcases hkeyed with ⟨hkeys, -⟩ | ⟨ret', t, hkeys, -⟩ <;> rw [hkeys] at h ⊢
    · contradiction
    · rw [List.mem_singleton.mp h]
  refine ⟨hlogged.keys, hkeyed.length_le, ?_, ?_, ?_⟩
  · intro t h addr size offset pw hmem
    obtain ⟨-, ret, hret, hh⟩ := hlogged.justified t _ hmem
    exact ⟨ret, hone hret, hh⟩
  · intro t h addr size offset pw hmem
    obtain ⟨-, hzero | ⟨ret, hret, hh⟩⟩ := hlogged.justified t _ hmem
    · exact .inl hzero
    · exact .inr ⟨ret, hone hret, hh⟩
  · rintro t ht ⟨u, c⟩ hmem
    have hnil := hplaced.leaders_of_failed ht
    have hj := hlogged.justified u c hmem
    cases c with
    | allocLocalMem => exact hj
    | freeLocalMem => exact absurd hnil hj.1
    | allocRemoteMem =>
        rw [Justified, hnil] at hj
        exact nomatch hj.1
    | rdmaWrite | rdmaRead => exact absurd hnil hj.1
    | _ => exact hj.elim

theorem Placed.le_length_leaders {tests : ℕ} {loc : Fin n → Loc} {b : Barrier (Fin n)}
    (h : Placed tests loc b) (t : Fin n) : (loc t).left ≤ b.leaders.length :=
  h.left t ▸ h.steady.left_le t

/-- **The tables of the benchmark.**  Every entry that is printed has been measured.  The
table of the reads shows nothing but reads; in that of the writes the entries of the thread
that prints it are writes.  Each table is printed once, from the first entry on and, when
all threads have exited, to the last. -/
theorem tables (P : Params n) (acts : List (Act n M)) :
    (∀ half p v, (half, p, v) ∈ (run P acts).printed →
      ∃ t measured m, (run P acts).barrier.leaders[half.wait]? = some t ∧
        v = some (measured, m) ∧ (half = .read ∨ p % n = t → measured = half)) ∧
    (∀ half, ∃ k, indices (run P acts).printed half = List.range k) ∧
    ((∀ t, (run P acts).loc t = .exited false) → ∀ half,
      indices (run P acts).printed half = List.range (nrSizes * n)) := by
  obtain ⟨hplaced, -, -, htabled, -⟩ := sound_run P acts
  refine ⟨htabled.shows, fun half ↦ ⟨_, htabled.indices half⟩, fun hall half ↦ ?_⟩
  rw [htabled.indices half, shown]
  cases hlead : (run P acts).barrier.leaders[half.wait]? with
  | some t =>
      rw [Option.map_some, Option.getD_some, hall t]
      cases half <;> rfl
  | none =>
      -- then there are no threads
      have hn : n = 0 := by
        by_contra hpos
        have hle := hplaced.le_length_leaders ⟨0, Nat.pos_of_ne_zero hpos⟩
        rw [hall] at hle
        have hlen := List.getElem?_eq_none_iff.mp hlead
        cases half <;> exact absurd (hle.trans hlen) (by decide)
      simp [hn]

/-- With two threads the table of the writes can show a read, and before the remote memory
is there a thread writes with the handler zero. -/
example :
    let allocate : List (Act 2 Bool) := [.alloc 0 0 16 0, .alloc 1 0 16 0]
    let meet : List (Act 2 Bool) := [.enter 0, .enter 1, .choose 0, .leave 0, .leave 1]
    let turn : List (Act 2 Bool) := [.rdma 0, .store 0 true, .rdma 1, .store 1 true]
    let acts : List (Act 2 Bool) := allocate ++ (meet ++ (.rdma 1 :: .key 0 7 ::
      ((List.replicate nrSizes turn).flatten ++ (meet ++
        [.rdma 1, .store 1 false, .print 0, .print 0]))))
    let s := run ⟨1, 1, fun _ ↦ ⟨8, by decide⟩⟩ acts
    (.write, 1, some (.read, false)) ∈ s.printed ∧ (1, .rdmaWrite 0 0 8 0 password) ∈ s.calls := by
  decide +kernel

/-- The name of shared memory in a call. -/
def segment : Forwarded → Option (List UInt8)
  | .allocLocalMem name .. | .freeLocalMem name .. => some name
  | _ => none

/-- The node of an allocation of remote memory. -/
def node : Forwarded → Option UInt32
  | .allocRemoteMem nodeId .. => some nodeId
  | _ => none

/-- **The names and the node of the benchmark.**  Whatever the options, the names of the
shared memory fit into `shm_name` and into their fields of the requests, no two threads use
the same name, and the remote memory is asked for on a node from 1 to 16. -/
theorem requests_admissible {opts : List Opt} {c : Config} (h : main opts = some c) (P : Params c.threads)
    (hP : P.remoteNode = c.remoteNode) (acts : List (Act c.threads M)) :
    (∀ t call, (t, call) ∈ (run P acts).calls → call.ShortStrings ∧
      (∀ name ∈ segment call, name.length < 18 ∧ tidOf name = t) ∧
      ∀ nodeId ∈ node call, 1 ≤ nodeId.toInt32 ∧ nodeId.toInt32 ≤ 16) := by
  obtain ⟨hthreads, hnode⟩ := main_admissible h
  intro t call hmem
  obtain ⟨hzero, hlen, htid⟩ := shmName_spec (t.isLt.trans_le hthreads)
  have hshort : (shmName t).length < 256 := hlen.trans (by decide)
  have hj := (sound_run P acts).logged.justified t call hmem
  cases call with
  | allocLocalMem name size addr =>
      obtain ⟨rfl, -, -⟩ := Forwarded.allocLocalMem.inj hj
      refine ⟨⟨hzero, hshort⟩, ?_, nofun⟩
      rintro _ ⟨⟩
      exact ⟨hlen, htid⟩
  | freeLocalMem name size addr remoteAddr =>
      obtain ⟨-, rfl⟩ := hj
      refine ⟨⟨hzero, hshort⟩, ?_, nofun⟩
      rintro _ ⟨⟩
      exact ⟨hlen, htid⟩
  | allocRemoteMem nodeId size atomicFlag pw =>
      obtain ⟨rfl, rfl, rfl, rfl⟩ := Forwarded.allocRemoteMem.inj hj.2
      refine ⟨trivial, nofun, ?_⟩
      rintro _ ⟨⟩
      rw [hP]
      exact hnode
  | rdmaWrite | rdmaRead => exact ⟨trivial, nofun, nofun⟩
  | _ => exact hj.elim

/-- **The calls of a thread.**  A thread that has exited normally has allocated its local
memory and, if it was chosen, the remote memory, has written and read
`NR_TESTS_PER_SIZE` times for every size, and has freed what it had allocated. -/
theorem calls_of_exited (P : Params n) (acts : List (Act n M)) (t : Fin n)
    (ht : (run P acts).loc t = .exited false) :
    callsOf (run P acts).calls t =
      opening P t ((run P acts).chosen t) ++
        block P.tests .write ((run P acts).remoteAddr t) nrSizes ++
        block P.tests .read ((run P acts).remoteAddr t) nrSizes ++
        [freeLocalMem t ((run P acts).buf t) ((run P acts).remoteAddr t)] := by
  rw [(sound_run P acts).traced t, ht]
  rfl

/-- A thread that can do nothing waits at the barrier, or has exited. -/
theorem Sound.loc_of_stuck [Inhabited M] {P : Params n} {s : State n M} (hs : Sound P s)
    (hdied : s.died = false) (hstuck : ∀ a, TestLatency.next P s a = none) (t : Fin n) :
    (s.loc t = .inside s.barrier.leaders.length) ∨ ∃ failed, s.loc t = .exited failed := by
  have hact (a : Act n M) : act P s a = none := by
    rw [← hstuck a, TestLatency.next, hdied]
    rfl
  cases hl : s.loc t with
  | exited failed => exact .inr ⟨failed, rfl⟩
  | allocating => simpa [act, hl] using hact (.alloc t (-1) 0 0)
  | before k =>
      have hout : s.barrier.entered t = s.barrier.left t := by
        rw [hs.placed.entered, hs.placed.left, hl]
        rfl
      simpa [act, hl, Barrier.enter, hout] using hact (.enter t)
  | inside k =>
      have hleft : s.barrier.left t = k := by rw [hs.placed.left, hl, Loc.left]
      have hent : s.barrier.entered t = k + 1 := by rw [hs.placed.entered, hl, Loc.entered]
      have hwait : ¬ k < s.barrier.leaders.length := by
        simpa [act, hl, Barrier.leave, hleft, hent] using hact (.leave t)
      refine .inl (congrArg _ ?_)
      rw [← hleft]
      exact hs.placed.steady.left_eq_of_stuck (hleft ▸ hwait)
  | keying => simpa [act, hl] using hact (.key t 0)
  | calling half i j =>
      by_cases hj : j < P.tests
      · simpa [act, hl, hj] using hact (.rdma t)
      · simpa [act, hl, hj] using hact (.store t default)
  | printing half p =>
      by_cases hp : p < nrSizes * n
      · simpa [act, hl, hp] using hact (.print t)
      · simpa [act, hl, hp] using hact (.print t)
  | freeing => simpa [act, hl] using hact (.free t)

/-- When nobody can go on without the barrier, and somebody has not come to it, that is all. -/
theorem Sound.stuck {P : Params n} {s : State n M} (hs : Sound P s) {u : Fin n}
    (hu : (s.loc u).entered ≤ s.barrier.leaders.length)
    (hloc : ∀ t, s.loc t = .inside s.barrier.leaders.length ∨ ∃ failed, s.loc t = .exited failed)
    (a : Act n M) : TestLatency.next P s a = none := by
  rw [TestLatency.next]
  split_ifs
  · rfl
  have hentered : ¬ ∀ v, s.barrier.leaders.length < s.barrier.entered v := fun hall ↦
    absurd (hs.placed.entered u ▸ hall u) (Nat.not_lt.mpr hu)
  cases a with
  | choose t => simp [act, Barrier.complete, hentered]
  | leave t =>
      rcases hloc t with ht | ⟨failed, ht⟩
      · have hleft : s.barrier.left t = s.barrier.leaders.length := by
          rw [hs.placed.left, ht, Loc.left]
        simp [act, ht, Barrier.leave, hleft]
      · simp [act, ht]
  | alloc t | enter t | key t | rdma t | store t | print t | free t =>
      rcases hloc t with ht | ⟨failed, ht⟩ <;> simp [act, ht]

/-- A run is no longer than all that the threads can do. -/
theorem taken_le (P : Params n) (acts : List (Act n M)) :
    Machine.taken (next P) (init : State n M) acts ≤
      n * (2 * (nrSizes * n + nrSizes * (P.tests + 1)) + 11) + 3 := by
  have hle : Machine.taken (next P) (init : State n M) acts + (run P acts).remaining P.tests ≤
      (init : State n M).remaining P.tests :=
    Machine.taken_add_le (I := Sound P) (fun s ↦ s.remaining P.tests) acts (.init P)
      (fun _ _ _ hs h ↦ hs.next h) fun _ _ _ hs h ↦ (step_of_next h).remaining_lt hs.placed
  refine (Nat.le_of_add_right_le hle).trans ?_
  simp [State.remaining, init, Loc.remaining, Barrier.init]

/-- One thread that does everything once. -/
def soloParams : Params 1 := ⟨1, 1, fun _ ↦ ⟨8, by decide⟩⟩

/-- Its run to the end. -/
def solo : List (Act 1 Unit) :=
  let meet : List (Act 1 Unit) := [.enter 0, .choose 0, .leave 0]
  let half : List (Act 1 Unit) := (List.replicate nrSizes [Act.rdma 0, .store 0 ()]).flatten
  let table : List (Act 1 Unit) := List.replicate (nrSizes + 1) (.print 0)
  [.alloc 0 0 16 32] ++ meet ++ [.key 0 7] ++ half ++ meet ++ table ++ half ++ meet ++ table ++
    [.free 0]

theorem calls_of_exited_solo :
    callsOf (run soloParams solo).calls 0 =
      opening soloParams 0 ((run soloParams solo).chosen 0) ++
        block 1 .write ((run soloParams solo).remoteAddr 0) nrSizes ++
        block 1 .read ((run soloParams solo).remoteAddr 0) nrSizes ++
        [freeLocalMem (n := 1) 0 ((run soloParams solo).buf 0)
          ((run soloParams solo).remoteAddr 0)] :=
  calls_of_exited soloParams solo 0 (by decide +kernel)

theorem requests_admissible_solo :
    (run soloParams solo).calls.length = 17 ∧
      ∀ t call, (t, call) ∈ (run soloParams solo).calls → call.ShortStrings ∧
        (∀ name ∈ segment call, name.length < 18 ∧ tidOf name = t.val) ∧
        ∀ nodeId ∈ node call, 1 ≤ nodeId.toInt32 ∧ nodeId.toInt32 ≤ 16 :=
  ⟨by decide +kernel, requests_admissible (c := ⟨1, 1⟩)
    (show main [.remoteNid 1] = some ⟨1, 1⟩ by decide) soloParams rfl solo⟩

end TestLatency

end Freelite
