import Freelite.Lib.Barrier
import Freelite.Link.Basic

/-!
# The threads of the latency benchmark

`client/test_latency.c`: every thread allocates local memory, then they meet at a barrier
and one of them allocates the remote memory that all of them write to.  They meet again
before they read, and once more before they free.  After the second and the third meeting
one thread prints the table of the measurements.

The variables `test_key` and `per_rps` are shared.  A thread reads or writes one of their
entries in one action, and between any two actions of a thread the others may run.  The
call of `userspace_liteapi_alloc_remote_mem` and the assignment to `test_key` are one
action, as nobody else sees the call.  What the library calls return and what a thread
measures are arguments of the actions.  `NR_TESTS_PER_SIZE` is a parameter.

Nobody waits for the allocation of the remote memory: a thread may write with the key
zero before it is made.  Nor does anybody wait for the first table, and one thread may
overwrite the measurements that another prints.
-/

namespace Freelite

open Lib

namespace TestLatency

/-! ## The options -/

/-- What `getopt_long` finds.  A number is what `strtoul` makes of the argument. -/
inductive Opt
  | remoteNid (arg : UInt64)
  | thread (arg : UInt64)
  | unknown
deriving DecidableEq

/-- The variables `main` sets. -/
structure Config where
  nrThreads : Int32
  remoteNode : Int32
deriving DecidableEq

/-- The variables before the options. -/
def Config.init : Config := ⟨1, -1⟩

/-- One turn of the loop over the options.  There is no result where `main` returns. -/
def Opt.apply (c : Config) : Opt → Option Config
  | remoteNid arg =>
      if arg.toInt64.toInt32 > 16 then none else some { c with remoteNode := arg.toInt64.toInt32 }
  | thread arg =>
      if arg.toInt64.toInt32 > 56 then none else some { c with nrThreads := arg.toInt64.toInt32 }
  | unknown => none

/-- `main`, up to the creation of the threads. -/
def main (opts : List Opt) : Option Config :=
  (opts.foldlM Opt.apply .init).bind fun c ↦ if c.remoteNode < 1 then none else some c

/-- How many threads `main` creates. -/
def Config.threads (c : Config) : ℕ := c.nrThreads.toInt.toNat

/-- What the options can set. -/
def Config.Admissible (c : Config) : Prop := c.nrThreads ≤ 56 ∧ c.remoteNode ≤ 16

theorem Opt.admissible {c c' : Config} {o : Opt} (h : o.apply c = some c') (hc : c.Admissible) :
    c'.Admissible := by
  cases o with
  | remoteNid arg =>
      rw [apply] at h
      split_ifs at h with harg
      obtain rfl := Option.some_inj.mp h
      exact ⟨hc.1, Int32.not_lt.mp harg⟩
  | thread arg =>
      rw [apply] at h
      split_ifs at h with harg
      obtain rfl := Option.some_inj.mp h
      exact ⟨Int32.not_lt.mp harg, hc.2⟩
  | unknown => contradiction

theorem foldlM_admissible {opts : List Opt} {c c' : Config}
    (h : opts.foldlM Opt.apply c = some c') (hc : c.Admissible) : c'.Admissible := by
  induction opts generalizing c with
  | nil =>
      obtain rfl := Option.some_inj.mp h
      exact hc
  | cons o opts ih =>
      obtain ⟨c₁, ho, h⟩ := Option.bind_eq_some_iff.mp h
      exact ih h (Opt.admissible ho hc)

/-- What `main` lets through. -/
theorem main_admissible {opts : List Opt} {c : Config} (h : main opts = some c) :
    c.threads ≤ 56 ∧ 1 ≤ c.remoteNode ∧ c.remoteNode ≤ 16 := by
  obtain ⟨c₁, hopts, h⟩ := Option.bind_eq_some_iff.mp h
  split_ifs at h with hnode
  obtain rfl := Option.some_inj.mp h
  obtain ⟨hthreads, hle⟩ := foldlM_admissible hopts ⟨by decide, by decide⟩
  refine ⟨?_, Int32.not_lt.mp hnode, hle⟩
  have hint : c₁.nrThreads.toInt ≤ 56 := Int32.le_iff_toInt_le.mp hthreads
  exact Int.toNat_le.mpr hint

/-! ## The state -/

/-- `testsize`, and zero beyond its end. -/
def testsize (i : ℕ) : UInt32 := [8, 64, 512, 1024, 1024 * 2, 1024 * 4, 1024 * 8].getD i 0

/-- `ARRAY_SIZE(testsize)`. -/
def nrSizes : ℕ := 7

/-- `MAX_BUF_SIZE`. -/
def maxBufSize : UInt32 := 1024 * 1024 * 32

/-- The local variable `password` of every thread. -/
def password : Int32 := 100

/-- `sprintf(shm_name, "%s%05d", "test_latency", info->tid)`. -/
def shmName (tid : ℕ) : List UInt8 :=
  let digits := (Nat.toDigits 10 tid).map fun c ↦ c.toNat.toUInt8
  [0x74, 0x65, 0x73, 0x74, 0x5f, 0x6c, 0x61, 0x74, 0x65, 0x6e, 0x63, 0x79] ++
    List.replicate (5 - digits.length) 0x30 ++ digits

/-- What `sscanf` would make of the digits. -/
def tidOf (name : List UInt8) : ℕ :=
  (name.drop 12).foldl (fun tid c ↦ 10 * tid + (c.toNat - 0x30)) 0

/-- The names fit into `shm_name`, and are apart. -/
theorem shmName_spec {tid : ℕ} (h : tid < 56) :
    0 ∉ shmName tid ∧ (shmName tid).length < 18 ∧ tidOf (shmName tid) = tid := by
  have hall : ∀ t : Fin 56, 0 ∉ shmName t ∧ (shmName t).length < 18 ∧ tidOf (shmName t) = t := by
    decide +kernel
  exact hall ⟨tid, h⟩

/-- The two halves of the benchmark. -/
inductive Half
  | write
  | read
deriving DecidableEq

/-- Where a thread is in `rdma_write_read`. -/
inductive Loc
  | allocating
  /-- About to call `pthread_barrier_wait` for the time `k`. -/
  | before (k : ℕ)
  | inside (k : ℕ)
  /-- About to allocate the remote memory. -/
  | keying
  /-- In the loop over `j`, within the loop over `i`. -/
  | calling (half : Half) (i j : ℕ)
  /-- In `print_rps`, about to read the entry `p`. -/
  | printing (half : Half) (p : ℕ)
  | freeing
  /-- After `pthread_exit`. -/
  | exited (failed : Bool)
deriving DecidableEq

/-- A process of `n` threads, with measurements in `M`. -/
structure State (n : ℕ) (M : Type*) where
  /-- The process has ended in `die`, or by a fault. -/
  died : Bool
  loc : Fin n → Loc
  barrier : Barrier (Fin n)
  /-- The variables `buf` and `remote_addr` of every thread. -/
  buf : Fin n → UInt64
  remoteAddr : Fin n → UInt64
  testKey : UInt64
  /-- The array `per_rps`, with the half that an entry has been measured in. -/
  perRps : ℕ → Option (Half × M)
  /-- What `userspace_liteapi_alloc_remote_mem` has returned so far. -/
  keys : List Int32
  /-- The calls of the library, in the order in which they are made. -/
  calls : List (Fin n × Forwarded)
  /-- What has been printed: the table, the index and the entry. -/
  printed : List (Half × ℕ × Option (Half × M))

inductive Act (n : ℕ) (M : Type*)
  /-- `userspace_liteapi_alloc_local_mem` returns, and what it leaves behind. -/
  | alloc (t : Fin n) (ret : Int32) (buf remoteAddr : UInt64)
  | enter (t : Fin n)
  /-- All threads are at the barrier, and the thread is chosen. -/
  | choose (t : Fin n)
  | leave (t : Fin n)
  /-- `userspace_liteapi_alloc_remote_mem` returns. -/
  | key (t : Fin n) (ret : Int32)
  /-- One turn of the loop over `j`. -/
  | rdma (t : Fin n)
  /-- The end of the loop over `j`. -/
  | store (t : Fin n) (m : M)
  | print (t : Fin n)
  | free (t : Fin n)

variable {n : ℕ} {M : Type*}

/-- What the threads are given: the node of the remote memory, `NR_TESTS_PER_SIZE`, and
where the variable `buf` of every thread is. -/
structure Params (n : ℕ) where
  remoteNode : Int32
  tests : ℕ
  bufAddr : Fin n → VarAddr

/-- Before the threads are created. -/
def init : State n M where
  died := false
  loc _ := .allocating
  barrier := .init
  buf _ := 0
  remoteAddr _ := 0
  testKey := 0
  perRps _ := none
  keys := []
  calls := []
  printed := []

/-- The thread is somewhere else. -/
def State.goto (s : State n M) (t : Fin n) (l : Loc) : State n M :=
  { s with loc := Function.update s.loc t l }

def State.log (s : State n M) (t : Fin n) (c : Forwarded) : State n M :=
  { s with calls := s.calls ++ [(t, c)] }

/-- Where a thread goes after the barrier, if it has been chosen and if not. -/
def afterWait : ℕ → Bool → Loc
  | 0, true => .keying
  | 0, false => .calling .write 0 0
  | 1, true => .printing .write 0
  | 1, false => .calling .read 0 0
  | _, true => .printing .read 0
  | _, false => .freeing

/-- Which wait ends a half. -/
def Half.wait : Half → ℕ
  | write => 1
  | read => 2

/-- Where a thread goes after it has printed. -/
def Half.afterPrint : Half → Loc
  | write => .calling .read 0 0
  | read => .freeing

/-- The call in the loop of a half.  The key is converted to `unsigned`. -/
def Half.call (key remoteAddr : UInt64) (i : ℕ) : Half → Forwarded
  | write => .rdmaWrite key.toUInt32 remoteAddr (testsize i) 0 password
  | read => .rdmaRead key.toUInt32 remoteAddr (testsize i) 0 password

def allocLocalMem (P : Params n) (t : Fin n) : Forwarded :=
  .allocLocalMem (shmName t) maxBufSize.toUInt64 (P.bufAddr t)

def allocRemoteMem (P : Params n) : Forwarded :=
  .allocRemoteMem P.remoteNode.toUInt32 maxBufSize false password

def freeLocalMem (t : Fin n) (buf remoteAddr : UInt64) : Forwarded :=
  .freeLocalMem (shmName t) maxBufSize.toUInt64 buf remoteAddr

/-- `test_key` after the assignment of an `int`. -/
def keyOf (ret : Int32) : UInt64 := ret.toInt64.toUInt64

/-- An action of a process that is alive. -/
def act (P : Params n) (s : State n M) : Act n M → Option (State n M)
  | .alloc t ret buf remoteAddr =>
      match s.loc t with
      | .allocating =>
          let s := s.log t (allocLocalMem P t)
          if ret < 0 then some (s.goto t (.exited true))
          -- `die("oom")`, and `memset` where there is no memory
          else if buf = 0 ∨ buf = mapFailed then some { s.goto t (.exited true) with died := true }
          else
            some { s.goto t (.before 0) with
              buf := Function.update s.buf t buf
              remoteAddr := Function.update s.remoteAddr t remoteAddr }
      | _ => none
  | .enter t =>
      match s.loc t with
      | .before k =>
          (s.barrier.enter t).map fun b ↦ { s.goto t (.inside k) with barrier := b }
      | _ => none
  | .choose t => (s.barrier.complete t).map fun b ↦ { s with barrier := b }
  | .leave t =>
      match s.loc t with
      | .inside k =>
          (s.barrier.leave t).map fun b ↦
            { s.goto t (afterWait k (s.barrier.leaders[k]? = some t)) with barrier := b }
      | _ => none
  | .key t ret =>
      match s.loc t with
      | .keying =>
          some { (s.log t (allocRemoteMem P)).goto t (.calling .write 0 0) with
            testKey := keyOf ret
            keys := s.keys ++ [ret] }
      | _ => none
  | .rdma t =>
      match s.loc t with
      | .calling half i j =>
          if j < P.tests then
            some ((s.log t (half.call s.testKey (s.remoteAddr t) i)).goto t
              (.calling half i (j + 1)))
          else none
      | _ => none
  | .store t m =>
      match s.loc t with
      | .calling half i j =>
          if j < P.tests then none
          else
            some { s.goto t
                (if i + 1 < nrSizes then .calling half (i + 1) 0 else .before half.wait) with
              perRps := Function.update s.perRps (i * n + t) (some (half, m)) }
      | _ => none
  | .print t =>
      match s.loc t with
      | .printing half p =>
          if p < nrSizes * n then
            some { s.goto t (.printing half (p + 1)) with
              printed := s.printed ++ [(half, p, s.perRps p)] }
          else some (s.goto t half.afterPrint)
      | _ => none
  | .free t =>
      match s.loc t with
      | .freeing =>
          some ((s.log t (freeLocalMem t (s.buf t) (s.remoteAddr t))).goto t (.exited false))
      | _ => none

/-- `rdma_write_read` in all threads of a process. -/
def next (P : Params n) (s : State n M) (a : Act n M) : Option (State n M) :=
  if s.died then none else act P s a

/-- A run of the process. -/
def run (P : Params n) (acts : List (Act n M)) : State n M := Machine.run (next P) init acts

/-! ## What a step does -/

/-- The steps of a thread: what leads to them, and the state after them. -/
inductive Step (P : Params n) (s : State n M) : State n M → Prop
  | refused (t : Fin n) : s.loc t = .allocating →
      Step P s ((s.log t (allocLocalMem P t)).goto t (.exited true))
  | dies (t : Fin n) : s.loc t = .allocating →
      Step P s { (s.log t (allocLocalMem P t)).goto t (.exited true) with died := true }
  | allocates (t : Fin n) (buf remoteAddr : UInt64) : s.loc t = .allocating →
      Step P s { (s.log t (allocLocalMem P t)).goto t (.before 0) with
        buf := Function.update s.buf t buf
        remoteAddr := Function.update s.remoteAddr t remoteAddr }
  | enters (t : Fin n) (k : ℕ) (b : Barrier (Fin n)) : s.loc t = .before k →
      s.barrier.enter t = some b → Step P s { s.goto t (.inside k) with barrier := b }
  | chooses (t : Fin n) (b : Barrier (Fin n)) : s.barrier.complete t = some b →
      Step P s { s with barrier := b }
  | leaves (t : Fin n) (k : ℕ) (b : Barrier (Fin n)) : s.loc t = .inside k →
      s.barrier.leave t = some b →
      Step P s { s.goto t (afterWait k (s.barrier.leaders[k]? = some t)) with barrier := b }
  | keys (t : Fin n) (ret : Int32) : s.loc t = .keying →
      Step P s { (s.log t (allocRemoteMem P)).goto t (.calling .write 0 0) with
        testKey := keyOf ret
        keys := s.keys ++ [ret] }
  | calls (t : Fin n) (half : Half) (i j : ℕ) : s.loc t = .calling half i j → j < P.tests →
      Step P s ((s.log t (half.call s.testKey (s.remoteAddr t) i)).goto t
        (.calling half i (j + 1)))
  | stores (t : Fin n) (half : Half) (i j : ℕ) (m : M) : s.loc t = .calling half i j →
      ¬ j < P.tests →
      Step P s { s.goto t
          (if i + 1 < nrSizes then .calling half (i + 1) 0 else .before half.wait) with
        perRps := Function.update s.perRps (i * n + t) (some (half, m)) }
  | prints (t : Fin n) (half : Half) (p : ℕ) : s.loc t = .printing half p → p < nrSizes * n →
      Step P s { s.goto t (.printing half (p + 1)) with
        printed := s.printed ++ [(half, p, s.perRps p)] }
  | printed (t : Fin n) (half : Half) (p : ℕ) : s.loc t = .printing half p →
      ¬ p < nrSizes * n → Step P s (s.goto t half.afterPrint)
  | frees (t : Fin n) : s.loc t = .freeing →
      Step P s ((s.log t (freeLocalMem t (s.buf t) (s.remoteAddr t))).goto t (.exited false))

theorem step_of_next {P : Params n} {s s' : State n M} {a : Act n M}
    (h : next P s a = some s') : Step P s s' := by
  rw [next] at h
  split_ifs at h
  cases a with
  | alloc t ret buf remoteAddr =>
      simp only [act] at h
      split at h
      case h_2 => contradiction
      case h_1 hl =>
        split_ifs at h
        · obtain rfl := Option.some_inj.mp h
          exact .refused t hl
        · obtain rfl := Option.some_inj.mp h
          exact .dies t hl
        · obtain rfl := Option.some_inj.mp h
          exact .allocates t buf remoteAddr hl
  | enter t =>
      simp only [act] at h
      split at h
      case h_2 => contradiction
      case h_1 k hl =>
        obtain ⟨b, hb, rfl⟩ := Option.map_eq_some_iff.mp h
        exact .enters t k b hl hb
  | choose t =>
      obtain ⟨b, hb, rfl⟩ := Option.map_eq_some_iff.mp h
      exact .chooses t b hb
  | leave t =>
      simp only [act] at h
      split at h
      case h_2 => contradiction
      case h_1 k hl =>
        obtain ⟨b, hb, rfl⟩ := Option.map_eq_some_iff.mp h
        exact .leaves t k b hl hb
  | key t ret =>
      simp only [act] at h
      split at h
      case h_2 => contradiction
      case h_1 hl =>
        obtain rfl := Option.some_inj.mp h
        exact .keys t ret hl
  | rdma t =>
      simp only [act] at h
      split at h
      case h_2 => contradiction
      case h_1 half i j hl =>
        split_ifs at h with hj
        obtain rfl := Option.some_inj.mp h
        exact .calls t half i j hl hj
  | store t m =>
      simp only [act] at h
      split at h
      case h_2 => contradiction
      case h_1 half i j hl =>
        split_ifs at h with hj
        all_goals
          obtain rfl := Option.some_inj.mp h
          simpa [*] using Step.stores (P := P) t half i j m hl hj
  | print t =>
      simp only [act] at h
      split at h
      case h_2 => contradiction
      case h_1 half p hl =>
        split_ifs at h with hp
        · obtain rfl := Option.some_inj.mp h
          exact .prints t half p hl hp
        · obtain rfl := Option.some_inj.mp h
          exact .printed t half p hl hp
  | free t =>
      simp only [act] at h
      split at h
      case h_2 => contradiction
      case h_1 hl =>
        obtain rfl := Option.some_inj.mp h
        exact .frees t hl

end TestLatency

end Freelite
