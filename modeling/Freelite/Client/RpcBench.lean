import Freelite.Client.TestRpc
import Freelite.Lib.Barrier

/-!
# The two sides of the RPC benchmark

`client/test_rpc.c`, from the creation of the threads in `run` on: the threads of the
client go through `thread_send_lat`, those of the server through `thread_recv`.  A thread
of the client posts the RPCs of `test_async_rpc_send`, meets the others, posts those of
`test_sync_rpc_send` and meets the others again.  A thread of the server receives one
message after the other and replies to each.  *"Nothing is reliable.  Match the number of
send and recv on both ends."*

Both kinds of RPC end in `userspace_liteapi_send_reply_imm_fast` of the router's library:
after its system call it looks at the entry of the poll array until that is no longer
`SEND_REPLY_WAIT`.  The kernel keeps the messages of a port until they are received, in
any order, marks the entry when a message is posted and stores the length of the reply
when there is one.  No call fails, and every thread gets the response to its own request:
that is what `rpc_handler` does not see to when several threads share a process
(`Freelite/Client/Threads.lean`).

The poll arrays are in shared memory, and threads that ask for it by one name may or may
not get the same memory, so which array a thread has is a parameter.  A program that a
thread goes through is the list of its operations; those of the asynchronous half are
the events of `TestRpc`.
-/

namespace Freelite

open Lib

namespace RpcBench

/-- An entry of a poll array. -/
abbrev Slot (κ : Type*) := κ × ℕ

/-- What a thread of the client does. -/
inductive Op (κ : Type*)
  /-- `userspace_liteapi_send_reply_imm_fast` with an entry, and its loop. -/
  | rpc (s : Slot κ)
  /-- `wait_for_completion`. -/
  | wait (s : Slot κ)
  /-- `memset` of the first entries of an array. -/
  | clear (k : κ) (n : ℕ)
  /-- `pthread_barrier_wait`. -/
  | meet
deriving DecidableEq

/-- The two halves of `thread_send_lat`. -/
inductive Half
  | async
  | sync
deriving DecidableEq

variable {C S κ : Type*}

/-- The benchmark: the options, the clock of every thread, and the poll arrays. -/
structure Params (C κ : Type*) where
  batch : UInt32
  record : Bool
  asyncDiffNs : C → ℕ → ℤ
  nrRpc : Int32
  array : C → Half → κ

namespace Params

/-- `nr_rpc`. -/
def count (P : Params C κ) : ℕ := P.nrRpc.toInt.toNat

/-- The events of `test_async_rpc_send` in a thread. -/
def events (P : Params C κ) (c : C) : List TestRpc.Event :=
  TestRpc.testAsyncRpcSend P.batch P.record (P.asyncDiffNs c) P.nrRpc

/-- Neither a division by zero nor `BUG` ends the process. -/
def Survives (P : Params C κ) : Prop := ∀ c, ∀ e ∈ P.events c, e ≠ .divisionByZero ∧ e ≠ .bug

/-- No two threads have a poll array in common. -/
def Apart (P : Params C κ) : Prop := ∀ c h c' h', P.array c h = P.array c' h' → c = c'

end Params

/-- An event of `test_async_rpc_send` for an array, if it does not end the process. -/
def Op.ofEvent (k : κ) : TestRpc.Event → Option (Op κ)
  | .post _ i => some (.rpc (k, i))
  | .wait i => some (.wait (k, i))
  | .divisionByZero | .bug => none

/-- `test_async_rpc_send`. -/
def testAsyncRpcSend (P : Params C κ) (c : C) : List (Op κ) :=
  .clear (P.array c .async) P.batch.toNat ::
    (P.events c).filterMap (Op.ofEvent (P.array c .async))

/-- `test_sync_rpc_send`. -/
def testSyncRpcSend (P : Params C κ) (c : C) : List (Op κ) :=
  .clear (P.array c .sync) 1 :: List.replicate P.count (.rpc (P.array c .sync, 0))

/-- `thread_send_lat`. -/
def threadSendLat (P : Params C κ) (c : C) : List (Op κ) :=
  testAsyncRpcSend P c ++ .meet :: (testSyncRpcSend P c ++ [.meet])

/-- How many messages `thread_recv` receives: those of `test_async_rpc_recv` and those of
`test_sync_rpc_recv`. -/
def threadRecv (P : Params C κ) : ℕ := P.count + P.count

/-- The threads `C` of the client, the threads `S` of the server, and the kernel. -/
structure State (C S κ : Type*) where
  /-- What a thread of the client has yet to do. -/
  rest : C → List (Op κ)
  /-- Who is in the loop of `userspace_liteapi_send_reply_imm_fast`. -/
  polling : C → Bool
  /-- Which entries are `SEND_REPLY_WAIT`. -/
  waiting : Slot κ → Bool
  barrier : Barrier C
  /-- The messages that nobody has received: who has posted them, and for which entry. -/
  queue : List (C × Slot κ)
  /-- How many messages a thread of the server has yet to reply to. -/
  left : S → ℕ
  /-- The message it has received. -/
  serving : S → Option (C × Slot κ)
  /-- How many messages have been posted and replied to. -/
  posted : ℕ
  replied : ℕ

inductive Act (C S : Type*)
  /-- A thread of the client goes on. -/
  | go (c : C)
  /-- All threads of the client are at the barrier, and one is chosen. -/
  | choose (c : C)
  /-- A thread of the server receives one of the messages. -/
  | receive (u : S) (i : ℕ)
  | reply (u : S)

/-- Before the threads start. -/
def init (P : Params C κ) : State C S κ where
  rest := threadSendLat P
  polling _ := false
  waiting _ := false
  barrier := .init
  queue := []
  left _ := threadRecv P
  serving _ := none
  posted := 0
  replied := 0

variable [DecidableEq C] [DecidableEq S] [DecidableEq κ]

/-- A thread of the client is done with an operation. -/
def State.advance (s : State C S κ) (c : C) (r : List (Op κ)) : State C S κ :=
  { s with rest := Function.update s.rest c r }

/-- A thread of the client goes on. -/
def go (s : State C S κ) (c : C) : Option (State C S κ) :=
  match s.rest c with
  | [] => none
  | .rpc e :: r =>
      if s.polling c then
        if s.waiting e then none
        else some { s.advance c r with polling := Function.update s.polling c false }
      else
        some { s with
          polling := Function.update s.polling c true
          waiting := Function.update s.waiting e true
          queue := s.queue ++ [(c, e)]
          posted := s.posted + 1 }
  | .wait e :: r => if s.waiting e then none else some (s.advance c r)
  | .clear k n :: r =>
      some { s.advance c r with
        waiting := fun e ↦ if e.1 = k ∧ e.2 < n then false else s.waiting e }
  | .meet :: r =>
      if s.barrier.entered c = s.barrier.left c then
        (s.barrier.enter c).map fun b ↦ { s with barrier := b }
      else (s.barrier.leave c).map fun b ↦ { s.advance c r with barrier := b }

variable [Fintype C]

def next (s : State C S κ) : Act C S → Option (State C S κ)
  | .go c => go s c
  | .choose c => (s.barrier.complete c).map fun b ↦ { s with barrier := b }
  | .receive u i =>
      match s.serving u, s.queue[i]? with
      | none, some m =>
          if s.left u = 0 then none
          else
            some { s with
              queue := s.queue.eraseIdx i
              serving := Function.update s.serving u (some m) }
      | _, _ => none
  | .reply u =>
      match s.serving u with
      | none => none
      | some (_, e) =>
          some { s with
            waiting := Function.update s.waiting e false
            left := Function.update s.left u (s.left u - 1)
            serving := Function.update s.serving u none
            replied := s.replied + 1 }

/-- A run of the benchmark. -/
def run (P : Params C κ) (acts : List (Act C S)) : State C S κ := Machine.run next (init P) acts

/-! ## What a step does -/

/-- The steps: what leads to them, and the state after them. -/
inductive Step (s : State C S κ) : State C S κ → Prop
  | posts (c : C) (e : Slot κ) (r : List (Op κ)) : s.rest c = .rpc e :: r →
      s.polling c = false →
      Step s { s with
        polling := Function.update s.polling c true
        waiting := Function.update s.waiting e true
        queue := s.queue ++ [(c, e)]
        posted := s.posted + 1 }
  | passes (c : C) (e : Slot κ) (r : List (Op κ)) : s.rest c = .rpc e :: r →
      s.polling c = true → s.waiting e = false →
      Step s { s.advance c r with polling := Function.update s.polling c false }
  | waits (c : C) (e : Slot κ) (r : List (Op κ)) : s.rest c = .wait e :: r →
      s.waiting e = false → Step s (s.advance c r)
  | clears (c : C) (k : κ) (n : ℕ) (r : List (Op κ)) : s.rest c = .clear k n :: r →
      Step s { s.advance c r with
        waiting := fun e ↦ if e.1 = k ∧ e.2 < n then false else s.waiting e }
  | enters (c : C) (r : List (Op κ)) (b : Barrier C) : s.rest c = .meet :: r →
      s.barrier.enter c = some b → Step s { s with barrier := b }
  | leaves (c : C) (r : List (Op κ)) (b : Barrier C) : s.rest c = .meet :: r →
      s.barrier.leave c = some b → Step s { s.advance c r with barrier := b }
  | chooses (c : C) (b : Barrier C) : s.barrier.complete c = some b →
      Step s { s with barrier := b }
  | receives (u : S) (i : ℕ) (m : C × Slot κ) : s.serving u = none → s.queue[i]? = some m →
      s.left u ≠ 0 →
      Step s { s with
        queue := s.queue.eraseIdx i
        serving := Function.update s.serving u (some m) }
  | replies (u : S) (c : C) (e : Slot κ) : s.serving u = some (c, e) →
      Step s { s with
        waiting := Function.update s.waiting e false
        left := Function.update s.left u (s.left u - 1)
        serving := Function.update s.serving u none
        replied := s.replied + 1 }

theorem step_of_go {s s' : State C S κ} {c : C} (h : go s c = some s') : Step s s' := by
  rw [go] at h
  split at h
  case h_1 => contradiction
  case h_2 e r hr =>
    split_ifs at h with hp hw
    · obtain rfl := Option.some_inj.mp h
      exact .passes c e r hr hp (Bool.eq_false_of_not_eq_true hw)
    · obtain rfl := Option.some_inj.mp h
      exact .posts c e r hr (Bool.eq_false_of_not_eq_true hp)
  case h_3 e r hr =>
    split_ifs at h with hw
    obtain rfl := Option.some_inj.mp h
    exact .waits c e r hr (Bool.eq_false_of_not_eq_true hw)
  case h_4 k n r hr =>
    obtain rfl := Option.some_inj.mp h
    exact .clears c k n r hr
  case h_5 r hr =>
    split_ifs at h
    · obtain ⟨b, hb, rfl⟩ := Option.map_eq_some_iff.mp h
      exact .enters c r b hr hb
    · obtain ⟨b, hb, rfl⟩ := Option.map_eq_some_iff.mp h
      exact .leaves c r b hr hb

theorem step_of_next {s s' : State C S κ} {a : Act C S} (h : next s a = some s') :
    Step s s' := by
  cases a with
  | go c => exact step_of_go h
  | choose c =>
      obtain ⟨b, hb, rfl⟩ := Option.map_eq_some_iff.mp h
      exact .chooses c b hb
  | receive u i =>
      simp only [next] at h
      split at h
      case h_2 => contradiction
      case h_1 m hs hq =>
        split_ifs at h with hl
        obtain rfl := Option.some_inj.mp h
        exact .receives u i m hs hq hl
  | reply u =>
      simp only [next] at h
      split at h
      case h_1 => contradiction
      case h_2 c e hs =>
        obtain rfl := Option.some_inj.mp h
        exact .replies u c e hs

/-! ## Where the threads are -/

/-- The operation is an RPC. -/
@[simp] def Op.isRpc : Op κ → Bool
  | rpc _ => true
  | _ => false

/-- The operation is a meeting. -/
@[simp] def Op.isMeet : Op κ → Bool
  | meet => true
  | _ => false

/-- The RPCs of a program. -/
def rpcs (ops : List (Op κ)) : ℕ := ops.countP Op.isRpc

/-- The meetings of a program. -/
def meets (ops : List (Op κ)) : ℕ := ops.countP Op.isMeet

/-- Where the threads of the client are: between two operations, in the loop of an RPC, or
inside the barrier. -/
structure Placed (s : State C S κ) : Prop where
  steady : s.barrier.Steady
  left : ∀ c, s.barrier.left c + meets (s.rest c) = 2
  entered : ∀ c, s.barrier.entered c = s.barrier.left c ∨
    s.barrier.entered c = s.barrier.left c + 1 ∧ ∃ r, s.rest c = .meet :: r
  polling : ∀ c, s.polling c = true → ∃ e r, s.rest c = .rpc e :: r

section Programs

omit [DecidableEq C] [DecidableEq S] [DecidableEq κ] [Fintype C]

theorem isMeet_ofEvent {k : κ} {e : TestRpc.Event} {op : Op κ} (h : Op.ofEvent k e = some op) :
    op.isMeet = false := by
  cases e with
  | post i slot | wait slot =>
      obtain rfl := Option.some_inj.mp h
      rfl
  | divisionByZero | bug => contradiction

theorem meets_threadSendLat (P : Params C κ) (c : C) : meets (threadSendLat P c) = 2 := by
  have hasync : meets (testAsyncRpcSend P c) = 0 := by
    rw [meets, List.countP_eq_zero]
    intro op hop
    rcases List.mem_cons.mp hop with rfl | hop
    · exact Bool.false_ne_true
    · obtain ⟨e, -, he⟩ := List.mem_filterMap.mp hop
      rw [isMeet_ofEvent he]
      exact Bool.false_ne_true
  have hsync : meets (testSyncRpcSend P c) = 0 := by
    rw [meets, List.countP_eq_zero]
    intro op hop
    rcases List.mem_cons.mp hop with rfl | hop
    · exact Bool.false_ne_true
    · rw [List.eq_of_mem_replicate hop]
      exact Bool.false_ne_true
  rw [meets] at hasync hsync
  rw [meets, threadSendLat, List.countP_append, List.countP_cons, List.countP_append, hasync, hsync]
  rfl

end Programs

namespace Placed

variable {s : State C S κ} {c : C} {op : Op κ} {r : List (Op κ)}

omit [DecidableEq S] [DecidableEq κ] [Fintype C] in
/-- A thread is done with an operation other than a meeting. -/
theorem advance (h : Placed s) (hr : s.rest c = op :: r) (hop : op ≠ .meet) {p : C → Bool}
    (hp : ∀ d, p d = true → d ≠ c ∧ s.polling d = true) (w : Slot κ → Bool) :
    Placed { s.advance c r with polling := p, waiting := w } where
  steady := h.steady
  left d := by
    rcases eq_or_ne d c with rfl | hd
    · have hleft := h.left d
      rw [hr] at hleft
      cases op with
      | meet => exact absurd rfl hop
      | _ => simpa [State.advance, meets] using hleft
    · simpa [State.advance, Function.update_of_ne hd] using h.left d
  entered d := by
    rcases eq_or_ne d c with rfl | hd
    · rcases h.entered d with hout | ⟨hin, r', hr'⟩
      · exact .inl hout
      · rw [hr] at hr'
        exact absurd (List.cons.inj hr').1 hop
    · simpa [State.advance, Function.update_of_ne hd] using h.entered d
  polling d hd := by
    obtain ⟨hne, hpoll⟩ := hp d hd
    simpa [State.advance, Function.update_of_ne hne] using h.polling d hpoll

omit [DecidableEq C] [DecidableEq S] [DecidableEq κ] [Fintype C] in
/-- A thread that is not at an RPC is not in its loop. -/
theorem polling_ne (h : Placed s) (hr : s.rest c = op :: r) (hop : ∀ e, op ≠ .rpc e) (d : C)
    (hd : s.polling d = true) : d ≠ c ∧ s.polling d = true := by
  refine ⟨?_, hd⟩
  rintro rfl
  obtain ⟨e, r', hr'⟩ := h.polling d hd
  rw [hr] at hr'
  exact hop e (List.cons.inj hr').1

omit [DecidableEq S] [DecidableEq κ] [Fintype C] in
theorem enter (h : Placed s) (hr : s.rest c = .meet :: r) {b : Barrier C}
    (hb : s.barrier.enter c = some b) : Placed { s with barrier := b } where
  steady := h.steady.enter hb
  left := by
    obtain ⟨-, rfl⟩ := Barrier.enter_eq hb
    exact h.left
  entered d := by
    obtain ⟨hout, rfl⟩ := Barrier.enter_eq hb
    rcases eq_or_ne d c with rfl | hd
    · exact .inr ⟨by simp [hout], r, hr⟩
    · simpa [Function.update_of_ne hd] using h.entered d
  polling := h.polling

omit [DecidableEq S] [DecidableEq κ] [Fintype C] in
theorem leave (h : Placed s) (hr : s.rest c = .meet :: r) {b : Barrier C}
    (hb : s.barrier.leave c = some b) : Placed { s.advance c r with barrier := b } where
  steady := h.steady.leave hb
  left d := by
    obtain ⟨-, -, rfl⟩ := Barrier.leave_eq hb
    rcases eq_or_ne d c with rfl | hd
    · have hleft := h.left d
      rw [hr] at hleft
      simp only [State.advance, Function.update_self, meets, List.countP_cons, Op.isMeet,
        if_true] at hleft ⊢
      omega
    · simpa [State.advance, Function.update_of_ne hd] using h.left d
  entered d := by
    obtain ⟨hin, -, rfl⟩ := Barrier.leave_eq hb
    rcases eq_or_ne d c with rfl | hd
    · have hle := h.steady.entered_le d
      refine .inl ?_
      simp only [Function.update_self]
      omega
    · simpa [State.advance, Function.update_of_ne hd] using h.entered d
  polling d hd := by
    obtain ⟨hne, hpoll⟩ := h.polling_ne hr (fun e ↦ nofun) d hd
    simpa [State.advance, Function.update_of_ne hne] using h.polling d hpoll

omit [DecidableEq C] [DecidableEq S] [DecidableEq κ] in
theorem complete (h : Placed s) {b : Barrier C} (hb : s.barrier.complete c = some b) :
    Placed { s with barrier := b } where
  steady := h.steady.complete hb
  left := by
    obtain ⟨-, rfl⟩ := Barrier.complete_eq hb
    exact h.left
  entered := by
    obtain ⟨-, rfl⟩ := Barrier.complete_eq hb
    exact h.entered
  polling := h.polling

end Placed

theorem Step.placed {s s' : State C S κ} (h : Step s s') (hs : Placed s) : Placed s' := by
  cases h with
  | posts c e r hr hp =>
      refine ⟨hs.steady, hs.left, hs.entered, fun d hd ↦ ?_⟩
      rcases eq_or_ne d c with rfl | hne
      · exact ⟨e, r, hr⟩
      · exact hs.polling d (by rwa [← Function.update_of_ne hne true s.polling])
  | passes c e r hr hp hw =>
      refine hs.advance hr nofun (fun d hd ↦ ?_) s.waiting
      have hne : d ≠ c := by
        rintro rfl
        rw [Function.update_self] at hd
        contradiction
      rw [Function.update_of_ne hne] at hd
      exact ⟨hne, hd⟩
  | waits c e r hr hw => exact hs.advance hr nofun (hs.polling_ne hr nofun) s.waiting
  | clears c k n r hr => exact hs.advance hr nofun (hs.polling_ne hr nofun) _
  | enters c r b hr hb => exact hs.enter hr hb
  | leaves c r b hr hb => exact hs.leave hr hb
  | chooses c b hb => exact hs.complete hb
  | receives u i m hs' hq hl => exact ⟨hs.steady, hs.left, hs.entered, hs.polling⟩
  | replies u c e hs' => exact ⟨hs.steady, hs.left, hs.entered, hs.polling⟩

/-! ## Where the messages are -/

/-- The message has been posted and not replied to. -/
def Outstanding (s : State C S κ) (c : C) (e : Slot κ) : Prop :=
  (c, e) ∈ s.queue ∨ ∃ u, s.serving u = some (c, e)

/-- No message is lost, and an entry is marked only as long as somebody will clear it. -/
structure Counted [Fintype S] (P : Params C κ) (s : State C S κ) : Prop where
  client : ∑ c, rpcs (s.rest c) + s.posted =
    ∑ c, rpcs (threadSendLat P c) + ∑ c, (s.polling c).toNat
  messages : s.posted = s.queue.length + ∑ u, (s.serving u).isSome.toNat + s.replied
  server : ∑ u, s.left u + s.replied = Fintype.card S * threadRecv P
  left_ne : ∀ u, (s.serving u).isSome → s.left u ≠ 0
  waiting : ∀ e, s.waiting e = true → ∃ c, Outstanding s c e

namespace Counted

variable [Fintype S] {P : Params C κ} {s : State C S κ} {c : C} {op : Op κ} {r : List (Op κ)}

omit [DecidableEq S] [DecidableEq κ] in
/-- A thread is done with an operation, and with the loop if it is an RPC. -/
theorem advance (h : Counted P s) (hr : s.rest c = op :: r) {p : C → Bool}
    (hp : ∑ d, (p d).toNat + op.isRpc.toNat = ∑ d, (s.polling d).toNat) {w : Slot κ → Bool}
    (hw : ∀ e, w e = true → s.waiting e = true) (b : Barrier C) :
    Counted P { s.advance c r with polling := p, waiting := w, barrier := b } where
  client := by
    have hsum := Machine.sum_update_add rpcs s.rest c r
    have hclient := h.client
    have hop : rpcs (s.rest c) = rpcs r + op.isRpc.toNat := by
      rw [hr, rpcs, List.countP_cons, rpcs]
      cases op.isRpc <;> rfl
    change ∑ d, rpcs (Function.update s.rest c r d) + s.posted = _ + ∑ d, (p d).toNat
    omega
  messages := h.messages
  server := h.server
  left_ne := h.left_ne
  waiting e he := h.waiting e (hw e he)

end Counted

theorem Step.counted [Fintype S] {P : Params C κ} {s s' : State C S κ} (h : Step s s')
    (hC : Counted P s) : Counted P s' := by
  cases h with
  | posts c e r hr hp =>
      have hsum := Machine.sum_update_add Bool.toNat s.polling c true
      rw [hp] at hsum
      refine ⟨?_, ?_, hC.server, hC.left_ne, fun e' he' ↦ ?_⟩
      · have hclient := hC.client
        simp only [Bool.toNat_true, Bool.toNat_false] at hsum
        change ∑ d, rpcs (s.rest d) + (s.posted + 1) =
          _ + ∑ d, (Function.update s.polling c true d).toNat
        omega
      · have hmessages := hC.messages
        simp only [List.length_append, List.length_singleton]
        omega
      · rcases eq_or_ne e' e with rfl | hne
        · exact ⟨c, .inl (List.mem_append_right _ (List.mem_singleton_self _))⟩
        · obtain ⟨d, hd⟩ := hC.waiting e' (by rwa [← Function.update_of_ne hne true s.waiting])
          exact ⟨d, hd.imp_left (List.mem_append_left _)⟩
  | passes c e r hr hp hw =>
      have hsum := Machine.sum_update_add Bool.toNat s.polling c false
      rw [hp] at hsum
      exact hC.advance hr (by simpa using hsum) (fun _ h ↦ h) s.barrier
  | waits c e r hr hw => exact hC.advance hr rfl (fun _ h ↦ h) s.barrier
  | clears c k n r hr =>
      refine hC.advance hr rfl (fun e he ↦ ?_) s.barrier
      split_ifs at he
      exact he
  | enters c r b hr hb | chooses c b hb =>
      exact ⟨hC.client, hC.messages, hC.server, hC.left_ne, hC.waiting⟩
  | leaves c r b hr hb => exact hC.advance hr rfl (fun _ h ↦ h) b
  | receives u i m hs' hq hl =>
      have hsum := Machine.sum_update_add (fun m ↦ (Option.isSome m).toNat) s.serving u (some m)
      rw [hs'] at hsum
      obtain ⟨hi, hm⟩ := List.getElem?_eq_some_iff.mp hq
      refine ⟨hC.client, ?_, hC.server, fun v hv ↦ ?_, fun e he ↦ ?_⟩
      · have hmessages := hC.messages
        simp only [Option.isSome_none, Option.isSome_some, Bool.toNat_true, Bool.toNat_false] at hsum
        change s.posted = (s.queue.eraseIdx i).length +
          ∑ v, (Function.update s.serving u (some m) v).isSome.toNat + s.replied
        rw [List.length_eraseIdx_of_lt hi]
        omega
      · rcases eq_or_ne v u with rfl | hne
        · exact hl
        · exact hC.left_ne v (by rwa [← Function.update_of_ne hne (some m) s.serving])
      · obtain ⟨c, hc | ⟨v, hv⟩⟩ := hC.waiting e he
        · obtain ⟨j, hj⟩ := List.mem_iff_getElem?.mp hc
          rcases eq_or_ne j i with rfl | hne
          · rw [hq] at hj
            exact ⟨c, .inr ⟨u, by rw [← hj]; exact Function.update_self ..⟩⟩
          · exact ⟨c, .inl (List.mem_eraseIdx_iff_getElem?.mpr ⟨j, hne, hj⟩)⟩
        · have hne : v ≠ u := by
            rintro rfl
            rw [hs'] at hv
            contradiction
          exact ⟨c, .inr ⟨v, (Function.update_of_ne hne _ _).trans hv⟩⟩
  | replies u c e hs' =>
      have hleft := hC.left_ne u (by rw [hs']; rfl)
      refine ⟨hC.client, ?_, ?_, fun v hv ↦ ?_, fun e' he' ↦ ?_⟩
      · have hsum := Machine.sum_update_add (fun m ↦ (Option.isSome m).toNat) s.serving u none
        have hmessages := hC.messages
        rw [hs'] at hsum
        simp only [Option.isSome_none, Option.isSome_some, Bool.toNat_true, Bool.toNat_false] at hsum
        change s.posted = s.queue.length +
          ∑ v, (Function.update s.serving u none v).isSome.toNat + (s.replied + 1)
        omega
      · have hsum := Machine.sum_update_add id s.left u (s.left u - 1)
        have hserver := hC.server
        simp only [id_eq] at hsum
        change ∑ v, Function.update s.left u (s.left u - 1) v + (s.replied + 1) = _
        omega
      · have hne : v ≠ u := by
          rintro rfl
          simp at hv
        have hold := hC.left_ne v (by rwa [← Function.update_of_ne hne none s.serving])
        exact fun hzero ↦ hold ((Function.update_of_ne hne _ s.left).symm.trans hzero)
      · have hne : e' ≠ e := by
          rintro rfl
          simp at he'
        obtain ⟨d, hd | ⟨v, hv⟩⟩ :=
          hC.waiting e' (by rwa [← Function.update_of_ne hne false s.waiting])
        · exact ⟨d, .inl hd⟩
        · have hvu : v ≠ u := by
            rintro rfl
            rw [hs'] at hv
            exact hne (Prod.mk.inj (Option.some_inj.mp hv)).2.symm
          exact ⟨d, .inr ⟨v, (Function.update_of_ne hvu _ _).trans hv⟩⟩

end RpcBench

end Freelite
