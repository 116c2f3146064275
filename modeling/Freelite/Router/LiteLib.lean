import Freelite.Lib.Polling

/-!
# The polling wrappers of the router's library

`router/lib/lite-lib.c`: `userspace_liteapi_send_reply_imm_fast` and
`userspace_liteapi_receive_message_fast` make a system call and then wait for the
kernel to store the outcome into the caller's memory.  The kernel is a parameter: for
the arguments of the call it chooses what the call returns and what it stores when
(`Kernel`).  A loop that may wait for ever has fuel, and "the function returns `r`"
means that it does so for some fuel.

A call that the kernel refuses stores nothing, and neither function looks at what the
call returns before it starts to wait.  So the first one takes whatever an earlier call
has left in `*ret_length` for the outcome, and the second one, which sets `*descriptor`
to zero before the call, waits for ever.
-/

namespace Freelite

open Lib

namespace Backend

/-- `SEND_REPLY_WAIT`. -/
def sendReplyWait : Int32 := -101

/-- `IMM_SEND_ONLY_FLAG`. -/
def immSendOnlyFlag : UInt64 := 0xffffffffffffffff

/-- `LIMITATION`. -/
def limitation : Int32 := 1024 * 1024 * 4

/-- `CHECK_LENGTH`. -/
def checkLength : ℕ := 100000

/-- What the kernel does with a system call: what it returns, and what it stores through
`ret_length` and `descriptor` before each look of the program at its memory. -/
structure Kernel where
  ret : Int32
  length : ℕ → Option Int32
  descriptor : ℕ → Option UInt64

/-- The arguments of the system call `lite_send_reply_imm`. -/
structure SendReplyImm where
  targetNode : Int32
  sizeAndPort : UInt32
  addr : UInt64
  retAddr : UInt64
  retLength : UInt64
  maxRetSizeAndPriority : Int32

/-- The arguments of the system call `lite_receive_message`. -/
structure ReceiveMessage where
  sizeAndPort : UInt32
  retAddr : UInt64
  descriptor : UInt64
  retLength : UInt64
  blockCall : Int32
  priority : Int32

/-- The arguments `userspace_liteapi_send_reply_imm_fast` makes its system call with. -/
def sendReplyImm (targetNode : Int32) (port : UInt32) (addr : UInt64) (size : Int32)
    (retAddr retLength : UInt64) (maxRetSize : Int32) : SendReplyImm where
  targetNode
  sizeAndPort := (size.toUInt32 <<< 6) + port
  addr
  retAddr
  retLength
  maxRetSizeAndPriority := (maxRetSize <<< 6) + 0

/-- The arguments `userspace_liteapi_receive_message_fast` makes its system call with. -/
def receiveMessage (port : UInt32) (retAddr : UInt64) (receiveSize : Int32)
    (descriptor retLength : UInt64) (blockCall : Int32) : ReceiveMessage where
  sizeAndPort := (receiveSize.toUInt32 <<< 6) + port
  retAddr
  descriptor
  retLength
  blockCall
  priority := 0

/-- The sizes `userspace_liteapi_send_reply_imm_fast` does not bother the kernel with. -/
def TooBig (size maxRetSize : Int32) : Prop := limitation ≤ size ∨ limitation ≤ maxRetSize

instance (size maxRetSize : Int32) : Decidable (TooBig size maxRetSize) :=
  inferInstanceAs (Decidable (_ ∨ _))

/-- `userspace_liteapi_send_reply_imm_fast` after its system call: `*ret_length` held
`length₀`. -/
def awaitReply (k : Kernel) (length₀ : Int32) (fuel : ℕ) : Option Int32 :=
  let length := cell length₀ k.length
  -- after the loop it looks whether the length is negative, and if so once more to print it
  (poll (fun t ↦ length t ≠ sendReplyWait) fuel 0).map fun t ↦
    if length t < 0 then length (t + 2) else length (t + 1)

/-- `userspace_liteapi_send_reply_imm_fast`. -/
def userspaceLiteapiSendReplyImmFast (sys : SendReplyImm → Kernel) (targetNode : Int32)
    (port : UInt32) (addr : UInt64) (size : Int32) (retAddr retLength : UInt64)
    (maxRetSize : Int32) (length₀ : Int32) (fuel : ℕ) : Option Int32 :=
  if TooBig size maxRetSize then some (-1)
  else
    awaitReply (sys (sendReplyImm targetNode port addr size retAddr retLength maxRetSize)) length₀
      fuel

/-- `userspace_liteapi_receive_message_fast` after its system call: the return value and
what it leaves in `*descriptor`, which it has set to zero. -/
def awaitMessage (k : Kernel) (length₀ : Int32) (fuel : ℕ) : Option (Int32 × UInt64) :=
  let length := cell length₀ k.length
  let descriptor := cell 0 k.descriptor
  let t := spin (fun t ↦ descriptor t ≠ 0) checkLength 0
  (poll (fun t ↦ descriptor t ≠ 0) fuel t).map fun t ↦
    (if k.ret < 0 then length (t + 1) else k.ret,
      if descriptor t = immSendOnlyFlag then 0 else descriptor t)

/-- `userspace_liteapi_receive_message_fast`, for memory that holds `length₀` and
`descriptor₀` behind `ret_length` and `descriptor`. -/
def userspaceLiteapiReceiveMessageFast (sys : ReceiveMessage → Kernel) (port : UInt32)
    (retAddr : UInt64) (receiveSize : Int32) (descriptor retLength : UInt64) (blockCall : Int32)
    (length₀ : Int32) (_descriptor₀ : UInt64) (fuel : ℕ) : Option (Int32 × UInt64) :=
  awaitMessage (sys (receiveMessage port retAddr receiveSize descriptor retLength blockCall))
    length₀ fuel

/-! ## What the kernel may do -/

/-- The kernel refuses the call: it returns a negative value and stores nothing. -/
structure Kernel.Refuses (k : Kernel) : Prop where
  ret : k.ret < 0
  length : ∀ t, k.length t = none
  descriptor : ∀ t, k.descriptor t = none

/-- The kernel stores `len` through `ret_length` before the look at `n`, and nothing else
after it. -/
structure Kernel.Stores (k : Kernel) (len : Int32) (n : ℕ) : Prop where
  stored : k.length n = some len
  after : ∀ t > n, ∀ x, k.length t = some x → x = len

/-- The kernel stores the length of the reply before the look at `n`.  Until then it may
say that the reply is not there yet. -/
structure Kernel.Replies (k : Kernel) (len : Int32) (n : ℕ) : Prop extends k.Stores len n where
  ne_wait : len ≠ sendReplyWait
  before : ∀ t < n, ∀ x, k.length t = some x → x = sendReplyWait

/-- The kernel delivers a message under the descriptor `d`, which it stores once, before the
look at `n`.  The length is what the call has returned, or, when that is negative, what the
kernel stores through `ret_length`. -/
structure Kernel.Delivers (k : Kernel) (len : Int32) (d : UInt64) (n : ℕ) : Prop where
  ne_zero : d ≠ 0
  stored : k.descriptor n = some d
  before : ∀ t < n, ∀ x, k.descriptor t = some x → x = 0
  after : ∀ t > n, k.descriptor t = none
  length : if k.ret < 0 then ∃ m, k.Stores len m else len = k.ret

/-! ## Refused calls -/

variable {k : Kernel} {length₀ len : Int32} {d : UInt64} {n : ℕ}

/-- The stale content of `*ret_length` is the outcome of a refused `send_reply_imm`. -/
theorem awaitReply_of_refuses (h : k.Refuses) :
    (∃ fuel r, awaitReply k length₀ fuel = some r ∧ r < 0) ↔
      length₀ ≠ sendReplyWait ∧ length₀ < 0 := by
  have hcell (t : ℕ) : cell length₀ k.length t = length₀ := cell_of_quiet h.length
  simp only [awaitReply, hcell]
  by_cases hwait : length₀ = sendReplyWait
  · refine iff_of_false ?_ fun h ↦ h.1 hwait
    rintro ⟨fuel, r, hr, -⟩
    rw [poll_eq_none (fun u _ ↦ by simp [hwait])] at hr
    contradiction
  · constructor
    · rintro ⟨fuel, r, hr, hneg⟩
      obtain ⟨t, -, rfl⟩ := Option.map_eq_some_iff.mp hr
      exact ⟨hwait, by rwa [ite_self] at hneg⟩
    · rintro ⟨-, hneg⟩
      exact ⟨1, length₀, by simp [poll, hwait], hneg⟩

/-- After a refused `receive_message` nobody ever touches `*descriptor` again. -/
theorem awaitMessage_of_refuses (h : k.Refuses) (length₀ : Int32) (fuel : ℕ) :
    awaitMessage k length₀ fuel = none := by
  have hcell (t : ℕ) : cell 0 k.descriptor t = 0 := cell_of_quiet h.descriptor
  simp only [awaitMessage, hcell]
  rw [poll_eq_none (fun u _ ↦ by simp), Option.map_none]

/-! ## Accepted calls -/

/-- From its store on, the length is what the cell holds. -/
theorem Kernel.Stores.cell_eq (h : k.Stores len n) {t : ℕ} (ht : n ≤ t) :
    cell length₀ k.length t = len :=
  cell_eq_of_le (cell_of_some h.stored) ht fun u hu _ ↦ h.after u hu

/-- A reply is waited for if the cell says so to begin with. -/
theorem awaitReply_of_wait (h : k.Replies len n)
    (hwait : (k.length 0).isSome ∨ length₀ = sendReplyWait) :
    ∃ fuel, awaitReply k length₀ fuel = some len := by
  have hcell (u : ℕ) (hu : u < n) : cell length₀ k.length u = sendReplyWait := by
    refine cell_eq_of_le (s := 0) ?_ (Nat.zero_le u) fun v _ hvu ↦ h.before v (by omega)
    rw [cell]
    cases hx : k.length 0 with
    | none =>
        rw [hx] at hwait
        exact hwait.resolve_left (by simp)
    | some x => exact h.before 0 (by omega) x hx
  obtain ⟨fuel, hfuel⟩ := exists_poll (p := fun t ↦ cell length₀ k.length t ≠ sendReplyWait)
    (Nat.zero_le n) (by simp [h.cell_eq le_rfl, h.ne_wait]) (fun u _ hu ↦ by simp [hcell u hu])
  refine ⟨fuel, ?_⟩
  simp only [awaitReply, hfuel, Option.map_some]
  rw [h.cell_eq (t := n + 1 + 2) (by omega), h.cell_eq (t := n + 1 + 1) (by omega), ite_self]

/-- The look at `*ret_length` that `userspace_liteapi_send_reply_imm_fast` returns when it
does not wait: the third, or the fourth if the second has found a negative length, which it
prints. -/
def replyLook (k : Kernel) (length₀ : Int32) : ℕ := if cell length₀ k.length 1 < 0 then 3 else 2

/-- **When the length of the reply is returned.**  The kernel has stored something when
the call returns, or the cell happens to say that the reply is not there yet, or the
reply is there before the look that is returned. -/
theorem awaitReply_of_replies (h : k.Replies len n) :
    (∃ fuel, awaitReply k length₀ fuel = some len) ↔
      (k.length 0).isSome ∨ length₀ = sendReplyWait ∨
        cell length₀ k.length (replyLook k length₀) = len := by
  rw [← or_assoc]
  by_cases hwait : (k.length 0).isSome ∨ length₀ = sendReplyWait
  · exact iff_of_true (awaitReply_of_wait h hwait) (Or.inl hwait)
  · obtain ⟨hnone, hne⟩ := not_or.mp hwait
    -- the first look finds the stale content, and the loop is over
    have hlook (fuel : ℕ) :
        awaitReply k length₀ (fuel + 1) = some (cell length₀ k.length (replyLook k length₀)) := by
      have hcell : cell length₀ k.length 0 = length₀ := by
        rw [cell, Option.not_isSome_iff_eq_none.mp hnone, Option.getD_none]
      simp [awaitReply, poll, hcell, hne, replyLook, apply_ite (cell length₀ k.length)]
    constructor
    · rintro ⟨fuel, hfuel⟩
      cases fuel with
      | zero => contradiction
      | succ fuel =>
          rw [hlook, Option.some_inj] at hfuel
          exact Or.inr hfuel
    · intro hlen
      exact ⟨1, by rw [hlook, hlen.resolve_left hwait]⟩

/-- The look `userspace_liteapi_receive_message_fast` takes its length from, when the
descriptor is there before the look at `n`. -/
def lengthLook (n : ℕ) : ℕ := if n < checkLength then n + 3 else n + 2

/-- A message that is delivered ends the loops. -/
theorem exists_awaitMessage (h : k.Delivers len d n) (length₀ : Int32) :
    ∃ fuel, awaitMessage k length₀ fuel =
      some (if k.ret < 0 then cell length₀ k.length (lengthLook n) else k.ret,
        if d = immSendOnlyFlag then 0 else d) := by
  have hlater (u : ℕ) (hu : n ≤ u) : cell 0 k.descriptor u = d :=
    cell_eq_of_le (cell_of_some h.stored) hu fun v hv _ x hx ↦ by
      rw [h.after v hv] at hx
      contradiction
  have hearlier (u : ℕ) (hu : u < n) : cell 0 k.descriptor u = 0 := by
    refine cell_eq_of_le (s := 0) ?_ (Nat.zero_le u) fun v _ hvu ↦ h.before v (by omega)
    rw [cell]
    cases hx : k.descriptor 0 with
    | none => rfl
    | some x => exact h.before 0 (by omega) x hx
  let p : ℕ → Bool := fun t ↦ cell 0 k.descriptor t ≠ 0
  have hp (u : ℕ) (hu : n ≤ u) : p u = true := by simp [p, hlater u hu, h.ne_zero]
  have hnp (u : ℕ) (hu : u < n) : p u = false := by simp [p, hearlier u hu]
  obtain ⟨fuel, t, hfuel, ht, hlook⟩ : ∃ fuel t, poll p fuel (spin p checkLength 0) = some t ∧
      n ≤ t ∧ t + 1 = lengthLook n := by
    by_cases hn : n < checkLength
    · have hspin : spin p checkLength 0 = n + 1 :=
        spin_of_lt (Nat.zero_le n) (by omega) (hp n le_rfl) fun u _ hu ↦ hnp u hu
      obtain ⟨fuel, hfuel⟩ := exists_poll (p := p) (t := n + 1) le_rfl (hp _ (Nat.le_succ n))
        fun u hu hlt ↦ by omega
      exact ⟨fuel, n + 2, by rw [hspin, hfuel], by omega, by rw [lengthLook, if_pos hn]⟩
    · have hspin : spin p checkLength 0 = 0 + checkLength :=
        spin_of_forall fun u _ hu ↦ hnp u (by omega)
      obtain ⟨fuel, hfuel⟩ := exists_poll (p := p) (t := 0 + checkLength) (n := n) (by omega)
        (hp n le_rfl) fun u _ hu ↦ hnp u hu
      exact ⟨fuel, n + 1, by rw [hspin, hfuel], by omega, by rw [lengthLook, if_neg hn]⟩
  refine ⟨fuel, ?_⟩
  rw [awaitMessage, hfuel, Option.map_some, hlater t ht, hlook]

theorem awaitMessage_unique {fuel fuel' : ℕ} {r r' : Int32 × UInt64}
    (h : awaitMessage k length₀ fuel = some r) (h' : awaitMessage k length₀ fuel' = some r') :
    r = r' := by
  obtain ⟨t, ht, rfl⟩ := Option.map_eq_some_iff.mp h
  obtain ⟨t', ht', rfl⟩ := Option.map_eq_some_iff.mp h'
  rw [poll_unique ht ht']

/-- **When the length of a message is returned**: the call has returned it, or the kernel
has stored it when it is looked for. -/
theorem awaitMessage_of_delivers (h : k.Delivers len d n) :
    (∃ fuel d', awaitMessage k length₀ fuel = some (len, d') ∧ (d' = 0 ↔ d = immSendOnlyFlag)) ↔
      0 ≤ k.ret ∨ cell length₀ k.length (lengthLook n) = len := by
  obtain ⟨fuel, hfuel⟩ := exists_awaitMessage h length₀
  have hflag : (if d = immSendOnlyFlag then 0 else d) = 0 ↔ d = immSendOnlyFlag := by
    by_cases hd : d = immSendOnlyFlag
    · simp [hd]
    · simp [hd, h.ne_zero]
  have hlength := h.length
  by_cases hret : k.ret < 0
  · rw [if_pos hret] at hfuel
    constructor
    · rintro ⟨fuel', d', hfuel', -⟩
      exact Or.inr (congrArg Prod.fst (awaitMessage_unique hfuel hfuel'))
    · intro hlen
      have hcell := hlen.resolve_left (Int32.not_le.mpr hret)
      exact ⟨fuel, _, by rw [hfuel, hcell], hflag⟩
  · rw [if_neg hret] at hfuel hlength
    exact iff_of_true ⟨fuel, _, by rw [hfuel, hlength], hflag⟩ (Or.inl (Int32.not_lt.mp hret))

/-- **What the polling wrappers report.**  For all arguments and everything that can be in
the caller's memory: when a refused `send_reply_imm` is reported, when the length of a
reply is; that a refused `receive_message` never is, and when the length of a message is. -/
theorem polling_reports_iff (sys : SendReplyImm → Kernel) (sys' : ReceiveMessage → Kernel)
    (targetNode : Int32) (port : UInt32) (addr : UInt64) (size : Int32)
    (retAddr retLength : UInt64) (maxRetSize receiveSize : Int32) (descriptor : UInt64)
    (blockCall : Int32) (length₀ : Int32) (descriptor₀ : UInt64) :
    let send := userspaceLiteapiSendReplyImmFast sys targetNode port addr size retAddr retLength
      maxRetSize length₀
    let k := sys (sendReplyImm targetNode port addr size retAddr retLength maxRetSize)
    let receive := userspaceLiteapiReceiveMessageFast sys' port retAddr receiveSize descriptor
      retLength blockCall length₀ descriptor₀
    let k' := sys' (receiveMessage port retAddr receiveSize descriptor retLength blockCall)
    (k.Refuses → ((∃ fuel r, send fuel = some r ∧ r < 0) ↔
      TooBig size maxRetSize ∨ length₀ ≠ sendReplyWait ∧ length₀ < 0)) ∧
    (¬ TooBig size maxRetSize → ∀ len n, k.Replies len n → ((∃ fuel, send fuel = some len) ↔
      (k.length 0).isSome ∨ length₀ = sendReplyWait ∨
        cell length₀ k.length (replyLook k length₀) = len)) ∧
    (k'.Refuses → ¬ ∃ fuel r, receive fuel = some r ∧ r.1 < 0) ∧
    ∀ len d n, k'.Delivers len d n →
      ((∃ fuel d', receive fuel = some (len, d') ∧ (d' = 0 ↔ d = immSendOnlyFlag)) ↔
        0 ≤ k'.ret ∨ cell length₀ k'.length (lengthLook n) = len) := by
  intro send k receive k'
  refine ⟨fun h ↦ ?_, fun hsize len n h ↦ ?_, fun h ↦ ?_, fun len d n h ↦ ?_⟩
  · by_cases hsize : TooBig size maxRetSize
    · have hsend (fuel : ℕ) : send fuel = some (-1) := if_pos hsize
      exact iff_of_true ⟨0, -1, hsend 0, by decide⟩ (Or.inl hsize)
    · have hsend (fuel : ℕ) : send fuel = awaitReply k length₀ fuel := if_neg hsize
      simp only [hsend, hsize, false_or]
      exact awaitReply_of_refuses h
  · have hsend (fuel : ℕ) : send fuel = awaitReply k length₀ fuel := if_neg hsize
    simp only [hsend]
    exact awaitReply_of_replies h
  · rintro ⟨fuel, r, hr, -⟩
    rw [show receive fuel = none from awaitMessage_of_refuses h length₀ fuel] at hr
    contradiction
  · exact awaitMessage_of_delivers h

/-- A kernel that refuses every call. -/
def refusing : Kernel := ⟨-1, fun _ ↦ none, fun _ ↦ none⟩

/-- A kernel that says at once that the reply is not there yet, and then stores its length. -/
def replying : Kernel where
  ret := 0
  length t := if t = 0 then some sendReplyWait else if t = 2 then some 5 else none
  descriptor _ := none

/-- A kernel that returns the length of a message, and then stores its descriptor. -/
def delivering : Kernel where
  ret := 7
  length _ := none
  descriptor t := if t = 1 then some 9 else none

theorem refuses_refusing : refusing.Refuses := ⟨by decide, fun _ ↦ rfl, fun _ ↦ rfl⟩

theorem replies_replying : replying.Replies 5 2 where
  stored := rfl
  after t ht x hx := by
    have hnone : replying.length t = none := by
      rw [replying]
      simp only
      rw [if_neg (by omega), if_neg (by omega)]
    rw [hnone] at hx
    contradiction
  ne_wait := by decide
  before t ht x hx := by
    rcases Nat.lt_or_ge 0 t with h | h
    · obtain rfl : t = 1 := by omega
      contradiction
    · obtain rfl := Nat.le_zero.mp h
      exact (Option.some_inj.mp hx).symm

theorem delivers_delivering : delivering.Delivers 7 9 1 where
  ne_zero := by decide
  stored := rfl
  before t ht x hx := by
    obtain rfl : t = 0 := by omega
    contradiction
  after t ht := if_neg (by omega)
  length := rfl

theorem polling_reports_iff_three :
    (∃ fuel, userspaceLiteapiSendReplyImmFast (fun _ ↦ replying) 2 9 0x1000 64 0x2000 0x3000 4096 0
      fuel = some 5) ∧
    (∃ fuel d, userspaceLiteapiReceiveMessageFast (fun _ ↦ delivering) 9 0x1000 4096 0x2000 0x3000
      1 0 0 fuel = some (7, d) ∧ (d = 0 ↔ (9 : UInt64) = immSendOnlyFlag)) ∧
    (∃ fuel r, userspaceLiteapiSendReplyImmFast (fun _ ↦ refusing) 2 9 0x1000 64 0x2000 0x3000 4096
      (-2) fuel = some r ∧ r < 0) ∧
    ¬ ∃ fuel r, userspaceLiteapiReceiveMessageFast (fun _ ↦ refusing) 9 0x1000 4096 0x2000 0x3000
      1 (-2) 0 fuel = some r ∧ r.1 < 0 := by
  obtain ⟨-, hreply, -, hdeliver⟩ := polling_reports_iff (fun _ ↦ replying) (fun _ ↦ delivering) 2 9
    0x1000 64 0x2000 0x3000 4096 4096 0x2000 1 0 0
  obtain ⟨hrefuse, -, hrefuse', -⟩ := polling_reports_iff (fun _ ↦ refusing) (fun _ ↦ refusing) 2 9
    0x1000 64 0x2000 0x3000 4096 4096 0x2000 1 (-2) 0
  exact ⟨(hreply (by decide) 5 2 replies_replying).mpr (.inl rfl),
    (hdeliver 7 9 1 delivers_delivering).mpr (.inl (by decide)),
    (hrefuse refuses_refusing).mpr (.inr (by decide)), hrefuse' refuses_refusing⟩

/-- The kernel refuses the calls: `receive_message_fast` waits for a descriptor that never
comes. -/
theorem not_reports_refused :
    ¬ ∀ (length₀ : Int32) (descriptor₀ : UInt64),
      (∃ fuel r, userspaceLiteapiSendReplyImmFast (fun _ ↦ refusing) 2 9 0x1000 64 0x2000 0x3000
        4096 length₀ fuel = some r ∧ r < 0) ∧
      ∃ fuel r, userspaceLiteapiReceiveMessageFast (fun _ ↦ refusing) 9 0x1000 4096 0x2000 0x3000 1
        length₀ descriptor₀ fuel = some r ∧ r.1 < 0 := by
  intro h
  obtain ⟨fuel, r, hr, -⟩ := (h (-1) 0).2
  have hnone := awaitMessage_of_refuses refuses_refusing (-1) fuel
  exact absurd (hnone.symm.trans hr) (by simp)

end Backend

end Freelite
