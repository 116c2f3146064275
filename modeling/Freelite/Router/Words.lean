import Freelite.Lib.Packed
import Freelite.Router.LiteLib

/-!
# The words the library makes for the kernel

`router/lib/lite-lib.c`: the wrappers around the system calls `lite_send_reply_imm` and
`lite_receive_message` pack the size of a message and the port it is for into one 32-bit
word, and those that expect a reply pack its size and a priority into the last argument
of the call.

No wrapper looks at its port, those around `lite_receive_message` do not look at the size
either, and a negative size passes the others, so a word need not say what it was made
from (`word_decodes_iff`).  `userspace_liteapi_send_reply_imm` hands over the size of the
reply as it is, where the kernel looks for a size and a priority
(`encode_alike_iff`).
-/

namespace Freelite

open Lib

namespace Backend

/-- `IMM_MAX_PORT`. -/
def immMaxPort : UInt32 := 64

/-- `IMM_MAX_PORT_BIT`. -/
def immMaxPortBit : UInt32 := 6

/-- `IMM_MAX_PRIORITY`. -/
def immMaxPriority : Int32 := 64

/-- `IMM_MAX_PRIORITY_BIT`. -/
def immMaxPriorityBit : Int32 := 6

/-- `USERSPACE_HIGH_PRIORITY`. -/
def userspaceHighPriority : Int32 := 16

/-- `USERSPACE_LOW_PRIORITY`. -/
def userspaceLowPriority : Int32 := 17

/-- `NULL_PRIORITY`. -/
def nullPriority : Int32 := 0

/-- The word for a size and a port. -/
def wordOf (size : Int32) (port : UInt32) : UInt32 := (size.toUInt32 <<< immMaxPortBit) + port

/-! ## The wrappers -/

/-- The arguments of the wrappers that wait for a reply.  Only the one that polls has a
`ret_length`. -/
structure ReplyArgs where
  targetNode : Int32
  port : UInt32
  addr : UInt64
  size : Int32
  retAddr : UInt64
  retLength : UInt64
  maxRetSize : Int32

/-- The arguments of the wrappers around `lite_receive_message`.  Only the one that polls
has a `ret_length`. -/
structure ReceiveArgs where
  port : UInt32
  retAddr : UInt64
  receiveSize : Int32
  descriptor : UInt64
  retLength : UInt64
  blockCall : Int32

/-- The system call of `userspace_liteapi_send`. -/
def sendCall (targetNode : Int32) (port : UInt32) (addr : UInt64) (size : Int32) :
    SendReplyImm where
  targetNode
  sizeAndPort := wordOf size port
  addr
  retAddr := 0
  retLength := 0
  maxRetSizeAndPriority := 0

/-- The system call of the wrappers that wait for a reply but do not poll for it.  They
differ in the last argument. -/
def replyCall (a : ReplyArgs) (last : Int32) : SendReplyImm where
  targetNode := a.targetNode
  sizeAndPort := wordOf a.size a.port
  addr := a.addr
  retAddr := a.retAddr
  retLength := 0
  maxRetSizeAndPriority := last

/-- The system call of the wrappers that receive a message but do not poll for it. -/
def receiveCall (a : ReceiveArgs) (priority : Int32) : ReceiveMessage where
  sizeAndPort := wordOf a.receiveSize a.port
  retAddr := a.retAddr
  descriptor := a.descriptor
  retLength := 0
  blockCall := a.blockCall
  priority

/-- The system call unless the size is too big. -/
def unlessTooBig (tooBig : Prop) [Decidable tooBig] (sys : SendReplyImm → Kernel)
    (call : SendReplyImm) : Int32 :=
  if tooBig then -1 else (sys call).ret

/-- `userspace_liteapi_send`. -/
def userspaceLiteapiSend (sys : SendReplyImm → Kernel) (targetNode : Int32) (port : UInt32)
    (addr : UInt64) (size : Int32) : Int32 :=
  unlessTooBig (limitation ≤ size) sys (sendCall targetNode port addr size)

/-- `userspace_liteapi_send_reply_imm`. -/
def userspaceLiteapiSendReplyImm (sys : SendReplyImm → Kernel) (a : ReplyArgs) : Int32 :=
  unlessTooBig (TooBig a.size a.maxRetSize) sys (replyCall a a.maxRetSize)

/-- `userspace_liteapi_send_reply_imm_high`. -/
def userspaceLiteapiSendReplyImmHigh (sys : SendReplyImm → Kernel) (a : ReplyArgs) : Int32 :=
  unlessTooBig (TooBig a.size a.maxRetSize) sys
    (replyCall a ((a.maxRetSize <<< immMaxPriorityBit) + userspaceHighPriority))

/-- `userspace_liteapi_send_reply_imm_low`. -/
def userspaceLiteapiSendReplyImmLow (sys : SendReplyImm → Kernel) (a : ReplyArgs) : Int32 :=
  unlessTooBig (TooBig a.size a.maxRetSize) sys
    (replyCall a ((a.maxRetSize <<< immMaxPriorityBit) + userspaceLowPriority))

/-- `userspace_liteapi_receive_message`. -/
def userspaceLiteapiReceiveMessage (sys : ReceiveMessage → Kernel) (a : ReceiveArgs) : Int32 :=
  (sys (receiveCall a nullPriority)).ret

/-- `userspace_liteapi_receive_message_high`. -/
def userspaceLiteapiReceiveMessageHigh (sys : ReceiveMessage → Kernel) (a : ReceiveArgs) :
    Int32 :=
  (sys (receiveCall a userspaceHighPriority)).ret

/-- `userspace_liteapi_receive_message_low`. -/
def userspaceLiteapiReceiveMessageLow (sys : ReceiveMessage → Kernel) (a : ReceiveArgs) :
    Int32 :=
  (sys (receiveCall a userspaceLowPriority)).ret

/-! ## Calls of the wrappers -/

/-- The variants of a wrapper. -/
inductive Variant
  | plain
  | high
  | low
  | fast
deriving DecidableEq

/-- The priority of a variant. -/
def Variant.priority : Variant → Int32
  | plain | fast => nullPriority
  | high => userspaceHighPriority
  | low => userspaceLowPriority

/-- A call of one of the wrappers that pack a size and a port. -/
inductive PackedCall
  | send (targetNode : Int32) (port : UInt32) (addr : UInt64) (size : Int32)
  | sendReplyImm (v : Variant) (a : ReplyArgs)
  | receiveMessage (v : Variant) (a : ReceiveArgs)

/-- A system call. -/
inductive Syscall
  | sendReplyImm (args : SendReplyImm)
  | receiveMessage (args : ReceiveMessage)

/-- The word the kernel is handed. -/
def Syscall.word : Syscall → UInt32
  | sendReplyImm args => args.sizeAndPort
  | receiveMessage args => args.sizeAndPort

namespace PackedCall

def size : PackedCall → Int32
  | send _ _ _ size => size
  | sendReplyImm _ a => a.size
  | receiveMessage _ a => a.receiveSize

def port : PackedCall → UInt32
  | send _ port _ _ => port
  | sendReplyImm _ a => a.port
  | receiveMessage _ a => a.port

/-- What the wrapper returns, for memory that holds `length₀` and `descriptor₀` where the
polling wrappers look. -/
def run (sys : Syscall → Kernel) (length₀ : Int32) (descriptor₀ : UInt64) (fuel : ℕ) :
    PackedCall → Option Int32
  | send targetNode port addr size =>
      some (userspaceLiteapiSend (sys ∘ .sendReplyImm) targetNode port addr size)
  | sendReplyImm .plain a => some (userspaceLiteapiSendReplyImm (sys ∘ .sendReplyImm) a)
  | sendReplyImm .high a => some (userspaceLiteapiSendReplyImmHigh (sys ∘ .sendReplyImm) a)
  | sendReplyImm .low a => some (userspaceLiteapiSendReplyImmLow (sys ∘ .sendReplyImm) a)
  | sendReplyImm .fast a =>
      userspaceLiteapiSendReplyImmFast (sys ∘ .sendReplyImm) a.targetNode a.port a.addr a.size
        a.retAddr a.retLength a.maxRetSize length₀ fuel
  | receiveMessage .plain a => some (userspaceLiteapiReceiveMessage (sys ∘ .receiveMessage) a)
  | receiveMessage .high a => some (userspaceLiteapiReceiveMessageHigh (sys ∘ .receiveMessage) a)
  | receiveMessage .low a => some (userspaceLiteapiReceiveMessageLow (sys ∘ .receiveMessage) a)
  | receiveMessage .fast a =>
      (userspaceLiteapiReceiveMessageFast (sys ∘ .receiveMessage) a.port a.retAddr a.receiveSize
        a.descriptor a.retLength a.blockCall length₀ descriptor₀ fuel).map Prod.fst

/-- The sizes the wrapper does not bother the kernel with. -/
def Refused : PackedCall → Prop
  | send _ _ _ size => limitation ≤ size
  | sendReplyImm _ a => TooBig a.size a.maxRetSize
  | receiveMessage _ _ => False

instance : DecidablePred Refused
  | send _ _ _ size => inferInstanceAs (Decidable (limitation ≤ size))
  | sendReplyImm _ a => inferInstanceAs (Decidable (TooBig a.size a.maxRetSize))
  | receiveMessage _ _ => inferInstanceAs (Decidable False)

/-- The system call in the body of the wrapper. -/
def request : PackedCall → Syscall
  | send targetNode port addr size => .sendReplyImm (sendCall targetNode port addr size)
  | sendReplyImm .plain a => .sendReplyImm (replyCall a a.maxRetSize)
  | sendReplyImm .high a =>
      .sendReplyImm (replyCall a ((a.maxRetSize <<< immMaxPriorityBit) + userspaceHighPriority))
  | sendReplyImm .low a =>
      .sendReplyImm (replyCall a ((a.maxRetSize <<< immMaxPriorityBit) + userspaceLowPriority))
  | sendReplyImm .fast a =>
      .sendReplyImm (Backend.sendReplyImm a.targetNode a.port a.addr a.size a.retAddr a.retLength
        a.maxRetSize)
  | receiveMessage .plain a => .receiveMessage (receiveCall a nullPriority)
  | receiveMessage .high a => .receiveMessage (receiveCall a userspaceHighPriority)
  | receiveMessage .low a => .receiveMessage (receiveCall a userspaceLowPriority)
  | receiveMessage .fast a =>
      .receiveMessage (Backend.receiveMessage a.port a.retAddr a.receiveSize a.descriptor
        a.retLength a.blockCall)

/-- The system call the wrapper makes, if it makes one. -/
def syscall (c : PackedCall) : Option Syscall := if c.Refused then none else some c.request

/-- What the wrapper makes of what the kernel does with its system call. -/
def returns (k : Kernel) (length₀ : Int32) (fuel : ℕ) : PackedCall → Option Int32
  | sendReplyImm .fast _ => awaitReply k length₀ fuel
  | receiveMessage .fast _ => (awaitMessage k length₀ fuel).map Prod.fst
  | _ => some k.ret

variable {c : PackedCall}

theorem run_of_refused (h : c.Refused) (sys : Syscall → Kernel) (length₀ : Int32)
    (descriptor₀ : UInt64) (fuel : ℕ) : c.run sys length₀ descriptor₀ fuel = some (-1) := by
  cases c with
  | send targetNode port addr size => exact congrArg some (if_pos h)
  | sendReplyImm v a =>
      cases v with
      | plain | high | low => exact congrArg some (if_pos h)
      | fast => exact if_pos h
  | receiveMessage v a => exact h.elim

theorem run_of_not_refused (h : ¬ c.Refused) (sys : Syscall → Kernel) (length₀ : Int32)
    (descriptor₀ : UInt64) (fuel : ℕ) :
    c.run sys length₀ descriptor₀ fuel = c.returns (sys c.request) length₀ fuel := by
  cases c with
  | send targetNode port addr size => exact congrArg some (if_neg h)
  | sendReplyImm v a =>
      cases v with
      | plain | high | low => exact congrArg some (if_neg h)
      | fast => exact if_neg h
  | receiveMessage v a => cases v <;> rfl

/-- **A wrapper is its system call**: it fails without one, or returns what comes of it. -/
theorem run_eq (sys : Syscall → Kernel) (length₀ : Int32) (descriptor₀ : UInt64) (fuel : ℕ)
    (c : PackedCall) :
    c.run sys length₀ descriptor₀ fuel =
      match c.syscall with
      | none => some (-1)
      | some s => c.returns (sys s) length₀ fuel := by
  by_cases h : c.Refused
  · rw [run_of_refused h, syscall, if_pos h]
  · rw [run_of_not_refused h, syscall, if_neg h]

theorem syscall_eq_some_iff {s : Syscall} : c.syscall = some s ↔ ¬ c.Refused ∧ c.request = s := by
  by_cases h : c.Refused
  · simp [syscall, h]
  · simp [syscall, h]

/-- Every wrapper packs its size and its port in the same way. -/
theorem word_request (c : PackedCall) : c.request.word = wordOf c.size c.port := by
  cases c with
  | send targetNode port addr size => rfl
  | sendReplyImm v a => cases v <;> rfl
  | receiveMessage v a => cases v <;> rfl

end PackedCall

/-! ## What the words say -/

/-- The word decodes to the size and the port. -/
def HasParts (word : UInt32) (size : Int32) (port : UInt32) : Prop :=
  ((word >>> immMaxPortBit).toNat : ℤ) = size.toInt ∧ word % immMaxPort = port

instance (word : UInt32) (size : Int32) (port : UInt32) : Decidable (HasParts word size port) :=
  inferInstanceAs (Decidable (_ ∧ _))

/-- The size and the port fit their fields. -/
def Fits (size : Int32) (port : UInt32) : Prop :=
  0 ≤ size ∧ size.toInt < 2 ^ 26 ∧ port < immMaxPort

instance (size : Int32) (port : UInt32) : Decidable (Fits size port) :=
  inferInstanceAs (Decidable (_ ∧ _ ∧ _))

variable {size size' : Int32} {port port' word : UInt32}

/-- The number of a size as the unsigned operand of the sum. -/
theorem toInt_eq (size : Int32) :
    size.toInt = if size.toUInt32.toNat < 2 ^ 31 then (size.toUInt32.toNat : ℤ)
      else size.toUInt32.toNat - 2 ^ 32 := by
  have h := BitVec.toInt_eq_toNat_cond size.toBitVec
  rw [show size.toInt = size.toBitVec.toInt from rfl, h]
  change (if 2 * size.toUInt32.toNat < 2 ^ 32 then _ else _) = _
  by_cases hlt : size.toUInt32.toNat < 2 ^ 31
  · rw [if_pos hlt, if_pos (by omega)]
    rfl
  · rw [if_neg hlt, if_neg (by omega)]
    rfl

theorem toNat_wordOf (size : Int32) (port : UInt32) :
    (wordOf size port).toNat = pack 32 6 size.toUInt32.toNat port.toNat :=
  toNat_shiftLeft_add (by decide) _ _

/-- The parts of a word, in numbers. -/
theorem hasParts_iff : HasParts word size port ↔
    0 ≤ size ∧ Decodes 6 word.toNat size.toUInt32.toNat port.toNat := by
  have hshift : (word >>> immMaxPortBit).toNat = word.toNat / 2 ^ 6 :=
    toNat_shiftRight (by decide) word
  have hmod : word % immMaxPort = port ↔ word.toNat % 2 ^ 6 = port.toNat := by
    rw [← UInt32.toNat_inj, UInt32.toNat_mod]
    rfl
  have hsize := size.toUInt32.toNat_lt
  rw [HasParts, hshift, hmod, Decodes, Int32.le_iff_toInt_le, Int32.toInt_zero, toInt_eq, ← and_assoc]
  apply and_congr_left'
  split_ifs with h
  · omega
  · omega

/-- The fields fit, in numbers. -/
theorem fits_iff : Fits size port ↔
    0 ≤ size ∧ size.toUInt32.toNat < 2 ^ (32 - 6) ∧ port.toNat < 2 ^ 6 := by
  have hport : port < immMaxPort ↔ port.toNat < 2 ^ 6 := UInt32.lt_iff_toNat_lt
  have hsize := size.toUInt32.toNat_lt
  rw [Fits, hport, Int32.le_iff_toInt_le, Int32.toInt_zero, toInt_eq]
  split_ifs with h
  · omega
  · omega

/-- The word for a size and a port has them for its parts exactly when they fit. -/
theorem hasParts_wordOf_iff : HasParts (wordOf size port) size port ↔ Fits size port := by
  rw [hasParts_iff, fits_iff, toNat_wordOf, decodes_pack_iff (by decide)]

theorem HasParts.unique (h : HasParts word size port) (h' : HasParts word size' port') :
    size = size' ∧ port = port' := by
  rw [hasParts_iff] at h h'
  obtain ⟨hsize, hport⟩ := h.2.unique h'.2
  refine ⟨?_, UInt32.toNat_inj.mp hport⟩
  rw [← Int32.toInt_inj, toInt_eq, toInt_eq, hsize]

namespace PackedCall

/-- **When the packed word is lossless.**  The word of a call that gets as far as the
system call decodes to its size and its port exactly when they fit, and no two such calls
have the same word but different sizes or ports. -/
theorem word_decodes_iff (c : PackedCall) :
    ((∀ s, c.syscall = some s → HasParts s.word c.size c.port) ↔
      c.Refused ∨ Fits c.size c.port) ∧
    ∀ (c' : PackedCall) (s s' : Syscall), c.syscall = some s → c'.syscall = some s' →
      Fits c.size c.port → Fits c'.size c'.port → s.word = s'.word →
        c.size = c'.size ∧ c.port = c'.port := by
  have hparts {c : PackedCall} {s : Syscall} (hs : c.syscall = some s) :
      HasParts s.word c.size c.port ↔ Fits c.size c.port := by
    obtain ⟨-, rfl⟩ := syscall_eq_some_iff.mp hs
    rw [word_request, hasParts_wordOf_iff]
  constructor
  · constructor
    · intro h
      by_cases hc : c.Refused
      · exact Or.inl hc
      · have hs := syscall_eq_some_iff.mpr ⟨hc, rfl⟩
        exact Or.inr ((hparts hs).mp (h _ hs))
    · rintro (hc | hfits) s hs
      · exact absurd hc (syscall_eq_some_iff.mp hs).1
      · exact (hparts hs).mpr hfits
  · intro c' s s' hs hs' hfits hfits' hword
    have h := (hparts hs).mpr hfits
    rw [hword] at h
    exact h.unique ((hparts hs').mpr hfits')

/-- A port of 64 makes the word of another size. -/
theorem not_word_decodes_port_64 :
    let c := send 0 64 0 1
    let c' := send 0 0 0 2
    ∃ s s', c.syscall = some s ∧ c'.syscall = some s' ∧ s.word = s'.word ∧
      ¬ HasParts s.word c.size c.port ∧ (c.size, c.port) ≠ (c'.size, c'.port) := by
  refine ⟨_, _, rfl, rfl, ?_, ?_, ?_⟩
  · decide
  · decide
  · decide

end PackedCall

/-! ## Four wrappers for one request -/

theorem toInt_shiftLeft (x : Int32) :
    (x <<< immMaxPriorityBit).toInt = ((x.toUInt32.toNat * 2 ^ 6 : ℕ) : ℤ).bmod (2 ^ 32) := by
  have hbit : immMaxPriorityBit.toBitVec.smod 32 = 6#32 := by decide
  change (x.toBitVec <<< immMaxPriorityBit.toBitVec.smod 32).toInt = _
  rw [hbit, BitVec.shiftLeft_eq', BitVec.toInt_shiftLeft, Nat.shiftLeft_eq]
  rfl

theorem toInt_shiftRight (x : Int32) : (x >>> immMaxPriorityBit).toInt = x.toInt / 2 ^ 6 := by
  have hbit : immMaxPriorityBit.toBitVec.smod 32 = 6#32 := by decide
  change (x.toBitVec.sshiftRight' (immMaxPriorityBit.toBitVec.smod 32)).toInt = _
  rw [hbit, BitVec.toInt_sshiftRight', Int.shiftRight_eq_div_pow]
  rfl

theorem toInt_mod_immMaxPriority {x : Int32} (hx : 0 ≤ x.toInt) :
    (x % immMaxPriority).toInt = x.toInt % 2 ^ 6 := by
  rw [Int32.toInt_mod]
  exact Int.tmod_eq_emod_of_nonneg hx

variable {maxRetSize priority : Int32}

/-- Below `LIMITATION` the sum does not overflow. -/
theorem toInt_shiftLeft_add (hmax : 0 ≤ maxRetSize) (hlt : ¬ limitation ≤ maxRetSize)
    (hpriority : 0 ≤ priority.toInt ∧ priority.toInt < 2 ^ 6) :
    ((maxRetSize <<< immMaxPriorityBit) + priority).toInt =
      maxRetSize.toInt * 2 ^ 6 + priority.toInt := by
  have hlimit : limitation.toInt = 2 ^ 22 := by decide
  rw [Int32.le_iff_toInt_le, hlimit] at hlt
  rw [Int32.le_iff_toInt_le, Int32.toInt_zero] at hmax
  have hnat : (maxRetSize.toUInt32.toNat : ℤ) = maxRetSize.toInt := by
    have h := toInt_eq maxRetSize
    have hsize := maxRetSize.toUInt32.toNat_lt
    split_ifs at h with hs
    · exact h.symm
    · omega
  rw [Int32.toInt_add, toInt_shiftLeft, Int.bmod_add_bmod, Nat.cast_mul, hnat]
  apply Int.bmod_eq_of_le
  · push_cast
    omega
  · push_cast
    omega

/-- A size and a priority come out of the last argument as they went in. -/
theorem shiftLeft_add_decodes (hmax : 0 ≤ maxRetSize) (hlt : ¬ limitation ≤ maxRetSize)
    (hpriority : 0 ≤ priority.toInt ∧ priority.toInt < 2 ^ 6) :
    ((maxRetSize <<< immMaxPriorityBit) + priority) >>> immMaxPriorityBit = maxRetSize ∧
      ((maxRetSize <<< immMaxPriorityBit) + priority) % immMaxPriority = priority := by
  have hsum := toInt_shiftLeft_add hmax hlt hpriority
  rw [Int32.le_iff_toInt_le, Int32.toInt_zero] at hmax
  rw [← Int32.toInt_inj, ← Int32.toInt_inj, toInt_shiftRight,
    toInt_mod_immMaxPriority (by omega), hsum]
  omega

/-- A size alone decodes to itself and no priority only if it is zero. -/
theorem decodes_plain_iff (hmax : 0 ≤ maxRetSize) :
    maxRetSize >>> immMaxPriorityBit = maxRetSize ∧ maxRetSize % immMaxPriority = nullPriority ↔
      maxRetSize = 0 := by
  constructor
  · rintro ⟨hsize, -⟩
    rw [Int32.le_iff_toInt_le, Int32.toInt_zero] at hmax
    rw [← Int32.toInt_inj, toInt_shiftRight] at hsize
    rw [← Int32.toInt_inj, Int32.toInt_zero]
    omega
  · rintro rfl
    decide

namespace PackedCall

/-- The variants of `userspace_liteapi_send_reply_imm` make the same system call up to
its last two arguments, and the last one decodes to the size of the reply and the
priority of the variant. -/
def EncodeAlike (a : ReplyArgs) : Prop :=
  ∃ call : Variant → SendReplyImm,
    (∀ v, (sendReplyImm v a).syscall = some (.sendReplyImm (call v))) ∧
    (∀ v v', (call v).targetNode = (call v').targetNode ∧
      (call v).sizeAndPort = (call v').sizeAndPort ∧
      (call v).addr = (call v').addr ∧ (call v).retAddr = (call v').retAddr) ∧
    ∀ v, (call v).maxRetSizeAndPriority >>> immMaxPriorityBit = a.maxRetSize ∧
      (call v).maxRetSizeAndPriority % immMaxPriority = v.priority

/-- The last argument of the variants. -/
def last (maxRetSize : Int32) : Variant → Int32
  | .plain => maxRetSize
  | v => (maxRetSize <<< immMaxPriorityBit) + v.priority

theorem request_sendReplyImm (v : Variant) (a : ReplyArgs) :
    (sendReplyImm v a).request = .sendReplyImm { replyCall a (last a.maxRetSize v) with
      retLength := if v = .fast then a.retLength else 0 } := by
  cases v <;> rfl

/-- **When the four wrappers encode the same request**: they agree on everything but the
last argument, which `userspace_liteapi_send_reply_imm` does not shift. -/
theorem encode_alike_iff (a : ReplyArgs) (haccepted : ¬ TooBig a.size a.maxRetSize)
    (hmax : 0 ≤ a.maxRetSize) : EncodeAlike a ↔ a.maxRetSize = 0 := by
  have hlt : ¬ limitation ≤ a.maxRetSize := fun h ↦ haccepted (Or.inr h)
  let call (v : Variant) : SendReplyImm := { replyCall a (last a.maxRetSize v) with
    retLength := if v = .fast then a.retLength else 0 }
  have hcall (v : Variant) : (sendReplyImm v a).syscall = some (.sendReplyImm (call v)) :=
    syscall_eq_some_iff.mpr ⟨haccepted, request_sendReplyImm v a⟩
  rw [← decodes_plain_iff hmax]
  constructor
  · rintro ⟨call', hcall', -, hlast⟩
    have hplain : call' .plain = call .plain := by
      have h := (hcall' .plain).symm.trans (hcall .plain)
      injection h with h
      injection h
    have h := hlast .plain
    rw [hplain] at h
    exact h
  · intro h
    refine ⟨call, hcall, fun v v' ↦ ⟨rfl, rfl, rfl, rfl⟩, fun v ↦ ?_⟩
    cases v with
    | plain => exact h
    | high | low | fast => exact shiftLeft_add_decodes hmax hlt (by decide)

/-- Without room for a reply there is nothing to shift. -/
theorem encode_alike_noReply : EncodeAlike ⟨1, 3, 0, 8, 0, 0, 0⟩ :=
  (encode_alike_iff ⟨1, 3, 0, 8, 0, 0, 0⟩ (by decide) (by decide)).mpr rfl

/-- A reply of at most 64 bytes. -/
def shortReply : ReplyArgs := ⟨1, 3, 0, 8, 0, 0, 64⟩

/-- Asked for a reply of at most 64 bytes, the kernel sees a reply of one byte. -/
theorem not_encode_alike_shortReply :
    ¬ TooBig shortReply.size shortReply.maxRetSize ∧ 0 ≤ shortReply.size ∧
      0 ≤ shortReply.maxRetSize ∧ shortReply.port < immMaxPort ∧ ¬ EncodeAlike shortReply := by
  refine ⟨by decide, by decide, by decide, by decide, ?_⟩
  rintro ⟨call, hcall, -, hlast⟩
  have hplain : call .plain = replyCall shortReply 64 := by
    have h := (hcall .plain).symm
    injection h with h
    injection h
  have h := (hlast .plain).1
  rw [hplain] at h
  exact absurd h (by decide)

end PackedCall

end Backend

end Freelite
