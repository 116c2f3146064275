import Freelite.Link.Reported

/-!
# Strings on their way to the router

Four functions of the client library copy a string into a field of the request.  The
bound of the copy is the length of the string, or the length that comes with it, and
not the size of the field; and no terminator is stored, the one the router finds is a
zero of the initialiser.

What the router reads is a matter of three cases.  A bound below the size of the field
leaves a zero in it.  A bound equal to the size fills it, and the reader goes on into
the member behind it.  A bound above the size writes outside of the field.  The four
functions differ only in the field and in the byte behind it, so they are one
definition with parameters (`StringCall.Survives`) and one theorem about it
(`StringCall.survives_iff`).
-/

namespace Freelite

open Lib

/-! ## The requests a function sends -/

namespace ApiCall

variable {κ : Type*}

/-- An `rpc_handler` that also keeps a record of the requests it is given. -/
def recorded (rpc : RpcHandler κ) : RpcHandler (List ReqMsg × κ) :=
  fun req rsp k ↦
    let (err, rsp', k') := rpc req rsp k.2
    (err, rsp', k.1 ++ [req], k')

/-- The client's system calls leave the record alone. -/
def recordedOs (os : ClientOs κ) : ClientOs (List ReqMsg × κ) where
  shmOpen name k :=
    let (fd, k') := os.shmOpen name k.2
    (fd, k.1, k')
  mmap size fd k :=
    let (addr, k') := os.mmap size fd k.2
    (addr, k.1, k')

/-- What the call returns, and the requests it has sent. -/
def sent (rpc : RpcHandler κ) (os : ClientOs κ) (rsp₀ : RspMsg) (out : Outputs) (k : κ)
    (c : ApiCall) : Option (Int32 × List ReqMsg) :=
  (c.run (recorded rpc) (recordedOs os) rsp₀ out ([], k)).map fun r ↦ (r.1, r.2.2.1)

variable {rpc : RpcHandler κ} {os : ClientOs κ} {rsp₀ : RspMsg} {out : Outputs} {k : κ}

theorem sent_of_request_none {c : ApiCall} (hreq : c.request = none) :
    c.sent rpc os rsp₀ out k = none := by
  by_cases hc : c.ReturnsInt
  · rw [sent, run_of_returnsInt hc, hreq]
    rfl
  · rcases c with _ | ⟨inputStr, ethPort, ibPort⟩ | f
    · exact absurd trivial hc
    · exact absurd trivial hc
    · cases f
      case receiveMessageFast => contradiction
      case allocLocalMem name size localAddr =>
        have hreq' : LiteLib.allocLocalMemReq name size = none := hreq
        simp only [sent, run, LiteLib.userspaceLiteapiAllocLocalMem, hreq', Option.map_none]
      all_goals exact absurd trivial hc

/-- A function that can build its request sends this one and no other. -/
theorem sent_of_request (rpc : RpcHandler κ) (os : ClientOs κ) (rsp₀ : RspMsg) (out : Outputs)
    (k : κ) {c : ApiCall} {req : ReqMsg} (hreq : c.request = some req) :
    ∃ ret, c.sent rpc os rsp₀ out k = some (ret, [req]) := by
  by_cases hc : c.ReturnsInt
  · rw [sent, run_of_returnsInt hc, hreq]
    exact ⟨_, rfl⟩
  · rcases c with _ | ⟨inputStr, ethPort, ibPort⟩ | f
    · exact absurd trivial hc
    · exact absurd trivial hc
    · cases f
      case receiveMessageFast =>
        obtain rfl := Option.some_inj.mp hreq
        exact ⟨_, rfl⟩
      case allocLocalMem name size localAddr =>
        have hreq' : LiteLib.allocLocalMemReq name size = some req := hreq
        obtain ⟨err, rsp, k₁, hrpc⟩ : ∃ err rsp k₁,
            recorded rpc req rsp₀ ([], k) = (err, rsp, [req], k₁) := ⟨_, _, _, rfl⟩
        obtain ⟨fd, k₂, hopen⟩ : ∃ fd k₂,
            (recordedOs os).shmOpen name ([req], k₁) = (fd, [req], k₂) := ⟨_, _, rfl⟩
        simp only [sent, run, LiteLib.userspaceLiteapiAllocLocalMem, hreq', Option.map_some, hrpc,
          hopen]
        by_cases hneg : RspMsg.intRsp.get rsp < 0
        · exact ⟨-1, by rw [if_pos hneg]⟩
        · rw [if_neg hneg]
          cases fd with
          | none => exact ⟨-1, rfl⟩
          | some fd => exact ⟨RspMsg.intRsp.get rsp, by simp only [if_neg localAddr.2]; rfl⟩
      all_goals exact absurd trivial hc

end ApiCall

/-! ## The four functions -/

/-- A call of a function with a string argument. -/
inductive StringCall
  | join (inputStr : List UInt8) (ethPort ibPort : Int32)
  | registerApplication (destinedPort maxSizePerMessage maxUserPerNode : UInt32)
      (name : List UInt8) (nameLen : UInt64)
  | allocLocalMem (name : List UInt8) (size : UInt64) (localAddr : VarAddr)
  | freeLocalMem (name : List UInt8) (size localAddr remoteAddr : UInt64)

namespace StringCall

/-- The call itself. -/
def call : StringCall → ApiCall
  | join inputStr ethPort ibPort => .join inputStr ethPort ibPort
  | registerApplication destinedPort maxSizePerMessage maxUserPerNode name nameLen =>
      .forwarded <|
        .registerApplication destinedPort maxSizePerMessage maxUserPerNode name nameLen
  | allocLocalMem name size localAddr => .forwarded (.allocLocalMem name size localAddr)
  | freeLocalMem name size localAddr remoteAddr =>
      .forwarded (.freeLocalMem name size localAddr remoteAddr)

/-- The field of the request the string is copied into. -/
def field : StringCall → CharArray 280
  | join _ _ _ => JoinReq.inputStr
  | registerApplication _ _ _ _ _ => RegisterApplicationReq.name
  | allocLocalMem _ _ _ => AllocLocalMemReq.name
  | freeLocalMem _ _ _ _ => FreeLocalMemReq.name

/-- The string. -/
def src : StringCall → List UInt8
  | join inputStr _ _ => inputStr
  | registerApplication _ _ _ name _ => name
  | allocLocalMem name _ _ => name
  | freeLocalMem name _ _ _ => name

/-- The bound of the copy. -/
def bound : StringCall → Nat
  | join inputStr _ _ => inputStr.length
  | registerApplication _ _ _ _ nameLen => nameLen.toNat
  | allocLocalMem name _ _ => name.length
  | freeLocalMem name _ _ _ => name.length

/-- The request before the string is copied into it. -/
def unnamed : StringCall → ReqMsg
  | join _ ethPort ibPort =>
      JoinReq.ibPort.set ibPort (JoinReq.ethPort.set ethPort (LiteLib.initReq .join))
  | registerApplication destinedPort maxSizePerMessage maxUserPerNode _ nameLen =>
      RegisterApplicationReq.nameLen.set nameLen <|
        RegisterApplicationReq.maxUserPerNode.set maxUserPerNode <|
        RegisterApplicationReq.maxSizePerMessage.set maxSizePerMessage <|
        RegisterApplicationReq.destinedPort.set destinedPort <|
        LiteLib.initReq .registerApplication
  | allocLocalMem _ size _ => AllocLocalMemReq.size.set size (LiteLib.initReq .allocLocalMem)
  | freeLocalMem _ size _ remoteAddr =>
      FreeLocalMemReq.remoteAddr.set remoteAddr
        (FreeLocalMemReq.size.set size (LiteLib.initReq .freeLocalMem))

/-- The byte behind the field: the lowest byte of the next member, or the padding
before it. -/
def behind : StringCall → UInt8
  | join _ ethPort _ => UInt8.ofNat ethPort.toUInt32.toNat
  | registerApplication _ _ _ _ _ => 0
  | allocLocalMem _ size _ => UInt8.ofNat size.toNat
  | freeLocalMem _ size _ _ => UInt8.ofNat size.toNat

/-- The other fields of the request are as the caller gave them. -/
def OthersKept (req : ReqMsg) : StringCall → Prop
  | join _ ethPort ibPort =>
      ReqMsg.funcCode.get req = FuncCode.code .join ∧ JoinReq.ethPort.get req = ethPort ∧
        JoinReq.ibPort.get req = ibPort
  | registerApplication destinedPort maxSizePerMessage maxUserPerNode _ nameLen =>
      ReqMsg.funcCode.get req = FuncCode.code .registerApplication ∧
        RegisterApplicationReq.destinedPort.get req = destinedPort ∧
        RegisterApplicationReq.maxSizePerMessage.get req = maxSizePerMessage ∧
        RegisterApplicationReq.maxUserPerNode.get req = maxUserPerNode ∧
        RegisterApplicationReq.nameLen.get req = nameLen
  | allocLocalMem _ size _ =>
      ReqMsg.funcCode.get req = FuncCode.code .allocLocalMem ∧
        AllocLocalMemReq.size.get req = size
  | freeLocalMem _ size _ remoteAddr =>
      ReqMsg.funcCode.get req = FuncCode.code .freeLocalMem ∧
        FreeLocalMemReq.size.get req = size ∧ FreeLocalMemReq.remoteAddr.get req = remoteAddr

variable {κ : Type*}

/-- The string survives: the copy stays in its field, and the router reads exactly the
part of the string the bound lets through, with all other fields as they were given;
or else the function fails and has not sent anything. -/
def Survives (rpc : RpcHandler κ) (os : ClientOs κ) (rsp₀ : RspMsg) (out : Outputs) (k : κ)
    (c : StringCall) : Prop :=
  (∃ ret req, c.call.sent rpc os rsp₀ out k = some (ret, [req]) ∧
    req.cstring c.field.offset = some (c.src.take c.bound) ∧ c.OthersKept req) ∨
  ∃ ret, c.call.sent rpc os rsp₀ out k = some (ret, []) ∧ ret < 0

/-! ## What the router reads -/

/-- All four build their requests in the same way. -/
theorem request_call (c : StringCall) :
    c.call.request = c.field.strncpy c.src c.bound c.unnamed := by
  cases c <;> rfl

theorem slice_unnamed (c : StringCall) :
    c.unnamed.slice c.field.offset c.field.size = List.replicate c.field.size 0 := by
  cases c <;>
    simp (disch := decide) only [unnamed, field, LiteLib.initReq, CharArray.slice_set,
      CharArray.slice_zero]

/-- The member behind the field is assigned before the copy. -/
theorem slice_behind (c : StringCall) :
    c.unnamed.slice (c.field.offset + c.field.size) 1 = [c.behind] := by
  -- the assignments of the members further back do not reach that byte
  have hset {α : Type} {i : Nat} {f : Field 280 α} (hi : i + 1 ≤ 280)
      (hd : (⟨i, 1, hi⟩ : CharArray 280).Disjoint f) (a : α) (req : ReqMsg) :
      (f.set a req).slice i 1 = req.slice i 1 := CharArray.slice_set hd a req
  cases c with
  | join inputStr ethPort ibPort =>
      change (JoinReq.ibPort.set ibPort _).slice 24 1 = _
      rw [hset (by decide) (by decide)]
      exact JoinReq.ethPort.slice_set_self ethPort _ (by decide)
  | registerApplication destinedPort maxSizePerMessage maxUserPerNode name nameLen =>
      -- the padding behind the name is zero from the start
      change (RegisterApplicationReq.nameLen.set nameLen _).slice 52 1 = _
      rw [hset (by decide) (by decide), hset (by decide) (by decide),
        hset (by decide) (by decide), hset (by decide) (by decide), LiteLib.initReq,
        hset (by decide) (by decide)]
      rfl
  | allocLocalMem name size localAddr =>
      exact AllocLocalMemReq.size.slice_set_self size _ (by decide)
  | freeLocalMem name size localAddr remoteAddr =>
      change (FreeLocalMemReq.remoteAddr.set remoteAddr _).slice 264 1 = _
      rw [hset (by decide) (by decide)]
      exact FreeLocalMemReq.size.slice_set_self size _ (by decide)

theorem othersKept_of_request {c : StringCall} {req : ReqMsg} (h : c.call.request = some req) :
    c.OthersKept req := by
  rw [request_call] at h
  have hget {α : Type} (f : Field 280 α) (hd : c.field.Disjoint f) :=
    CharArray.get_strncpy hd h
  cases c <;> simp only [field, unnamed] at hget <;>
    simp (disch := decide) only [OthersKept, hget, LiteLib.initReq, Field.get_set_self,
      Field.get_set_of_disjoint, and_self]

/-- What the router reads of a request that has been built. -/
theorem cstring_request_iff {c : StringCall} (hsrc : 0 ∉ c.src) (hlen : c.bound ≤ c.src.length)
    {req : ReqMsg} (h : c.call.request = some req) :
    req.cstring c.field.offset = some (c.src.take c.bound) ↔
      c.bound < c.field.size ∨ c.bound = c.field.size ∧ c.behind = 0 := by
  rw [request_call] at h
  have hle : c.bound ≤ c.field.size := by
    by_contra hlt
    rw [CharArray.strncpy_eq_none_iff.mpr (Nat.lt_of_not_le hlt)] at h
    contradiction
  rcases hle.lt_or_eq with hlt | heq
  · have hshort : (c.src.take c.bound).length < c.field.size :=
      (List.length_take_le _ _).trans_lt hlt
    have hread := CharArray.cstring_strncpy hsrc hshort c.slice_unnamed h
    exact iff_of_true (CharArray.flat_cstring_of_cstring hread) (Or.inl hlt)
  · have hbehind := (CharArray.slice_strncpy_behind h).trans c.slice_behind
    rw [heq] at h hlen ⊢
    rw [CharArray.flat_cstring_of_full hsrc hlen h, hbehind]
    simp

/-- A copy that leaves its field takes the whole call with it. -/
theorem not_survives_of_request_none {rpc : RpcHandler κ} {os : ClientOs κ} {rsp₀ : RspMsg}
    {out : Outputs} {k : κ} {c : StringCall} (hreq : c.call.request = none) :
    ¬ c.Survives rpc os rsp₀ out k := by
  rintro (⟨ret, req, hsent, -⟩ | ⟨ret, hsent, -⟩)
  · rw [ApiCall.sent_of_request_none hreq] at hsent
    contradiction
  · rw [ApiCall.sent_of_request_none hreq] at hsent
    contradiction

/-- **When a string survives.**  It is shorter than its field, or it fills the field
and the byte behind it happens to be zero. -/
theorem survives_iff (rpc : RpcHandler κ) (os : ClientOs κ) (rsp₀ : RspMsg) (out : Outputs)
    (k : κ) {c : StringCall} (hsrc : 0 ∉ c.src) (hlen : c.bound ≤ c.src.length) :
    c.Survives rpc os rsp₀ out k ↔
      c.bound < c.field.size ∨ c.bound = c.field.size ∧ c.behind = 0 := by
  cases hreq : c.call.request with
  | none =>
      have hlong : c.field.size < c.bound := by
        rwa [request_call, CharArray.strncpy_eq_none_iff] at hreq
      exact iff_of_false (not_survives_of_request_none hreq) (by omega)
  | some req =>
      obtain ⟨ret, hsent⟩ := ApiCall.sent_of_request rpc os rsp₀ out k hreq
      rw [← cstring_request_iff hsrc hlen hreq]
      constructor
      · rintro (⟨ret', req', hsent', hread, -⟩ | ⟨ret', hsent', -⟩)
        · obtain ⟨rfl, rfl⟩ : ret = ret' ∧ req = req' := by simpa [hsent] using hsent'
          exact hread
        · rw [hsent] at hsent'
          simp at hsent'
      · intro hread
        exact Or.inl ⟨ret, req, hsent, hread, othersKept_of_request hreq⟩

theorem survives_iff_a :
    (allocLocalMem [0x61] 4097 ⟨0x1000, by decide⟩).Survives
        (fun _ rsp k ↦ (-1, rsp, k)) ⟨fun _ k ↦ (none, k), fun _ _ k ↦ (none, k)⟩ (Flat.zero 24)
        ⟨0, 0, 0, 0⟩ () ↔
      1 < 256 ∨ 1 = 256 ∧ UInt8.ofNat (4097 : UInt64).toNat = 0 :=
  survives_iff _ _ _ _ () (c := allocLocalMem [0x61] 4097 ⟨0x1000, by decide⟩)
    (by decide) (by decide)

/-- A name of 33 characters is copied past the end of its field. -/
theorem not_survives_long :
    ¬ ∀ (name : List UInt8) (nameLen : UInt64), 0 ∉ name → nameLen.toNat ≤ name.length →
      (registerApplication 1 4096 1 name nameLen).Survives
        (fun _ rsp k ↦ (-1, rsp, k)) ⟨fun _ k ↦ (none, k), fun _ _ k ↦ (none, k)⟩
        (Flat.zero 24) ⟨0, 0, 0, 0⟩ () := by
  intro h
  have hreq : (registerApplication 1 4096 1 (List.replicate 33 0x61) 33).call.request = none := by
    rw [request_call]
    exact CharArray.strncpy_eq_none_iff.mpr (by decide)
  exact not_survives_of_request_none hreq (h (List.replicate 33 0x61) 33 (by decide) (by decide))

end StringCall

end Freelite
