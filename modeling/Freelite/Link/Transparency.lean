import Freelite.Link.Basic

/-!
# The library and the router together are transparent

An operation that goes through the client library and a router session should be the
backend call it stands for.  The encoder and the decoder share nothing but a layout,
so there is one round trip for every request: the session's branch, applied to the
request the library builds, makes *this* backend call with *these* arguments.

The round trips show where the two disagree.  `userspace_liteapi_send_reply_imm_fast`
reaches the backend with `ret_addr` in the place of `addr`, and a name that is longer
than the length given with it arrives cut off.
-/

namespace Freelite

open Lib

variable {ν β γ : Type*} {env : Env ν β} {cid : Cid}

/-! ## What the session makes of the requests of the library -/

section RoundTrip

attribute [local simp] Session.dispatch

variable (rsp : RspMsg) (w : World ν β)

theorem dispatch_allocRemoteMemReq (nodeId size : UInt32) (atomicFlag : Bool)
    (password : Int32) :
    Session.dispatch env cid (LiteLib.allocRemoteMemReq nodeId size atomicFlag password) rsp w =
      Session.callInt env
        (.allocRemoteMem (w.tempNid env nodeId.toInt32).1.toUInt32 size atomicFlag password) rsp
        (w.tempNid env nodeId.toInt32).2 := by
  simp (disch := decide) only [Session.dispatch, LiteLib.allocRemoteMemReq, LiteLib.initReq,
    Field.get_set_self, Field.get_set_of_disjoint, FuncCode.ofCode_code]

theorem dispatch_rdmaWriteReq (liteHandler : UInt32) (localAddr : UInt64) (size offset : UInt32)
    (password : Int32) :
    Session.dispatch env cid
        (LiteLib.rdmaReq .rdmaWrite liteHandler localAddr size offset password) rsp w =
      Session.callInt env (.rdmaWrite liteHandler localAddr size offset password) rsp w := by
  simp (disch := decide) only [Session.dispatch, LiteLib.rdmaReq, LiteLib.initReq,
    Field.get_set_self, Field.get_set_of_disjoint, FuncCode.ofCode_code]

theorem dispatch_rdmaReadReq (liteHandler : UInt32) (localAddr : UInt64) (size offset : UInt32)
    (password : Int32) :
    Session.dispatch env cid
        (LiteLib.rdmaReq .rdmaRead liteHandler localAddr size offset password) rsp w =
      Session.callInt env (.rdmaRead liteHandler localAddr size offset password) rsp w := by
  simp (disch := decide) only [Session.dispatch, LiteLib.rdmaReq, LiteLib.initReq,
    Field.get_set_self, Field.get_set_of_disjoint, FuncCode.ofCode_code]

/-- The session passes `ret_addr` twice; `addr` is in the request, but nobody reads it. -/
theorem dispatch_sendReplyImmFastReq (targetNode : Int32) (port : UInt32) (addr : UInt64)
    (size : Int32) (retAddr retLength : UInt64) (maxRetSize : Int32) :
    Session.dispatch env cid
        (LiteLib.sendReplyImmFastReq targetNode port addr size retAddr retLength maxRetSize) rsp w =
      Session.callInt env
        (.sendReplyImmFast (w.tempNid env targetNode).1 port retAddr size retAddr retLength
          maxRetSize) rsp
        (w.tempNid env targetNode).2 := by
  simp (disch := decide) only [Session.dispatch, LiteLib.sendReplyImmFastReq, LiteLib.initReq,
    Field.get_set_self, Field.get_set_of_disjoint, FuncCode.ofCode_code]

theorem dispatch_receiveMessageFastReq (port : UInt32) (retAddr : UInt64)
    (receiveSize blockCall : Int32) :
    Session.dispatch env cid
        (LiteLib.receiveMessageFastReq port retAddr receiveSize blockCall) rsp w =
      let r := w.call env (.receiveMessageFast port retAddr receiveSize blockCall)
      .reply
        (RspMsg.intRsp.set r.1.ret <|
          Session.output ReceiveMessageFastRsp.retLength r.1.retLength <|
          Session.output ReceiveMessageFastRsp.descriptor r.1.descriptor rsp) r.2 := by
  simp (disch := decide) only [Session.dispatch, LiteLib.receiveMessageFastReq, LiteLib.initReq,
    Field.get_set_self, Field.get_set_of_disjoint, FuncCode.ofCode_code]

theorem dispatch_replyMessageReq (addr : UInt64) (size : Int32) (descriptor : UInt64) :
    Session.dispatch env cid (LiteLib.replyMessageReq addr size descriptor) rsp w =
      Session.callInt env (.replyMessage addr size descriptor) rsp w := by
  simp (disch := decide) only [Session.dispatch, LiteLib.replyMessageReq, LiteLib.initReq,
    Field.get_set_self, Field.get_set_of_disjoint, FuncCode.ofCode_code]

theorem dispatch_distBarrierReq (num : UInt32) :
    Session.dispatch env cid (LiteLib.distBarrierReq num) rsp w =
      Session.callInt env (.distBarrier num) rsp w := by
  simp (disch := decide) only [Session.dispatch, LiteLib.distBarrierReq, LiteLib.initReq,
    Field.get_set_self, Field.get_set_of_disjoint, FuncCode.ofCode_code]

theorem dispatch_queryPortReq (targetNode designedPort : Int32) :
    Session.dispatch env cid (LiteLib.queryPortReq targetNode designedPort) rsp w =
      Session.callInt env (.queryPort (w.tempNid env targetNode).1 designedPort) rsp
        (w.tempNid env targetNode).2 := by
  simp (disch := decide) only [Session.dispatch, LiteLib.queryPortReq, LiteLib.initReq,
    Field.get_set_self, Field.get_set_of_disjoint, FuncCode.ofCode_code]

/-! The three requests with a string exist only for a bound within the field, and what
arrives is as much of the string as the bound lets through. -/

section Strings

variable {name : List UInt8} {req : ReqMsg}

theorem registerApplicationReq_isNone_iff
    {destinedPort maxSizePerMessage maxUserPerNode : UInt32} {nameLen : UInt64} :
    LiteLib.registerApplicationReq destinedPort maxSizePerMessage maxUserPerNode name nameLen =
      none ↔ RegisterApplicationReq.name.size < nameLen.toNat := by
  rw [LiteLib.registerApplicationReq, CharArray.strncpy_eq_none_iff]

theorem dispatch_registerApplicationReq
    {destinedPort maxSizePerMessage maxUserPerNode : UInt32} {nameLen : UInt64}
    (hreq : LiteLib.registerApplicationReq destinedPort maxSizePerMessage maxUserPerNode name
      nameLen = some req) :
    Session.dispatch env cid req rsp w =
      Session.callInt env
        (.registerApplication destinedPort maxSizePerMessage maxUserPerNode
          (CharArray.copied (name.take nameLen.toNat) RegisterApplicationReq.name.size) nameLen)
        rsp w := by
  have hget {α : Type} (f : Field 280 α) (hd : RegisterApplicationReq.name.Disjoint f) :=
    CharArray.get_strncpy hd hreq
  have hchars : RegisterApplicationReq.name.chars req =
      CharArray.copied (name.take nameLen.toNat) RegisterApplicationReq.name.size := by
    refine CharArray.chars_strncpy ?_ hreq
    simp (disch := decide) only [LiteLib.initReq, CharArray.slice_set, CharArray.slice_zero]
  simp (disch := decide) only [Session.dispatch, hget, hchars, LiteLib.initReq, Field.get_set_self,
    Field.get_set_of_disjoint, FuncCode.ofCode_code]

theorem dispatch_allocLocalMemReq (hname : 0 ∉ name) (hlt : name.length < AllocLocalMemReq.name.size)
    {size : UInt64} (hreq : LiteLib.allocLocalMemReq name size = some req) :
    Session.dispatch env cid req rsp w =
      let r := w.call env (.allocShmMem name size)
      .reply
        (RspMsg.intRsp.set r.1.ret (Session.output AllocLocalMemRsp.remoteAddr r.1.addr rsp))
        r.2 := by
  have hget {α : Type} (f : Field 280 α) (hd : AllocLocalMemReq.name.Disjoint f) :=
    CharArray.get_strncpy hd hreq
  have hstr : req.cstring AllocLocalMemReq.name.offset = some name := by
    rw [← List.take_length (l := name)]
    apply CharArray.flat_cstring_of_cstring
    refine CharArray.cstring_strncpy hname (by simpa using hlt) ?_ hreq
    simp (disch := decide) only [LiteLib.initReq, CharArray.slice_set, CharArray.slice_zero]
  simp (disch := decide) only [Session.dispatch, hget, hstr, LiteLib.initReq, Field.get_set_self,
    Field.get_set_of_disjoint, FuncCode.ofCode_code]

theorem dispatch_freeLocalMemReq (hname : 0 ∉ name) (hlt : name.length < FreeLocalMemReq.name.size)
    {size remoteAddr : UInt64} (hreq : LiteLib.freeLocalMemReq name size remoteAddr = some req) :
    Session.dispatch env cid req rsp w =
      Session.callInt env (.freeShmMem name size remoteAddr) rsp w := by
  have hget {α : Type} (f : Field 280 α) (hd : FreeLocalMemReq.name.Disjoint f) :=
    CharArray.get_strncpy hd hreq
  have hstr : req.cstring FreeLocalMemReq.name.offset = some name := by
    rw [← List.take_length (l := name)]
    apply CharArray.flat_cstring_of_cstring
    refine CharArray.cstring_strncpy hname (by simpa using hlt) ?_ hreq
    simp (disch := decide) only [LiteLib.initReq, CharArray.slice_set, CharArray.slice_zero]
  simp (disch := decide) only [Session.dispatch, hget, hstr, LiteLib.initReq, Field.get_set_self,
    Field.get_set_of_disjoint, FuncCode.ofCode_code]

end Strings

end RoundTrip

/-! ## Transparency -/

namespace Forwarded

/-- Translating the target node makes no backend call. -/
@[simp] theorem calls_direct (c : Forwarded) (w : World ν β) :
    (c.direct env w).2.calls = w.calls := by
  cases c
  case allocRemoteMem => exact World.calls_tempNid _ w
  case sendReplyImmFast => exact World.calls_tempNid _ w
  case queryPort => exact World.calls_tempNid _ w
  all_goals rfl

/-- The output parameters of the operation have got what the backend call stored in
the ones it stored anything in. -/
def Stored (res : Returned) (r : BackendResult) : Forwarded → Prop
  | receiveMessageFast _ _ _ _ =>
      (∀ d, r.descriptor = some d → res.descriptor = some d) ∧
        ∀ n, r.retLength = some n → res.retLength = some n
  | _ => True

/-- Issued through the library and the router, the operation makes one backend call,
the one it stands for; the router is left as that call leaves it, and the caller gets
what that call returns. -/
def Transparent (env : Env ν β) (os : ClientOs γ) (cid : Cid) (rsp₀ : RspMsg)
    (l : Link ν β γ) (c : Forwarded) : Prop :=
  let d := c.direct env l.world
  let r := d.2.call env d.1
  ∃ res l',
    c.issue (Link.rpcHandler env cid) (Link.onClient os) rsp₀ (some l) = some (res, some l') ∧
      l'.world.calls = l.world.calls ++ [d.1] ∧ l'.world = r.2 ∧ res.ret = r.1.ret ∧
      c.Stored res r.1

/-- When the way through the library and the router is transparent: `addr` is
`ret_addr`; the name fits both its field and the length given for it; and a memory
that the router has allocated can be opened by the client. -/
def Faithful (env : Env ν β) (os : ClientOs γ) (l : Link ν β γ) : Forwarded → Prop
  | sendReplyImmFast _ _ addr _ retAddr _ _ => addr = retAddr
  | registerApplication _ _ _ name nameLen =>
      name.length ≤ nameLen.toNat ∧ nameLen.toNat ≤ RegisterApplicationReq.name.size
  | allocLocalMem name size _ =>
      let ret := (l.world.call env (.allocShmMem name size)).1.ret
      ret = -1 ∨ 0 ≤ ret ∧ (os.shmOpen name l.client).1.isSome
  | _ => True

variable {os : ClientOs γ} {rsp₀ : RspMsg} {l : Link ν β γ} {c : Forwarded}

/-- An exchange whose branch in the session ends with the backend call `b`. -/
theorem callInt_rpcHandler {req : ReqMsg} {b : BackendCall} {w : World ν β}
    (hd : Session.dispatch env cid req l.rsp l.world = Session.callInt env b l.rsp w) :
    LiteLib.callInt (Link.rpcHandler env cid) rsp₀ req (some l) =
      ((w.call env b).1.ret,
        some { l with
          rsp := RspMsg.intRsp.set (w.call env b).1.ret l.rsp
          world := (w.call env b).2 }) := by
  simp only [LiteLib.callInt, Link.rpcHandler, hd, Session.callInt, Field.get_set_self]

/-- **Transparency is a matter of the arguments** wherever both sides only pass an
`int` back: the call that is made has to be the call that was meant. -/
theorem transparent_iff_of_callInt {req : ReqMsg} {b : BackendCall}
    (hd : Session.dispatch env cid req l.rsp l.world =
      Session.callInt env b l.rsp (c.direct env l.world).2)
    (hi : c.issue (Link.rpcHandler env cid) (Link.onClient os) rsp₀ (some l) =
      some (returning (LiteLib.callInt (Link.rpcHandler env cid) rsp₀ req (some l))))
    (hs : ∀ res r, c.Stored res r) :
    c.Transparent env os cid rsp₀ l ↔ b = (c.direct env l.world).1 := by
  rw [callInt_rpcHandler hd] at hi
  constructor
  · rintro ⟨res, l', hr, hcalls, -⟩
    rw [hi, returning, Option.some_inj, Prod.mk_inj, Option.some_inj] at hr
    obtain ⟨-, rfl⟩ := hr
    simpa using hcalls
  · rintro rfl
    exact ⟨_, _, hi, by simp, rfl, rfl, hs _ _⟩

/-- What the backend stores reaches the caller, because the branch stores it in the
response and nothing else of the branch touches it there. -/
theorem transparent_receiveMessageFast (port : UInt32) (retAddr : UInt64)
    (receiveSize blockCall : Int32) :
    (receiveMessageFast port retAddr receiveSize blockCall).Transparent env os cid rsp₀ l := by
  let r := l.world.call env (.receiveMessageFast port retAddr receiveSize blockCall)
  let rsp := RspMsg.intRsp.set r.1.ret <|
    Session.output ReceiveMessageFastRsp.retLength r.1.retLength <|
    Session.output ReceiveMessageFastRsp.descriptor r.1.descriptor l.rsp
  have hd : Session.dispatch env cid
      (LiteLib.receiveMessageFastReq port retAddr receiveSize blockCall) l.rsp l.world =
        .reply rsp r.2 := dispatch_receiveMessageFastReq ..
  refine ⟨⟨RspMsg.intRsp.get rsp, some (ReceiveMessageFastRsp.descriptor.get rsp),
    some (ReceiveMessageFastRsp.retLength.get rsp)⟩, { l with rsp, world := r.2 }, ?_, rfl, rfl,
    ?_, ?_, ?_⟩
  · simp only [issue, LiteLib.userspaceLiteapiReceiveMessageFast, Link.rpcHandler, hd]
  · change RspMsg.intRsp.get rsp = r.1.ret
    exact Field.get_set_self _ _ _
  · intro d hr
    change r.1.descriptor = some d at hr
    simp (disch := decide) only [rsp, hr, Field.get_set_of_disjoint,
      Session.get_output_of_disjoint, Session.get_output_self]
  · intro n hr
    change r.1.retLength = some n at hr
    simp (disch := decide) only [rsp, hr, Field.get_set_of_disjoint, Session.get_output_self]

/-- The application's `addr` only reaches the backend when it is also its `ret_addr`. -/
theorem transparent_sendReplyImmFast_iff {targetNode : Int32} {port : UInt32} {addr : UInt64}
    {size : Int32} {retAddr retLength : UInt64} {maxRetSize : Int32} :
    (sendReplyImmFast targetNode port addr size retAddr retLength maxRetSize).Transparent
        env os cid rsp₀ l ↔ addr = retAddr := by
  have hd := @dispatch_sendReplyImmFastReq _ _ env cid l.rsp l.world targetNode port addr size
    retAddr retLength maxRetSize
  have hi : (sendReplyImmFast targetNode port addr size retAddr retLength maxRetSize).issue
      (Link.rpcHandler env cid) (Link.onClient os) rsp₀ (some l) =
        some (returning (LiteLib.callInt (Link.rpcHandler env cid) rsp₀
          (LiteLib.sendReplyImmFastReq targetNode port addr size retAddr retLength maxRetSize)
          (some l))) := rfl
  let op := sendReplyImmFast targetNode port addr size retAddr retLength maxRetSize
  calc op.Transparent env os cid rsp₀ l
    _ ↔ _ = (op.direct env l.world).1 := transparent_iff_of_callInt hd hi fun _ _ ↦ trivial
    _ ↔ addr = retAddr := by simp [op, direct, eq_comm]

/-- A name that is longer than the length given with it arrives cut off. -/
theorem transparent_registerApplication_iff
    {destinedPort maxSizePerMessage maxUserPerNode : UInt32} {name : List UInt8}
    {nameLen : UInt64} (hname : 0 ∉ name) (hlt : name.length < RegisterApplicationReq.name.size) :
    (registerApplication destinedPort maxSizePerMessage maxUserPerNode name nameLen).Transparent
        env os cid rsp₀ l ↔
      name.length ≤ nameLen.toNat ∧ nameLen.toNat ≤ RegisterApplicationReq.name.size := by
  cases hreq : LiteLib.registerApplicationReq destinedPort maxSizePerMessage maxUserPerNode name
      nameLen with
  | none =>
      have hlong := registerApplicationReq_isNone_iff.mp hreq
      constructor
      · rintro ⟨res, l', hr, -⟩
        simp [issue, LiteLib.userspaceLiteapiRegisterApplication, hreq] at hr
      · rintro ⟨-, hle⟩
        omega
  | some req =>
      have hle : nameLen.toNat ≤ RegisterApplicationReq.name.size := by
        by_contra hlong
        rw [registerApplicationReq_isNone_iff.mpr (by omega)] at hreq
        contradiction
      have hi : (registerApplication destinedPort maxSizePerMessage maxUserPerNode name
          nameLen).issue (Link.rpcHandler env cid) (Link.onClient os) rsp₀ (some l) =
            some (returning (LiteLib.callInt (Link.rpcHandler env cid) rsp₀ req (some l))) := by
        rw [issue, LiteLib.userspaceLiteapiRegisterApplication, hreq, Option.map_some,
          Option.map_some]
      have hd := @dispatch_registerApplicationReq _ _ env cid l.rsp l.world name req destinedPort
        maxSizePerMessage maxUserPerNode nameLen hreq
      -- what is cut off is missed, since the name is read back from the array
      have hcut : CharArray.copied (name.take nameLen.toNat) RegisterApplicationReq.name.size =
          CharArray.copied name RegisterApplicationReq.name.size ↔ name.length ≤ nameLen.toNat := by
        constructor
        · intro h
          have hread := congrArg cstr h
          rw [CharArray.cstr_copied (fun h ↦ hname (List.mem_of_mem_take h))
            ((List.length_take_le' _ _).trans hlt.le), CharArray.cstr_copied hname hlt.le] at hread
          exact (List.take_eq_self_iff name).mp hread
        · intro h
          rw [List.take_of_length_le h]
      let op := registerApplication destinedPort maxSizePerMessage maxUserPerNode name nameLen
      calc op.Transparent env os cid rsp₀ l
        _ ↔ _ = (op.direct env l.world).1 := transparent_iff_of_callInt hd hi fun _ _ ↦ trivial
        _ ↔ name.length ≤ nameLen.toNat ∧ nameLen.toNat ≤ RegisterApplicationReq.name.size := by
          simp [op, direct, hle, hcut]

/-- The library turns every failure into `-1`, and fails on its own when it cannot open
what the router has allocated. -/
theorem issue_allocLocalMem {name : List UInt8} {size : UInt64} {localAddr : VarAddr}
    (hname : 0 ∉ name) (hlt : name.length < AllocLocalMemReq.name.size) :
    let r := l.world.call env (.allocShmMem name size)
    ∃ rsp client,
      (allocLocalMem name size localAddr).issue (Link.rpcHandler env cid) (Link.onClient os) rsp₀
          (some l) =
        some (⟨if 0 ≤ r.1.ret ∧ (os.shmOpen name l.client).1.isSome then r.1.ret else -1,
          none, none⟩, some ⟨rsp, r.2, client⟩) := by
  intro r
  let rsp := RspMsg.intRsp.set r.1.ret (Session.output AllocLocalMemRsp.remoteAddr r.1.addr l.rsp)
  obtain ⟨req, hreq⟩ : ∃ req, LiteLib.allocLocalMemReq name size = some req := by
    rw [← Option.ne_none_iff_exists', LiteLib.allocLocalMemReq, ne_eq,
      CharArray.strncpy_eq_none_iff]
    omega
  have hd : Session.dispatch env cid req l.rsp l.world = .reply rsp r.2 :=
    dispatch_allocLocalMemReq l.rsp l.world hname hlt hreq
  have hret : RspMsg.intRsp.get rsp = r.1.ret := Field.get_set_self _ _ _
  refine ⟨rsp, ?_⟩
  simp only [issue, LiteLib.userspaceLiteapiAllocLocalMem, hreq, Option.map_some, Link.rpcHandler,
    hd, hret]
  by_cases hneg : r.1.ret < 0
  · exact ⟨l.client, by simp [hneg, Int32.not_le.mpr hneg]⟩
  · rcases hopen : os.shmOpen name l.client with ⟨_ | fd, client⟩
    · exact ⟨client, by simp [hneg, Link.onClient, hopen]⟩
    · refine ⟨(os.mmap size fd client).2, ?_⟩
      simp [hneg, Link.onClient, hopen, localAddr.2, Int32.not_lt.mp hneg]

theorem transparent_allocLocalMem_iff {name : List UInt8} {size : UInt64} {localAddr : VarAddr}
    (hname : 0 ∉ name) (hlt : name.length < AllocLocalMemReq.name.size) :
    (allocLocalMem name size localAddr).Transparent env os cid rsp₀ l ↔
      (allocLocalMem name size localAddr).Faithful env os l := by
  obtain ⟨rsp, client, hi⟩ :=
    @issue_allocLocalMem ν β γ env cid os rsp₀ l name size localAddr hname hlt
  set r := l.world.call env (.allocShmMem name size) with hr
  have hfaithful : (allocLocalMem name size localAddr).Faithful env os l ↔
      (if 0 ≤ r.1.ret ∧ (os.shmOpen name l.client).1.isSome then r.1.ret else -1) = r.1.ret := by
    change r.1.ret = -1 ∨ 0 ≤ r.1.ret ∧ (os.shmOpen name l.client).1.isSome ↔ _
    split_ifs with h
    · exact iff_of_true (Or.inr h) rfl
    · rw [or_iff_left h, eq_comm]
  rw [hfaithful]
  constructor
  · rintro ⟨res, l', hi', -, -, hret, -⟩
    rw [hi, Option.some_inj, Prod.mk_inj] at hi'
    obtain ⟨rfl, -⟩ := hi'
    exact hret
  · intro h
    exact ⟨_, _, hi, rfl, rfl, h, trivial⟩

/-- An operation whose branch makes the call that was meant. -/
theorem transparent_of_callInt {req : ReqMsg}
    (hd : Session.dispatch env cid req l.rsp l.world =
      Session.callInt env (c.direct env l.world).1 l.rsp (c.direct env l.world).2)
    (hi : c.issue (Link.rpcHandler env cid) (Link.onClient os) rsp₀ (some l) =
      some (returning (LiteLib.callInt (Link.rpcHandler env cid) rsp₀ req (some l))))
    (hs : ∀ res r, c.Stored res r) : c.Transparent env os cid rsp₀ l :=
  (transparent_iff_of_callInt hd hi hs).mpr rfl

/-- **Transparency of the library and the router**, operation by operation. -/
theorem transparent_iff_faithful (h : c.ShortStrings) :
    c.Transparent env os cid rsp₀ l ↔ c.Faithful env os l := by
  cases c with
  | allocRemoteMem nodeId size atomicFlag password =>
      have hd := @dispatch_allocRemoteMemReq _ _ env cid l.rsp l.world nodeId size atomicFlag
        password
      exact iff_of_true (transparent_of_callInt hd rfl fun _ _ ↦ trivial) trivial
  | rdmaWrite liteHandler localAddr size offset password =>
      have hd := @dispatch_rdmaWriteReq _ _ env cid l.rsp l.world liteHandler localAddr size offset
        password
      exact iff_of_true (transparent_of_callInt hd rfl fun _ _ ↦ trivial) trivial
  | rdmaRead liteHandler localAddr size offset password =>
      have hd := @dispatch_rdmaReadReq _ _ env cid l.rsp l.world liteHandler localAddr size offset
        password
      exact iff_of_true (transparent_of_callInt hd rfl fun _ _ ↦ trivial) trivial
  | sendReplyImmFast targetNode port addr size retAddr retLength maxRetSize =>
      exact transparent_sendReplyImmFast_iff
  | receiveMessageFast port retAddr receiveSize blockCall =>
      exact iff_of_true (transparent_receiveMessageFast port retAddr receiveSize blockCall) trivial
  | replyMessage addr size descriptor =>
      have hd := @dispatch_replyMessageReq _ _ env cid l.rsp l.world addr size descriptor
      exact iff_of_true (transparent_of_callInt hd rfl fun _ _ ↦ trivial) trivial
  | registerApplication destinedPort maxSizePerMessage maxUserPerNode name nameLen =>
      exact transparent_registerApplication_iff h.1 h.2
  | distBarrier num =>
      have hd := @dispatch_distBarrierReq _ _ env cid l.rsp l.world num
      exact iff_of_true (transparent_of_callInt hd rfl fun _ _ ↦ trivial) trivial
  | queryPort targetNode designedPort =>
      have hd := @dispatch_queryPortReq _ _ env cid l.rsp l.world targetNode designedPort
      exact iff_of_true (transparent_of_callInt hd rfl fun _ _ ↦ trivial) trivial
  | allocLocalMem name size localAddr => exact transparent_allocLocalMem_iff h.1 h.2
  | freeLocalMem name size localAddr remoteAddr =>
      obtain ⟨req, hreq⟩ : ∃ req, LiteLib.freeLocalMemReq name size remoteAddr = some req := by
        rw [← Option.ne_none_iff_exists', LiteLib.freeLocalMemReq, ne_eq,
          CharArray.strncpy_eq_none_iff]
        exact Nat.not_lt.mpr h.2.le
      have hd := @dispatch_freeLocalMemReq _ _ env cid l.rsp l.world name req h.1 h.2 size
        remoteAddr hreq
      refine iff_of_true (transparent_of_callInt hd ?_ fun _ _ ↦ trivial) trivial
      rw [issue, LiteLib.userspaceLiteapiFreeLocalMem, hreq, Option.map_some, Option.map_some]

/-! ## Two calls of the test client -/

/-- An operating system in which every `shm_open` and every `mmap` fails. -/
def refusingOs : ClientOs Unit where
  shmOpen _ _ := (none, ())
  mmap _ _ _ := (none, ())

/-- A session on such a router, before its first request. -/
def quietLink : Link Unit Unit Unit where
  rsp := Flat.zero 24
  world := .quiet
  client := ()

theorem transparent_iff_faithful_hello_world :
    (registerApplication 1 256 4 (bytes "hello world") 11).Transparent (.quiet .container)
        refusingOs (bytes "/abcde") (Flat.zero 24) quietLink ↔
      (registerApplication 1 256 4 (bytes "hello world") 11).Faithful (.quiet .container)
        refusingOs quietLink :=
  transparent_iff_faithful (by change _ ∧ _; decide)

/-- `userspace_liteapi_send_reply_imm_fast(2, 1, 0x100, 2048, 0x200, 0x300, 4096)` sends
from the address it should receive at, in both builds. -/
theorem not_transparent_send_reply :
    ¬ (sendReplyImmFast 2 1 0x100 2048 0x200 0x300 4096).Transparent (.quiet .container)
        refusingOs (bytes "/abcde") (Flat.zero 24) quietLink ∧
      ¬ (sendReplyImmFast 2 1 0x100 2048 0x200 0x300 4096).Transparent (.quiet .noContainer)
        refusingOs (bytes "/abcde") (Flat.zero 24) quietLink := by
  constructor <;> rw [transparent_sendReplyImmFast_iff] <;> decide

end Forwarded

end Freelite
