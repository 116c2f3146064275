import Freelite.Inc.RpcTypes
import Freelite.Lib.Shm

/-!
# The client library

`client/lib/lite-lib.c`.  Every function fills in a request, hands it to
`rpc_handler` and returns what it finds in the response.  `rpc_handler` and the
operating system are arguments here; `κ` is the state they work on.

The response is an uninitialised local variable of every function.  Its first
content is the argument `rsp₀`, and as none of the functions looks at the error
code of `rpc_handler`, it is what they return when that fails.

A string is copied into its field by `strncpy` with a bound that is not the size
of the field.  A bound beyond the field has no meaning, and such a call has no
result: the functions with a string argument are partial.
-/

namespace Freelite

open Lib

/-- `rpc_handler`: from the request and the content of `*rsp_msg` to the error code
and the new content. -/
abbrev RpcHandler (κ : Type*) := ReqMsg → RspMsg → κ → Int32 × RspMsg × κ

/-- The address of a variable of the caller: an address one can assign through. -/
abbrev VarAddr := {p : UInt64 // p ≠ mapFailed}

/-- The calls of the operating system the library makes itself. -/
structure ClientOs (κ : Type*) where
  /-- `shm_open(name, O_RDWR, …)`: a descriptor, or an error. -/
  shmOpen : List UInt8 → κ → Option Int32 × κ
  /-- `mmap` of `size` bytes of a descriptor: an address, or `MAP_FAILED`. -/
  mmap : UInt64 → Int32 → κ → Option UInt64 × κ

namespace LiteLib

variable {κ : Type*}

/-- A request as the initialisers build it: the code, and zeros elsewhere. -/
def initReq (f : FuncCode) : ReqMsg := ReqMsg.funcCode.set f.code (Flat.zero 280)

/-- The common ending of the functions: `rpc_handler(&req_msg, &rsp_msg); return
rsp_msg.rval.int_rsp;`. -/
def callInt (rpc : RpcHandler κ) (rsp₀ : RspMsg) (req : ReqMsg) (k : κ) : Int32 × κ :=
  let (_, rsp, k') := rpc req rsp₀ k
  (RspMsg.intRsp.get rsp, k')

/-! ## The requests -/

/-- The request of `userspace_liteapi_join`. -/
def joinReq (inputStr : List UInt8) (ethPort ibPort : Int32) : Option ReqMsg :=
  let req := JoinReq.ibPort.set ibPort (JoinReq.ethPort.set ethPort (initReq .join))
  JoinReq.inputStr.strncpy inputStr inputStr.length req

/-- The request of `userspace_liteapi_alloc_remote_mem`. -/
def allocRemoteMemReq (nodeId size : UInt32) (atomicFlag : Bool) (password : Int32) : ReqMsg :=
  AllocRemoteMemReq.password.set password <|
    AllocRemoteMemReq.atomicFlag.set atomicFlag <|
    AllocRemoteMemReq.size.set size <|
    AllocRemoteMemReq.nodeId.set nodeId <| initReq .allocRemoteMem

/-- The requests of `userspace_liteapi_rdma_write` and `userspace_liteapi_rdma_read`. -/
def rdmaReq (f : FuncCode) (liteHandler : UInt32) (localAddr : UInt64) (size offset : UInt32)
    (password : Int32) : ReqMsg :=
  RdmaWriteReq.password.set password <|
    RdmaWriteReq.offset.set offset <|
    RdmaWriteReq.size.set size <|
    RdmaWriteReq.localAddr.set localAddr <|
    RdmaWriteReq.liteHandler.set liteHandler <| initReq f

/-- The request of `userspace_liteapi_send_reply_imm_fast`. -/
def sendReplyImmFastReq (targetNode : Int32) (port : UInt32) (addr : UInt64) (size : Int32)
    (retAddr retLength : UInt64) (maxRetSize : Int32) : ReqMsg :=
  SendReplyImmFastReq.maxRetSize.set maxRetSize <|
    SendReplyImmFastReq.retLength.set retLength <|
    SendReplyImmFastReq.retAddr.set retAddr <|
    SendReplyImmFastReq.size.set size <|
    SendReplyImmFastReq.addr.set addr <|
    SendReplyImmFastReq.port.set port <|
    SendReplyImmFastReq.targetNode.set targetNode <| initReq .sendReplyImmFast

/-- The request of `userspace_liteapi_receive_message_fast`. -/
def receiveMessageFastReq (port : UInt32) (retAddr : UInt64) (receiveSize blockCall : Int32) :
    ReqMsg :=
  ReceiveMessageFastReq.blockCall.set blockCall <|
    ReceiveMessageFastReq.receiveSize.set receiveSize <|
    ReceiveMessageFastReq.retAddr.set retAddr <|
    ReceiveMessageFastReq.port.set port <| initReq .receiveMessageFast

/-- The request of `userspace_liteapi_reply_message`. -/
def replyMessageReq (addr : UInt64) (size : Int32) (descriptor : UInt64) : ReqMsg :=
  ReplyMessageReq.descriptor.set descriptor <|
    ReplyMessageReq.size.set size <|
    ReplyMessageReq.addr.set addr <| initReq .replyMessage

/-- The request of `userspace_liteapi_register_application`. -/
def registerApplicationReq (destinedPort maxSizePerMessage maxUserPerNode : UInt32)
    (name : List UInt8) (nameLen : UInt64) : Option ReqMsg :=
  let req :=
    RegisterApplicationReq.nameLen.set nameLen <|
      RegisterApplicationReq.maxUserPerNode.set maxUserPerNode <|
      RegisterApplicationReq.maxSizePerMessage.set maxSizePerMessage <|
      RegisterApplicationReq.destinedPort.set destinedPort <| initReq .registerApplication
  RegisterApplicationReq.name.strncpy name nameLen.toNat req

/-- The request of `userspace_liteapi_dist_barrier`. -/
def distBarrierReq (num : UInt32) : ReqMsg := DistBarrierReq.num.set num (initReq .distBarrier)

/-- The request of `userspace_liteapi_query_port`. -/
def queryPortReq (targetNode designedPort : Int32) : ReqMsg :=
  QueryPortReq.designedPort.set designedPort <|
    QueryPortReq.targetNode.set targetNode <| initReq .queryPort

/-- The request of `userspace_liteapi_alloc_local_mem`. -/
def allocLocalMemReq (name : List UInt8) (size : UInt64) : Option ReqMsg :=
  AllocLocalMemReq.name.strncpy name name.length
    (AllocLocalMemReq.size.set size (initReq .allocLocalMem))

/-- The request of `userspace_liteapi_free_local_mem`. -/
def freeLocalMemReq (name : List UInt8) (size remoteAddr : UInt64) : Option ReqMsg :=
  FreeLocalMemReq.name.strncpy name name.length
    (FreeLocalMemReq.remoteAddr.set remoteAddr
      (FreeLocalMemReq.size.set size (initReq .freeLocalMem)))

/-! ## The functions -/

section Functions

variable (rpc : RpcHandler κ) (rsp₀ : RspMsg)

/-- `userspace_liteapi_get_node_id`. -/
def userspaceLiteapiGetNodeId (k : κ) : Int32 × κ := callInt rpc rsp₀ (initReq .getNodeId) k

/-- `userspace_liteapi_join`. -/
def userspaceLiteapiJoin (inputStr : List UInt8) (ethPort ibPort : Int32) (k : κ) :
    Option (Int32 × κ) :=
  (joinReq inputStr ethPort ibPort).map fun req ↦ callInt rpc rsp₀ req k

/-- `userspace_liteapi_alloc_remote_mem`. -/
def userspaceLiteapiAllocRemoteMem (nodeId size : UInt32) (atomicFlag : Bool) (password : Int32)
    (k : κ) : Int32 × κ :=
  callInt rpc rsp₀ (allocRemoteMemReq nodeId size atomicFlag password) k

/-- `userspace_liteapi_rdma_write`. -/
def userspaceLiteapiRdmaWrite (liteHandler : UInt32) (localAddr : UInt64) (size offset : UInt32)
    (password : Int32) (k : κ) : Int32 × κ :=
  callInt rpc rsp₀ (rdmaReq .rdmaWrite liteHandler localAddr size offset password) k

/-- `userspace_liteapi_rdma_read`. -/
def userspaceLiteapiRdmaRead (liteHandler : UInt32) (localAddr : UInt64) (size offset : UInt32)
    (password : Int32) (k : κ) : Int32 × κ :=
  callInt rpc rsp₀ (rdmaReq .rdmaRead liteHandler localAddr size offset password) k

/-- `userspace_liteapi_send_reply_imm_fast`. -/
def userspaceLiteapiSendReplyImmFast (targetNode : Int32) (port : UInt32) (addr : UInt64)
    (size : Int32) (retAddr retLength : UInt64) (maxRetSize : Int32) (k : κ) : Int32 × κ :=
  callInt rpc rsp₀ (sendReplyImmFastReq targetNode port addr size retAddr retLength maxRetSize) k

/-- `userspace_liteapi_receive_message_fast`: the return value, `*descriptor` and
`*ret_length`. -/
def userspaceLiteapiReceiveMessageFast (port : UInt32) (retAddr : UInt64)
    (receiveSize blockCall : Int32) (k : κ) : Int32 × UInt64 × Int32 × κ :=
  let (_, rsp, k') := rpc (receiveMessageFastReq port retAddr receiveSize blockCall) rsp₀ k
  (RspMsg.intRsp.get rsp, ReceiveMessageFastRsp.descriptor.get rsp,
    ReceiveMessageFastRsp.retLength.get rsp, k')

/-- `userspace_liteapi_reply_message`. -/
def userspaceLiteapiReplyMessage (addr : UInt64) (size : Int32) (descriptor : UInt64) (k : κ) :
    Int32 × κ :=
  callInt rpc rsp₀ (replyMessageReq addr size descriptor) k

/-- `userspace_liteapi_register_application`. -/
def userspaceLiteapiRegisterApplication
    (destinedPort maxSizePerMessage maxUserPerNode : UInt32) (name : List UInt8)
    (nameLen : UInt64) (k : κ) : Option (Int32 × κ) :=
  (registerApplicationReq destinedPort maxSizePerMessage maxUserPerNode name nameLen).map
    fun req ↦ callInt rpc rsp₀ req k

/-- `userspace_liteapi_dist_barrier`. -/
def userspaceLiteapiDistBarrier (num : UInt32) (k : κ) : Int32 × κ :=
  callInt rpc rsp₀ (distBarrierReq num) k

/-- `userspace_liteapi_query_port`. -/
def userspaceLiteapiQueryPort (targetNode designedPort : Int32) (k : κ) : Int32 × κ :=
  callInt rpc rsp₀ (queryPortReq targetNode designedPort) k

/-- What `userspace_liteapi_alloc_local_mem` leaves behind: the return value, and
the values assigned to `*local_addr` and `*remote_addr`, if any. -/
structure AllocResult where
  ret : Int32
  localAddr : Option UInt64
  remoteAddr : Option UInt64
deriving DecidableEq

/-- `userspace_liteapi_alloc_local_mem`, for a caller's variable at `localAddr`. -/
def userspaceLiteapiAllocLocalMem (os : ClientOs κ) (name : List UInt8) (size : UInt64)
    (localAddr : VarAddr) (k : κ) : Option (AllocResult × κ) :=
  (allocLocalMemReq name size).map fun req ↦
    let (_, rsp, k₁) := rpc req rsp₀ k
    if RspMsg.intRsp.get rsp < 0 then (⟨-1, none, none⟩, k₁)
    else
      match os.shmOpen name k₁ with
      | (none, k₂) => (⟨-1, none, none⟩, k₂)
      | (some fd, k₂) =>
          match os.mmap size fd k₂ with
          | (addr, k₃) =>
              let mapped := addr.getD mapFailed
              -- the test is of the variable's address, not of the address in it
              if localAddr.1 = mapFailed then (⟨-1, some mapped, none⟩, k₃)
              else
                (⟨RspMsg.intRsp.get rsp, some mapped, some (AllocLocalMemRsp.remoteAddr.get rsp)⟩,
                  k₃)

/-- `userspace_liteapi_alloc_local_mem_test`, which opens nothing and does not look at the
return value. -/
def userspaceLiteapiAllocLocalMemTest (name : List UInt8) (size : UInt64) (k : κ) :
    Option (AllocResult × κ) :=
  (allocLocalMemReq name size).map fun req ↦
    let (_, rsp, k') := rpc req rsp₀ k
    (⟨RspMsg.intRsp.get rsp, some 0x900, some (AllocLocalMemRsp.remoteAddr.get rsp)⟩, k')

/-- `userspace_liteapi_free_local_mem`, which leaves the client's own mapping alone. -/
def userspaceLiteapiFreeLocalMem (name : List UInt8) (size _localAddr remoteAddr : UInt64)
    (k : κ) : Option (Int32 × κ) :=
  (freeLocalMemReq name size remoteAddr).map fun req ↦ callInt rpc rsp₀ req k

end Functions

end LiteLib

end Freelite
