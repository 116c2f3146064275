import Freelite.Inc.RpcTypes
import Freelite.Router.Routing

/-!
# One request in a router session

`router/test_router.cpp`, the `switch` of `server_accept_request`.  A session keeps
one response buffer for all its requests; a branch that stores only part of it sends
the rest as an earlier request left it.

The functions that do the work, `router/lib` and the two of `shm.cpp`, are the
*backend*.  What a call of it returns and what it stores through its output pointers
is a parameter, and `World.calls` records the calls that were made: it is not part
of the program, but it is what "exactly one backend call" is about.

The build sets `LOG_LEVEL` to 1, at which `LOG_INFO` prints nothing and reads nothing.
-/

namespace Freelite

open Lib

/-- A call of `userspace_liteapi_*` of `router/lib`, of `alloc_shm_mem` or of
`free_shm_mem`, with the arguments that are not output pointers.  A name is what can be
read through the pointer: the string for the two functions that read one, and the
characters of the array it is in for `register_application`, which passes the pointer
on with `nameLen`. -/
inductive BackendCall
  | allocRemoteMem (nodeId size : UInt32) (atomicFlag : Bool) (password : Int32)
  | rdmaWrite (liteHandler : UInt32) (localAddr : UInt64) (size offset : UInt32)
      (password : Int32)
  | rdmaRead (liteHandler : UInt32) (localAddr : UInt64) (size offset : UInt32)
      (password : Int32)
  | sendReplyImmFast (targetNode : Int32) (port : UInt32) (addr : UInt64) (size : Int32)
      (retAddr retLength : UInt64) (maxRetSize : Int32)
  | receiveMessageFast (port : UInt32) (retAddr : UInt64) (receiveSize blockCall : Int32)
  | replyMessage (addr : UInt64) (size : Int32) (descriptor : UInt64)
  | registerApplication (destinedPort maxSizePerMessage maxUserPerNode : UInt32)
      (name : List UInt8) (nameLen : UInt64)
  | distBarrier (num : UInt32)
  | queryPort (targetNode designedPort : Int32)
  | allocShmMem (name : List UInt8) (size : UInt64)
  | freeShmMem (name : List UInt8) (size addr : UInt64)
deriving DecidableEq

/-- What a backend call returns, and what it stores through each output pointer it
has been given, if it does. -/
structure BackendResult where
  ret : Int32
  descriptor : Option UInt64
  retLength : Option Int32
  addr : Option UInt64
deriving DecidableEq

/-- What a router process is given: its build, `router_nid`, the other side of its
connection to the manager, and the backend. -/
structure Env (ν β : Type*) where
  build : Build
  routerNid : Int32
  peer : Peer ν
  backend : BackendCall → β → BackendResult × β

/-- The state that the sessions of a router share. -/
structure World (ν β : Type*) where
  routing : Routing
  vcm : ν
  backend : β
  /-- The backend calls made so far, oldest first. -/
  calls : List BackendCall

namespace World

variable {ν β : Type*}

/-- Make a backend call. -/
def call (env : Env ν β) (c : BackendCall) (w : World ν β) : BackendResult × World ν β :=
  let (res, b) := env.backend c w.backend
  (res, { w with backend := b, calls := w.calls ++ [c] })

/-- `vcm_get_node_id(cid)`, or `router_nid` without containers. -/
def getNodeId (env : Env ν β) (cid : Cid) (w : World ν β) : Int32 :=
  match env.build with
  | .container => w.routing.vcmGetNodeId cid
  | .noContainer => env.routerNid

/-- `vcm_join(cid)`, or `router_nid` without containers. -/
def join (env : Env ν β) (cid : Cid) (w : World ν β) : Int32 × World ν β :=
  match env.build with
  | .container =>
      let (ret, routing, vcm) := w.routing.vcmJoin env.peer env.routerNid cid w.vcm
      (ret, { w with routing, vcm })
  | .noContainer => (env.routerNid, w)

/-- The node a request is meant for: `vcm_vid_nid` of it, or the number itself
without containers. -/
def tempNid (env : Env ν β) (node : Int32) (w : World ν β) : Int32 × World ν β :=
  match env.build with
  | .container =>
      let (ret, routing, vcm) := w.routing.vcmVidNid env.peer node w.vcm
      (ret, { w with routing, vcm })
  | .noContainer => (node, w)

variable {env : Env ν β}

@[simp] theorem calls_tempNid (node : Int32) (w : World ν β) :
    (w.tempNid env node).2.calls = w.calls := by
  unfold tempNid
  cases env.build <;> rfl

@[simp] theorem calls_call (c : BackendCall) (w : World ν β) :
    (w.call env c).2.calls = w.calls ++ [c] := rfl

end World

/-- A router whose manager closes the connection and whose backend returns zero. -/
def Env.quiet (build : Build) : Env Unit Unit where
  build
  routerNid := 1
  peer _ _ := (.received [], ())
  backend _ _ := (⟨0, none, none, none⟩, ())

/-- Such a router before the first request. -/
def World.quiet : World Unit Unit := ⟨.start ⟨3, by decide⟩, (), (), []⟩

/-- What a session does with a request. -/
inductive Outcome (ν β : Type*)
  /-- It sends its response buffer and waits for the next request. -/
  | reply (rsp : RspMsg) (w : World ν β)
  /-- It closes its connection. -/
  | close (w : World ν β)
  /-- It reads a string that does not end within the request, which has no meaning. -/
  | undefined

namespace Session

variable {ν β : Type*}

/-- The common ending of the branches: the backend call, and its return value in the
response. -/
def callInt (env : Env ν β) (c : BackendCall) (rsp : RspMsg) (w : World ν β) : Outcome ν β :=
  let (res, w') := w.call env c
  .reply (RspMsg.intRsp.set res.ret rsp) w'

/-- An output pointer into the response: stored through, or not. -/
def output {α : Type} (f : Field 24 α) : Option α → RspMsg → RspMsg
  | some a, rsp => f.set a rsp
  | none, rsp => rsp

/-- The `switch` on the function code, in the session of container `cid` with the
response buffer `rsp`. -/
def dispatch (env : Env ν β) (cid : Cid) (req : ReqMsg) (rsp : RspMsg) (w : World ν β) :
    Outcome ν β :=
  match FuncCode.ofCode (ReqMsg.funcCode.get req) with
  | some .getNodeId => .reply (RspMsg.intRsp.set (w.getNodeId env cid) rsp) w
  | some .join =>
      let (ret, w') := w.join env cid
      .reply (RspMsg.intRsp.set ret rsp) w'
  | some .allocRemoteMem =>
      let (tempNid, w') := w.tempNid env (AllocRemoteMemReq.nodeId.get req).toInt32
      callInt env
        (.allocRemoteMem tempNid.toUInt32 (AllocRemoteMemReq.size.get req)
          (AllocRemoteMemReq.atomicFlag.get req) (AllocRemoteMemReq.password.get req)) rsp w'
  | some .rdmaWrite =>
      callInt env
        (.rdmaWrite (RdmaWriteReq.liteHandler.get req) (RdmaWriteReq.localAddr.get req)
          (RdmaWriteReq.size.get req) (RdmaWriteReq.offset.get req)
          (RdmaWriteReq.password.get req)) rsp w
  | some .rdmaRead =>
      callInt env
        (.rdmaRead (RdmaWriteReq.liteHandler.get req) (RdmaWriteReq.localAddr.get req)
          (RdmaWriteReq.size.get req) (RdmaWriteReq.offset.get req)
          (RdmaWriteReq.password.get req)) rsp w
  | some .sendReplyImmFast =>
      let (tempNid, w') := w.tempNid env (SendReplyImmFastReq.targetNode.get req)
      -- both builds pass `ret_addr` in the place of `addr` too
      callInt env
        (.sendReplyImmFast tempNid (SendReplyImmFastReq.port.get req)
          (SendReplyImmFastReq.retAddr.get req) (SendReplyImmFastReq.size.get req)
          (SendReplyImmFastReq.retAddr.get req) (SendReplyImmFastReq.retLength.get req)
          (SendReplyImmFastReq.maxRetSize.get req)) rsp w'
  | some .receiveMessageFast =>
      let (res, w') := w.call env
        (.receiveMessageFast (ReceiveMessageFastReq.port.get req)
          (ReceiveMessageFastReq.retAddr.get req) (ReceiveMessageFastReq.receiveSize.get req)
          (ReceiveMessageFastReq.blockCall.get req))
      .reply
        (RspMsg.intRsp.set res.ret <|
          output ReceiveMessageFastRsp.retLength res.retLength <|
          output ReceiveMessageFastRsp.descriptor res.descriptor rsp) w'
  | some .replyMessage =>
      callInt env
        (.replyMessage (ReplyMessageReq.addr.get req) (ReplyMessageReq.size.get req)
          (ReplyMessageReq.descriptor.get req)) rsp w
  | some .registerApplication =>
      callInt env
        (.registerApplication (RegisterApplicationReq.destinedPort.get req)
          (RegisterApplicationReq.maxSizePerMessage.get req)
          (RegisterApplicationReq.maxUserPerNode.get req) (RegisterApplicationReq.name.chars req)
          (RegisterApplicationReq.nameLen.get req)) rsp w
  | some .distBarrier => callInt env (.distBarrier (DistBarrierReq.num.get req)) rsp w
  | some .queryPort =>
      let (tempNid, w') := w.tempNid env (QueryPortReq.targetNode.get req)
      callInt env (.queryPort tempNid (QueryPortReq.designedPort.get req)) rsp w'
  | some .allocLocalMem =>
      match req.cstring AllocLocalMemReq.name.offset with
      | none => .undefined
      | some name =>
          let (res, w') := w.call env (.allocShmMem name (AllocLocalMemReq.size.get req))
          .reply
            (RspMsg.intRsp.set res.ret (output AllocLocalMemRsp.remoteAddr res.addr rsp)) w'
  | some .freeLocalMem =>
      match req.cstring FreeLocalMemReq.name.offset with
      | none => .undefined
      | some name =>
          callInt env
            (.freeShmMem name (FreeLocalMemReq.size.get req)
              (FreeLocalMemReq.remoteAddr.get req)) rsp w
  | none => .close w

/-! ## The response buffer -/

@[simp] theorem get_output_self {α : Type} (f : Field 24 α) (a : α) (rsp : RspMsg) :
    f.get (output f (some a) rsp) = a := f.get_set_self a rsp

theorem get_output_of_disjoint {α β : Type} {f : Field 24 α} {g : Field 24 β}
    (h : f.Disjoint g) (b : Option β) (rsp : RspMsg) :
    f.get (output g b rsp) = f.get rsp := by
  cases b with
  | none => rfl
  | some b => exact Field.get_set_of_disjoint h b rsp

end Session

end Freelite
