import Freelite.Client.LiteLib
import Freelite.Router.Session

/-!
# A client connected to a router session

Whole messages are delivered: what `rpc_handler` sends is the request the session
dispatches, and what the session sends is the response `rpc_handler` stores.  Under
that assumption an exchange is a function of the state of the two sides, which is
what a `Link` is.

`Forwarded` lists the operations the router forwards, as an application calls them.
`issue` runs one of them through the library and the router, `direct` says which
backend call it stands for.
-/

namespace Freelite

open Lib

/-- One client, the session that serves it, and what that session works on. -/
structure Link (ν β γ : Type*) where
  /-- The response buffer of the session. -/
  rsp : RspMsg
  world : World ν β
  /-- The operating system as the client sees it. -/
  client : γ

namespace Link

variable {ν β γ : Type*}

/-- `rpc_handler` over a connection whose session may have ended.  When the session
closes the connection instead of answering, `recv` returns zero, which `rpc_handler`
takes for success. -/
def rpcHandler (env : Env ν β) (cid : Cid) : RpcHandler (Option (Link ν β γ)) :=
  fun req rsp₀ link ↦
    match link with
    | none => (-1, rsp₀, none)
    | some l =>
        match Session.dispatch env cid req l.rsp l.world with
        | .reply rsp w => (0, rsp, some { l with rsp, world := w })
        | .close _ => (0, rsp₀, none)
        | .undefined => (0, rsp₀, none)

/-- The client's system calls leave the session alone. -/
def onClient (os : ClientOs γ) : ClientOs (Option (Link ν β γ)) where
  shmOpen name link :=
    match link with
    | none => (none, none)
    | some l =>
        let (fd, client) := os.shmOpen name l.client
        (fd, some { l with client })
  mmap size fd link :=
    match link with
    | none => (none, none)
    | some l =>
        let (addr, client) := os.mmap size fd l.client
        (addr, some { l with client })

end Link

/-- A call of one of the forwarded functions of the client library. -/
inductive Forwarded
  | allocRemoteMem (nodeId size : UInt32) (atomicFlag : Bool) (password : Int32)
  | rdmaWrite (liteHandler : UInt32) (localAddr : UInt64) (size offset : UInt32)
      (password : Int32)
  | rdmaRead (liteHandler : UInt32) (localAddr : UInt64) (size offset : UInt32)
      (password : Int32)
  | sendReplyImmFast (targetNode : Int32) (port : UInt32) (addr : UInt64) (size : Int32)
      (retAddr retLength : UInt64) (maxRetSize : Int32)
  | receiveMessageFast (port : UInt32) (retAddr : UInt64) (receiveSize blockCall : Int32)
  | replyMessage (addr : UInt64) (size : Int32) (descriptor : UInt64)
  | registerApplication (destinedPort maxSizePerMessage maxUserPerNode : UInt32)
      (name : List UInt8) (nameLen : UInt64)
  | distBarrier (num : UInt32)
  | queryPort (targetNode designedPort : Int32)
  | allocLocalMem (name : List UInt8) (size : UInt64) (localAddr : VarAddr)
  | freeLocalMem (name : List UInt8) (size localAddr remoteAddr : UInt64)
deriving DecidableEq

/-- What an application gets back: the return value, and what has been assigned to
`*descriptor` and `*ret_length`. -/
structure Returned where
  ret : Int32
  descriptor : Option UInt64
  retLength : Option Int32
deriving DecidableEq

namespace Forwarded

variable {κ ν β : Type*}

/-- A function with nothing but a return value. -/
def returning (r : Int32 × κ) : Returned × κ := (⟨r.1, none, none⟩, r.2)

/-- The operation issued through the client library.  It has no result when a string
is copied past the end of its field. -/
def issue (rpc : RpcHandler κ) (os : ClientOs κ) (rsp₀ : RspMsg) (k : κ) :
    Forwarded → Option (Returned × κ)
  | allocRemoteMem nodeId size atomicFlag password => some <| returning <|
      LiteLib.userspaceLiteapiAllocRemoteMem rpc rsp₀ nodeId size atomicFlag password k
  | rdmaWrite liteHandler localAddr size offset password => some <| returning <|
      LiteLib.userspaceLiteapiRdmaWrite rpc rsp₀ liteHandler localAddr size offset password k
  | rdmaRead liteHandler localAddr size offset password => some <| returning <|
      LiteLib.userspaceLiteapiRdmaRead rpc rsp₀ liteHandler localAddr size offset password k
  | sendReplyImmFast targetNode port addr size retAddr retLength maxRetSize =>
      some <| returning <|
        LiteLib.userspaceLiteapiSendReplyImmFast rpc rsp₀ targetNode port addr size retAddr
          retLength maxRetSize k
  | receiveMessageFast port retAddr receiveSize blockCall =>
      let (ret, descriptor, retLength, k') :=
        LiteLib.userspaceLiteapiReceiveMessageFast rpc rsp₀ port retAddr receiveSize blockCall k
      some (⟨ret, some descriptor, some retLength⟩, k')
  | replyMessage addr size descriptor => some <| returning <|
      LiteLib.userspaceLiteapiReplyMessage rpc rsp₀ addr size descriptor k
  | registerApplication destinedPort maxSizePerMessage maxUserPerNode name nameLen =>
      (LiteLib.userspaceLiteapiRegisterApplication rpc rsp₀ destinedPort maxSizePerMessage
        maxUserPerNode name nameLen k).map returning
  | distBarrier num => some <| returning <| LiteLib.userspaceLiteapiDistBarrier rpc rsp₀ num k
  | queryPort targetNode designedPort => some <| returning <|
      LiteLib.userspaceLiteapiQueryPort rpc rsp₀ targetNode designedPort k
  | allocLocalMem name size localAddr =>
      (LiteLib.userspaceLiteapiAllocLocalMem rpc rsp₀ os name size localAddr k).map
        fun r ↦ (⟨r.1.ret, none, none⟩, r.2)
  | freeLocalMem name size localAddr remoteAddr =>
      (LiteLib.userspaceLiteapiFreeLocalMem rpc rsp₀ name size localAddr remoteAddr k).map returning

/-- The backend call the operation stands for, for a caller on the router itself: its
own arguments, a target node replaced by what `World.tempNid` makes of it.  The name of an
application is in an array of the size it has in a request, with zeros behind it. -/
def direct (env : Env ν β) (w : World ν β) : Forwarded → BackendCall × World ν β
  | allocRemoteMem nodeId size atomicFlag password =>
      let (nid, w') := w.tempNid env nodeId.toInt32
      (.allocRemoteMem nid.toUInt32 size atomicFlag password, w')
  | rdmaWrite liteHandler localAddr size offset password =>
      (.rdmaWrite liteHandler localAddr size offset password, w)
  | rdmaRead liteHandler localAddr size offset password =>
      (.rdmaRead liteHandler localAddr size offset password, w)
  | sendReplyImmFast targetNode port addr size retAddr retLength maxRetSize =>
      let (nid, w') := w.tempNid env targetNode
      (.sendReplyImmFast nid port addr size retAddr retLength maxRetSize, w')
  | receiveMessageFast port retAddr receiveSize blockCall =>
      (.receiveMessageFast port retAddr receiveSize blockCall, w)
  | replyMessage addr size descriptor => (.replyMessage addr size descriptor, w)
  | registerApplication destinedPort maxSizePerMessage maxUserPerNode name nameLen =>
      (.registerApplication destinedPort maxSizePerMessage maxUserPerNode
        (CharArray.copied name RegisterApplicationReq.name.size) nameLen, w)
  | distBarrier num => (.distBarrier num, w)
  | queryPort targetNode designedPort =>
      let (nid, w') := w.tempNid env targetNode
      (.queryPort nid designedPort, w')
  | allocLocalMem name size _ => (.allocShmMem name size, w)
  | freeLocalMem name size _ remoteAddr => (.freeShmMem name size remoteAddr, w)

/-- The strings of the call are C strings shorter than their field of the request. -/
def ShortStrings : Forwarded → Prop
  | registerApplication _ _ _ name _ =>
      0 ∉ name ∧ name.length < RegisterApplicationReq.name.size
  | allocLocalMem name _ _ => 0 ∉ name ∧ name.length < AllocLocalMemReq.name.size
  | freeLocalMem name _ _ _ => 0 ∉ name ∧ name.length < FreeLocalMemReq.name.size
  | _ => True

end Forwarded

end Freelite
