import Freelite.Client.Rpc
import Freelite.Link.Basic

/-!
# Failed exchanges, as the application sees them

Every function of the client library returns what it finds in the response, and none
of them looks at the error code of `rpc_handler`.  An exchange that fails does not
touch the response, which is an uninitialised local variable: so what the application
is told is whatever that variable happened to hold.

`Rpc.Fails` lists the ways an exchange can fail.  They all leave the response alone
(`Rpc.handler_of_fails`), hence a failure is reported exactly when the bytes of the
uninitialised response make it so (`ApiCall.reported_iff`).
-/

namespace Freelite

open Lib

/-! ## The ways an exchange can fail -/

namespace Rpc

variable {ν : Type*} {build : Build} {pid : Int32} {o : ConnOutcome} {peer : RpcPeer ν}

/-- `rpc_handler` for a process and its surroundings. -/
def handler (build : Build) (pid : Int32) (o : ConnOutcome) (peer : RpcPeer ν) :
    RpcHandler (State × ν) :=
  fun req rsp k ↦ rpcHandler build pid o peer req rsp k.1 k.2

/-- `rpc_handler` has a connection to use: an old one, or one it has just made. -/
inductive Connected (build : Build) (pid : Int32) (o : ConnOutcome) : State → State → Prop
  | kept {s : State} (hs : s.clientSock ≠ -1) : Connected build pid o s s
  | made {s s' : State} {err : Int32} (hs : s.clientSock = -1)
      (hconn : rpcConn build pid serverPath o s = (err, s')) (herr : 0 ≤ err) :
      Connected build pid o s s'

/-- The exchange of `req` fails, and this is what it leaves. -/
inductive Fails (build : Build) (pid : Int32) (o : ConnOutcome) (peer : RpcPeer ν)
    (req : ReqMsg) : State × ν → State × ν → Prop
  /-- The connection cannot be set up. -/
  | conn {s s' : State} {v : ν} {err : Int32} (hs : s.clientSock = -1)
      (hconn : rpcConn build pid serverPath o s = (err, s')) (herr : err < 0) :
      Fails build pid o peer req (s, v) (s', v)
  | send {s s' : State} {v v' : ν} (hconn : Connected build pid o s s')
      (hpeer : peer req v = (.sendError, v')) :
      Fails build pid o peer req (s, v) (rpcDisconn s', v')
  | recv {s s' : State} {v v' : ν} (hconn : Connected build pid o s s')
      (hpeer : peer req v = (.recvError, v')) :
      Fails build pid o peer req (s, v) (rpcDisconn s', v')
  /-- The router has closed the connection, and `recv` returns zero. -/
  | closed {s s' : State} {v v' : ν} (hconn : Connected build pid o s s')
      (hpeer : peer req v = (.received [], v')) :
      Fails build pid o peer req (s, v) (s', v')

/-- The exchange that follows when there is a connection. -/
theorem rpcHandler_of_connected {s s' : State} (h : Connected build pid o s s') (req : ReqMsg)
    (rsp : RspMsg) (v : ν) :
    rpcHandler build pid o peer req rsp s v =
      match peer req v with
      | (.sendError, v') => (-1, rsp, rpcDisconn s', v')
      | (.recvError, v') => (-1, rsp, rpcDisconn s', v')
      | (.received chunk, v') => (0, (Codec.flat 24).overwrite rsp chunk, s', v') := by
  rcases h with hs | ⟨hs, hconn, herr⟩
  · have herr : ¬ (0 : Int32) < 0 := by decide
    cases hp : peer req v with
    | mk x v' => cases x <;> simp only [rpcHandler, if_neg hs, if_neg herr, hp]
  · cases hp : peer req v with
    | mk x v' => cases x <;> simp only [rpcHandler, if_pos hs, hconn,
        if_neg (Int32.not_lt.mpr herr), hp]

/-- **A failed exchange does not touch the response.** -/
theorem handler_of_fails {req : ReqMsg} {k k' : State × ν}
    (h : Fails build pid o peer req k k') (rsp : RspMsg) :
    ∃ err, handler build pid o peer req rsp k = (err, rsp, k') := by
  rcases h with ⟨hs, hconn, herr⟩ | ⟨hconn, hpeer⟩ | ⟨hconn, hpeer⟩ | ⟨hconn, hpeer⟩
  · refine ⟨-1, ?_⟩
    simp only [handler, rpcHandler, if_pos hs, hconn, if_pos herr]
  · exact ⟨-1, by simp only [handler, rpcHandler_of_connected hconn, hpeer]⟩
  · exact ⟨-1, by simp only [handler, rpcHandler_of_connected hconn, hpeer]⟩
  · exact ⟨0, by simp only [handler, rpcHandler_of_connected hconn, hpeer, Codec.overwrite_nil]⟩

end Rpc

/-! ## The functions of the library -/

/-- The caller's variables behind the output parameters. -/
structure Outputs where
  descriptor : UInt64
  retLength : Int32
  localAddr : UInt64
  remoteAddr : UInt64
deriving DecidableEq

/-- A call of a function of the client library. -/
inductive ApiCall
  | getNodeId
  | join (inputStr : List UInt8) (ethPort ibPort : Int32)
  | forwarded (f : Forwarded)

/-- The request a forwarded operation sends, unless a string is copied past the end of
its field. -/
def Forwarded.request : Forwarded → Option ReqMsg
  | allocRemoteMem nodeId size atomicFlag password =>
      some (LiteLib.allocRemoteMemReq nodeId size atomicFlag password)
  | rdmaWrite liteHandler localAddr size offset password =>
      some (LiteLib.rdmaReq .rdmaWrite liteHandler localAddr size offset password)
  | rdmaRead liteHandler localAddr size offset password =>
      some (LiteLib.rdmaReq .rdmaRead liteHandler localAddr size offset password)
  | sendReplyImmFast targetNode port addr size retAddr retLength maxRetSize =>
      some (LiteLib.sendReplyImmFastReq targetNode port addr size retAddr retLength maxRetSize)
  | receiveMessageFast port retAddr receiveSize blockCall =>
      some (LiteLib.receiveMessageFastReq port retAddr receiveSize blockCall)
  | replyMessage addr size descriptor => some (LiteLib.replyMessageReq addr size descriptor)
  | registerApplication destinedPort maxSizePerMessage maxUserPerNode name nameLen =>
      LiteLib.registerApplicationReq destinedPort maxSizePerMessage maxUserPerNode name nameLen
  | distBarrier num => some (LiteLib.distBarrierReq num)
  | queryPort targetNode designedPort => some (LiteLib.queryPortReq targetNode designedPort)
  | allocLocalMem name size _ => LiteLib.allocLocalMemReq name size
  | freeLocalMem name size _ remoteAddr => LiteLib.freeLocalMemReq name size remoteAddr

namespace ApiCall

variable {κ ν : Type*}

/-- The request of the call. -/
def request : ApiCall → Option ReqMsg
  | getNodeId => some (LiteLib.initReq .getNodeId)
  | join inputStr ethPort ibPort => LiteLib.joinReq inputStr ethPort ibPort
  | forwarded f => f.request

/-- The call, made with the output parameters pointing to `out`: the return value and
what is in the caller's variables afterwards. -/
def run (rpc : RpcHandler κ) (os : ClientOs κ) (rsp₀ : RspMsg) (out : Outputs) (k : κ) :
    ApiCall → Option (Int32 × Outputs × κ)
  | getNodeId =>
      let (ret, k') := LiteLib.userspaceLiteapiGetNodeId rpc rsp₀ k
      some (ret, out, k')
  | join inputStr ethPort ibPort =>
      (LiteLib.userspaceLiteapiJoin rpc rsp₀ inputStr ethPort ibPort k).map
        fun (ret, k') ↦ (ret, out, k')
  | forwarded (.allocLocalMem name size localAddr) =>
      (LiteLib.userspaceLiteapiAllocLocalMem rpc rsp₀ os name size localAddr k).map
        fun (r, k') ↦
          (r.ret,
            { out with
              localAddr := r.localAddr.getD out.localAddr
              remoteAddr := r.remoteAddr.getD out.remoteAddr },
            k')
  | forwarded f =>
      (f.issue rpc os rsp₀ k).map fun (r, k') ↦
        (r.ret,
          { out with
            descriptor := r.descriptor.getD out.descriptor
            retLength := r.retLength.getD out.retLength },
          k')

/-- The call returns a negative value and leaves the caller's variables alone. -/
def Reported (out : Outputs) (result : Option (Int32 × Outputs × κ)) : Prop :=
  ∃ ret k', ret < 0 ∧ result = some (ret, out, k')

/-- The bound of the call's `strncpy` is within the field of the request. -/
def Fits : ApiCall → Prop
  | join inputStr _ _ => inputStr.length ≤ JoinReq.inputStr.size
  | forwarded (.registerApplication _ _ _ _ nameLen) =>
      nameLen.toNat ≤ RegisterApplicationReq.name.size
  | forwarded (.allocLocalMem name _ _) => name.length ≤ AllocLocalMemReq.name.size
  | forwarded (.freeLocalMem name _ _ _) => name.length ≤ FreeLocalMemReq.name.size
  | _ => True

/-- The uninitialised response happens to look like a failure.  For
`receive_message_fast` it must also repeat the caller's variables, which are assigned
from it; `alloc_local_mem` gets a second chance when the client's own `shm_open`, which
follows the exchange, fails too. -/
def LooksFailed (os : ClientOs κ) (rsp₀ : RspMsg) (out : Outputs) (k' : κ) : ApiCall → Prop
  | forwarded (.receiveMessageFast _ _ _ _) =>
      RspMsg.intRsp.get rsp₀ < 0 ∧
        ReceiveMessageFastRsp.descriptor.get rsp₀ = out.descriptor ∧
        ReceiveMessageFastRsp.retLength.get rsp₀ = out.retLength
  | forwarded (.allocLocalMem name _ _) =>
      RspMsg.intRsp.get rsp₀ < 0 ∨ (os.shmOpen name k').1 = none
  | _ => RspMsg.intRsp.get rsp₀ < 0

/-! ## What the application is told -/

variable {rpc : RpcHandler κ} {os : ClientOs κ} {rsp₀ : RspMsg} {out : Outputs} {k k' : κ}

theorem request_isSome_iff (c : ApiCall) : c.request.isSome ↔ c.Fits := by
  have hstrncpy {n len : Nat} {a : CharArray n} {src : List UInt8} {x : Flat n} :
      (a.strncpy src len x).isSome ↔ len ≤ a.size := by
    rw [Option.isSome_iff_ne_none, Ne, CharArray.strncpy_eq_none_iff, Nat.not_lt]
  rcases c with _ | ⟨inputStr, ethPort, ibPort⟩ | f
  · simp [request, Fits]
  · exact hstrncpy
  · cases f
    case registerApplication => exact hstrncpy
    case allocLocalMem => exact hstrncpy
    case freeLocalMem => exact hstrncpy
    all_goals simp [request, Forwarded.request, Fits]

@[simp] theorem reported_none : ¬ Reported out (none : Option (Int32 × Outputs × κ)) := by
  rintro ⟨ret, k', -, h⟩
  contradiction

theorem reported_some_iff {ret : Int32} {out' : Outputs} :
    Reported out (some (ret, out', k')) ↔ ret < 0 ∧ out' = out := by
  constructor
  · rintro ⟨ret', k'', hret, h⟩
    obtain ⟨rfl, rfl, rfl⟩ : ret = ret' ∧ out' = out ∧ k' = k'' := by simpa using h
    exact ⟨hret, rfl⟩
  · rintro ⟨hret, rfl⟩
    exact ⟨ret, k', hret, rfl⟩

/-- The call has no result but the `int_rsp` of the response. -/
def ReturnsInt : ApiCall → Prop
  | forwarded (.receiveMessageFast _ _ _ _) => False
  | forwarded (.allocLocalMem _ _ _) => False
  | _ => True

theorem run_of_returnsInt {c : ApiCall} (hc : c.ReturnsInt) :
    c.run rpc os rsp₀ out k = c.request.map fun req ↦
      ((LiteLib.callInt rpc rsp₀ req k).1, out, (LiteLib.callInt rpc rsp₀ req k).2) := by
  rcases c with _ | ⟨inputStr, ethPort, ibPort⟩ | f
  · rfl
  · simp only [run, request, LiteLib.userspaceLiteapiJoin, Option.map_map, Function.comp_def]
  · cases f
    case receiveMessageFast => exact hc.elim
    case allocLocalMem => exact hc.elim
    case registerApplication =>
      simp only [run, request, Forwarded.request, Forwarded.issue, Forwarded.returning,
        LiteLib.userspaceLiteapiRegisterApplication, Option.map_map, Function.comp_def,
        Option.getD_none]
    case freeLocalMem =>
      simp only [run, request, Forwarded.request, Forwarded.issue, Forwarded.returning,
        LiteLib.userspaceLiteapiFreeLocalMem, Option.map_map, Function.comp_def,
        Option.getD_none]
    all_goals rfl

theorem reported_iff_of_returnsInt {c : ApiCall} (hc : c.ReturnsInt)
    (hrpc : ∀ req, c.request = some req → ∃ err, rpc req rsp₀ k = (err, rsp₀, k')) :
    Reported out (c.run rpc os rsp₀ out k) ↔
      c.request.isSome ∧ RspMsg.intRsp.get rsp₀ < 0 := by
  rw [run_of_returnsInt hc]
  cases hreq : c.request with
  | none => simp
  | some req =>
      obtain ⟨err, h⟩ := hrpc req hreq
      simp [LiteLib.callInt, h, reported_some_iff]

theorem reported_receiveMessageFast_iff {port : UInt32} {retAddr : UInt64}
    {receiveSize blockCall : Int32}
    (hrpc : ∃ err, rpc (LiteLib.receiveMessageFastReq port retAddr receiveSize blockCall) rsp₀ k =
      (err, rsp₀, k')) :
    Reported out
        ((forwarded (.receiveMessageFast port retAddr receiveSize blockCall)).run rpc os rsp₀ out
          k) ↔
      RspMsg.intRsp.get rsp₀ < 0 ∧
        ReceiveMessageFastRsp.descriptor.get rsp₀ = out.descriptor ∧
        ReceiveMessageFastRsp.retLength.get rsp₀ = out.retLength := by
  obtain ⟨err, h⟩ := hrpc
  simp only [run, Forwarded.issue, LiteLib.userspaceLiteapiReceiveMessageFast, h, Option.map_some,
    Option.getD_some, reported_some_iff]
  cases out
  simp

theorem reported_allocLocalMem_iff {name : List UInt8} {size : UInt64} {localAddr : VarAddr}
    (hrpc : ∀ req, LiteLib.allocLocalMemReq name size = some req →
      ∃ err, rpc req rsp₀ k = (err, rsp₀, k')) :
    Reported out ((forwarded (.allocLocalMem name size localAddr)).run rpc os rsp₀ out k) ↔
      (LiteLib.allocLocalMemReq name size).isSome ∧
        (RspMsg.intRsp.get rsp₀ < 0 ∨ (os.shmOpen name k').1 = none) := by
  cases hreq : LiteLib.allocLocalMemReq name size with
  | none => simp [run, LiteLib.userspaceLiteapiAllocLocalMem, hreq]
  | some req =>
      obtain ⟨err, h⟩ := hrpc req hreq
      simp only [run, LiteLib.userspaceLiteapiAllocLocalMem, hreq, h, Option.map_some,
        Option.isSome_some, true_and]
      by_cases hneg : RspMsg.intRsp.get rsp₀ < 0
      · rw [if_pos hneg]
        simp [hneg, reported_some_iff]
      · rw [if_neg hneg]
        rcases hopen : os.shmOpen name k' with ⟨_ | fd, k₂⟩
        · simp [hneg, reported_some_iff]
        · -- the caller's variable is not at `MAP_FAILED`, so nothing is tested any more
          simp [hneg, localAddr.2, reported_some_iff]

/-- **When a failed exchange is reported.**  The call builds its request, and the bytes
of the uninitialised response look like a failure. -/
theorem reported_iff {build : Build} {pid : Int32} {o : Rpc.ConnOutcome} {peer : Rpc.RpcPeer ν}
    (os : ClientOs (Rpc.State × ν)) (c : ApiCall) (rsp₀ : RspMsg) (out : Outputs)
    {k k' : Rpc.State × ν}
    (hfail : ∀ req, c.request = some req → Rpc.Fails build pid o peer req k k') :
    Reported out (c.run (Rpc.handler build pid o peer) os rsp₀ out k) ↔
      c.Fits ∧ c.LooksFailed os rsp₀ out k' := by
  have hrpc (req : ReqMsg) (hreq : c.request = some req) :
      ∃ err, Rpc.handler build pid o peer req rsp₀ k = (err, rsp₀, k') :=
    Rpc.handler_of_fails (hfail req hreq) rsp₀
  rw [← request_isSome_iff]
  rcases c with _ | ⟨inputStr, ethPort, ibPort⟩ | f
  · exact reported_iff_of_returnsInt trivial hrpc
  · exact reported_iff_of_returnsInt trivial hrpc
  · cases f
    case receiveMessageFast =>
      exact (reported_receiveMessageFast_iff (hrpc _ rfl)).trans (and_iff_right rfl).symm
    case allocLocalMem => exact reported_allocLocalMem_iff hrpc
    all_goals exact reported_iff_of_returnsInt trivial hrpc

/-! A router that closes the connection when it has been sent a request, and a client that
cannot open regions. -/

def hungUp : Rpc.RpcPeer Unit := fun _ v ↦ (.received [], v)

def noOs : ClientOs (Rpc.State × Unit) := ⟨fun _ k ↦ (none, k), fun _ _ k ↦ (none, k)⟩

def noConn : Rpc.ConnOutcome := ⟨none, none, fun _ ↦ false, fun _ ↦ false⟩

def connected : Rpc.State × Unit := (⟨3, [3], 0⟩, ())

theorem fails_hungUp (req : ReqMsg) :
    Rpc.Fails .container 1 noConn hungUp req connected connected :=
  .closed (.kept (by decide)) rfl

theorem reported_iff_hungUp :
    Reported ⟨0, 0, 0, 0⟩ (getNodeId.run (Rpc.handler .container 1 noConn hungUp) noOs
        (RspMsg.intRsp.set (-1) (Flat.zero 24)) ⟨0, 0, 0, 0⟩ connected) ↔
      getNodeId.Fits ∧ getNodeId.LooksFailed noOs (RspMsg.intRsp.set (-1) (Flat.zero 24))
        ⟨0, 0, 0, 0⟩ connected :=
  reported_iff noOs getNodeId _ _ fun req _ ↦ fails_hungUp req

/-- The router closes the connection after the client's `send`, and the response happens to
be zero: the application is told that it runs on node zero. -/
theorem not_reported_getNodeId :
    ¬ ∀ (k k' : Rpc.State × Unit) (rsp₀ : RspMsg) (out : Outputs),
      Rpc.Fails .container 1 noConn hungUp (LiteLib.initReq .getNodeId) k k' →
        Reported out
          (getNodeId.run (Rpc.handler .container 1 noConn hungUp) noOs rsp₀ out k) := by
  intro h
  obtain ⟨ret, k', hret, hrun⟩ :=
    h connected connected (Flat.zero 24) ⟨0, 0, 0, 0⟩ (fails_hungUp _)
  have hzero : getNodeId.run (Rpc.handler .container 1 noConn hungUp) noOs (Flat.zero 24)
      ⟨0, 0, 0, 0⟩ connected = some (0, ⟨0, 0, 0, 0⟩, connected) := by decide
  obtain ⟨rfl, -⟩ : 0 = ret ∧ _ := Prod.mk_inj.mp (Option.some_inj.mp (hzero.symm.trans hrun))
  contradiction

end ApiCall

end Freelite
