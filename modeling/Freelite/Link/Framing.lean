import Freelite.Client.LiteLib
import Freelite.Client.Rpc
import Freelite.Router.Session
import Freelite.Vcm.Basic

/-!
# Message framing

Requests and responses travel over stream sockets, and all four receivers take one
`recv` for one message: the session loop of the router, `rpc_handler`, `vcm_handler`
and the session loop of the manager.  None of them looks at how many bytes it got.
Every one of them is right exactly when every `recv` returns a whole message, which a
stream does not promise; `Freelite/Lib/Stream.lean` has the argument.

The two loops receive into a variable that still holds the last message, and
`vcm_handler` into the one that holds its request.  The variable of `rpc_handler`
belongs to its caller, who has not initialised it.
-/

namespace Freelite

open Lib

/-! ## The four receivers over a stream -/

namespace Session

variable {ν β : Type*}

/-- One round of the session loop after its `recv`: the request buffer is left as it
is, the response buffer is sent.  There is no next round after an unknown function
code. -/
def handle (env : Env ν β) (cid : Cid) (req : ReqMsg) (s : RspMsg × World ν β) :
    Option (ReqMsg × RspMsg × World ν β) :=
  match dispatch env cid req s.1 s.2 with
  | .reply rsp w => some (req, rsp, w)
  | .close _ => none
  | .undefined => none

/-- The session loop of `server_accept_request`, from the zeroed buffers, for what the
calls of `recv` return: the requests it has handled, and its state if it still runs. -/
def loop (env : Env ν β) (cid : Cid) (chunks : List (List UInt8)) (w : World ν β) :
    List ReqMsg × Option (ReqMsg × RspMsg × World ν β) :=
  (Codec.flat 280).serve (handle env cid) chunks (Flat.zero 280) (Flat.zero 24, w)

/-- The request is one the session answers: it has a function code of the `switch`, and
the name that an `alloc_local_mem` or `free_local_mem` request makes the session read
ends within the request. -/
def Accepted (req : ReqMsg) : Prop :=
  match FuncCode.ofCode (ReqMsg.funcCode.get req) with
  | none => False
  | some .allocLocalMem => req.cstring AllocLocalMemReq.name.offset ≠ none
  | some .freeLocalMem => req.cstring FreeLocalMemReq.name.offset ≠ none
  | some _ => True

theorem isSome_handle_iff {env : Env ν β} {cid : Cid} (req : ReqMsg) (s : RspMsg × World ν β) :
    (handle env cid req s).isSome ↔ Accepted req := by
  cases hf : FuncCode.ofCode (ReqMsg.funcCode.get req) with
  | none => simp [handle, dispatch, Accepted, hf]
  | some f =>
      cases f
      case allocLocalMem =>
        cases hn : req.cstring AllocLocalMemReq.name.offset <;>
          simp [handle, dispatch, Accepted, hf, hn]
      case freeLocalMem =>
        cases hn : req.cstring FreeLocalMemReq.name.offset <;>
          simp [handle, dispatch, Accepted, hf, hn, callInt]
      all_goals simp [handle, dispatch, Accepted, hf, callInt]

end Session

namespace Vcm

/-- The session loop of the manager's `server_accept_request`, from the zeroed buffer:
the reply is built in the buffer of the request, so the next `recv` stores over it. -/
def loop (chunks : List (List UInt8)) (s : Vcm) : List VcmMsg × Option (VcmMsg × Vcm) :=
  VcmMsg.codec.serve handle chunks ⟨0, 0⟩ s

/-- The request has a function code of the `switch`. -/
def Accepted (msg : VcmMsg) : Prop := msg.funcCode = vidNid ∨ msg.funcCode = nidVid

theorem isSome_handle_iff (msg : VcmMsg) (s : Vcm) : (handle msg s).isSome ↔ Accepted msg := by
  unfold handle Accepted
  split_ifs with h₁ h₂
  · simp [h₁]
  · simp [h₂]
  · simp [h₁, h₂]

end Vcm

namespace Rpc

/-- The router at the other end of a stream: it answers the request with `rsp`, and
`recv` returns what the stream makes of it. -/
def streamPeer (r : Recvs 24) (rsp : RspMsg) : RpcPeer Inbox := fun _ i ↦
  let (chunk, i') := r.recv rsp.bytes i
  (.received chunk, i')

/-- Calls of `rpc_handler` over one connection, each with its request and the response
the router sends for it.  The `k`-th finds `rspMsg k` in `*rsp_msg`. -/
def callAll (build : Build) (pid : Int32) (o : ConnOutcome) (r : Recvs 24)
    (rspMsg : Nat → RspMsg) : List (ReqMsg × RspMsg) → State → Inbox → List (Int32 × RspMsg)
  | [], _, _ => []
  | (req, rsp) :: calls, s, i =>
      match rpcHandler build pid o (streamPeer r rsp) req (rspMsg i.count) s i with
      | (ret, delivered, s', i') =>
          (ret, delivered) :: callAll build pid o r rspMsg calls s' i'

end Rpc

namespace Routing

/-- The manager at the other end of a stream. -/
def streamPeer (r : Recvs 8) (rsp : VcmMsg) : Peer Inbox := fun _ i ↦
  let (chunk, i') := r.recv (VcmMsg.codec.enc rsp) i
  (.received chunk, i')

/-- Calls of `vcm_handler`, each with its request and the reply the manager sends. -/
def handleAll (r : Recvs 8) : List (VcmMsg × VcmMsg) → Routing → Inbox → List (Int32 × VcmMsg)
  | [], _, _ => []
  | (req, rsp) :: es, s, i =>
      match vcmHandler (streamPeer r rsp) req s i with
      | (ret, delivered, s', i') => (ret, delivered) :: handleAll r es s' i'

end Routing

/-! ## They are the loop and the exchanges of the library -/

namespace Rpc

theorem callAll_eq {build : Build} {pid : Int32} {o : ConnOutcome} {r : Recvs 24}
    {rspMsg : Nat → RspMsg} {s : State} (hs : s.clientSock ≠ -1)
    (calls : List (ReqMsg × RspMsg)) (i : Inbox) :
    callAll build pid o r rspMsg calls s i =
      ((Codec.flat 24).deliver r
        ((calls.map Prod.snd).mapIdx fun j rsp ↦ (rspMsg (i.count + j), rsp)) i).map
        fun rsp ↦ (0, rsp) := by
  induction calls generalizing i with
  | nil => rfl
  | cons call calls ih =>
      obtain ⟨req, rsp⟩ := call
      have hp : streamPeer r rsp req i = (.received (r.recv rsp.bytes i).1, (r.recv rsp.bytes i).2) :=
        rfl
      have hshift : ∀ j, (r.recv rsp.bytes i).2.count + j = i.count + (j + 1) := fun j ↦ by
        rw [Nat.add_comm j 1, ← Nat.add_assoc]
        rfl
      rw [callAll, rpcHandler_of_received hs hp, List.map_cons, List.mapIdx_cons]
      refine congrArg₂ List.cons rfl ?_
      rw [ih]
      simp only [hshift]
      rfl

end Rpc

namespace Routing

theorem handleAll_eq {r : Recvs 8} {s : Routing} (hs : s.clientSock ≠ -1)
    (es : List (VcmMsg × VcmMsg)) (i : Inbox) :
    handleAll r es s i = (VcmMsg.codec.deliver r es i).map fun rsp ↦ (0, rsp) := by
  induction es generalizing i with
  | nil => rfl
  | cons e es ih =>
      obtain ⟨req, rsp⟩ := e
      rw [handleAll, vcmHandler_of_received hs rfl]
      exact congrArg₂ List.cons rfl (ih _)

end Routing

/-! ## Framing -/

/-- A reply of the manager: the request with another id. -/
def VcmMsg.Answers (req rsp : VcmMsg) : Prop := Vcm.Accepted req ∧ rsp.funcCode = req.funcCode

/-- The error value for a small vid differs from the request in the last byte. -/
theorem VcmMsg.codec_partial : ∀ k < 8, VcmMsg.codec.Partial VcmMsg.Answers k := by
  intro k hk
  refine ⟨⟨vidNid, 1⟩, ⟨vidNid, -1⟩, ⟨Or.inl rfl, rfl⟩, ?_⟩
  interval_cases k <;> decide

/-- **Each of the four receivers is right exactly when every `recv` returns a whole
message.**  The two loops, for given requests, handle exactly those and go on; then
all of them have a function code they know.  `rpc_handler`, for given responses,
delivers them whatever is in the callers' variables; `vcm_handler`, for given calls
of `recv`, delivers the replies to whatever is asked. -/
theorem framed_iff_whole {ν β : Type*} :
    (∀ (env : Env ν β) (cid : Cid) (w : World ν β) (reqs : List ReqMsg)
        (d : Division (Codec.flat 280) reqs),
      (∃ s, Session.loop env cid d.chunks w = (reqs, some s)) ↔
        d.Whole ∧ ∀ req ∈ reqs, Session.Accepted req) ∧
    (∀ (build : Build) (pid : Int32) (o : Rpc.ConnOutcome)
        (s : {s : Rpc.State // s.clientSock ≠ -1}) (r : Recvs 24)
        (calls : List (ReqMsg × RspMsg)),
      (∀ rspMsg : Nat → RspMsg,
          Rpc.callAll build pid o r rspMsg calls s ⟨[], 0⟩ = calls.map fun c ↦ (0, c.2)) ↔
        ∀ k < calls.length, r.size k = 24) ∧
    (∀ (s : Vcm) (msgs : List VcmMsg) (d : Division VcmMsg.codec msgs),
      (∃ s', Vcm.loop d.chunks s = (msgs, some s')) ↔
        d.Whole ∧ ∀ msg ∈ msgs, Vcm.Accepted msg) ∧
    (∀ (s : {s : Routing // s.clientSock ≠ -1}) (r : Recvs 8),
      (∀ es : List {e : VcmMsg × VcmMsg // e.1.Answers e.2},
          Routing.handleAll r (es.map Subtype.val) s ⟨[], 0⟩ = es.map fun e ↦ (0, e.1.2)) ↔
        ∀ k, r.size k = 8) := by
  refine ⟨fun env cid w reqs d ↦ ?_, fun build pid o s r calls ↦ ?_, fun s msgs d ↦ ?_,
    fun s r ↦ ?_⟩
  · exact d.serve_eq_iff Session.isSome_handle_iff (Flat.zero 280) (Flat.zero 24, w)
  · have hinj : Function.Injective fun rsp : RspMsg ↦ ((0 : Int32), rsp) := fun _ _ h ↦
      (Prod.mk_inj.mp h).2
    have hpairs : calls.map (fun c ↦ ((0 : Int32), c.2)) =
        (calls.map Prod.snd).map fun rsp ↦ (0, rsp) := by rw [List.map_map]; rfl
    have hiff := @Codec.forall_deliver_iff _ (Codec.flat 24) r Codec.flat_partial
      (calls.map Prod.snd) 0
    simp only [Nat.zero_add, List.length_map] at hiff
    simp only [Rpc.callAll_eq s.2, hpairs, hinj.list_map.eq_iff, Nat.zero_add]
    exact hiff
  · exact d.serve_eq_iff Vcm.isSome_handle_iff ⟨0, 0⟩ s
  · have hinj : Function.Injective fun rsp : VcmMsg ↦ ((0 : Int32), rsp) := fun _ _ h ↦
      (Prod.mk_inj.mp h).2
    have hpairs (es : List {e : VcmMsg × VcmMsg // e.1.Answers e.2}) :
        es.map (fun e ↦ ((0 : Int32), e.1.2)) =
          (es.map fun e ↦ e.1.2).map fun rsp ↦ (0, rsp) := by rw [List.map_map]; rfl
    simp only [Routing.handleAll_eq s.2, hpairs, hinj.list_map.eq_iff]
    exact Codec.forall_exchange_iff VcmMsg.codec_partial

/-! ## A request with the fields of another -/

/-- Two requests, of which the second arrives in two pieces. -/
def splitQueryPort : Division (Codec.flat 280)
    [LiteLib.allocRemoteMemReq 7 4096 false 0, LiteLib.queryPortReq 2 9] :=
  .cut _ _ (k := 12) (by decide) (by decide)

/-- The session does not handle the two requests: it asks for a port that is the size
in the first one, and takes the rest of the second one for a request of its own. -/
theorem not_framed_splitQueryPort :
    (Session.loop (.quiet .noContainer) [] splitQueryPort.chunks .quiet).1 ≠
        [LiteLib.allocRemoteMemReq 7 4096 false 0, LiteLib.queryPortReq 2 9] ∧
      (Session.loop (.quiet .noContainer) [] splitQueryPort.chunks .quiet).2.map
          (fun s ↦ s.2.2.calls) =
        some [.allocRemoteMem 7 4096 false 0, .queryPort 2 4096,
          .registerApplication 0 0 0 (List.replicate 32 0) 0] := by
  have hlen : (Session.loop (.quiet .noContainer) [] splitQueryPort.chunks .quiet).1.length ≠ 2 := by
    decide
  exact ⟨fun h ↦ hlen (congrArg List.length h), by decide⟩

end Freelite
