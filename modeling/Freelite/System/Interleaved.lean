import Freelite.Lib.Simulation
import Freelite.Link.History

/-!
# The sessions of a router, step by step

`router/test_router.cpp`: a session thread handles a request in several steps, between
which the other threads run.  It receives the request; it calls a function of
`routing.cpp`, which is one critical section; and with `temp_nid` in a local variable it
calls the backend, outside any critical section, and sends the response.

`Session.dispatch` does all of this at once.  That is as good as long as nobody is handed
a vid that some session has just looked up: `Sessions.exists_serial` turns every
interleaving into a sequence of whole requests, in the order of their last steps, with
the same responses, the same backend calls and the same tables.  A session that has
looked up a vid is ahead of that sequence by one entry of the cache (`World.Behind`).
-/

namespace Freelite

open Lib

/-- The manager as the other side of a connection.  `Vcm.peer` also keeps a record of the
requests. -/
def Vcm.answering : Peer Vcm := fun msg v ↦
  match v.handle msg with
  | some (rsp, v') => (.received (VcmMsg.codec.enc rsp), v')
  | none => (.received [], v)

/-- A router with such a manager. -/
def Env.answering {β : Type*} (build : Build) (routerNid : Int32)
    (backend : BackendCall → β → BackendResult × β) : Env Vcm β where
  build
  routerNid
  peer := Vcm.answering
  backend

/-! ## The steps of a request -/

namespace Session

variable {ν β : Type*}

/-- The backend call of a request, with the local variable `temp_nid`.  There is none for
the two functions that end in `routing.cpp`, for a code nobody knows, and when a string
that is read does not end. -/
def backendCall (req : ReqMsg) (tempNid : Int32) : Option BackendCall :=
  match FuncCode.ofCode (ReqMsg.funcCode.get req) with
  | some .allocRemoteMem => some <|
      .allocRemoteMem tempNid.toUInt32 (AllocRemoteMemReq.size.get req)
        (AllocRemoteMemReq.atomicFlag.get req) (AllocRemoteMemReq.password.get req)
  | some .rdmaWrite => some <|
      .rdmaWrite (RdmaWriteReq.liteHandler.get req) (RdmaWriteReq.localAddr.get req)
        (RdmaWriteReq.size.get req) (RdmaWriteReq.offset.get req) (RdmaWriteReq.password.get req)
  | some .rdmaRead => some <|
      .rdmaRead (RdmaWriteReq.liteHandler.get req) (RdmaWriteReq.localAddr.get req)
        (RdmaWriteReq.size.get req) (RdmaWriteReq.offset.get req) (RdmaWriteReq.password.get req)
  | some .sendReplyImmFast => some <|
      .sendReplyImmFast tempNid (SendReplyImmFastReq.port.get req)
        (SendReplyImmFastReq.retAddr.get req) (SendReplyImmFastReq.size.get req)
        (SendReplyImmFastReq.retAddr.get req) (SendReplyImmFastReq.retLength.get req)
        (SendReplyImmFastReq.maxRetSize.get req)
  | some .receiveMessageFast => some <|
      .receiveMessageFast (ReceiveMessageFastReq.port.get req)
        (ReceiveMessageFastReq.retAddr.get req) (ReceiveMessageFastReq.receiveSize.get req)
        (ReceiveMessageFastReq.blockCall.get req)
  | some .replyMessage => some <|
      .replyMessage (ReplyMessageReq.addr.get req) (ReplyMessageReq.size.get req)
        (ReplyMessageReq.descriptor.get req)
  | some .registerApplication => some <|
      .registerApplication (RegisterApplicationReq.destinedPort.get req)
        (RegisterApplicationReq.maxSizePerMessage.get req)
        (RegisterApplicationReq.maxUserPerNode.get req) (RegisterApplicationReq.name.chars req)
        (RegisterApplicationReq.nameLen.get req)
  | some .distBarrier => some (.distBarrier (DistBarrierReq.num.get req))
  | some .queryPort => some (.queryPort tempNid (QueryPortReq.designedPort.get req))
  | some .allocLocalMem =>
      (req.cstring AllocLocalMemReq.name.offset).map fun name ↦
        .allocShmMem name (AllocLocalMemReq.size.get req)
  | some .freeLocalMem =>
      (req.cstring FreeLocalMemReq.name.offset).map fun name ↦
        .freeShmMem name (FreeLocalMemReq.size.get req) (FreeLocalMemReq.remoteAddr.get req)
  | _ => none

/-- The critical section of a request with a backend call: `temp_nid` and the state after
it.  Without a target there is none. -/
def route (env : Env ν β) (req : ReqMsg) (w : World ν β) : Int32 × World ν β :=
  match target req with
  | some node => w.tempNid env node
  | none => (0, w)

/-- The code of a request, as the `switch` takes it. -/
def function (req : ReqMsg) : Option FuncCode := FuncCode.ofCode (ReqMsg.funcCode.get req)

variable {env : Env ν β} {cid : Cid} {req : ReqMsg} {rsp : RspMsg} {w : World ν β}

/-- Every other request has its backend call. -/
theorem isSome_backendCall {f : FuncCode} (hf : function req = some f) (hget : f ≠ .getNodeId)
    (hjoin : f ≠ .join) (hend : stringsEnd req = true) (tempNid : Int32) :
    (backendCall req tempNid).isSome := by
  rw [function] at hf
  cases f <;> simp only [stringsEnd, hf] at hend <;>
    simp only [backendCall, hf, Option.isSome_map, Option.isSome_some, hend]
  case getNodeId => contradiction
  case join => contradiction

/-- **The steps, one after the other, are the branch.** -/
theorem dispatch_of_backendCall {c : BackendCall}
    (hc : backendCall req (route env req w).1 = some c) :
    dispatch env cid req rsp w =
      .reply (store (function req) 0 ((route env req w).2.call env c).1 rsp)
        ((route env req w).2.call env c).2 := by
  rw [function]
  cases hf : FuncCode.ofCode (ReqMsg.funcCode.get req) with
  | none => simp [backendCall, hf] at hc
  | some f =>
      cases f <;> simp only [backendCall, route, target, hf] at hc ⊢ <;>
        simp only [dispatch, hf]
      case getNodeId => contradiction
      case join => contradiction
      case allocLocalMem =>
        obtain ⟨name, hname, rfl⟩ := Option.map_eq_some_iff.mp hc
        rw [hname]
        rfl
      case freeLocalMem =>
        obtain ⟨name, hname, rfl⟩ := Option.map_eq_some_iff.mp hc
        rw [hname]
        rfl
      all_goals
        obtain rfl := Option.some_inj.mp hc
        rfl

end Session

/-! ## A world that is behind by lookups -/

namespace World

variable {β : Type*}

/-- The router `a` is the router `w`, except that some lookups of the vids `p` have not
been made yet.  What they have entered into the cache is what the manager would answer
now. -/
structure Behind (p : Int32 → Prop) (a w : World Vcm β) : Prop where
  clientSock : a.routing.clientSock = w.routing.clientSock
  cidVidMap : a.routing.cidVidMap = w.routing.cidVidMap
  vcm : a.vcm = w.vcm
  backend : a.backend = w.backend
  calls : a.calls = w.calls
  cache : ∀ v n, a.routing.vidNidMapCache.find v = some n → w.routing.vidNidMapCache.find v = some n
  ahead : ∀ v n, w.routing.vidNidMapCache.find v = some n →
    a.routing.vidNidMapCache.find v = none → p v ∧ w.vcm.getNidByVid v = n

/-- The state after a lookup that the manager has answered. -/
def lookedUp (v : Int32) (w : World Vcm β) : World Vcm β :=
  { w with routing :=
      { w.routing with
        vidNidMapCache := w.routing.vidNidMapCache.insert v (w.vcm.getNidByVid v) } }

/-- The state after a join that the manager has answered. -/
def joined (routerNid : Int32) (cid : Cid) (w : World Vcm β) : World Vcm β :=
  { w with
    routing :=
      { w.routing with
        cidVidMap := w.routing.cidVidMap.insert cid w.vcm.nextVid
        vidNidMapCache := w.routing.vidNidMapCache.insert w.vcm.nextVid routerNid }
    vcm := (Vcm.getNewVid routerNid w.vcm).2 }

/-- Another router is handed a vid. -/
def handout (nid : Int32) (w : World Vcm β) : World Vcm β :=
  { w with vcm := (Vcm.getNewVid nid w.vcm).2 }

section Calls

variable {build : Build} {routerNid : Int32} {backend : BackendCall → β → BackendResult × β}
  {w : World Vcm β} {v n : Int32} {cid : Cid}

theorem tempNid_of_cached (h : w.routing.vidNidMapCache.find v = some n) :
    w.tempNid (.answering .container routerNid backend) v = (n, w) := by
  simp only [tempNid, Env.answering, Routing.vcmVidNid_of_find h]

theorem tempNid_of_not_cached (hc : w.routing.clientSock ≠ -1)
    (h : w.routing.vidNidMapCache.find v = none) :
    w.tempNid (.answering .container routerNid backend) v =
      (w.vcm.getNidByVid v, w.lookedUp v) := by
  have hp : Vcm.answering ⟨vidNid, v⟩ w.vcm =
      (.received (VcmMsg.codec.enc ⟨vidNid, w.vcm.getNidByVid v⟩), w.vcm) := by
    simp [Vcm.answering]
  simp only [tempNid, Env.answering, Routing.vcmVidNid_of_reply h hc hp, lookedUp]

theorem join_of_known (h : w.routing.cidVidMap.find cid = some v) :
    w.join (.answering .container routerNid backend) cid = (v, w) := by
  simp only [join, Env.answering, Routing.vcmJoin_of_find h]

theorem join_of_not_known (hc : w.routing.clientSock ≠ -1)
    (h : w.routing.cidVidMap.find cid = none) :
    w.join (.answering .container routerNid backend) cid =
      (w.vcm.nextVid, w.joined routerNid cid) := by
  have hp : Vcm.answering ⟨nidVid, routerNid⟩ w.vcm =
      (.received (VcmMsg.codec.enc ⟨nidVid, w.vcm.nextVid⟩),
        (Vcm.getNewVid routerNid w.vcm).2) := by
    simp [Vcm.answering]
  simp only [join, Env.answering, Routing.vcmJoin_of_reply h hc hp, joined]

end Calls

namespace Behind

variable {p q : Int32 → Prop} {a w : World Vcm β} {v : Int32} {cid : Cid}

theorem refl (p : Int32 → Prop) (w : World Vcm β) : Behind p w w where
  clientSock := rfl
  cidVidMap := rfl
  vcm := rfl
  backend := rfl
  calls := rfl
  cache _ _ h := h
  ahead _ _ h hnone := by
    rw [h] at hnone
    contradiction

theorem mono (h : Behind p a w) (hpq : ∀ v, p v → q v) : Behind q a w :=
  { h with ahead := fun v n hw ha ↦ ⟨hpq v (h.ahead v n hw ha).1, (h.ahead v n hw ha).2⟩ }

/-- Behind by nothing. -/
theorem eq (h : Behind p a w) (hp : ∀ v, ¬ p v) : a = w := by
  have hcache : a.routing.vidNidMapCache = w.routing.vidNidMapCache := by
    ext v n
    refine ⟨h.cache v n, fun hw ↦ ?_⟩
    cases ha : a.routing.vidNidMapCache.find v with
    | none => exact absurd (h.ahead v n hw ha).1 (hp v)
    | some m => rw [← h.cache v m ha, hw]
  obtain ⟨hsock, hcid, hvcm, hbackend, hcalls, -, -⟩ := h
  obtain ⟨⟨_, _, _⟩, _, _, _⟩ := a
  obtain ⟨⟨_, _, _⟩, _, _, _⟩ := w
  simp_all

/-- Both routers make the same backend call. -/
theorem call (h : Behind p a w) (env : Env Vcm β) (c : BackendCall) :
    (a.call env c).1 = (w.call env c).1 ∧ Behind p (a.call env c).2 (w.call env c).2 := by
  simp only [World.call, h.backend]
  exact ⟨trivial, { h with backend := rfl, calls := congrArg (· ++ [c]) h.calls }⟩

theorem getNodeId (h : Behind p a w) (env : Env Vcm β) (cid : Cid) :
    a.getNodeId env cid = w.getNodeId env cid := by
  simp only [World.getNodeId, Routing.vcmGetNodeId, h.cidVidMap]

/-- A lookup gets the router ahead. -/
theorem lookedUp (h : Behind p a w) (hv : p v) : Behind p a (w.lookedUp v) where
  clientSock := h.clientSock
  cidVidMap := h.cidVidMap
  vcm := h.vcm
  backend := h.backend
  calls := h.calls
  cache u n ha := UnorderedMap.find_mono (h.cache u n ha) _ _
  ahead u n hw ha := by
    rcases UnorderedMap.find_insert_iff.mp hw with hw | ⟨rfl, -, rfl⟩
    · exact h.ahead u n hw ha
    · exact ⟨hv, rfl⟩

/-- The lookup that has not been made yet has the result the other one had. -/
theorem lookup (h : Behind p a w) (hc : w.routing.clientSock ≠ -1) {n : Int32}
    (hw : w.routing.vidNidMapCache.find v = some n) (routerNid : Int32)
    (backend : BackendCall → β → BackendResult × β) :
    let r := a.tempNid (.answering .container routerNid backend) v
    r.1 = n ∧ Behind (fun u ↦ p u ∧ u ≠ v) r.2 w := by
  intro r
  have hbehind {a' : World Vcm β} (h' : Behind p a' w)
      (hv : a'.routing.vidNidMapCache.find v ≠ none) : Behind (fun u ↦ p u ∧ u ≠ v) a' w :=
    { h' with
      ahead := fun u m hm ha ↦ by
        refine ⟨⟨(h'.ahead u m hm ha).1, ?_⟩, (h'.ahead u m hm ha).2⟩
        rintro rfl
        exact hv ha }
  cases ha : a.routing.vidNidMapCache.find v with
  | some m =>
      simp only [r, tempNid_of_cached ha]
      refine ⟨Option.some_inj.mp ((h.cache v m ha).symm.trans hw), hbehind h ?_⟩
      rw [ha]
      simp
  | none =>
      have hm := (h.ahead v n hw ha).2
      rw [← h.vcm] at hm
      simp only [r, tempNid_of_not_cached (h.clientSock ▸ hc) ha]
      refine ⟨hm, hbehind { h with cache := ?_, ahead := ?_ } ?_⟩
      · intro u k hu
        rcases UnorderedMap.find_insert_iff.mp hu with hu | ⟨rfl, -, rfl⟩
        · exact h.cache u k hu
        · rw [hw, hm]
      · intro u k hk hu
        exact h.ahead u k hk (UnorderedMap.find_eq_none_of_insert hu)
      · change (a.routing.vidNidMapCache.insert v _).find v ≠ none
        rw [UnorderedMap.find_insert_self]
        simp

/-- A vid that is not being looked up is handed out. -/
theorem handout (h : Behind p a w) (hp : ¬ p w.vcm.nextVid) (nid : Int32) :
    Behind p (a.handout nid) (w.handout nid) where
  clientSock := h.clientSock
  cidVidMap := h.cidVidMap
  vcm := by rw [World.handout, World.handout, h.vcm]
  backend := h.backend
  calls := h.calls
  cache := h.cache
  ahead v n hw ha := by
    obtain ⟨hv, hn⟩ := h.ahead v n hw ha
    refine ⟨hv, ?_⟩
    have hne : v ≠ w.vcm.nextVid := by
      rintro rfl
      exact hp hv
    have hfind : (Vcm.getNewVid nid w.vcm).2.vidNidMap.find v = w.vcm.vidNidMap.find v :=
      w.vcm.vidNidMap.find_insert_of_ne _ hne
    rw [World.handout, Vcm.getNidByVid_eq, hfind, ← Vcm.getNidByVid_eq, hn]

/-- It is handed out to a container of the router itself. -/
theorem joined (h : Behind p a w) (hp : ¬ p w.vcm.nextVid) (routerNid : Int32) (cid : Cid) :
    Behind p (a.joined routerNid cid) (w.joined routerNid cid) := by
  have hout := h.handout hp routerNid
  have hnext : a.vcm.nextVid = w.vcm.nextVid := by rw [h.vcm]
  refine
    { hout with
      cidVidMap := by rw [World.joined, World.joined, h.cidVidMap, hnext]
      cache := fun v n ha ↦ ?_
      ahead := fun v n hw ha ↦ ?_ }
  · change (a.routing.vidNidMapCache.insert a.vcm.nextVid routerNid).find v = some n at ha
    change (w.routing.vidNidMapCache.insert w.vcm.nextVid routerNid).find v = some n
    rw [hnext] at ha
    rcases UnorderedMap.find_insert_iff.mp ha with ha | ⟨rfl, hnone, rfl⟩
    · exact UnorderedMap.find_mono (h.cache v n ha) _ _
    · refine UnorderedMap.find_insert_iff.mpr (Or.inr ⟨rfl, ?_, rfl⟩)
      by_contra hne
      obtain ⟨m, hm⟩ := Option.ne_none_iff_exists'.mp hne
      exact hp (h.ahead _ m hm hnone).1
  · change (w.routing.vidNidMapCache.insert w.vcm.nextVid routerNid).find v = some n at hw
    change (a.routing.vidNidMapCache.insert a.vcm.nextVid routerNid).find v = none at ha
    rw [hnext] at ha
    rcases UnorderedMap.find_insert_iff.mp hw with hw | ⟨rfl, -, -⟩
    · exact hout.ahead v n hw (UnorderedMap.find_eq_none_of_insert ha)
    · rw [UnorderedMap.find_insert_self] at ha
      contradiction

end Behind

end World

/-! ## The two machines -/

/-- How far a session thread has got. -/
inductive SessionPhase
  /-- It is in `recv`. -/
  | receiving
  /-- It has received a request. -/
  | handling (req : ReqMsg)
  /-- It is about to call the backend. -/
  | calling (req : ReqMsg) (tempNid : Int32)
  /-- It has closed its connection. -/
  | ended

/-- A router and what its sessions have done. -/
structure Served (τ β : Type*) where
  world : World Vcm β
  /-- The response buffers. -/
  rsp : τ → RspMsg
  /-- The requests that have been answered, with the responses, oldest first. -/
  replies : List (τ × ReqMsg × RspMsg)

/-- The same, with the sessions under way. -/
structure Sessions (τ β : Type*) extends Served τ β where
  phase : τ → SessionPhase

section Machines

variable {τ β : Type*} [DecidableEq τ]

/-- A session answers. -/
def Served.answer (s : Served τ β) (t : τ) (req : ReqMsg) (rsp : RspMsg) (w : World Vcm β) :
    Served τ β where
  world := w
  rsp := Function.update s.rsp t rsp
  replies := s.replies ++ [(t, req, rsp)]

/-- What happens when requests are handled one after the other. -/
inductive Turn (τ : Type*)
  /-- The session receives the request, handles it and answers. -/
  | request (t : τ) (req : ReqMsg)
  /-- Another router is handed a vid. -/
  | handout (nid : Int32)

/-- One request after the other. -/
def Served.next (env : Env Vcm β) (cid : τ → Cid) (s : Served τ β) : Turn τ → Option (Served τ β)
  | .request t req =>
      match Session.dispatch env (cid t) req (s.rsp t) s.world with
      | .reply rsp w => some (s.answer t req rsp w)
      | .close _ => none
      | .undefined => none
  | .handout nid => some { s with world := s.world.handout nid }

namespace Sessions

/-- What can happen next. -/
inductive Act (τ : Type*)
  | recv (t : τ) (req : ReqMsg)
  /-- A session takes the branch of its request, up to the backend call. -/
  | route (t : τ)
  /-- A session makes its backend call and answers. -/
  | call (t : τ)
  /-- Another router is handed a vid. -/
  | handout (nid : Int32)

/-- A session answers and goes back to `recv`. -/
def answer (s : Sessions τ β) (t : τ) (req : ReqMsg) (rsp : RspMsg) (w : World Vcm β) :
    Sessions τ β where
  toServed := s.toServed.answer t req rsp w
  phase := Function.update s.phase t .receiving

/-- One step. -/
def next (env : Env Vcm β) (cid : τ → Cid) (s : Sessions τ β) : Act τ → Option (Sessions τ β)
  | .recv t req =>
      match s.phase t with
      | .receiving => some { s with phase := Function.update s.phase t (.handling req) }
      | _ => none
  | .route t =>
      match s.phase t with
      | .handling req =>
          match Session.function req with
          | none => some { s with phase := Function.update s.phase t .ended }
          | some .getNodeId =>
              let ret := s.world.getNodeId env (cid t)
              some (s.answer t req (RspMsg.intRsp.set ret (s.rsp t)) s.world)
          | some .join =>
              let (ret, w) := s.world.join env (cid t)
              some (s.answer t req (RspMsg.intRsp.set ret (s.rsp t)) w)
          | some _ =>
              let (tempNid, w) := Session.route env req s.world
              some { s with
                world := w
                phase := Function.update s.phase t (.calling req tempNid) }
      | _ => none
  | .call t =>
      match s.phase t with
      | .calling req tempNid =>
          match Session.backendCall req tempNid with
          | none => none
          | some c =>
              let (res, w) := s.world.call env c
              some (s.answer t req
                (Session.store (Session.function req) 0 res (s.rsp t)) w)
      | _ => none
  | .handout nid => some { s with world := s.world.handout nid }

/-- All sessions in `recv`, with cleared response buffers. -/
def start (w : World Vcm β) : Sessions τ β where
  world := w
  rsp _ := Flat.zero 24
  replies := []
  phase _ := .receiving

/-- Some session has looked the vid up and has not made its backend call yet.  Without
containers nobody looks a vid up. -/
def Looking (build : Build) (phase : τ → SessionPhase) (v : Int32) : Prop :=
  build = .container ∧ ∃ t req n, phase t = .calling req n ∧ Session.target req = some v

/-- Nobody is handed a vid that a session is still looking up: neither a container of
another router nor one that joins here. -/
def HandoutsWait (env : Env Vcm β) (cid : τ → Cid) (s : Sessions τ β) : Act τ → Prop
  | .handout _ => ¬ Looking env.build s.phase s.world.vcm.nextVid
  | .route t => ∀ req, s.phase t = .handling req → Session.function req = some .join →
      s.world.routing.cidVidMap.find (cid t) = none →
        ¬ Looking env.build s.phase s.world.vcm.nextVid
  | _ => True

/-! ## The simulation -/

/-- What `temp_nid` is for the request, and stays. -/
def Settled (build : Build) (w : World Vcm β) (req : ReqMsg) (n : Int32) : Prop :=
  match Session.target req, build with
  | none, _ => n = 0
  | some v, .container => w.routing.vidNidMapCache.find v = some n
  | some v, .noContainer => v = n

/-- The connection stays, and so does every entry of the cache. -/
structure Grows (w w' : World Vcm β) : Prop where
  clientSock : w'.routing.clientSock = w.routing.clientSock
  cache : ∀ v n, w.routing.vidNidMapCache.find v = some n →
    w'.routing.vidNidMapCache.find v = some n

section Worlds

variable {build : Build} {routerNid : Int32} {backend : BackendCall → β → BackendResult × β}
  {a w w' : World Vcm β} {req : ReqMsg} {n : Int32}

theorem Grows.refl (w : World Vcm β) : Grows w w := ⟨rfl, fun _ _ h ↦ h⟩

theorem Settled.grows (h : Settled build w req n) (hw : Grows w w') : Settled build w' req n := by
  revert h
  simp only [Settled]
  cases Session.target req with
  | none => exact id
  | some v =>
      cases build with
      | container => exact hw.cache v n
      | noContainer => exact id

theorem settled_of_no_target (ht : Session.target req = none) :
    Settled build w req n ↔ n = 0 := by
  simp only [Settled, ht]

theorem settled_of_target {v : Int32} (ht : Session.target req = some v) :
    Settled .container w req n ↔ w.routing.vidNidMapCache.find v = some n := by
  simp only [Settled, ht]

variable (build routerNid backend) in
/-- The critical section of a request gets the router ahead, and settles `temp_nid`. -/
theorem route_spec (hc : w.routing.clientSock ≠ -1) (req : ReqMsg) :
    let r := Session.route (.answering build routerNid backend) req w
    Grows w r.2 ∧ Settled build r.2 req r.1 ∧
      ∀ {p : Int32 → Prop} {a : World Vcm β}, World.Behind p a w →
        (∀ v, build = .container → Session.target req = some v → p v) → World.Behind p a r.2 := by
  intro r
  cases ht : Session.target req with
  | none =>
      have hr : r = (0, w) := by simp only [r, Session.route, ht]
      rw [hr, settled_of_no_target ht]
      exact ⟨Grows.refl w, rfl, fun h _ ↦ h⟩
  | some v =>
      have hr : r = w.tempNid (.answering build routerNid backend) v := by
        simp only [r, Session.route, ht]
      rw [hr]
      cases build with
      | noContainer =>
          refine ⟨Grows.refl w, ?_, fun h _ ↦ h⟩
          simp only [Settled, ht]
          rfl
      | container =>
          rw [settled_of_target ht]
          cases hfind : w.routing.vidNidMapCache.find v with
          | some n =>
              rw [World.tempNid_of_cached hfind]
              exact ⟨Grows.refl w, hfind, fun h _ ↦ h⟩
          | none =>
              rw [World.tempNid_of_not_cached hc hfind]
              refine ⟨⟨rfl, fun u n hu ↦ UnorderedMap.find_mono hu _ _⟩, ?_,
                fun h hp ↦ h.lookedUp (hp v rfl rfl)⟩
              change (w.routing.vidNidMapCache.insert v _).find v = _
              rw [UnorderedMap.find_insert_self, hfind, Option.getD_none]

variable (build routerNid backend) in
/-- The sequence catches up when the backend call is made. -/
theorem route_behind {p : Int32 → Prop} (h : World.Behind p a w)
    (hc : w.routing.clientSock ≠ -1) (hs : Settled build w req n) :
    let r := Session.route (.answering build routerNid backend) req a
    r.1 = n ∧ ∀ {q : Int32 → Prop},
      (∀ v, p v → (build = .container → Session.target req ≠ some v) → q v) →
        World.Behind q r.2 w := by
  intro r
  cases ht : Session.target req with
  | none =>
      have hr : r = (0, a) := by simp only [r, Session.route, ht]
      rw [settled_of_no_target ht] at hs
      rw [hr, hs]
      exact ⟨rfl, fun hq ↦ h.mono fun v hv ↦ hq v hv fun _ ↦ by simp⟩
  | some v =>
      have hr : r = a.tempNid (.answering build routerNid backend) v := by
        simp only [r, Session.route, ht]
      rw [hr]
      cases build with
      | noContainer =>
          simp only [Settled, ht] at hs
          exact ⟨hs, fun hq ↦ h.mono fun v hv ↦ hq v hv fun hb ↦ by simp at hb⟩
      | container =>
          rw [settled_of_target ht] at hs
          obtain ⟨hn, hbehind⟩ := h.lookup hc hs routerNid backend
          refine ⟨hn, fun hq ↦ hbehind.mono fun u ⟨hu, hne⟩ ↦ hq u hu fun _ ↦ ?_⟩
          rw [ne_eq, Option.some_inj]
          exact fun he ↦ hne he.symm

variable (build routerNid backend) in
/-- A join has the same result behind and ahead, if it is not handed a vid that is being
looked up. -/
theorem join_behind {p : Int32 → Prop} (h : World.Behind p a w)
    (hc : w.routing.clientSock ≠ -1) (cid : Cid)
    (hp : w.routing.cidVidMap.find cid = none → ¬ p w.vcm.nextVid) :
    let r := w.join (.answering build routerNid backend) cid
    let r' := a.join (.answering build routerNid backend) cid
    r'.1 = r.1 ∧ Grows w r.2 ∧ World.Behind p r'.2 r.2 := by
  intro r r'
  cases build with
  | noContainer => exact ⟨rfl, Grows.refl w, h⟩
  | container =>
      cases hfind : w.routing.cidVidMap.find cid with
      | some v =>
          have hfind' : a.routing.cidVidMap.find cid = some v := by rw [h.cidVidMap, hfind]
          simp only [r, r', World.join_of_known hfind, World.join_of_known hfind']
          exact ⟨trivial, Grows.refl w, h⟩
      | none =>
          have hfind' : a.routing.cidVidMap.find cid = none := by rw [h.cidVidMap, hfind]
          have hc' : a.routing.clientSock ≠ -1 := by rwa [h.clientSock]
          simp only [r, r', World.join_of_not_known hc hfind, World.join_of_not_known hc' hfind']
          refine ⟨by rw [h.vcm], ⟨rfl, fun v n hv ↦ UnorderedMap.find_mono hv _ _⟩, ?_⟩
          exact h.joined (hp hfind) routerNid cid

end Worlds

/-- The sessions are under way where the sequence `a` of whole requests is behind only by
lookups whose backend calls are still to come. -/
structure Follows (build : Build) (s : Sessions τ β) (a : Served τ β) : Prop where
  rsp : a.rsp = s.rsp
  replies : a.replies = s.replies
  connected : s.world.routing.clientSock ≠ -1
  behind : World.Behind (Looking build s.phase) a.world s.world
  settled : ∀ t req n, s.phase t = .calling req n → Settled build s.world req n

/-- A thread that is not looking `v` up may go on. -/
theorem Looking.update {build : Build} {phase : τ → SessionPhase} {t : τ} {v : Int32}
    (h : Looking build phase v)
    (ht : ∀ req n, phase t = .calling req n → build = .container → Session.target req ≠ some v)
    (ph : SessionPhase) : Looking build (Function.update phase t ph) v := by
  obtain ⟨hb, u, req, n, hu, hv⟩ := h
  refine ⟨hb, u, req, n, ?_, hv⟩
  rw [Function.update_of_ne, hu]
  rintro rfl
  exact ht req n hu hb hv

section Steps

variable {build : Build} {routerNid : Int32} {backend : BackendCall → β → BackendResult × β}
  {cid : τ → Cid} {s s' : Sessions τ β} {a : Served τ β} {t : τ}

/-- What has to be shown about a step of a session. -/
theorem Follows.update (h : Follows build s a) {a' : Served τ β} {ph : SessionPhase}
    (hphase : s'.phase = Function.update s.phase t ph) (hrsp : a'.rsp = s'.rsp)
    (hreplies : a'.replies = s'.replies) (hgrows : Grows s.world s'.world)
    (hbehind : World.Behind (Looking build (Function.update s.phase t ph)) a'.world s'.world)
    (hnew : ∀ req n, ph = .calling req n → Settled build s'.world req n) :
    Follows build s' a' where
  rsp := hrsp
  replies := hreplies
  connected := hgrows.clientSock ▸ h.connected
  behind := hphase ▸ hbehind
  settled u req n hu := by
    rw [hphase, Function.update_apply] at hu
    split at hu
    · exact hnew req n hu
    · exact (h.settled u req n hu).grows hgrows

theorem Follows.recv (h : Follows build s a) {req : ReqMsg} (ht : s.phase t = .receiving) :
    Follows build { s with phase := Function.update s.phase t (.handling req) } a := by
  refine h.update rfl h.rsp h.replies (Grows.refl _) ?_ (by simp)
  exact h.behind.mono fun v hv ↦ hv.update (by simp [ht]) _

omit [DecidableEq τ] in
theorem Follows.handout (h : Follows build s a) (nid : Int32)
    (hwait : ¬ Looking build s.phase s.world.vcm.nextVid) :
    Follows build { s with world := s.world.handout nid }
      { a with world := a.world.handout nid } where
  rsp := h.rsp
  replies := h.replies
  connected := h.connected
  behind := h.behind.handout hwait nid
  settled u req n hu := (h.settled u req n hu).grows ⟨rfl, fun _ _ hv ↦ hv⟩

/-- Both answer the request alike. -/
theorem Follows.answer (h : Follows build s a) {req : ReqMsg} {rsp : RspMsg} {w w' : World Vcm β}
    (hgrows : Grows s.world w)
    (hbehind : World.Behind (Looking build (Function.update s.phase t .receiving)) w' w) :
    Follows build (s.answer t req rsp w) (a.answer t req rsp w') := by
  refine h.update (t := t) rfl ?_ ?_ hgrows hbehind (by simp)
  · change Function.update a.rsp t rsp = Function.update s.rsp t rsp
    rw [h.rsp]
  · change a.replies ++ [(t, req, rsp)] = s.replies ++ [(t, req, rsp)]
    rw [h.replies]

/-! ### The steps -/

variable {env : Env Vcm β}

/-- The turns of the sequence that answer a step: the last step of a request is the whole
request, and the steps before it are nothing. -/
def turns (s : Sessions τ β) : Act τ → List (Turn τ)
  | .recv _ _ => []
  | .route t =>
      match s.phase t with
      | .handling req =>
          match Session.function req with
          | some .getNodeId | some .join => [.request t req]
          | _ => []
      | _ => []
  | .call t =>
      match s.phase t with
      | .calling req _ => [.request t req]
      | _ => []
  | .handout nid => [.handout nid]

/-- The whole request as one turn. -/
theorem run_request {req : ReqMsg} {rsp : RspMsg} {w : World Vcm β}
    (hd : Session.dispatch env (cid t) req (a.rsp t) a.world = .reply rsp w) :
    Machine.run (Served.next env cid) a [.request t req] = a.answer t req rsp w := by
  rw [Machine.run_cons, Served.next, hd]
  rfl

theorem recv_eq {req : ReqMsg} (h : next env cid s (.recv t req) = some s') :
    s.phase t = .receiving ∧
      s' = { s with phase := Function.update s.phase t (.handling req) } := by
  rw [next] at h
  split at h
  · exact ⟨by assumption, (Option.some_inj.mp h).symm⟩
  · contradiction

/-- **What taking the branch can do.** -/
theorem route_cases (h : next env cid s (.route t) = some s') :
    ∃ req, s.phase t = .handling req ∧
      ((Session.function req = none ∧
          s' = { s with phase := Function.update s.phase t .ended }) ∨
        (Session.function req = some .getNodeId ∧
          s' = s.answer t req
            (RspMsg.intRsp.set (s.world.getNodeId env (cid t)) (s.rsp t)) s.world) ∨
        (Session.function req = some .join ∧
          s' = s.answer t req (RspMsg.intRsp.set (s.world.join env (cid t)).1 (s.rsp t))
            (s.world.join env (cid t)).2) ∨
        (turns s (.route t) = [] ∧
          s' = { s with
            world := (Session.route env req s.world).2
            phase := Function.update s.phase t
              (.calling req (Session.route env req s.world).1) })) := by
  rw [next] at h
  split at h
  · rename_i req hreq
    refine ⟨req, hreq, ?_⟩
    cases hf : Session.function req with
    | none =>
        rw [hf] at h
        exact Or.inl ⟨rfl, (Option.some_inj.mp h).symm⟩
    | some f =>
        rw [hf] at h
        cases f
        case getNodeId => exact Or.inr (Or.inl ⟨rfl, (Option.some_inj.mp h).symm⟩)
        case join => exact Or.inr (Or.inr (Or.inl ⟨rfl, (Option.some_inj.mp h).symm⟩))
        all_goals
          refine Or.inr (Or.inr (Or.inr ⟨?_, (Option.some_inj.mp h).symm⟩))
          simp only [turns, hreq, hf]
  · contradiction

theorem call_eq (h : next env cid s (.call t) = some s') :
    ∃ req n c, s.phase t = .calling req n ∧ Session.backendCall req n = some c ∧
      s' = s.answer t req
        (Session.store (Session.function req) 0 (s.world.call env c).1 (s.rsp t))
        (s.world.call env c).2 := by
  rw [next] at h
  split at h
  · rename_i req n hreq
    cases hc : Session.backendCall req n with
    | none =>
        rw [hc] at h
        contradiction
    | some c =>
        rw [hc] at h
        exact ⟨req, n, c, hreq, hc, (Option.some_inj.mp h).symm⟩
  · contradiction

/-- **Taking the branch.**  `vcm_get_node_id` and `vcm_join` are the last step of their
request. -/
theorem Follows.route (h : Follows (Env.answering build routerNid backend).build s a)
    (hwait : HandoutsWait (.answering build routerNid backend) cid s (.route t))
    (hn : next (.answering build routerNid backend) cid s (.route t) = some s') :
    Follows build s' (Machine.run (Served.next (.answering build routerNid backend) cid) a
      (turns s (.route t))) := by
  obtain ⟨req, hreq, ⟨hf, rfl⟩ | ⟨hf, rfl⟩ | ⟨hf, rfl⟩ | ⟨hturns, rfl⟩⟩ := route_cases hn
  · have hturns : turns s (.route t) = [] := by simp only [turns, hreq, hf]
    rw [hturns]
    refine h.update rfl h.rsp h.replies (Grows.refl _) ?_ (by simp)
    exact h.behind.mono fun v hv ↦ hv.update (by simp [hreq]) _
  · have hturns : turns s (.route t) = [.request t req] := by simp only [turns, hreq, hf]
    have hd : Session.dispatch (.answering build routerNid backend) (cid t) req (a.rsp t)
        a.world = .reply (RspMsg.intRsp.set
          (s.world.getNodeId (.answering build routerNid backend) (cid t)) (s.rsp t)) a.world := by
      rw [Session.function] at hf
      simp only [Session.dispatch, hf, h.behind.getNodeId, h.rsp]
    rw [hturns, run_request hd]
    exact h.answer (Grows.refl _) (h.behind.mono fun v hv ↦ hv.update (by simp [hreq]) _)
  · have hturns : turns s (.route t) = [.request t req] := by simp only [turns, hreq, hf]
    obtain ⟨hret, hgrows, hbehind⟩ :=
      join_behind build routerNid backend h.behind h.connected (cid t) (hwait req hreq hf)
    have hd : Session.dispatch (.answering build routerNid backend) (cid t) req (a.rsp t)
        a.world = .reply (RspMsg.intRsp.set
          (s.world.join (.answering build routerNid backend) (cid t)).1 (s.rsp t))
          (a.world.join (.answering build routerNid backend) (cid t)).2 := by
      rw [Session.function] at hf
      simp only [Session.dispatch, hf, h.rsp]
      rw [hret]
    rw [hturns, run_request hd]
    exact h.answer hgrows (hbehind.mono fun v hv ↦ hv.update (by simp [hreq]) _)
  · rw [hturns]
    obtain ⟨hgrows, hsettled, hahead⟩ := route_spec build routerNid backend h.connected req
    refine h.update (t := t) rfl h.rsp h.replies hgrows ?_ ?_
    · refine hahead (h.behind.mono fun v hv ↦ hv.update (by simp [hreq]) _) fun v hb hv ↦ ?_
      exact ⟨hb, t, req, _, Function.update_self .., hv⟩
    · intro req' n heq
      obtain ⟨rfl, rfl⟩ := SessionPhase.calling.inj heq
      exact hsettled

/-- **The backend call** is the last step of its request. -/
theorem Follows.call (h : Follows build s a)
    (hn : next (.answering build routerNid backend) cid s (.call t) = some s') :
    Follows build s' (Machine.run (Served.next (.answering build routerNid backend) cid) a
      (turns s (.call t))) := by
  obtain ⟨req, n, c, hreq, hc, rfl⟩ := call_eq hn
  have hturns : turns s (.call t) = [.request t req] := by simp only [turns, hreq]
  obtain ⟨hroute, hcatch⟩ :=
    route_behind build routerNid backend h.behind h.connected (h.settled t req n hreq)
  rw [← hroute] at hc
  have hlooking : World.Behind (Looking build (Function.update s.phase t .receiving))
      (Session.route (.answering build routerNid backend) req a.world).2 s.world := by
    refine hcatch fun v hv hne ↦ hv.update (fun req' n' heq hb ↦ ?_) _
    obtain ⟨rfl, rfl⟩ := SessionPhase.calling.inj (hreq.symm.trans heq)
    exact hne hb
  obtain ⟨hres, hbehind⟩ := hlooking.call (.answering build routerNid backend) c
  rw [hturns, run_request (Session.dispatch_of_backendCall hc), hres, h.rsp]
  exact h.answer ⟨rfl, fun _ _ hv ↦ hv⟩ hbehind

/-- **Every step is answered by the turns of its last steps.** -/
theorem follows_next (build : Build) (routerNid : Int32)
    (backend : BackendCall → β → BackendResult × β) (cid : τ → Cid) :
    Machine.Simulates (next (.answering build routerNid backend) cid)
      (Served.next (.answering build routerNid backend) cid)
      (HandoutsWait (.answering build routerNid backend) cid) turns (Follows build) := by
  intro s a i s' h hwait hn
  cases i with
  | recv t req =>
      obtain ⟨ht, rfl⟩ := recv_eq hn
      exact h.recv ht
  | route t => exact h.route hwait hn
  | call t => exact h.call hn
  | handout nid =>
      obtain rfl := Option.some_inj.mp hn
      exact h.handout nid hwait

end Steps

/-! ## Whole runs -/

omit [DecidableEq τ] in
theorem follows_start (build : Build) {w : World Vcm β} (hc : w.routing.clientSock ≠ -1) :
    Follows build (start w : Sessions τ β) (start w).toServed where
  rsp := rfl
  replies := rfl
  connected := hc
  behind := .refl _ w
  settled _ _ _ h := by simp [start] at h

omit [DecidableEq τ] in
theorem Follows.world_eq {build : Build} {s : Sessions τ β} {a : Served τ β}
    (h : Follows build s a) (hidle : ∀ t req n, s.phase t ≠ .calling req n) :
    a.world = s.world := by
  refine h.behind.eq ?_
  rintro v ⟨-, t, req, n, hcalling, -⟩
  exact hidle t req n hcalling

/-- A router no container has joined, whose backend returns zero. -/
def fresh : World Vcm Unit := ⟨World.quiet.routing, .init, (), []⟩

def freshEnv : Env Vcm Unit := .answering .container 1 fun _ b ↦ (⟨0, none, none, none⟩, b)

/-- A session looks vid 5 up; another one joins before the first has called the backend,
and is handed vid 1. -/
def lookupAndJoin : List (Act Bool) :=
  [.recv false (LiteLib.queryPortReq 5 0), .route false, .recv true (LiteLib.initReq .join),
    .route true, .call false]

end Sessions

end Machines

end Freelite
