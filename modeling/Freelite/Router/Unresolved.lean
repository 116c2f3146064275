import Freelite.Lib.Machine
import Freelite.Router.Session

/-!
# Requests for a node nobody knows

In the container build three requests carry a vid for a target, which the session
translates by `vcm_vid_nid` and hands to the backend.  It does not look at the result:
the error value is handed on like a nid.

`Fleet` is a number of routers with one manager, serving requests whose exchanges with
the manager may fail.  A router's nid has passed the check in `main`, so it is a
`RouterNid`.  Only routers ask the manager for vids, hence its table holds nothing but
nids of routers that have joined (`registered_run`), in every reachable state; what a
router has cached may be anything that `vcm_vid_nid` has ever stored.
-/

namespace Freelite

open Lib

/-! ## What a request does to the manager -/

namespace Routing

variable {ν : Type*} {peer : Peer ν} {s : Routing} {v : ν} {P : ν → Prop}

theorem vcmHandler_vcm {msg : VcmMsg} (hpeer : P v → P (peer msg v).2) (hv : P v) :
    P (vcmHandler peer msg s v).2.2.2 := by
  by_cases hs : s.clientSock = -1
  · rw [vcmHandler_of_down hs]
    exact hv
  · have h := hpeer hv
    rcases hp : peer msg v with ⟨_ | _ | chunk, v'⟩
    · rw [vcmHandler_of_sendError hs hp]
      rwa [hp] at h
    · rw [vcmHandler_of_recvError hs hp]
      rwa [hp] at h
    · rw [vcmHandler_of_received hs hp]
      rwa [hp] at h

theorem vcmJoin_vcm {routerNid : Int32} (hpeer : P v → P (peer ⟨nidVid, routerNid⟩ v).2)
    (hv : P v) (cid : Cid) : P (vcmJoin peer routerNid cid s v).2.2 := by
  have h := vcmHandler_vcm (s := s) hpeer hv
  rw [vcmJoin]
  split
  · simp only
    split <;> exact h
  · exact hv

theorem vcmVidNid_vcm {vid : Int32} (hpeer : P v → P (peer ⟨vidNid, vid⟩ v).2) (hv : P v) :
    P (vcmVidNid peer vid s v).2.2 := by
  have h := vcmHandler_vcm (s := s) hpeer hv
  rw [vcmVidNid]
  split
  · simp only
    split <;> exact h
  · exact hv

end Routing

/-- The node a backend call is for. -/
def BackendCall.node : BackendCall → Option Int32
  | .allocRemoteMem nodeId _ _ _ => some nodeId.toInt32
  | .sendReplyImmFast targetNode _ _ _ _ _ _ => some targetNode
  | .queryPort targetNode _ => some targetNode
  | _ => none

/-- The state a session leaves to the others. -/
def Outcome.world {ν β : Type*} : Outcome ν β → Option (World ν β)
  | .reply _ w => some w
  | .close w => some w
  | .undefined => none

namespace Session

variable {ν β : Type*} {env : Env ν β} {w : World ν β} {P : ν → Prop}

/-- The target of a request, for the three functions that have one. -/
def target (req : ReqMsg) : Option Int32 :=
  match FuncCode.ofCode (ReqMsg.funcCode.get req) with
  | some .allocRemoteMem => some (AllocRemoteMemReq.nodeId.get req).toInt32
  | some .sendReplyImmFast => some (SendReplyImmFastReq.targetNode.get req)
  | some .queryPort => some (QueryPortReq.targetNode.get req)
  | _ => none

/-- A request with a target makes one backend call, for what the target is translated
to. -/
theorem dispatch_of_target (env : Env ν β) (cid : Cid) {req : ReqMsg} (rsp : RspMsg)
    (w : World ν β) {vid : Int32} (ht : target req = some vid) :
    ∃ c, c.node = some (w.tempNid env vid).1 ∧
      dispatch env cid req rsp w = callInt env c rsp (w.tempNid env vid).2 := by
  cases hf : FuncCode.ofCode (ReqMsg.funcCode.get req) with
  | none => simp [target, hf] at ht
  | some f =>
      cases f
      case allocRemoteMem =>
        obtain rfl : _ = vid := by simpa only [target, hf, Option.some_inj] using ht
        simp only [dispatch, hf]
        exact ⟨_, by rw [BackendCall.node, Int32.toInt32_toUInt32], rfl⟩
      case sendReplyImmFast =>
        obtain rfl : _ = vid := by simpa only [target, hf, Option.some_inj] using ht
        simp only [dispatch, hf]
        exact ⟨_, rfl, rfl⟩
      case queryPort =>
        obtain rfl : _ = vid := by simpa only [target, hf, Option.some_inj] using ht
        simp only [dispatch, hf]
        exact ⟨_, rfl, rfl⟩
      all_goals simp [target, hf] at ht

/-- Whatever holds of the manager and survives the requests a router can send survives
the session's request. -/
theorem dispatch_vcm {cid : Cid} {req : ReqMsg} {rsp : RspMsg} {w' : World ν β}
    (hjoin : ∀ v, P v → P (env.peer ⟨nidVid, env.routerNid⟩ v).2)
    (hlookup : ∀ vid v, P v → P (env.peer ⟨vidNid, vid⟩ v).2) (hw : P w.vcm)
    (h : (dispatch env cid req rsp w).world = some w') : P w'.vcm := by
  have htemp (node : Int32) : P (w.tempNid env node).2.vcm := by
    rw [World.tempNid]
    split
    · exact Routing.vcmVidNid_vcm (hlookup node _) hw
    · exact hw
  have hjoined : P (w.join env cid).2.vcm := by
    rw [World.join]
    split
    · exact Routing.vcmJoin_vcm (hjoin _) hw cid
    · exact hw
  cases hf : FuncCode.ofCode (ReqMsg.funcCode.get req) with
  | none =>
      simp only [dispatch, hf, Outcome.world, Option.some_inj] at h
      exact h ▸ hw
  | some f =>
      cases f <;> simp only [dispatch, hf] at h
      case join => exact Option.some_inj.mp h ▸ hjoined
      case allocRemoteMem => exact Option.some_inj.mp h ▸ htemp _
      case sendReplyImmFast => exact Option.some_inj.mp h ▸ htemp _
      case queryPort => exact Option.some_inj.mp h ▸ htemp _
      case allocLocalMem =>
        split at h
        · contradiction
        · exact Option.some_inj.mp h ▸ hw
      case freeLocalMem =>
        split at h
        · contradiction
        · exact Option.some_inj.mp h ▸ hw
      all_goals exact Option.some_inj.mp h ▸ hw

end Session

/-! ## Routers with one manager -/

/-- A nid that has passed the check in `main`. -/
abbrev RouterNid := {nid : Int32 // 0 < nid ∧ nid ≤ 10}

/-- The managed routers and the manager. -/
structure Fleet (R : Type*) where
  routers : R → Routing
  vcm : Vcm
  /-- The routers the manager has handed out vids to. -/
  joined : List R

namespace Fleet

variable {R : Type*}

/-- What becomes of the exchange of a call with the manager.  The manager may have
served the request although no reply arrives. -/
inductive Fate
  | answered
  | sendError
  | recvError (served : Bool)
  | closed (served : Bool)
deriving DecidableEq

/-- The manager serves a request of router `r`. -/
def serve (r : R) (msg : VcmMsg) (v : Vcm × List R) : Vcm × List R :=
  match v.1.handle msg with
  | none => v
  | some (_, vcm) => (vcm, if msg.funcCode = nidVid then v.2 ++ [r] else v.2)

/-- The manager as the other side of the connection of router `r`. -/
def Fate.peer (r : R) (fate : Fate) : Peer (Vcm × List R) := fun msg v ↦
  match fate with
  | answered =>
      match v.1.handle msg with
      | none => (.received [], v)
      | some (rsp, _) => (.received (VcmMsg.codec.enc rsp), serve r msg v)
  | sendError => (.sendError, v)
  | recvError served => (.recvError, if served then serve r msg v else v)
  | closed served => (.received [], if served then serve r msg v else v)

/-- A request that arrives in a session of container `cid` on router `r`, with all that
the session does not decide: what is in its response buffer, what becomes of an exchange
with the manager, and what the backend returns. -/
structure Arrival (R : Type*) where
  router : R
  cid : Cid
  req : ReqMsg
  rsp : RspMsg
  fate : Fate
  backend : BackendCall → BackendResult

variable (nid : R → RouterNid)

/-- What the router is given when the request arrives. -/
def env (a : Arrival R) : Env (Vcm × List R) Unit where
  build := .container
  routerNid := nid a.router
  peer := a.fate.peer a.router
  backend c b := (a.backend c, b)

/-- What the session finds; no backend call has been made yet. -/
def world (s : Fleet R) (r : R) : World (Vcm × List R) Unit :=
  ⟨s.routers r, (s.vcm, s.joined), (), []⟩

/-- What the session does with the request. -/
def outcome (s : Fleet R) (a : Arrival R) : Outcome (Vcm × List R) Unit :=
  Session.dispatch (env nid a) a.cid a.req a.rsp (s.world a.router)

/-- All routers connected and all tables empty. -/
def init (sock : R → Descriptor) : Fleet R := ⟨fun r ↦ .start (sock r), .init, []⟩

/-- A request arrives and is dispatched. -/
def next [DecidableEq R] (s : Fleet R) (a : Arrival R) : Option (Fleet R) :=
  (outcome nid s a).world.map fun w ↦
    ⟨Function.update s.routers a.router w.routing, w.vcm.1, w.vcm.2⟩

/-! ## Resolving a target -/

/-- `n` is the nid of a router that has joined through the manager. -/
def Joined (s : Fleet R) (n : Int32) : Prop := ∃ r ∈ s.joined, (nid r).1 = n

/-- The target has no nid: the manager does not know it, or it would have to be asked and
the exchange fails. -/
def NoNid (s : Fleet R) (a : Arrival R) (vid : Int32) : Prop :=
  s.vcm.vidNidMap.find vid = none ∨
    (s.routers a.router).vidNidMapCache.find vid = none ∧
      ((s.routers a.router).clientSock = -1 ∨ a.fate ≠ .answered)

/-- A request for `vid` does what is expected of it: without a nid for the target no
backend call is made and the response is negative, and a backend call that is made is
for a router that has joined. -/
def Right (s : Fleet R) (a : Arrival R) (vid : Int32) : Prop :=
  (NoNid s a vid → ∃ rsp w, outcome nid s a = .reply rsp w ∧ w.calls = [] ∧
    RspMsg.intRsp.get rsp < 0) ∧
  ∀ w c n, (outcome nid s a).world = some w → c ∈ w.calls → c.node = some n →
    Joined nid s n ∧ 0 < n ∧ n ≤ 10

/-- The target has a nid, which the manager sends or the router has cached. -/
def Resolves (s : Fleet R) (a : Arrival R) (vid : Int32) : Prop :=
  s.vcm.vidNidMap.find vid ≠ none ∧
    match (s.routers a.router).vidNidMapCache.find vid with
    | some n => Joined nid s n
    | none => (s.routers a.router).clientSock ≠ -1 ∧ a.fate = .answered

/-- The manager's table holds nids of routers that have joined. -/
def Registered (v : Vcm × List R) : Prop :=
  ∀ vid n, v.1.vidNidMap.find vid = some n → ∃ r ∈ v.2, (nid r).1 = n

variable {nid}

/-- Serving keeps the table right: a router asks for vids under its own nid. -/
theorem Registered.serve_nidVid {v : Vcm × List R} (h : Registered nid v) (r : R) :
    Registered nid (serve r ⟨nidVid, nid r⟩ v) := by
  intro vid n hfind
  change (v.1.vidNidMap.insert _ _).find vid = some n at hfind
  rcases UnorderedMap.find_insert_iff.mp hfind with hfind | ⟨-, -, rfl⟩
  · obtain ⟨r', hr', hn⟩ := h vid n hfind
    exact ⟨r', List.mem_append_left _ hr', hn⟩
  · exact ⟨r, List.mem_append_right _ (List.mem_singleton.mpr rfl), rfl⟩

theorem serve_vidNid (r : R) (vid : Int32) (v : Vcm × List R) : serve r ⟨vidNid, vid⟩ v = v := rfl

theorem Registered.peer {v : Vcm × List R} (h : Registered nid v) {r : R} (fate : Fate)
    {msg : VcmMsg} (hserve : Registered nid (serve r msg v)) :
    Registered nid (fate.peer r msg v).2 := by
  cases fate with
  | answered =>
      rw [Fate.peer]
      split
      · exact h
      · exact hserve
  | sendError => exact h
  | recvError served =>
      cases served with
      | false => exact h
      | true => exact hserve
  | closed served =>
      cases served with
      | false => exact h
      | true => exact hserve

section Runs

variable [DecidableEq R]

theorem registered_next {s s' : Fleet R} {a : Arrival R} (h : Registered nid (s.vcm, s.joined))
    (hnext : next nid s a = some s') : Registered nid (s'.vcm, s'.joined) := by
  obtain ⟨w, hw, rfl⟩ := Option.map_eq_some_iff.mp hnext
  refine Session.dispatch_vcm (P := Registered nid) ?_ ?_ h hw
  · intro v hv
    exact hv.peer a.fate (hv.serve_nidVid a.router)
  · intro vid v hv
    exact hv.peer a.fate (serve_vidNid a.router vid v ▸ hv)

/-- In every reachable state the manager's table holds only nids of routers that have
joined. -/
theorem registered_run (sock : R → Descriptor) (as : List (Arrival R)) :
    Registered nid ((Machine.run (next nid) (init sock) as).vcm,
      (Machine.run (next nid) (init sock) as).joined) := by
  refine Machine.run_induction (P := fun s : Fleet R ↦ Registered nid (s.vcm, s.joined)) as
    ?_ ?_
  · intro vid n hfind
    simp [init, Vcm.init] at hfind
  · intro s a s' h hnext
    exact registered_next h hnext

end Runs

/-! ## What the session hands to the backend -/

section Handed

variable {s : Fleet R} {a : Arrival R} {vid n : Int32}

theorem tempNid_of_cached (h : (s.routers a.router).vidNidMapCache.find vid = some n) :
    ((s.world a.router).tempNid (env nid a) vid).1 = n := by
  simp only [World.tempNid, env, world, Routing.vcmVidNid_of_find h]

theorem tempNid_of_answered (h : (s.routers a.router).vidNidMapCache.find vid = none)
    (hsock : (s.routers a.router).clientSock ≠ -1) (hfate : a.fate = .answered)
    (hn : s.vcm.vidNidMap.find vid = some n) :
    ((s.world a.router).tempNid (env nid a) vid).1 = n := by
  have hget : s.vcm.getNidByVid vid = n := by
    rw [Vcm.getNidByVid_eq, hn]
    rfl
  have hpeer : a.fate.peer a.router ⟨vidNid, vid⟩ (s.vcm, s.joined) =
      (.received (VcmMsg.codec.enc ⟨vidNid, n⟩), s.vcm, s.joined) := by
    simp only [hfate, Fate.peer, Vcm.handle_vidNid, hget, serve_vidNid]
  simp only [World.tempNid, env, world, Routing.vcmVidNid_of_reply h hsock hpeer]

/-- The backend call is made in any case, so it had better be the right one. -/
theorem right_iff_joined (ht : Session.target a.req = some vid) :
    Right nid s a vid ↔
      ¬ NoNid s a vid ∧ Joined nid s ((s.world a.router).tempNid (env nid a) vid).1 := by
  obtain ⟨c, hc, hd⟩ :=
    Session.dispatch_of_target (env nid a) a.cid a.rsp (s.world a.router) ht
  obtain ⟨rsp, w, hout, hcalls⟩ : ∃ rsp w, outcome nid s a = .reply rsp w ∧ w.calls = [c] := by
    refine ⟨_, (((s.world a.router).tempNid (env nid a) vid).2.call (env nid a) c).2, hd, ?_⟩
    rw [World.calls_call, World.calls_tempNid]
    rfl
  constructor
  · rintro ⟨hno, hcall⟩
    refine ⟨fun h ↦ ?_, ?_⟩
    · obtain ⟨rsp', w', hout', hnone, -⟩ := hno h
      obtain ⟨rfl, rfl⟩ := Outcome.reply.inj (hout.symm.trans hout')
      rw [hcalls] at hnone
      contradiction
    · refine (hcall w c _ ?_ ?_ hc).1
      · rw [hout, Outcome.world]
      · rw [hcalls]
        exact List.mem_singleton.mpr rfl
  · rintro ⟨hno, hjoined⟩
    refine ⟨fun h ↦ absurd h hno, ?_⟩
    intro w' c' n hw' hc' hn
    rw [hout, Outcome.world, Option.some_inj] at hw'
    subst hw'
    rw [hcalls, List.mem_singleton] at hc'
    subst hc'
    obtain rfl := Option.some_inj.mp (hc.symm.trans hn)
    obtain ⟨r, hr, hnid⟩ := hjoined
    exact ⟨⟨r, hr, hnid⟩, hnid ▸ (nid r).2⟩

/-- **When a request does what is expected of it**, in any state that can be reached:
when its target resolves. -/
theorem right_iff_resolves_of_registered (h : Registered nid (s.vcm, s.joined))
    (ht : Session.target a.req = some vid) : Right nid s a vid ↔ Resolves nid s a vid := by
  rw [right_iff_joined ht]
  cases hcache : (s.routers a.router).vidNidMapCache.find vid with
  | some n => simp [NoNid, Resolves, hcache, tempNid_of_cached hcache]
  | none =>
      simp only [NoNid, Resolves, hcache, true_and, not_or, not_not]
      constructor
      · rintro ⟨⟨hvid, hsock, hfate⟩, -⟩
        exact ⟨hvid, hsock, hfate⟩
      · rintro ⟨hvid, hsock, hfate⟩
        obtain ⟨n, hn⟩ := Option.ne_none_iff_exists'.mp hvid
        refine ⟨⟨hvid, hsock, hfate⟩, ?_⟩
        rw [tempNid_of_answered hcache hsock hfate hn]
        exact h vid n hn

end Handed

/-- **When a request for a node does what is expected of it.**  In every state that
routers with valid nids, one manager and any requests and failing exchanges can reach:
exactly when its target resolves. -/
theorem right_iff_resolves [DecidableEq R] (nid : R → RouterNid) (sock : R → Descriptor)
    (as : List (Arrival R)) {a : Arrival R} {vid : Int32}
    (ht : Session.target a.req = some vid) :
    Right nid (Machine.run (next nid) (init sock) as) a vid ↔
      Resolves nid (Machine.run (next nid) (init sock) as) a vid :=
  right_iff_resolves_of_registered (registered_run sock as) ht

/-! One router, and a request for vid 5 that arrives in it first of all. -/

def lone : Unit → RouterNid := fun _ ↦ ⟨1, by decide⟩

def queryFive : Arrival Unit where
  router := ()
  cid := []
  req := QueryPortReq.targetNode.set 5 (ReqMsg.funcCode.set 11 (Flat.zero 280))
  rsp := Flat.zero 24
  fate := .answered
  backend _ := ⟨0, none, none, none⟩

theorem right_iff_resolves_queryFive :
    Right lone (Machine.run (next lone) (init fun _ ↦ ⟨3, by decide⟩) []) queryFive 5 ↔
      Resolves lone (Machine.run (next lone) (init fun _ ↦ ⟨3, by decide⟩) []) queryFive 5 :=
  right_iff_resolves lone (fun _ ↦ ⟨3, by decide⟩) [] (by decide)

/-- No container has joined, so the manager answers with the error value, and node `-1`
is what the backend is asked for. -/
theorem not_right_queryFive :
    ¬ ∀ (as : List (Arrival Unit)) (a : Arrival Unit) (vid : Int32),
      Session.target a.req = some vid →
        Right lone (Machine.run (next lone) (init fun _ ↦ ⟨3, by decide⟩) as) a vid := by
  intro h
  obtain ⟨hno, -⟩ := h [] queryFive 5 (by decide)
  obtain ⟨rsp, w, hout, hcalls, -⟩ := hno (Or.inl rfl)
  have hmade : (outcome lone (init fun _ ↦ ⟨3, by decide⟩) queryFive).world.map World.calls =
      some [.queryPort (-1) 0] := by decide
  rw [Machine.run_nil] at hout
  rw [hout, Outcome.world, Option.map_some, hcalls] at hmade
  contradiction

end Fleet

end Freelite
