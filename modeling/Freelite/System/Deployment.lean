import Freelite.Router.Lookups
import Freelite.System.Interleaved

/-!
# Clients, routers and the manager

A deployment is any number of routers with one manager, and any number of clients, each
connected to a session of its home router.  A client calls a function of the client
library; the library encodes a request, the session serves it from the tables of its
router and from the manager, and calls the backend of its router.

A run of a deployment is a run of the cluster of its routers (`Traced`): each call of the
library stands for at most one call of `routing.cpp`.  What is known about clusters can
so be said in terms of what the clients have called and been returned, without the
tables and the messages.
-/

namespace Freelite

open Lib

/-! ## What a call of the library asks for -/

/-- The function that serves the call. -/
def Forwarded.code : Forwarded → FuncCode
  | allocRemoteMem .. => .allocRemoteMem
  | rdmaWrite .. => .rdmaWrite
  | rdmaRead .. => .rdmaRead
  | sendReplyImmFast .. => .sendReplyImmFast
  | receiveMessageFast .. => .receiveMessageFast
  | replyMessage .. => .replyMessage
  | registerApplication .. => .registerApplication
  | distBarrier .. => .distBarrier
  | queryPort .. => .queryPort
  | allocLocalMem .. => .allocLocalMem
  | freeLocalMem .. => .freeLocalMem

/-- The node the call is meant for. -/
def Forwarded.target : Forwarded → Option Int32
  | allocRemoteMem nodeId _ _ _ => some nodeId.toInt32
  | sendReplyImmFast targetNode _ _ _ _ _ _ => some targetNode
  | queryPort targetNode _ => some targetNode
  | _ => none

namespace LibCall

/-- The function that serves the call. -/
def code : LibCall → FuncCode
  | api .getNodeId => .getNodeId
  | api (.join ..) => .join
  | api (.forwarded f) => f.code
  | allocLocalMemTest .. => .allocLocalMem

/-- The node the call is meant for. -/
def target : LibCall → Option Int32
  | api (.forwarded f) => f.target
  | _ => none

/-- Joins and queries of the own vid have no target. -/
theorem target_of_code {q : LibCall} (h : q.code = .join ∨ q.code = .getNodeId) :
    q.target = none := by
  cases q with
  | allocLocalMemTest name size => rfl
  | api c =>
      rcases c with _ | ⟨inputStr, ethPort, ibPort⟩ | f
      · rfl
      · rfl
      · cases f <;> simp [code, Forwarded.code] at h

/-- Most functions return the `int` of the response. -/
theorem fst_reads {q : LibCall} (h : q.code ≠ .allocLocalMem) (fd : Option Int32)
    (addr : Option UInt64) (rsp : RspMsg) (out : Outputs) :
    (q.reads fd addr rsp out).1 = RspMsg.intRsp.get rsp := by
  cases q with
  | allocLocalMemTest name size => exact absurd rfl h
  | api c =>
      rcases c with _ | ⟨inputStr, ethPort, ibPort⟩ | f
      · rfl
      · rfl
      · cases f
        case allocLocalMem => exact absurd rfl h
        all_goals rfl

/-- A function with a target returns nothing else. -/
theorem code_of_target {q : LibCall} {v : Int32} (h : q.target = some v) :
    q.code ≠ .allocLocalMem := by
  cases q with
  | allocLocalMemTest name size => contradiction
  | api c =>
      rcases c with _ | ⟨inputStr, ethPort, ibPort⟩ | f
      · contradiction
      · contradiction
      · cases f <;> first | contradiction | simp [code, Forwarded.code]

theorem function_initReq (f : FuncCode) : Session.function (LiteLib.initReq f) = some f := by
  rw [Session.function, LiteLib.initReq, Field.get_set_self, FuncCode.ofCode_code]

/-- The code of a request in which a string has been copied. -/
theorem function_strncpy {a : CharArray 280} {src : List UInt8} {len : Nat} {x req : ReqMsg}
    (hd : a.Disjoint ReqMsg.funcCode) (h : a.strncpy src len x = some req) :
    Session.function req = Session.function x := by
  rw [Session.function, CharArray.get_strncpy hd h, Session.function]

/-- **The library asks for the function of the call.** -/
theorem function_of_request {q : LibCall} {req : ReqMsg} (h : q.request = some req) :
    Session.function req = some q.code := by
  have hset {α : Type} (f : Field 280 α) (hd : ReqMsg.funcCode.Disjoint f) (a : α) (x : ReqMsg) :
      Session.function (f.set a x) = Session.function x := by
    rw [Session.function, Field.get_set_of_disjoint hd, Session.function]
  have halloc {name : List UInt8} {size : UInt64}
      (h : LiteLib.allocLocalMemReq name size = some req) :
      Session.function req = some .allocLocalMem := by
    rw [function_strncpy (by decide) h, hset _ (by decide), function_initReq]
  cases q with
  | allocLocalMemTest name size => exact halloc h
  | api c =>
      rcases c with _ | ⟨inputStr, ethPort, ibPort⟩ | f
      · obtain rfl := Option.some_inj.mp h
        exact function_initReq _
      · change LiteLib.joinReq inputStr ethPort ibPort = some req at h
        rw [LiteLib.joinReq] at h
        rw [function_strncpy (by decide) h]
        simp (disch := decide) only [hset, function_initReq, code]
      · cases f
        case registerApplication =>
          change LiteLib.registerApplicationReq _ _ _ _ _ = some req at h
          rw [LiteLib.registerApplicationReq] at h
          rw [function_strncpy (by decide) h]
          simp (disch := decide) only [hset, function_initReq, code, Forwarded.code]
        case allocLocalMem => exact halloc h
        case freeLocalMem =>
          change LiteLib.freeLocalMemReq _ _ _ = some req at h
          rw [LiteLib.freeLocalMemReq] at h
          rw [function_strncpy (by decide) h]
          simp (disch := decide) only [hset, function_initReq, code, Forwarded.code]
        all_goals
          obtain rfl := Option.some_inj.mp h
          simp (disch := decide) only [LiteLib.allocRemoteMemReq, LiteLib.rdmaReq,
            LiteLib.sendReplyImmFastReq, LiteLib.receiveMessageFastReq, LiteLib.replyMessageReq,
            LiteLib.distBarrierReq, LiteLib.queryPortReq, hset, function_initReq, code,
            Forwarded.code]

/-- **The session finds the target of the call in its request.** -/
theorem target_of_request {q : LibCall} {req : ReqMsg} (h : q.request = some req) :
    Session.target req = q.target := by
  have hf := function_of_request h
  rw [Session.function] at hf
  rw [Session.target, hf]
  cases q with
  | allocLocalMemTest name size => rfl
  | api c =>
      rcases c with _ | ⟨inputStr, ethPort, ibPort⟩ | f
      · rfl
      · rfl
      · cases f
        case allocRemoteMem =>
          obtain rfl := Option.some_inj.mp h
          simp (disch := decide) only [code, Forwarded.code, target, Forwarded.target,
            LiteLib.allocRemoteMemReq, Field.get_set_self, Field.get_set_of_disjoint]
        case sendReplyImmFast =>
          obtain rfl := Option.some_inj.mp h
          simp (disch := decide) only [code, Forwarded.code, target, Forwarded.target,
            LiteLib.sendReplyImmFastReq, Field.get_set_self, Field.get_set_of_disjoint]
        case queryPort =>
          obtain rfl := Option.some_inj.mp h
          simp (disch := decide) only [code, Forwarded.code, target, Forwarded.target,
            LiteLib.queryPortReq, Field.get_set_self, Field.get_set_of_disjoint]
        all_goals rfl

section State

variable {κ ν β : Type*} (rpc : RpcHandler (Option (Link ν β Unit))) (fd : Option Int32)
  (addr : Option UInt64) (rsp₀ : RspMsg) (out : Outputs) (k : Option (Link ν β Unit))

theorem run_of_request_none {q : LibCall} (h : q.request = none) :
    q.run rpc (Link.onClient (answers fd addr)) rsp₀ out k = none := by
  have hint {c : ApiCall} (hc : c.ReturnsInt) (h : c.request = none) :
      (api c).run rpc (Link.onClient (answers fd addr)) rsp₀ out k = none := by
    rw [run, ApiCall.run_of_returnsInt hc, h, Option.map_none]
  cases q with
  | allocLocalMemTest name size =>
      change LiteLib.allocLocalMemReq name size = none at h
      simp only [run, LiteLib.userspaceLiteapiAllocLocalMemTest, h, Option.map_none]
  | api c =>
      rcases c with _ | ⟨inputStr, ethPort, ibPort⟩ | f
      · exact hint trivial h
      · exact hint trivial h
      · cases f
        case receiveMessageFast => contradiction
        case allocLocalMem name size localAddr =>
          change LiteLib.allocLocalMemReq name size = none at h
          simp only [run, ApiCall.run, LiteLib.userspaceLiteapiAllocLocalMem, h, Option.map_none]
        all_goals exact hint trivial h

/-- What a call leaves behind is what its exchange leaves behind: the client's own system
calls do not touch the connection. -/
theorem run_state {q : LibCall} {req : ReqMsg} (h : q.request = some req) :
    ∃ ret out', q.run rpc (Link.onClient (answers fd addr)) rsp₀ out k =
      some (ret, out', (rpc req rsp₀ k).2.2) := by
  have hint {c : ApiCall} (hc : c.ReturnsInt) (h : c.request = some req) :
      ∃ ret out', (api c).run rpc (Link.onClient (answers fd addr)) rsp₀ out k =
        some (ret, out', (rpc req rsp₀ k).2.2) := by
    refine ⟨RspMsg.intRsp.get (rpc req rsp₀ k).2.1, out, ?_⟩
    rw [run, ApiCall.run_of_returnsInt hc, h]
    rfl
  cases q with
  | allocLocalMemTest name size =>
      change LiteLib.allocLocalMemReq name size = some req at h
      simp only [run, LiteLib.userspaceLiteapiAllocLocalMemTest, h, Option.map_some]
      exact ⟨_, _, rfl⟩
  | api c =>
      rcases c with _ | ⟨inputStr, ethPort, ibPort⟩ | f
      · exact hint trivial h
      · exact hint trivial h
      · cases f
        case receiveMessageFast =>
          obtain rfl := Option.some_inj.mp h
          exact ⟨_, _, rfl⟩
        case allocLocalMem name size localAddr =>
          change LiteLib.allocLocalMemReq name size = some req at h
          simp only [run, ApiCall.run, LiteLib.userspaceLiteapiAllocLocalMem, h, Option.map_some]
          rcases rpc req rsp₀ k with ⟨err, rsp, k'⟩
          by_cases hneg : RspMsg.intRsp.get rsp < 0
          · exact ⟨-1, out, by simp [hneg]⟩
          · cases k' with
            | none => exact ⟨-1, out, by simp [hneg, Link.onClient]⟩
            | some l => cases fd <;> simp [hneg, Link.onClient, answers, localAddr.2]
        all_goals exact hint trivial h

end State

end LibCall

/-! ## The machine -/

/-- What does not change: the nids of the routers, their connections and backends, and
where every client is. -/
structure Plan (R κ β : Type*) where
  nid : R → Int32
  sock : R → Descriptor
  backend : R → BackendCall → β → BackendResult × β
  home : κ → R
  cid : κ → Cid

/-- A call of the library, with what the client's memory and its own system calls
contribute. -/
structure Invocation (κ : Type*) where
  client : κ
  call : LibCall
  /-- The uninitialised `rsp_msg`. -/
  rsp₀ : RspMsg
  /-- The caller's variables. -/
  out : Outputs
  /-- What the client's own `shm_open` and `mmap` return. -/
  fd : Option Int32
  addr : Option UInt64

/-- A call that has returned. -/
structure Completed (κ : Type*) extends Invocation κ where
  ret : Int32
  outputs : Outputs

/-- The routers with the manager, what is behind the routers, and the connections. -/
structure Deployment (R κ β : Type*) where
  cluster : Cluster R
  backend : R → β
  /-- The backend calls of each router, oldest first. -/
  calls : R → List BackendCall
  /-- The response buffer of each client's session. -/
  rsp : κ → RspMsg
  /-- The calls that have returned, oldest first. -/
  done : List (Completed κ)

namespace Deployment

variable {R κ β : Type*} [DecidableEq R] [DecidableEq κ]

/-- What the sessions of router `r` are given. -/
def env (P : Plan R κ β) (r : R) : Env (Vcm × List VcmMsg) β where
  build := .container
  routerNid := P.nid r
  peer := Vcm.peer
  backend := P.backend r

/-- What they share. -/
def world (s : Deployment R κ β) (r : R) : World (Vcm × List VcmMsg) β where
  routing := s.cluster.routers r
  vcm := (s.cluster.vcm, s.cluster.requests)
  backend := s.backend r
  calls := s.calls r

/-- A session of router `r` leaves `w` behind. -/
def put (s : Deployment R κ β) (r : R) (w : World (Vcm × List VcmMsg) β) : Deployment R κ β where
  cluster := ⟨Function.update s.cluster.routers r w.routing, w.vcm.1, w.vcm.2⟩
  backend := Function.update s.backend r w.backend
  calls := Function.update s.calls r w.calls
  rsp := s.rsp
  done := s.done

/-- All routers connected, all tables empty, and nothing called yet. -/
def start (P : Plan R κ β) (b : R → β) : Deployment R κ β where
  cluster := .init P.sock
  backend := b
  calls _ := []
  rsp _ := Flat.zero 24
  done := []

/-- A client calls the library, and the call returns.  A call that copies a string past
the end of its field does not happen, nor does one whose string the session cannot
read. -/
def next (P : Plan R κ β) (s : Deployment R κ β) (i : Invocation κ) : Option (Deployment R κ β) :=
  let r := P.home i.client
  match i.call.run (Link.rpcHandler (env P r) (P.cid i.client))
      (Link.onClient (LibCall.answers i.fd i.addr)) i.rsp₀ i.out
      (some ⟨s.rsp i.client, s.world r, ()⟩) with
  | some (ret, outputs, some l) =>
      some { s.put r l.world with
        rsp := Function.update s.rsp i.client l.rsp
        done := s.done ++ [⟨i, ret, outputs⟩] }
  | _ => none

variable {P : Plan R κ β} {s s' : Deployment R κ β} {i : Invocation κ}

/-- **What a call does**: the library encodes it, the session of the client serves it,
and the library reads the result from the response. -/
theorem next_eq (h : next P s i = some s') :
    ∃ req rsp w, i.call.request = some req ∧
      Session.dispatch (env P (P.home i.client)) (P.cid i.client) req (s.rsp i.client)
        (s.world (P.home i.client)) = .reply rsp w ∧
      s' = { s.put (P.home i.client) w with
        rsp := Function.update s.rsp i.client rsp
        done := s.done ++ [⟨i, (i.call.reads i.fd i.addr rsp i.out).1,
          (i.call.reads i.fd i.addr rsp i.out).2⟩] } := by
  cases hreq : i.call.request with
  | none => simp [next, LibCall.run_of_request_none _ _ _ _ _ _ hreq] at h
  | some req =>
      let l : Link (Vcm × List VcmMsg) β Unit := ⟨s.rsp i.client, s.world (P.home i.client), ()⟩
      let rpc : RpcHandler (Option (Link (Vcm × List VcmMsg) β Unit)) :=
        Link.rpcHandler (env P (P.home i.client)) (P.cid i.client)
      obtain ⟨ret, outputs, hrun⟩ :=
        LibCall.run_state rpc i.fd i.addr i.rsp₀ i.out (some l) hreq
      cases hd : Session.dispatch (env P (P.home i.client)) (P.cid i.client) req (s.rsp i.client)
          (s.world (P.home i.client)) with
      | reply rsp w =>
          have hrpc : rpc req i.rsp₀ (some l) = (0, rsp, some { l with rsp, world := w }) := by
            simp only [rpc, Link.rpcHandler, l, hd]
          obtain ⟨k', hread⟩ := LibCall.run_of_reply hreq hrpc i.fd i.addr i.out
          rw [hrun, hrpc] at hread
          obtain ⟨hret, hout, -⟩ : ret = _ ∧ outputs = _ ∧ _ = k' := by
            simpa only [Option.some_inj, Prod.mk_inj] using hread
          rw [next, hrun, hrpc] at h
          refine ⟨req, rsp, w, rfl, hd, ?_⟩
          rw [← hret, ← hout]
          exact (Option.some_inj.mp h).symm
      | close w =>
          have hrpc : (rpc req i.rsp₀ (some l)).2.2 = none := by
            simp only [rpc, Link.rpcHandler, l, hd]
          simp only [next] at h
          rw [hrun, hrpc] at h
          contradiction
      | undefined =>
          have hrpc : (rpc req i.rsp₀ (some l)).2.2 = none := by
            simp only [rpc, Link.rpcHandler, l, hd]
          simp only [next] at h
          rw [hrun, hrpc] at h
          contradiction

/-! ## The calls of `routing.cpp` -/

/-- The call of `routing.cpp` a call of the library stands for. -/
def clusterCall (P : Plan R κ β) (i : Invocation κ) : Option (Call R) :=
  match i.call.target, i.call.code with
  | some v, _ => some (.vcmVidNid (P.home i.client) v)
  | none, .getNodeId => some (.vcmGetNodeId (P.home i.client) (P.cid i.client))
  | none, .join => some (.vcmJoin (P.home i.client) (P.cid i.client))
  | none, _ => none

/-- The cluster after it. -/
def clusterAfter (P : Plan R κ β) (s : Deployment R κ β) (i : Invocation κ) : Cluster R :=
  match clusterCall P i with
  | some c => (Cluster.step P.nid s.cluster c).2
  | none => s.cluster

section Worlds

omit [DecidableEq κ]

variable (P s) in
/-- A call of `vcm_join` by a session is a call of the cluster. -/
theorem join_world (r : R) (cid : Cid) :
    let x := (s.world r).join (env P r) cid
    x.1 = (Cluster.step P.nid s.cluster (.vcmJoin r cid)).1 ∧
      (s.put r x.2).cluster = (Cluster.step P.nid s.cluster (.vcmJoin r cid)).2 :=
  ⟨rfl, rfl⟩

variable (P s) in
/-- So is one of `vcm_vid_nid`. -/
theorem tempNid_world (r : R) (v : Int32) :
    let x := (s.world r).tempNid (env P r) v
    x.1 = Cluster.resolved P.nid s.cluster r v ∧
      (s.put r x.2).cluster = (Cluster.step P.nid s.cluster (.vcmVidNid r v)).2 :=
  ⟨rfl, rfl⟩

theorem put_world (s : Deployment R κ β) (r : R) : s.put r (s.world r) = s := by
  simp only [put, world, Function.update_eq_self]

end Worlds

omit [DecidableEq κ] in
/-- A request without a target that ends in the backend leaves the cluster alone. -/
theorem cluster_of_no_target {r : R} {cid : Cid} {req : ReqMsg} {rsp rsp' : RspMsg}
    {w : World (Vcm × List VcmMsg) β} {f : FuncCode} (hf : Session.function req = some f)
    (hget : f ≠ .getNodeId) (hjoin : f ≠ .join) (ht : Session.target req = none)
    (hd : Session.dispatch (env P r) cid req rsp (s.world r) = .reply rsp' w) :
    (s.put r w).cluster = s.cluster := by
  have hend : Session.stringsEnd req = true := Session.stringsEnd_of_ne (by rw [hd]; simp)
  obtain ⟨c, hc⟩ := Option.isSome_iff_exists.mp <| Session.isSome_backendCall hf hget hjoin hend
    (Session.route (env P r) req (s.world r)).1
  rw [Session.dispatch_of_backendCall hc, Outcome.reply.injEq] at hd
  have hroute : (Session.route (env P r) req (s.world r)).2 = s.world r := by
    rw [Session.route, ht]
  rw [hroute] at hd
  rw [← hd.2]
  change (s.put r (s.world r)).cluster = s.cluster
  rw [put_world]

omit [DecidableEq κ] in
/-- A request with a target makes its backend call, with what the cluster resolves the
target to. -/
theorem dispatch_of_target {r : R} {cid : Cid} {req : ReqMsg} {rsp rsp' : RspMsg}
    {w : World (Vcm × List VcmMsg) β} {v : Int32} (ht : Session.target req = some v)
    (hd : Session.dispatch (env P r) cid req rsp (s.world r) = .reply rsp' w) :
    (s.put r w).cluster = (Cluster.step P.nid s.cluster (.vcmVidNid r v)).2 ∧
      ∃ c, c.node = some (Cluster.resolved P.nid s.cluster r v) ∧
        rsp' = RspMsg.intRsp.set (P.backend r c (s.backend r)).1.ret rsp ∧
        w.calls = s.calls r ++ [c] ∧ w.backend = (P.backend r c (s.backend r)).2 := by
  obtain ⟨c, hnode, hcall⟩ := Session.dispatch_of_target (env P r) cid rsp (s.world r) ht
  rw [hcall, Session.callInt, Outcome.reply.injEq] at hd
  obtain ⟨rfl, rfl⟩ := hd
  exact ⟨rfl, c, hnode, rfl, rfl, rfl⟩

/-- **A call of the library is at most one call of the cluster.** -/
theorem cluster_next (h : next P s i = some s') : s'.cluster = clusterAfter P s i := by
  obtain ⟨req, rsp, w, hreq, hd, rfl⟩ := next_eq h
  have hf := LibCall.function_of_request hreq
  have ht := LibCall.target_of_request hreq
  change (s.put (P.home i.client) w).cluster = _
  rw [clusterAfter, clusterCall]
  cases hv : i.call.target with
  | some v => exact (dispatch_of_target (ht.trans hv) hd).1
  | none =>
      rw [hv] at ht
      cases hcode : i.call.code
      case getNodeId =>
        rw [hcode, Session.function] at hf
        simp only [Session.dispatch, hf, Outcome.reply.injEq] at hd
        rw [← hd.2, put_world]
        rfl
      case join =>
        rw [hcode, Session.function] at hf
        simp only [Session.dispatch, hf, Outcome.reply.injEq] at hd
        rw [← hd.2]
        rfl
      all_goals
        rw [hcode] at hf
        exact cluster_of_no_target hf (by simp) (by simp) ht hd

/-! ## What the clients see -/

/-- The calls of the cluster that the calls of the library were. -/
def callsOf (P : Plan R κ β) (done : List (Completed κ)) : List (Call R) :=
  done.filterMap fun e ↦ clusterCall P e.toInvocation

/-- The client has joined on router `r` as `cid`. -/
def Completed.Joins (P : Plan R κ β) (e : Completed κ) (r : R) (cid : Cid) : Prop :=
  e.call.code = .join ∧ P.home e.client = r ∧ P.cid e.client = cid

/-- A client of router `r` has joined and been given the vid. -/
def JoinedOn (P : Plan R κ β) (done : List (Completed κ)) (r : R) (v : Int32) : Prop :=
  ∃ e ∈ done, ∃ cid, Completed.Joins P e r cid ∧ e.ret = v

/-- A client of router `r` has named the vid as a target when no client had been given
it. -/
def AskedEarly (P : Plan R κ β) (done : List (Completed κ)) (r : R) (v : Int32) : Prop :=
  ∃ (pre : List (Completed κ)) (e : Completed κ), pre ++ [e] <+: done ∧
    P.home e.client = r ∧ e.call.target = some v ∧ ∀ r', ¬ JoinedOn P pre r' v

/-- The calls that are nothing but a call of the cluster have returned what that
returns. -/
def Returned (P : Plan R κ β) (done : List (Completed κ)) : Prop :=
  ∀ (pre : List (Completed κ)) (e : Completed κ) (c : Call R), pre ++ [e] <+: done →
    clusterCall P e.toInvocation = some c → e.call.target = none →
      e.ret = (Cluster.step P.nid (Cluster.run P.nid P.sock (callsOf P pre)) c).1

/-- The deployment is a run of the cluster. -/
structure Traced (P : Plan R κ β) (s : Deployment R κ β) : Prop where
  cluster_eq : s.cluster = Cluster.run P.nid P.sock (callsOf P s.done)
  returned : Returned P s.done

section Lists

variable {done pre : List (Completed κ)} {e : Completed κ} {r : R} {v : Int32} {cid : Cid}

omit [DecidableEq R] [DecidableEq κ] in
theorem callsOf_concat (P : Plan R κ β) (done : List (Completed κ)) (e : Completed κ) :
    callsOf P (done ++ [e]) = callsOf P done ++ (clusterCall P e.toInvocation).toList := by
  rw [callsOf, callsOf, List.filterMap_append]
  cases hc : clusterCall P e.toInvocation <;> simp [hc]

omit [DecidableEq κ] in
theorem run_callsOf_concat (P : Plan R κ β) (done : List (Completed κ)) (e : Completed κ) :
    Cluster.run P.nid P.sock (callsOf P (done ++ [e])) =
      match clusterCall P e.toInvocation with
      | some c => (Cluster.step P.nid (Cluster.run P.nid P.sock (callsOf P done)) c).2
      | none => Cluster.run P.nid P.sock (callsOf P done) := by
  rw [callsOf_concat]
  cases clusterCall P e.toInvocation with
  | none => rw [Option.toList_none, List.append_nil]
  | some c => exact Cluster.run_concat _ _

omit [DecidableEq κ] in
theorem Returned.of_prefix (h : Returned P done) (hp : pre <+: done) : Returned P pre :=
  fun pre' e c hpre ↦ h pre' e c (hpre.trans hp)

omit [DecidableEq R] [DecidableEq κ] in
/-- A join of the cluster is a join of a client. -/
theorem clusterCall_eq_vcmJoin_iff :
    clusterCall P i = some (.vcmJoin r cid) ↔
      i.call.code = .join ∧ P.home i.client = r ∧ P.cid i.client = cid := by
  constructor
  · intro h
    rw [clusterCall] at h
    split at h
    · simp at h
    · simp at h
    · rename_i hcode
      simp only [Option.some_inj, Call.vcmJoin.injEq] at h
      exact ⟨hcode, h⟩
    · contradiction
  · rintro ⟨hcode, rfl, rfl⟩
    rw [clusterCall, LibCall.target_of_code (Or.inl hcode), hcode]

omit [DecidableEq R] [DecidableEq κ] in
/-- A lookup of the cluster is a call with a target. -/
theorem clusterCall_eq_vcmVidNid_iff :
    clusterCall P i = some (.vcmVidNid r v) ↔ P.home i.client = r ∧ i.call.target = some v := by
  constructor
  · intro h
    rw [clusterCall] at h
    split at h
    · rename_i ht
      simp only [Option.some_inj, Call.vcmVidNid.injEq] at h
      exact ⟨h.1, h.2 ▸ ht⟩
    · simp at h
    · simp at h
    · contradiction
  · rintro ⟨rfl, ht⟩
    rw [clusterCall, ht]

omit [DecidableEq κ] in
/-- The joins in the history of the cluster are the joins of the clients. -/
theorem mem_history_iff (h : Returned P done) :
    (Call.vcmJoin r cid, v) ∈ Cluster.history P.nid P.sock (callsOf P done) ↔
      ∃ e ∈ done, Completed.Joins P e r cid ∧ e.ret = v := by
  induction done using List.reverseRecOn with
  | nil => simp [callsOf, Cluster.history, Cluster.historyFrom]
  | append_singleton done e ih =>
      have ih := ih (h.of_prefix (List.prefix_append _ _))
      have hsplit : (∃ e' ∈ done ++ [e], Completed.Joins P e' r cid ∧ e'.ret = v) ↔
          (∃ e' ∈ done, Completed.Joins P e' r cid ∧ e'.ret = v) ∨
            Completed.Joins P e r cid ∧ e.ret = v := by
        simp [or_and_right, exists_or]
      rw [hsplit, ← ih, callsOf_concat]
      cases hc : clusterCall P e.toInvocation with
      | none =>
          rw [Option.toList_none, List.append_nil]
          refine (or_iff_left ?_).symm
          rintro ⟨hj, -⟩
          have := clusterCall_eq_vcmJoin_iff.mpr hj
          rw [hc] at this
          contradiction
      | some c =>
          rw [Option.toList_some, Cluster.history_concat, List.mem_append, List.mem_singleton,
            Prod.mk_inj]
          refine or_congr Iff.rfl ?_
          constructor
          · rintro ⟨rfl, hv⟩
            have hj := clusterCall_eq_vcmJoin_iff.mp hc
            refine ⟨hj, ?_⟩
            rw [h done e _ (List.prefix_refl _) hc (LibCall.target_of_code (Or.inl hj.1)), hv]
          · rintro ⟨hj, rfl⟩
            obtain rfl := Option.some_inj.mp (hc.symm.trans (clusterCall_eq_vcmJoin_iff.mpr hj))
            refine ⟨rfl, ?_⟩
            exact h done e _ (List.prefix_refl _) hc (LibCall.target_of_code (Or.inl hj.1))

omit [DecidableEq κ] in
theorem joinedOn_iff (h : Returned P done) :
    JoinedOn P done r v ↔
      Cluster.Joined (Cluster.history P.nid P.sock (callsOf P done)) r v := by
  simp only [Cluster.Joined, mem_history_iff h, JoinedOn]
  constructor
  · rintro ⟨e, he, cid, hj, hv⟩
    exact ⟨cid, e, he, hj, hv⟩
  · rintro ⟨cid, e, he, hj, hv⟩
    exact ⟨e, he, cid, hj, hv⟩

omit [DecidableEq R] [DecidableEq κ] in
theorem askedEarly_concat_iff :
    AskedEarly P (done ++ [e]) r v ↔
      AskedEarly P done r v ∨
        P.home e.client = r ∧ e.call.target = some v ∧ ∀ r', ¬ JoinedOn P done r' v := by
  constructor
  · rintro ⟨pre, e', hpre, hasked⟩
    rcases List.prefix_concat_iff.mp hpre with heq | hpre
    · obtain ⟨rfl, he⟩ := List.append_inj' heq rfl
      obtain rfl := List.singleton_inj.mp he
      exact Or.inr hasked
    · exact Or.inl ⟨pre, e', hpre, hasked⟩
  · rintro (⟨pre, e', hpre, hasked⟩ | hasked)
    · exact ⟨pre, e', hpre.trans (List.prefix_append _ _), hasked⟩
    · exact ⟨done, e, List.prefix_refl _, hasked⟩

omit [DecidableEq κ] in
/-- The early questions of the clients are those of the routers. -/
theorem askedEarly_iff (h : Returned P done) :
    AskedEarly P done r v ↔ Cluster.AskedEarly P.nid P.sock (callsOf P done) r v := by
  induction done using List.reverseRecOn with
  | nil =>
      constructor
      · rintro ⟨pre, e, hpre, -⟩
        simp at hpre
      · rintro ⟨pre, hpre, -⟩
        simp [callsOf] at hpre
  | append_singleton done e ih =>
      have hdone := h.of_prefix (List.prefix_append done [e])
      rw [askedEarly_concat_iff, ih hdone, callsOf_concat]
      cases hc : clusterCall P e.toInvocation with
      | none =>
          rw [Option.toList_none, List.append_nil]
          refine or_iff_left ?_
          rintro ⟨hr, ht, -⟩
          have := clusterCall_eq_vcmVidNid_iff.mpr ⟨hr, ht⟩
          rw [hc] at this
          contradiction
      | some c =>
          rw [Option.toList_some, Cluster.askedEarly_concat_iff]
          refine or_congr Iff.rfl ?_
          simp only [joinedOn_iff hdone, ← and_assoc, ← clusterCall_eq_vcmVidNid_iff, hc,
            Option.some_inj]

end Lists

/-! ## Whole runs -/

/-- A call that is nothing but a call of the cluster returns what that returns. -/
theorem done_next (h : next P s i = some s') :
    ∃ ret outputs, s'.done = s.done ++ [⟨i, ret, outputs⟩] ∧
      ∀ c, clusterCall P i = some c → i.call.target = none →
        ret = (Cluster.step P.nid s.cluster c).1 := by
  obtain ⟨req, rsp, w, hreq, hd, rfl⟩ := next_eq h
  have hf := LibCall.function_of_request hreq
  refine ⟨_, _, rfl, fun c hc ht ↦ ?_⟩
  rw [clusterCall, ht] at hc
  cases hcode : i.call.code <;> rw [hcode] at hc
  case getNodeId =>
    obtain rfl := Option.some_inj.mp hc
    rw [hcode, Session.function] at hf
    simp only [Session.dispatch, hf, Outcome.reply.injEq] at hd
    rw [LibCall.fst_reads (by rw [hcode]; simp), ← hd.1, Field.get_set_self]
    rfl
  case join =>
    obtain rfl := Option.some_inj.mp hc
    rw [hcode, Session.function] at hf
    simp only [Session.dispatch, hf, Outcome.reply.injEq] at hd
    rw [LibCall.fst_reads (by rw [hcode]; simp), ← hd.1, Field.get_set_self]
    rfl
  all_goals contradiction

/-- **One call.** -/
theorem Traced.next (hs : Traced P s) (h : next P s i = some s') : Traced P s' := by
  obtain ⟨ret, outputs, hdone, hret⟩ := done_next h
  constructor
  · rw [cluster_next h, hdone, run_callsOf_concat, clusterAfter, hs.cluster_eq]
  · rw [hdone]
    intro pre e c hpre hc ht
    rcases List.prefix_concat_iff.mp hpre with heq | hpre
    · obtain ⟨rfl, he⟩ := List.append_inj' heq rfl
      obtain rfl := List.singleton_inj.mp he
      rw [← hs.cluster_eq]
      exact hret c hc ht
    · exact hs.returned pre e c hpre hc ht

variable (P) in
/-- **Whole runs.**  Every deployment is a run of its cluster. -/
theorem traced_run (b : R → β) (is : List (Invocation κ)) :
    Traced P (Machine.run (next P) (start P b) is) := by
  refine Machine.run_induction is ⟨rfl, ?_⟩ fun s i s' hs h ↦ hs.next h
  intro pre e c hpre
  exact absurd (List.prefix_nil.mp hpre) (by simp)

omit [DecidableEq κ] in
/-- Fewer vids have been handed out before. -/
theorem handedOut_lt_of_earlier {done pre : List (Completed κ)} (h : pre <+: done)
    (hlt : (Cluster.run P.nid P.sock (callsOf P done)).handedOut < 2 ^ 31) :
    (Cluster.run P.nid P.sock (callsOf P pre)).handedOut < 2 ^ 31 := by
  obtain ⟨mid, rfl⟩ := h
  rw [callsOf, List.filterMap_append] at hlt
  exact lt_of_le_of_lt (Cluster.handedOut_run_le P.nid P.sock _ _) hlt

/-- Two routers with a client each, and backends that return zero. -/
def twoRouters : Plan Bool Bool Unit where
  nid r := if r then 2 else 1
  sock _ := ⟨4, by decide⟩
  backend _ _ b := (⟨0, none, none, none⟩, b)
  home k := k
  cid _ := [0x61]

/-- A call by client `k` whose own system calls fail. -/
def plain (k : Bool) (c : ApiCall) : Invocation Bool where
  client := k
  call := .api c
  rsp₀ := Flat.zero 24
  out := ⟨0, 0, 0, 0⟩
  fd := none
  addr := none

/-- The client of router `true` joins. -/
def oneJoined : List (Invocation Bool) := [plain true (.join [0x61] 0 0)]

/-- Both clients join, under the same container id but on different routers. -/
def bothJoined : List (Invocation Bool) := oneJoined ++ [plain false (.join [0x61] 0 0)]

end Deployment

end Freelite
