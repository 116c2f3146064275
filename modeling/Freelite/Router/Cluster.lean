import Freelite.Router.Routing
import Freelite.Vcm.Registry

/-!
# A cluster: any number of routers and one manager

The routers have a nid each and a connection to the manager each; what runs on
them is a list of calls of `vcm_join`, `vcm_vid_nid` and `vcm_get_node_id`, one
atomic step a call, with an exchange that succeeds.  `run` is the state after such
a list and `history` the calls with the values they returned.

A call has one of five effects (`step_cases`): a join or a lookup is answered from
the router's own tables or from the manager, and `vcm_get_node_id` only reads.
Every invariant of the cluster is proved from that case distinction.

The manager's request log is not part of the program.  It records what the manager
has been asked, which is what "the vids handed out" are counted by.
-/

namespace Freelite

open Lib

/-- The managed routers, the manager, and the requests it has served. -/
structure Cluster (R : Type*) where
  routers : R → Routing
  vcm : Vcm
  /-- The requests served so far, oldest first. -/
  requests : List VcmMsg

/-- A call of one of the three public functions on router `r`. -/
inductive Call (R : Type*)
  | vcmJoin (r : R) (cid : Cid)
  | vcmVidNid (r : R) (vid : Int32)
  | vcmGetNodeId (r : R) (cid : Cid)
deriving DecidableEq

/-- The manager as the other side of a connection: it answers a request it knows
with a whole reply and closes the connection on any other. -/
def Vcm.peer : Peer (Vcm × List VcmMsg) := fun msg v ↦
  match v.1.handle msg with
  | some (rsp, s) => (.received (VcmMsg.codec.enc rsp), s, v.2 ++ [msg])
  | none => (.received [], v)

namespace Cluster

variable {R : Type*} [DecidableEq R]

/-- All routers connected and all tables empty. -/
def init (sock : R → Descriptor) : Cluster R where
  routers r := .start (sock r)
  vcm := .init
  requests := []

/-- One call: the value returned and the state after it. -/
def step (nid : R → Int32) (s : Cluster R) : Call R → Int32 × Cluster R
  | .vcmJoin r cid =>
      match Routing.vcmJoin Vcm.peer (nid r) cid (s.routers r) (s.vcm, s.requests) with
      | (ret, routing, vcm, requests) =>
          (ret, ⟨Function.update s.routers r routing, vcm, requests⟩)
  | .vcmVidNid r vid =>
      match Routing.vcmVidNid Vcm.peer vid (s.routers r) (s.vcm, s.requests) with
      | (ret, routing, vcm, requests) =>
          (ret, ⟨Function.update s.routers r routing, vcm, requests⟩)
  | .vcmGetNodeId r cid => (Routing.vcmGetNodeId cid (s.routers r), s)

/-- The state after a list of calls. -/
def runFrom (nid : R → Int32) (s : Cluster R) (calls : List (Call R)) : Cluster R :=
  calls.foldl (fun s c ↦ (step nid s c).2) s

/-- The calls of a list with the values they return. -/
def historyFrom (nid : R → Int32) (s : Cluster R) : List (Call R) → List (Call R × Int32)
  | [] => []
  | c :: calls => (c, (step nid s c).1) :: historyFrom nid (step nid s c).2 calls

/-- The state a run of calls reaches. -/
def run (nid : R → Int32) (sock : R → Descriptor) (calls : List (Call R)) : Cluster R :=
  runFrom nid (init sock) calls

/-- The calls of a run with the values they returned, oldest first. -/
def history (nid : R → Int32) (sock : R → Descriptor) (calls : List (Call R)) :
    List (Call R × Int32) :=
  historyFrom nid (init sock) calls

/-- How many vids the manager has handed out. -/
def handedOut (s : Cluster R) : Nat := s.requests.countP (·.funcCode = nidVid)

/-! ## Runs -/

section Runs

variable {nid : R → Int32} {sock : R → Descriptor}

@[simp] theorem run_nil : run nid sock [] = init sock := rfl

theorem run_concat (calls : List (Call R)) (c : Call R) :
    run nid sock (calls ++ [c]) = (step nid (run nid sock calls) c).2 := by
  simp [run, runFrom, List.foldl_append]

theorem historyFrom_append (s : Cluster R) (calls calls' : List (Call R)) :
    historyFrom nid s (calls ++ calls') =
      historyFrom nid s calls ++ historyFrom nid (runFrom nid s calls) calls' := by
  induction calls generalizing s with
  | nil => rfl
  | cons c calls ih => simp [historyFrom, runFrom, ih]

theorem history_concat (calls : List (Call R)) (c : Call R) :
    history nid sock (calls ++ [c]) =
      history nid sock calls ++ [(c, (step nid (run nid sock calls) c).1)] :=
  historyFrom_append _ _ _

end Runs

/-! ## The five effects of a call -/

/-- Every router still has its connection. -/
def Connected (s : Cluster R) : Prop := ∀ r, (s.routers r).clientSock ≠ -1

/-- The state after a join of `cid` on `r` that the manager has answered. -/
def joined (nid : R → Int32) (s : Cluster R) (r : R) (cid : Cid) : Cluster R where
  routers := Function.update s.routers r
    { s.routers r with
      cidVidMap := (s.routers r).cidVidMap.insert cid s.vcm.nextVid
      vidNidMapCache := (s.routers r).vidNidMapCache.insert s.vcm.nextVid (nid r) }
  vcm := (Vcm.getNewVid (nid r) s.vcm).2
  requests := s.requests ++ [⟨nidVid, nid r⟩]

/-- The state after a lookup of `vid` on `r` that the manager has answered. -/
def lookedUp (s : Cluster R) (r : R) (vid : Int32) : Cluster R where
  routers := Function.update s.routers r
    { s.routers r with
      vidNidMapCache := (s.routers r).vidNidMapCache.insert vid (s.vcm.getNidByVid vid) }
  vcm := s.vcm
  requests := s.requests ++ [⟨vidNid, vid⟩]

section Effects

variable {nid : R → Int32} {s : Cluster R}

theorem step_vcmJoin_known {r : R} {cid : Cid} {vid : Int32}
    (h : (s.routers r).cidVidMap.find cid = some vid) : step nid s (.vcmJoin r cid) = (vid, s) := by
  simp [step, Routing.vcmJoin_of_find h]

theorem step_vcmJoin_new (hs : s.Connected) {r : R} {cid : Cid}
    (h : (s.routers r).cidVidMap.find cid = none) :
    step nid s (.vcmJoin r cid) = (s.vcm.nextVid, s.joined nid r cid) := by
  have hp : Vcm.peer ⟨nidVid, nid r⟩ (s.vcm, s.requests) =
      (.received (VcmMsg.codec.enc ⟨nidVid, s.vcm.nextVid⟩),
        (Vcm.getNewVid (nid r) s.vcm).2, s.requests ++ [⟨nidVid, nid r⟩]) := by
    simp [Vcm.peer]
  simp [step, Routing.vcmJoin_of_reply h (hs r) hp, joined]

theorem step_vcmVidNid_cached {r : R} {vid n : Int32}
    (h : (s.routers r).vidNidMapCache.find vid = some n) :
    step nid s (.vcmVidNid r vid) = (n, s) := by
  simp [step, Routing.vcmVidNid_of_find h]

theorem step_vcmVidNid_new (hs : s.Connected) {r : R} {vid : Int32}
    (h : (s.routers r).vidNidMapCache.find vid = none) :
    step nid s (.vcmVidNid r vid) = (s.vcm.getNidByVid vid, s.lookedUp r vid) := by
  have hp : Vcm.peer ⟨vidNid, vid⟩ (s.vcm, s.requests) =
      (.received (VcmMsg.codec.enc ⟨vidNid, s.vcm.getNidByVid vid⟩),
        s.vcm, s.requests ++ [⟨vidNid, vid⟩]) := by
    simp [Vcm.peer]
  simp [step, Routing.vcmVidNid_of_reply h (hs r) hp, lookedUp]

/-- **What a call can do.**  A join returns the vid the router has noted, or the
manager's next one; a lookup returns the nid the router has cached, or the
manager's answer; `vcm_get_node_id` reads the router's note. -/
theorem step_cases (nid : R → Int32) (hs : s.Connected) (c : Call R) :
    (∃ r cid vid, c = .vcmJoin r cid ∧ (s.routers r).cidVidMap.find cid = some vid ∧
      step nid s c = (vid, s)) ∨
    (∃ r cid, c = .vcmJoin r cid ∧ (s.routers r).cidVidMap.find cid = none ∧
      step nid s c = (s.vcm.nextVid, s.joined nid r cid)) ∨
    (∃ r vid n, c = .vcmVidNid r vid ∧ (s.routers r).vidNidMapCache.find vid = some n ∧
      step nid s c = (n, s)) ∨
    (∃ r vid, c = .vcmVidNid r vid ∧ (s.routers r).vidNidMapCache.find vid = none ∧
      step nid s c = (s.vcm.getNidByVid vid, s.lookedUp r vid)) ∨
    (∃ r cid, c = .vcmGetNodeId r cid ∧
      step nid s c = (((s.routers r).cidVidMap.find cid).getD (-1), s)) := by
  cases c with
  | vcmJoin r cid =>
      cases h : (s.routers r).cidVidMap.find cid with
      | some vid => exact .inl ⟨r, cid, vid, rfl, h, step_vcmJoin_known h⟩
      | none => exact .inr (.inl ⟨r, cid, rfl, h, step_vcmJoin_new hs h⟩)
  | vcmVidNid r vid =>
      cases h : (s.routers r).vidNidMapCache.find vid with
      | some n => exact .inr (.inr (.inl ⟨r, vid, n, rfl, h, step_vcmVidNid_cached h⟩))
      | none => exact .inr (.inr (.inr (.inl ⟨r, vid, rfl, h, step_vcmVidNid_new hs h⟩)))
  | vcmGetNodeId r cid =>
      exact .inr (.inr (.inr (.inr ⟨r, cid, rfl, by
        simp [step, Routing.vcmGetNodeId_eq]⟩)))

end Effects

/-! ## What the effects change -/

section Changes

variable (nid : R → Int32) (s : Cluster R)

@[simp] theorem lookedUp_vcm (r : R) (vid : Int32) : (s.lookedUp r vid).vcm = s.vcm := rfl

@[simp] theorem joined_vcm (r : R) (cid : Cid) :
    (s.joined nid r cid).vcm = (Vcm.getNewVid (nid r) s.vcm).2 := rfl

@[simp] theorem joined_clientSock (r r' : R) (cid : Cid) :
    ((s.joined nid r cid).routers r').clientSock = (s.routers r').clientSock := by
  by_cases h : r' = r
  · subst h; simp [joined]
  · simp [joined, Function.update_of_ne h]

@[simp] theorem lookedUp_clientSock (r r' : R) (vid : Int32) :
    ((s.lookedUp r vid).routers r').clientSock = (s.routers r').clientSock := by
  by_cases h : r' = r
  · subst h; simp [lookedUp]
  · simp [lookedUp, Function.update_of_ne h]

/-- A lookup leaves the notes of joined containers alone. -/
@[simp] theorem lookedUp_cidVidMap (r r' : R) (vid : Int32) :
    ((s.lookedUp r vid).routers r').cidVidMap = (s.routers r').cidVidMap := by
  by_cases h : r' = r
  · subst h; simp [lookedUp]
  · simp [lookedUp, Function.update_of_ne h]

/-- A join adds one note. -/
theorem joined_cidVidMap {r : R} {cid : Cid} (h : (s.routers r).cidVidMap.find cid = none)
    (r' : R) (cid' : Cid) :
    ((s.joined nid r cid).routers r').cidVidMap.find cid' =
      if r' = r ∧ cid' = cid then some s.vcm.nextVid else (s.routers r').cidVidMap.find cid' := by
  by_cases hr : r' = r
  · subst hr
    simp [joined, UnorderedMap.find_insert_of_none h]
  · simp [joined, hr]

theorem joined_cache (r r' : R) (cid : Cid) :
    ((s.joined nid r cid).routers r').vidNidMapCache =
      if r' = r then (s.routers r).vidNidMapCache.insert s.vcm.nextVid (nid r)
      else (s.routers r').vidNidMapCache := by
  by_cases h : r' = r
  · subst h; simp [joined]
  · simp [joined, h]

theorem lookedUp_cache (r r' : R) (vid : Int32) :
    ((s.lookedUp r vid).routers r').vidNidMapCache =
      if r' = r then (s.routers r).vidNidMapCache.insert vid (s.vcm.getNidByVid vid)
      else (s.routers r').vidNidMapCache := by
  by_cases h : r' = r
  · subst h; simp [lookedUp]
  · simp [lookedUp, h]

end Changes

/-! ## What outlives a call -/

variable (nid : R → Int32)

/-- A router's note of a vid outlives any call. -/
theorem find_cidVidMap_mono {s : Cluster R} (hs : s.Connected) {r : R} {cid : Cid} {v : Int32}
    (h : (s.routers r).cidVidMap.find cid = some v) (c : Call R) :
    ((step nid s c).2.routers r).cidVidMap.find cid = some v := by
  obtain ⟨_, _, _, -, -, he⟩ | ⟨r', cid', -, hnew, he⟩ | ⟨_, _, _, -, -, he⟩ | ⟨_, _, -, -, he⟩ |
    ⟨_, _, -, he⟩ := step_cases nid hs c
  · rwa [he]
  · rw [he]
    change ((s.joined nid r' cid').routers r).cidVidMap.find cid = some v
    rw [joined_cidVidMap nid s hnew, if_neg, h]
    rintro ⟨rfl, rfl⟩
    rw [hnew] at h
    contradiction
  · rwa [he]
  · simpa [he] using h
  · rwa [he]

/-- A join returns the vid that is then in the router's notes. -/
theorem find_cidVidMap_vcmJoin {s : Cluster R} (hs : s.Connected) (r : R) (cid : Cid) :
    ((step nid s (.vcmJoin r cid)).2.routers r).cidVidMap.find cid =
      some (step nid s (.vcmJoin r cid)).1 := by
  cases h : (s.routers r).cidVidMap.find cid with
  | some vid => rw [step_vcmJoin_known h, h]
  | none => simp [step_vcmJoin_new hs h, joined_cidVidMap nid s h]

/-! ## No exchange fails, so no connection is dropped -/

omit [DecidableEq R] in
theorem connected_init (sock : R → Descriptor) : (init sock).Connected := fun r ↦ (sock r).2

theorem Connected.step {s : Cluster R} (hs : s.Connected) (c : Call R) :
    (step nid s c).2.Connected := by
  intro r
  obtain ⟨_, _, _, -, -, h⟩ | ⟨_, _, -, -, h⟩ | ⟨_, _, _, -, -, h⟩ | ⟨_, _, -, -, h⟩ |
    ⟨_, _, -, h⟩ := step_cases nid hs c
  all_goals simpa [h] using hs r

theorem connected_run (sock : R → Descriptor) (calls : List (Call R)) :
    (run nid sock calls).Connected := by
  induction calls using List.reverseRecOn with
  | nil => exact connected_init sock
  | append_singleton calls c ih =>
      rw [run_concat]
      exact ih.step nid c

end Cluster

end Freelite
