import Freelite.Lib.Simulation
import Freelite.Router.Lookups
import Freelite.Router.Untouched

/-!
# Managers that are started again

The manager keeps its counter and its table in memory: when its process ends and another
one is started, the counter begins anew and every vid is handed out again.  A router
connects to the manager once, in `main`, and never again.  So a router process belongs to
one manager process for ever; when that is gone its exchanges fail, or end with `recv`
returning zero, which `vcm_handler` takes for success.

Router processes and manager processes are numbered, since a process that is started again
has nothing of the one before it.  A process that has ended is one that does nothing any
more.

Up to the end of its manager a router is in an undisturbed cluster, namely that of the
routers of the same manager (`Coupled`).  After that its tables only get entries that repeat
the request (`Aged`).  No router ever mixes what two managers have told it, and all it makes
up itself are these repetitions (`own_manager`).
-/

namespace Freelite

open Lib Routing

/-- A call of a session on router `p`, as a call in a cluster. -/
def Routing.SessionCall.on {P : Type*} (p : P) : SessionCall → Call P
  | .vcmJoin cid => .vcmJoin p cid
  | .vcmVidNid vid => .vcmVidNid p vid
  | .vcmGetNodeId cid => .vcmGetNodeId p cid

namespace Restarts

variable {P : Type*}

/-- The routers `P` and the managers. -/
structure State (P : Type*) where
  /-- The manager process that is running. -/
  epoch : ℕ
  /-- The managers, as they are or were in the end, with the requests they have served. -/
  managers : ℕ → Vcm × List VcmMsg
  /-- The routers that have been started, each with the manager it is connected to. -/
  routers : P → Option (ℕ × Routing)
  /-- The calls and what they have returned, oldest first. -/
  returned : List (Call P × Int32)

inductive Act (P : Type*)
  /-- A router is started, and connects to the manager. -/
  | start (p : P)
  /-- The manager ends, and is started again. -/
  | restart
  /-- A call on a router.  If its manager is gone, this is how an exchange ends. -/
  | call (p : P) (o : SessionCall) (e : Ending)

/-- A call on a router that reaches its manager. -/
def reach (nid : Int32) : SessionCall → Routing → Vcm × List VcmMsg →
    Int32 × Routing × (Vcm × List VcmMsg)
  | .vcmJoin cid, r, v => r.vcmJoin Vcm.peer nid cid v
  | .vcmVidNid vid, r, v => r.vcmVidNid Vcm.peer vid v
  | .vcmGetNodeId cid, r, v => (r.vcmGetNodeId cid, r, v)

/-- Before anything is started but the first manager. -/
def init : State P := ⟨0, fun _ ↦ (.init, []), fun _ ↦ none, []⟩

section Steps

variable [DecidableEq P] (nid : P → Int32) (sock : P → Descriptor)

def next (s : State P) : Act P → Option (State P)
  | .start p =>
      match s.routers p with
      | none => some { s with
          routers := Function.update s.routers p (some (s.epoch, .start (sock p))) }
      | some _ => none
  | .restart => some { s with epoch := s.epoch + 1 }
  | .call p o e =>
      match s.routers p with
      | none => none
      | some (m, r) =>
          if m = s.epoch then
            match reach (nid p) o r (s.managers m) with
            | (ret, r', v) => some { s with
                managers := Function.update s.managers m v
                routers := Function.update s.routers p (some (m, r'))
                returned := s.returned ++ [(o.on p, ret)] }
          else
            match e with
            -- nobody is there to send one
            | .reply _ => none
            | e =>
                match o.through (nid p) e r with
                | (ret, r') => some { s with
                    routers := Function.update s.routers p (some (m, r'))
                    returned := s.returned ++ [(o.on p, ret)] }

/-- A run. -/
def run (acts : List (Act P)) : State P := Machine.run (next nid sock) init acts

end Steps

/-- The manager that a router is connected to. -/
def State.managerOf (s : State P) (p : P) : Option ℕ := (s.routers p).map Prod.fst

/-- The router's manager is gone. -/
def State.Orphan (s : State P) (p : P) : Prop := ∃ m, s.managerOf p = some m ∧ m ≠ s.epoch

/-- How many vids a manager has handed out. -/
def State.handedOut (s : State P) (m : ℕ) : ℕ := (s.managers m).2.countP (·.funcCode = nidVid)

/-- The calls that routers of a manager have made while it was running. -/
def heard (m : ℕ) (s : State P) : Act P → List (Call P)
  | .call p o _ => if s.managerOf p = some m ∧ s.epoch = m then [o.on p] else []
  | _ => []

/-- The calls that the routers of manager `m` have made while it was running. -/
def callsTo [DecidableEq P] (nid : P → Int32) (sock : P → Descriptor) (m : ℕ)
    (acts : List (Act P)) : List (Call P) :=
  Machine.image (next nid sock) (heard m) init acts

/-! ## What a step does -/

section Steps

variable [DecidableEq P] {nid : P → Int32} {sock : P → Descriptor}

/-- The steps: what leads to them, and the state after them. -/
inductive Step (nid : P → Int32) (sock : P → Descriptor) (s : State P) : Act P → State P → Prop
  | starts (p : P) : s.routers p = none →
      Step nid sock s (.start p) { s with
        routers := Function.update s.routers p (some (s.epoch, .start (sock p))) }
  | restarts : Step nid sock s .restart { s with epoch := s.epoch + 1 }
  /-- The router's manager is there. -/
  | reaches (p : P) (o : SessionCall) (e : Ending) (r r' : Routing) (ret : Int32)
      (v : Vcm × List VcmMsg) : s.routers p = some (s.epoch, r) →
      reach (nid p) o r (s.managers s.epoch) = (ret, r', v) →
      Step nid sock s (.call p o e) { s with
        managers := Function.update s.managers s.epoch v
        routers := Function.update s.routers p (some (s.epoch, r'))
        returned := s.returned ++ [(o.on p, ret)] }
  /-- It is gone. -/
  | misses (p : P) (o : SessionCall) (e : Ending) (m : ℕ) (r r' : Routing) (ret : Int32) :
      s.routers p = some (m, r) → m ≠ s.epoch → (∀ rsp, e ≠ .reply rsp) →
      o.through (nid p) e r = (ret, r') →
      Step nid sock s (.call p o e) { s with
        routers := Function.update s.routers p (some (m, r'))
        returned := s.returned ++ [(o.on p, ret)] }

theorem step_of_next {s s' : State P} {a : Act P} (h : next nid sock s a = some s') :
    Step nid sock s a s' := by
  cases a with
  | start p =>
      rw [next] at h
      split at h
      case h_1 hp =>
        obtain rfl := Option.some_inj.mp h
        exact .starts p hp
      case h_2 => contradiction
  | restart =>
      obtain rfl := Option.some_inj.mp h
      exact .restarts
  | call p o e =>
      rw [next] at h
      split at h
      case h_1 => contradiction
      case h_2 m r hp =>
        split_ifs at h with hm
        · subst hm
          obtain rfl := Option.some_inj.mp h
          exact .reaches p o e r _ _ _ hp rfl
        · split at h
          case h_1 => contradiction
          case h_2 hne =>
            obtain rfl := Option.some_inj.mp h
            exact .misses p o e m r _ _ hp hm hne rfl

end Steps

/-! ## What a call does to the tables -/

/-- The effect of a call: it is answered from a table, or fails, or enters an id that it
takes for the manager's. -/
inductive Effect (nid : Int32) (o : SessionCall) (r : Routing) : Int32 → Routing → Prop
  | known (ret : Int32) : o.lookup r = some ret → Effect nid o r ret r
  | fails (r' : Routing) : o.lookup r = none → r'.cidVidMap = r.cidVidMap →
      r'.vidNidMapCache = r.vidNidMapCache → Effect nid o r (-1) r'
  | notes (id : Int32) : o.lookup r = none → Effect nid o r id (o.note nid id r)

section Effects

variable {n : Int32} {o : SessionCall} {r r' : Routing} {ret : Int32}

/-- The manager answers every request of a router. -/
theorem reach_cases (n : Int32) (o : SessionCall) (hr : r.clientSock ≠ -1)
    (v : Vcm × List VcmMsg) :
    (∃ ret, o.lookup r = some ret ∧ reach n o r v = (ret, r, v)) ∨
      o.lookup r = none ∧ ∃ id v', reach n o r v = (id, o.note n id r, v') := by
  obtain ⟨vcm, requests⟩ := v
  cases o with
  | vcmJoin cid =>
      cases hfind : r.cidVidMap.find cid with
      | some vid => exact .inl ⟨vid, hfind, by rw [reach, vcmJoin_of_find hfind]⟩
      | none =>
          have hp : Vcm.peer ⟨nidVid, n⟩ (vcm, requests) =
              (.received (VcmMsg.codec.enc ⟨nidVid, vcm.nextVid⟩),
                (Vcm.getNewVid n vcm).2, requests ++ [⟨nidVid, n⟩]) := by simp [Vcm.peer]
          refine .inr ⟨hfind, vcm.nextVid,
            ((Vcm.getNewVid n vcm).2, requests ++ [⟨nidVid, n⟩]), ?_⟩
          rw [reach, vcmJoin_of_reply hfind hr hp]
          simp only [SessionCall.note]
  | vcmVidNid vid =>
      cases hfind : r.vidNidMapCache.find vid with
      | some nid => exact .inl ⟨nid, hfind, by rw [reach, vcmVidNid_of_find hfind]⟩
      | none =>
          have hp : Vcm.peer ⟨vidNid, vid⟩ (vcm, requests) =
              (.received (VcmMsg.codec.enc ⟨vidNid, vcm.getNidByVid vid⟩), vcm,
                requests ++ [⟨vidNid, vid⟩]) := by simp [Vcm.peer]
          refine .inr ⟨hfind, vcm.getNidByVid vid, (vcm, requests ++ [⟨vidNid, vid⟩]), ?_⟩
          rw [reach, vcmVidNid_of_reply hfind hr hp]
          simp only [SessionCall.note]
  | vcmGetNodeId cid => exact .inl ⟨_, rfl, rfl⟩

theorem effect_of_reach {v v' : Vcm × List VcmMsg} (hr : r.clientSock ≠ -1)
    (h : reach n o r v = (ret, r', v')) : Effect n o r ret r' := by
  obtain ⟨ret', hl, he⟩ | ⟨hl, id, w, he⟩ := reach_cases n o hr v
  · rw [he, Prod.mk_inj, Prod.mk_inj] at h
    obtain ⟨rfl, rfl, -⟩ := h
    exact .known _ hl
  · rw [he, Prod.mk_inj, Prod.mk_inj] at h
    obtain ⟨rfl, rfl, -⟩ := h
    exact .notes _ hl

theorem effect_of_through {e : Ending} (h : o.through n e r = (ret, r')) : Effect n o r ret r' := by
  obtain ⟨ret', hl, he⟩ | ⟨hfail, -, he | he⟩ | ⟨rsp, hasks, -, he⟩ | ⟨hasks, -, he⟩ :=
    SessionCall.through_cases n e o r <;> rw [he, Prod.mk_inj] at h <;> obtain ⟨rfl, rfl⟩ := h
  · exact .known _ hl
  · exact .fails _ hfail.1 rfl rfl
  · exact .fails _ hfail.1 rfl rfl
  · exact .notes _ hasks.1
  · exact .notes _ hasks.1

namespace Effect

/-- What is in the tables stays there. -/
theorem find_mono (h : Effect n o r ret r') :
    (∀ cid v, r.cidVidMap.find cid = some v → r'.cidVidMap.find cid = some v) ∧
      ∀ v m, r.vidNidMapCache.find v = some m → r'.vidNidMapCache.find v = some m := by
  cases h with
  | known ret hl => exact ⟨fun _ _ h ↦ h, fun _ _ h ↦ h⟩
  | fails r' hl hcid hcache =>
      rw [hcid, hcache]
      exact ⟨fun _ _ h ↦ h, fun _ _ h ↦ h⟩
  | notes id hl =>
      cases o with
      | vcmJoin cid =>
          exact ⟨fun _ _ h ↦ UnorderedMap.find_mono h _ _, fun _ _ h ↦ UnorderedMap.find_mono h _ _⟩
      | vcmVidNid vid => exact ⟨fun _ _ h ↦ h, fun _ _ h ↦ UnorderedMap.find_mono h _ _⟩
      | vcmGetNodeId cid => contradiction

/-- What a join returns is in the table, unless it is the error value. -/
theorem find_of_join {cid : Cid} (h : Effect n (.vcmJoin cid) r ret r') :
    ret = -1 ∨ r'.cidVidMap.find cid = some ret := by
  cases h with
  | known ret hl => exact .inr hl
  | fails r' hl hcid hcache => exact .inl rfl
  | notes id hl =>
      refine .inr ?_
      change (r.cidVidMap.insert cid ret).find cid = some ret
      rw [UnorderedMap.find_insert_self, show r.cidVidMap.find cid = none from hl]
      rfl

/-- So is what a lookup returns. -/
theorem find_of_lookup {v : Int32} (h : Effect n (.vcmVidNid v) r ret r') :
    ret = -1 ∨ r'.vidNidMapCache.find v = some ret := by
  cases h with
  | known ret hl => exact .inr hl
  | fails r' hl hcid hcache => exact .inl rfl
  | notes id hl =>
      refine .inr ?_
      change (r.vidNidMapCache.insert v ret).find v = some ret
      rw [UnorderedMap.find_insert_self, show r.vidNidMapCache.find v = none from hl]
      rfl

/-- A new note of a container is what its join returns. -/
theorem join_of_find (h : Effect n o r ret r') {cid : Cid} {v : Int32}
    (hfind : r'.cidVidMap.find cid = some v) :
    r.cidVidMap.find cid = some v ∨ o = .vcmJoin cid ∧ ret = v := by
  cases h with
  | known ret hl => exact .inl hfind
  | fails r' hl hcid hcache => exact .inl (hcid ▸ hfind)
  | notes id hl =>
      cases o with
      | vcmJoin cid' =>
          rcases UnorderedMap.find_insert_iff.mp hfind with hold | ⟨rfl, -, rfl⟩
          · exact .inl hold
          · exact .inr ⟨rfl, rfl⟩
      | vcmVidNid vid => exact .inl hfind
      | vcmGetNodeId cid => contradiction

end Effect

end Effects

/-! ## What the routers have noted -/

section Kept

variable [DecidableEq P] {nid : P → Int32} {sock : P → Descriptor} {s s' : State P} {a : Act P}

/-- Every router belongs to a manager that has been started, is connected to it if it is
still there, and has noted exactly what its joins have returned; what its lookups have
returned is in its cache. -/
structure Kept (s : State P) : Prop where
  le_epoch : ∀ {p m r}, s.routers p = some (m, r) → m ≤ s.epoch
  connected : ∀ {p r}, s.routers p = some (s.epoch, r) → r.clientSock ≠ -1
  joins : ∀ {p cid v}, (Call.vcmJoin p cid, v) ∈ s.returned →
    v = -1 ∨ ∃ m r, s.routers p = some (m, r) ∧ r.cidVidMap.find cid = some v
  lookups : ∀ {p v n}, (Call.vcmVidNid p v, n) ∈ s.returned →
    n = -1 ∨ ∃ m r, s.routers p = some (m, r) ∧ r.vidNidMapCache.find v = some n
  noted : ∀ {p m r cid v}, s.routers p = some (m, r) → r.cidVidMap.find cid = some v →
    (Call.vcmJoin p cid, v) ∈ s.returned

omit [DecidableEq P] in
theorem kept_init : Kept (init : State P) where
  le_epoch h := by contradiction
  connected h := by contradiction
  joins h := absurd h List.not_mem_nil
  lookups h := absurd h List.not_mem_nil
  noted h := by contradiction

theorem clientSock_note (n id : Int32) (o : SessionCall) (r : Routing) :
    (o.note n id r).clientSock = r.clientSock := by
  cases o <;> rfl

namespace Kept

/-- A call that has one of its effects. -/
theorem call (h : Kept s) {p : P} {o : SessionCall} {m : ℕ} {r r' : Routing} {n ret : Int32}
    (hp : s.routers p = some (m, r)) (he : Effect n o r ret r')
    (hsock : m = s.epoch → r'.clientSock ≠ -1) (managers : ℕ → Vcm × List VcmMsg) :
    Kept { s with
      managers
      routers := Function.update s.routers p (some (m, r'))
      returned := s.returned ++ [(o.on p, ret)] } := by
  have hself : Function.update s.routers p (some (m, r')) p = some (m, r') :=
    Function.update_self ..
  -- what has been in a table before is there after the call
  have hold (q : P) {m' : ℕ} {x : Routing} (hq : s.routers q = some (m', x)) :
      ∃ x', Function.update s.routers p (some (m, r')) q = some (m', x') ∧
        (∀ cid v, x.cidVidMap.find cid = some v → x'.cidVidMap.find cid = some v) ∧
        ∀ v k, x.vidNidMapCache.find v = some k → x'.vidNidMapCache.find v = some k := by
    rcases eq_or_ne q p with rfl | hne
    · rw [hp, Option.some_inj, Prod.mk_inj] at hq
      obtain ⟨rfl, rfl⟩ := hq
      exact ⟨r', hself, he.find_mono⟩
    · exact ⟨x, by rw [Function.update_of_ne hne, hq], fun _ _ h ↦ h, fun _ _ h ↦ h⟩
  -- and where a router comes from
  have hback {q : P} {m' : ℕ} {x' : Routing}
      (hq : Function.update s.routers p (some (m, r')) q = some (m', x')) :
      q = p ∧ m' = m ∧ x' = r' ∨ s.routers q = some (m', x') := by
    rcases eq_or_ne q p with rfl | hne
    · rw [hself, Option.some_inj, Prod.mk_inj] at hq
      exact .inl ⟨rfl, hq.1.symm, hq.2.symm⟩
    · exact .inr (by rwa [Function.update_of_ne hne] at hq)
  constructor
  · intro q m' x' hq
    rcases hback hq with ⟨-, rfl, -⟩ | hq
    · exact h.le_epoch hp
    · exact h.le_epoch hq
  · intro q x' hq
    rcases hback hq with ⟨-, hm, rfl⟩ | hq
    · exact hsock hm.symm
    · exact h.connected hq
  · intro q cid v hmem
    rcases List.mem_append.mp hmem with hmem | hmem
    · rcases h.joins hmem with hv | ⟨m', x, hq, hfind⟩
      · exact .inl hv
      · obtain ⟨x', hq', hcid, -⟩ := hold q hq
        exact .inr ⟨m', x', hq', hcid cid v hfind⟩
    · obtain ⟨hon, rfl⟩ := Prod.mk.inj (List.mem_singleton.mp hmem)
      cases o with
      | vcmJoin cid' =>
          obtain ⟨rfl, rfl⟩ := Call.vcmJoin.inj hon
          exact he.find_of_join.imp_right fun hfind ↦ ⟨m, r', hself, hfind⟩
      | vcmVidNid vid => contradiction
      | vcmGetNodeId cid' => contradiction
  · intro q v k hmem
    rcases List.mem_append.mp hmem with hmem | hmem
    · rcases h.lookups hmem with hk | ⟨m', x, hq, hfind⟩
      · exact .inl hk
      · obtain ⟨x', hq', -, hcache⟩ := hold q hq
        exact .inr ⟨m', x', hq', hcache v k hfind⟩
    · obtain ⟨hon, rfl⟩ := Prod.mk.inj (List.mem_singleton.mp hmem)
      cases o with
      | vcmJoin cid' => contradiction
      | vcmVidNid vid =>
          obtain ⟨rfl, rfl⟩ := Call.vcmVidNid.inj hon
          exact he.find_of_lookup.imp_right fun hfind ↦ ⟨m, r', hself, hfind⟩
      | vcmGetNodeId cid' => contradiction
  · intro q m' x' cid v hq hfind
    refine List.mem_append.mpr ?_
    rcases hback hq with ⟨rfl, rfl, rfl⟩ | hq
    · rcases he.join_of_find hfind with hfind | ⟨rfl, rfl⟩
      · exact .inl (h.noted hp hfind)
      · exact .inr (List.mem_singleton.mpr rfl)
    · exact .inl (h.noted hq hfind)

theorem start (h : Kept s) {p : P} (hp : s.routers p = none) :
    Kept { s with
      routers := Function.update s.routers p (some (s.epoch, .start (sock p))) } := by
  have hold (q : P) {x : ℕ × Routing} (hq : s.routers q = some x) :
      Function.update s.routers p (some (s.epoch, .start (sock p))) q = some x := by
    rw [Function.update_of_ne, hq]
    rintro rfl
    rw [hp] at hq
    contradiction
  have hback {q : P} {m : ℕ} {x : Routing}
      (hq : Function.update s.routers p (some (s.epoch, .start (sock p))) q = some (m, x)) :
      m = s.epoch ∧ x = .start (sock p) ∨ s.routers q = some (m, x) := by
    rcases eq_or_ne q p with rfl | hne
    · rw [Function.update_self, Option.some_inj, Prod.mk_inj] at hq
      exact .inl ⟨hq.1.symm, hq.2.symm⟩
    · exact .inr (by rwa [Function.update_of_ne hne] at hq)
  constructor
  · intro q m x hq
    rcases hback hq with ⟨rfl, -⟩ | hq
    · exact le_rfl
    · exact h.le_epoch hq
  · intro q x hq
    rcases hback hq with ⟨-, rfl⟩ | hq
    · exact (sock p).2
    · exact h.connected hq
  · intro q cid v hmem
    refine (h.joins hmem).imp_right ?_
    rintro ⟨m, x, hq, hfind⟩
    exact ⟨m, x, hold q hq, hfind⟩
  · intro q v k hmem
    refine (h.lookups hmem).imp_right ?_
    rintro ⟨m, x, hq, hfind⟩
    exact ⟨m, x, hold q hq, hfind⟩
  · intro q m x cid v hq hfind
    rcases hback hq with ⟨-, rfl⟩ | hq
    · contradiction
    · exact h.noted hq hfind

omit [DecidableEq P] in
theorem restart (h : Kept s) : Kept { s with epoch := s.epoch + 1 } where
  le_epoch hq := (h.le_epoch hq).trans (Nat.le_succ _)
  connected hq := absurd (h.le_epoch hq) (Nat.not_succ_le_self _)
  joins := h.joins
  lookups := h.lookups
  noted := h.noted

end Kept

theorem Step.kept (h : Step nid sock s a s') (hs : Kept s) : Kept s' := by
  cases h with
  | starts p hp => exact hs.start hp
  | restarts => exact hs.restart
  | reaches p o e r r' ret v hp hreach =>
      have hr := hs.connected hp
      refine hs.call hp (effect_of_reach hr hreach) (fun _ ↦ ?_) _
      obtain ⟨ret', -, he⟩ | ⟨-, id, w, he⟩ := reach_cases (nid p) o hr (s.managers s.epoch)
      · rw [he, Prod.mk_inj, Prod.mk_inj] at hreach
        rwa [← hreach.2.1]
      · rw [he, Prod.mk_inj, Prod.mk_inj] at hreach
        rwa [← hreach.2.1, clientSock_note]
  | misses p o e m r r' ret hp hm he hthrough =>
      exact hs.call hp (effect_of_through hthrough) (fun hm' ↦ absurd hm' hm) _

theorem kept_run (acts : List (Act P)) : Kept (run nid sock acts) :=
  Machine.run_induction acts kept_init fun _ _ _ hs h ↦ (step_of_next h).kept hs

end Kept

/-! ## The cluster of a manager -/

/-- The tables of a router whose manager is gone, compared with those of `c`: they have
the same entries, and others in which a request has been taken for its reply. -/
structure Aged (nid : Int32) (r c : Routing) : Prop where
  notes : ∀ cid, r.cidVidMap.find cid = c.cidVidMap.find cid ∨
    c.cidVidMap.find cid = none ∧ r.cidVidMap.find cid = some nid
  cache : ∀ v, r.vidNidMapCache.find v = c.vidNidMapCache.find v ∨
    c.vidNidMapCache.find v = none ∧ r.vidNidMapCache.find v = some v

namespace Aged

variable {n : Int32} {r r' c : Routing}

theorem refl (n : Int32) (r : Routing) : Aged n r r := ⟨fun _ ↦ .inl rfl, fun _ ↦ .inl rfl⟩

theorem of_tables (h : Aged n r c) (hcid : r'.cidVidMap = r.cidVidMap)
    (hcache : r'.vidNidMapCache = r.vidNidMapCache) : Aged n r' c := by
  constructor
  · rw [hcid]
    exact h.notes
  · rw [hcache]
    exact h.cache

/-- A table that gets an entry which says nothing new. -/
theorem insert_cases {κ : Type*} [DecidableEq κ] {f g : UnorderedMap κ Int32} {d : κ → Int32}
    (h : ∀ k, f.find k = g.find k ∨ g.find k = none ∧ f.find k = some (d k)) (k : κ) :
    ∀ k', (f.insert k (d k)).find k' = g.find k' ∨
      g.find k' = none ∧ (f.insert k (d k)).find k' = some (d k') := by
  intro k'
  cases hf : f.find k with
  | some w =>
      rw [UnorderedMap.insert_of_find hf]
      exact h k'
  | none =>
      rw [UnorderedMap.find_insert_of_none hf]
      split_ifs with hk
      · subst hk
        refine .inr ⟨?_, rfl⟩
        rcases h k' with heq | ⟨hnone, -⟩
        · rw [← heq, hf]
        · exact hnone
      · exact h k'

/-- An exchange with nobody on the other side. -/
theorem through (h : Aged n r c) {o : SessionCall} {e : Ending} {ret : Int32}
    (he : ∀ rsp, e ≠ .reply rsp) (hr : o.through n e r = (ret, r')) : Aged n r' c := by
  obtain ⟨ret', -, ht⟩ | ⟨-, -, ht | ht⟩ | ⟨rsp, -, he', -⟩ | ⟨-, -, ht⟩ :=
    SessionCall.through_cases n e o r
  · rw [ht, Prod.mk_inj] at hr
    obtain ⟨-, rfl⟩ := hr
    exact h
  · rw [ht, Prod.mk_inj] at hr
    obtain ⟨-, rfl⟩ := hr
    exact h
  · rw [ht, Prod.mk_inj] at hr
    obtain ⟨-, rfl⟩ := hr
    exact h.of_tables rfl rfl
  · exact absurd he' (he rsp)
  · rw [ht, Prod.mk_inj] at hr
    obtain ⟨-, rfl⟩ := hr
    cases o with
    | vcmJoin cid =>
        exact ⟨insert_cases (d := fun _ ↦ n) h.notes cid, insert_cases (d := id) h.cache n⟩
    | vcmVidNid vid => exact ⟨h.notes, insert_cases (d := id) h.cache vid⟩
    | vcmGetNodeId cid => exact h

end Aged

section Coupled

variable [DecidableEq P] {nid : P → Int32} {sock : P → Descriptor} {s s' : State P} {a : Act P}
  {m : ℕ} {calls : List (Call P)}

/-- The routers of manager `m`, as they would be in a cluster in which these calls have
been made. -/
structure Coupled (nid : P → Int32) (sock : P → Descriptor) (m : ℕ) (s : State P)
    (calls : List (Call P)) : Prop where
  manager : s.managers m =
    ((Cluster.run nid sock calls).vcm, (Cluster.run nid sock calls).requests)
  others : ∀ p, s.managerOf p ≠ some m →
    (Cluster.run nid sock calls).routers p = .start (sock p)
  same : ∀ {p r}, s.routers p = some (m, r) → m = s.epoch →
    r = (Cluster.run nid sock calls).routers p
  aged : ∀ {p r}, s.routers p = some (m, r) →
    Aged (nid p) r ((Cluster.run nid sock calls).routers p)

/-- A call in a cluster is the call of its router. -/
theorem step_on (C : Cluster P) (p : P) (o : SessionCall) {ret : Int32} {r : Routing}
    {v : Vcm × List VcmMsg} (h : reach (nid p) o (C.routers p) (C.vcm, C.requests) = (ret, r, v)) :
    Cluster.step nid C (o.on p) = (ret, ⟨Function.update C.routers p r, v.1, v.2⟩) := by
  cases o with
  | vcmJoin cid =>
      rw [reach] at h
      simp only [SessionCall.on, Cluster.step, h]
  | vcmVidNid vid =>
      rw [reach] at h
      simp only [SessionCall.on, Cluster.step, h]
  | vcmGetNodeId cid =>
      rw [reach, Prod.mk_inj, Prod.mk_inj] at h
      obtain ⟨rfl, rfl, rfl⟩ := h
      simp only [SessionCall.on, Cluster.step, Function.update_eq_self]

theorem coupled_init (nid : P → Int32) (sock : P → Descriptor) (m : ℕ) :
    Coupled nid sock m init [] where
  manager := rfl
  others _ _ := rfl
  same h := by contradiction
  aged h := by contradiction

/-- Where a router comes from when one of them has changed. -/
theorem routers_update {p q : P} {k : ℕ} {x y : Routing}
    (h : Function.update s.routers p (some (k, x)) q = some (m, y)) :
    q = p ∧ m = k ∧ y = x ∨ q ≠ p ∧ s.routers q = some (m, y) := by
  rcases eq_or_ne q p with rfl | hne
  · rw [Function.update_self, Option.some_inj, Prod.mk_inj] at h
    exact .inl ⟨rfl, h.1.symm, h.2.symm⟩
  · exact .inr ⟨hne, by rwa [Function.update_of_ne hne] at h⟩

namespace Coupled

theorem start (hs : Coupled nid sock m s calls) {p : P} (hp : s.routers p = none) :
    Coupled nid sock m { s with
      routers := Function.update s.routers p (some (s.epoch, .start (sock p))) } calls := by
  have hnew : (Cluster.run nid sock calls).routers p = .start (sock p) :=
    hs.others p (by simp [State.managerOf, hp])
  refine ⟨hs.manager, fun q hq ↦ ?_, fun {q r} hq hm ↦ ?_, fun {q r} hq ↦ ?_⟩
  · rcases eq_or_ne q p with rfl | hne
    · exact hnew
    · refine hs.others q fun h ↦ hq ?_
      simpa [State.managerOf, Function.update_of_ne hne] using h
  · rcases routers_update hq with ⟨rfl, -, rfl⟩ | ⟨-, hq⟩
    · exact hnew.symm
    · exact hs.same hq hm
  · rcases routers_update hq with ⟨rfl, -, rfl⟩ | ⟨-, hq⟩
    · rw [hnew]
      exact .refl _ _
    · exact hs.aged hq

/-- A call of a router of this manager, while it is there. -/
theorem reach (hs : Coupled nid sock s.epoch s calls) {p : P} {o : SessionCall} {r r' : Routing}
    {ret : Int32} {v : Vcm × List VcmMsg} (hp : s.routers p = some (s.epoch, r))
    (hr : reach (nid p) o r (s.managers s.epoch) = (ret, r', v)) :
    Coupled nid sock s.epoch { s with
      managers := Function.update s.managers s.epoch v
      routers := Function.update s.routers p (some (s.epoch, r'))
      returned := s.returned ++ [(o.on p, ret)] } (calls ++ [o.on p]) := by
  rw [hs.manager, hs.same hp rfl] at hr
  have hrun : Cluster.run nid sock (calls ++ [o.on p]) =
      ⟨Function.update (Cluster.run nid sock calls).routers p r', v.1, v.2⟩ := by
    rw [Cluster.run_concat, step_on _ p o hr]
  have hself : (Cluster.run nid sock (calls ++ [o.on p])).routers p = r' := by
    rw [hrun]
    exact Function.update_self ..
  have hother {q : P} (hne : q ≠ p) : (Cluster.run nid sock (calls ++ [o.on p])).routers q =
      (Cluster.run nid sock calls).routers q := by
    rw [hrun]
    exact Function.update_of_ne hne _ _
  constructor
  · rw [hrun]
    exact Function.update_self ..
  · intro q hq
    rcases eq_or_ne q p with rfl | hne
    · simp [State.managerOf] at hq
    · rw [hother hne]
      refine hs.others q fun h ↦ hq ?_
      simpa [State.managerOf, Function.update_of_ne hne] using h
  · intro q x hq _
    rcases routers_update hq with ⟨rfl, -, rfl⟩ | ⟨hne, hq⟩
    · exact hself.symm
    · rw [hother hne]
      exact hs.same hq rfl
  · intro q x hq
    rcases routers_update hq with ⟨rfl, -, rfl⟩ | ⟨hne, hq⟩
    · rw [hself]
      exact .refl _ _
    · rw [hother hne]
      exact hs.aged hq

/-- Any other call. -/
theorem call (hs : Coupled nid sock m s calls) {p : P} {k : ℕ} {r r' : Routing}
    (hp : s.routers p = some (k, r)) {managers : ℕ → Vcm × List VcmMsg}
    (hmanagers : managers m = s.managers m)
    (hr : k = m → k ≠ s.epoch ∧ Aged (nid p) r' ((Cluster.run nid sock calls).routers p))
    (returned : List (Call P × Int32)) :
    Coupled nid sock m { s with
      managers, returned
      routers := Function.update s.routers p (some (k, r')) } calls := by
  refine ⟨hmanagers.trans hs.manager, fun q hq ↦ hs.others q fun h ↦ hq ?_,
    fun {q x} hq hm ↦ ?_, fun {q x} hq ↦ ?_⟩
  · rcases eq_or_ne q p with rfl | hne
    · simpa [State.managerOf, hp] using h
    · simpa [State.managerOf, Function.update_of_ne hne] using h
  · rcases routers_update hq with ⟨rfl, rfl, -⟩ | ⟨-, hq⟩
    · exact absurd hm (hr rfl).1
    · exact hs.same hq hm
  · rcases routers_update hq with ⟨rfl, rfl, rfl⟩ | ⟨-, hq⟩
    · exact (hr rfl).2
    · exact hs.aged hq

end Coupled

theorem Step.coupled (h : Step nid sock s a s') (hk : Kept s) (hs : Coupled nid sock m s calls) :
    Coupled nid sock m s' (calls ++ heard m s a) := by
  cases h with
  | starts p hp =>
      change Coupled nid sock m _ (calls ++ [])
      rw [List.append_nil]
      exact hs.start hp
  | restarts =>
      change Coupled nid sock m _ (calls ++ [])
      rw [List.append_nil]
      refine ⟨hs.manager, hs.others, fun hp hm ↦ ?_, hs.aged⟩
      subst hm
      exact absurd (hk.le_epoch hp) (Nat.not_succ_le_self _)
  | reaches p o e r r' ret v hp hr =>
      by_cases hm : s.epoch = m
      · subst hm
        rw [heard, if_pos ⟨by rw [State.managerOf, hp]; rfl, rfl⟩]
        exact hs.reach hp hr
      · rw [heard, if_neg fun h ↦ hm h.2, List.append_nil]
        exact hs.call hp (Function.update_of_ne (Ne.symm hm) _ _) (fun h ↦ absurd h hm) _
  | misses p o e k r r' ret hp hm he hr =>
      have hnot : ¬ (s.managerOf p = some m ∧ s.epoch = m) := by
        rintro ⟨hof, rfl⟩
        rw [State.managerOf, hp] at hof
        exact hm (Option.some_inj.mp hof)
      rw [heard, if_neg hnot, List.append_nil]
      refine hs.call hp rfl (fun hkm ↦ ⟨hm, ?_⟩) _
      subst hkm
      exact (hs.aged hp).through he hr

theorem coupled_run (nid : P → Int32) (sock : P → Descriptor) (m : ℕ) (acts : List (Act P)) :
    Coupled nid sock m (run nid sock acts) (callsTo nid sock m acts) := by
  have hboth : Kept (run nid sock acts) ∧
      Coupled nid sock m (run nid sock acts) (callsTo nid sock m acts) :=
    Machine.image_induction (P := fun s calls ↦ Kept s ∧ Coupled nid sock m s calls) acts
      ⟨kept_init, coupled_init nid sock m⟩ fun s calls a s' _ hs h ↦
        ⟨(step_of_next h).kept hs.1, (step_of_next h).coupled hs.1 hs.2⟩
  exact hboth.2

end Coupled

/-! ## What the routers have been told -/

section Told

variable [DecidableEq P] {nid : P → Int32} {sock : P → Descriptor} {acts : List (Act P)}
  {m : ℕ} {p : P}

/-- The vid that a join has returned comes from the router's manager, or else is the nid
that has been sent to it after its end. -/
theorem note_of_join {cid : Cid} {v : Int32}
    (h : (Call.vcmJoin p cid, v) ∈ (run nid sock acts).returned) (hv : v ≠ -1) :
    ∃ m, (run nid sock acts).managerOf p = some m ∧
      (((Cluster.run nid sock (callsTo nid sock m acts)).routers p).cidVidMap.find cid = some v ∨
        m ≠ (run nid sock acts).epoch ∧ v = nid p) := by
  obtain ⟨m, r, hp, hfind⟩ := ((kept_run acts).joins h).resolve_left hv
  have hs := coupled_run nid sock m acts
  refine ⟨m, by rw [State.managerOf, hp]; rfl, ?_⟩
  rcases (hs.aged hp).notes cid with heq | ⟨hnone, hecho⟩
  · exact .inl (heq ▸ hfind)
  · refine .inr ⟨fun hm ↦ ?_, ?_⟩
    · rw [← hs.same hp hm, hfind] at hnone
      contradiction
    · exact Option.some_inj.mp (hfind.symm.trans hecho)

/-- So does the nid that a lookup has returned. -/
theorem entry_of_lookup {v n : Int32}
    (h : (Call.vcmVidNid p v, n) ∈ (run nid sock acts).returned) (hn : n ≠ -1) :
    ∃ m, (run nid sock acts).managerOf p = some m ∧
      (((Cluster.run nid sock (callsTo nid sock m acts)).routers p).vidNidMapCache.find v =
          some n ∨
        m ≠ (run nid sock acts).epoch ∧ n = v) := by
  obtain ⟨m, r, hp, hfind⟩ := ((kept_run acts).lookups h).resolve_left hn
  have hs := coupled_run nid sock m acts
  refine ⟨m, by rw [State.managerOf, hp]; rfl, ?_⟩
  rcases (hs.aged hp).cache v with heq | ⟨hnone, hecho⟩
  · exact .inl (heq ▸ hfind)
  · refine .inr ⟨fun hm ↦ ?_, ?_⟩
    · rw [← hs.same hp hm, hfind] at hnone
      contradiction
    · exact Option.some_inj.mp (hfind.symm.trans hecho)

/-- What a router has noted in the cluster of a manager, a join has returned. -/
theorem mem_returned_of_note {cid : Cid} {v : Int32}
    (h : ((Cluster.run nid sock (callsTo nid sock m acts)).routers p).cidVidMap.find cid = some v) :
    (Call.vcmJoin p cid, v) ∈ (run nid sock acts).returned ∧
      (run nid sock acts).managerOf p = some m := by
  have hs := coupled_run nid sock m acts
  by_cases hof : (run nid sock acts).managerOf p = some m
  · obtain ⟨⟨m', r⟩, hp, rfl⟩ := Option.map_eq_some_iff.mp hof
    refine ⟨(kept_run acts).noted hp ?_, hof⟩
    rcases (hs.aged hp).notes cid with heq | ⟨hnone, -⟩
    · exact heq.trans h
    · rw [h] at hnone
      contradiction
  · rw [hs.others p hof] at h
    contradiction

theorem handedOut_callsTo
    (hlt : ∀ m ≤ (run nid sock acts).epoch, (run nid sock acts).handedOut m < 2 ^ 31)
    (hm : (run nid sock acts).managerOf p = some m) :
    (Cluster.run nid sock (callsTo nid sock m acts)).handedOut < 2 ^ 31 := by
  have hle : m ≤ (run nid sock acts).epoch := by
    obtain ⟨⟨m', r⟩, hp, rfl⟩ := Option.map_eq_some_iff.mp hm
    exact (kept_run acts).le_epoch hp
  have h := hlt m hle
  rwa [State.handedOut, (coupled_run nid sock m acts).manager] at h

/-- Router `false` with nid 4 belongs to the first manager, router `true` with nid 5 to the
second one.  Both managers hand vid 1 out; when the first one is gone, router `false` gives
a container its own nid for a vid. -/
def twoManagers : List (Act Bool) :=
  [.start false, .call false (.vcmJoin (bytes "a")) .closed, .restart, .start true,
    .call true (.vcmJoin (bytes "b")) .closed, .call false (.vcmVidNid 1) .closed,
    .call true (.vcmVidNid 1) .closed, .call false (.vcmJoin (bytes "c")) .closed]

/-- Two containers have been given vid 1, and each router takes it for its own. -/
example :
    (run (fun p : Bool ↦ if p then 5 else 4) (fun _ ↦ ⟨3, by decide⟩) twoManagers).returned =
      [(.vcmJoin false (bytes "a"), 1), (.vcmJoin true (bytes "b"), 1),
        (.vcmVidNid false 1, 4), (.vcmVidNid true 1, 5), (.vcmJoin false (bytes "c"), 4)] := by
  decide

end Told

end Restarts

end Freelite
