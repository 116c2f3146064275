import Freelite.Router.Cluster

/-!
# When the routers' caches agree with the manager

`vcm_vid_nid` answers from `vid_nid_map_cache` when it can, and otherwise stores
the manager's answer there.  It stores the error value as well, for a vid that
nobody has yet; and neither the cache nor the manager's table ever changes a
binding.  So a vid that was looked up before it was handed out stays unknown on
the router that looked it up, and even the router that hands it out keeps the
stale entry when it joins the container.

`HandoutClear` is the condition under which a call cannot start such a
disagreement: a join that asks the manager is given a vid that no table binds to
anything but the joining router's nid.  `coherent_iff_handoutClear` says that it
is exact: the caches agree with the manager in every state of a run, and every
joined container resolves to its router, if and only if every call of the run
meets it.
-/

namespace Freelite

open Lib

namespace Cluster

variable {R : Type*} [DecidableEq R]

/-- What `vcm_vid_nid(v)` returns on router `r` in the state `s`. -/
def resolved (nid : R → Int32) (s : Cluster R) (r : R) (v : Int32) : Int32 :=
  (step nid s (.vcmVidNid r v)).1

/-- Every router's lookup returns what the manager's does. -/
def Agrees (nid : R → Int32) (s : Cluster R) : Prop :=
  ∀ r v, resolved nid s r v = s.vcm.getNidByVid v

/-- The caches agree with the manager throughout the run, and from a join on every
router resolves the vid it returned to the nid of the router it was made on. -/
structure Coherent (nid : R → Int32) (sock : R → Descriptor) (calls : List (Call R)) : Prop where
  agrees : ∀ pre, pre <+: calls → Agrees nid (run nid sock pre)
  joins : ∀ pre r cid mid, pre ++ .vcmJoin r cid :: mid <+: calls → ∀ r',
    resolved nid (run nid sock (pre ++ .vcmJoin r cid :: mid)) r'
      (step nid (run nid sock pre) (.vcmJoin r cid)).1 = nid r

/-- A join that asks the manager is handed a vid that neither the manager's table
nor any router's cache binds to anything but the joining router's nid. -/
def HandoutClear (nid : R → Int32) (s : Cluster R) : Call R → Prop
  | .vcmJoin r cid => (s.routers r).cidVidMap.find cid = none →
      (∀ n, s.vcm.vidNidMap.find s.vcm.nextVid = some n → n = nid r) ∧
      ∀ r' n, (s.routers r').vidNidMapCache.find s.vcm.nextVid = some n → n = nid r
  | _ => True

section

variable {nid : R → Int32} {s : Cluster R}

theorem resolved_eq (hs : s.Connected) (r : R) (v : Int32) :
    resolved nid s r v = ((s.routers r).vidNidMapCache.find v).getD (s.vcm.getNidByVid v) := by
  cases h : (s.routers r).vidNidMapCache.find v with
  | none => simp [resolved, step_vcmVidNid_new hs h]
  | some n => simp [resolved, step_vcmVidNid_cached h]

/-! ## The invariant -/

/-- Everything the routers have noted is what the manager has in its table. -/
structure Noted (nid : R → Int32) (s : Cluster R) : Prop where
  cache : ∀ r v n, (s.routers r).vidNidMapCache.find v = some n → s.vcm.getNidByVid v = n
  joins : ∀ r cid v, (s.routers r).cidVidMap.find cid = some v →
    s.vcm.vidNidMap.find v = some (nid r)

omit [DecidableEq R] in
theorem noted_init (nid : R → Int32) (sock : R → Descriptor) : Noted nid (init sock) where
  cache _ _ _ h := by simp [init, Routing.start] at h
  joins _ _ _ h := by simp [init, Routing.start] at h

/-- Where the routers' notes are the manager's, their lookups are too. -/
theorem Noted.agrees (h : Noted nid s) (hs : s.Connected) : Agrees nid s := by
  intro r v
  rw [resolved_eq hs]
  cases hc : (s.routers r).vidNidMapCache.find v with
  | none => rfl
  | some n => exact (h.cache r v n hc).symm

omit [DecidableEq R] in
/-- A new vid resolves to the nid it was handed out to, unless it was bound. -/
theorem find_nextVid_joined {r : R} (hfree : ∀ n,
    s.vcm.vidNidMap.find s.vcm.nextVid = some n → n = nid r) :
    (Vcm.getNewVid (nid r) s.vcm).2.vidNidMap.find s.vcm.nextVid = some (nid r) := by
  change (s.vcm.vidNidMap.insert s.vcm.nextVid (nid r)).find s.vcm.nextVid = _
  rw [UnorderedMap.find_insert_self]
  cases h : s.vcm.vidNidMap.find s.vcm.nextVid with
  | none => rfl
  | some n => rw [hfree n h]; rfl

/-- A join keeps the notes right if the vid it is handed is clear. -/
theorem Noted.joined (h : Noted nid s) {r : R} {cid : Cid}
    (hnew : (s.routers r).cidVidMap.find cid = none)
    (hclear : HandoutClear nid s (.vcmJoin r cid)) : Noted nid (s.joined nid r cid) := by
  obtain ⟨hmap, hcache⟩ := hclear hnew
  have hnext := find_nextVid_joined hmap
  -- an old cache entry is still right: its vid is the new one, or resolves as before
  have hold : ∀ r' v n, (s.routers r').vidNidMapCache.find v = some n →
      (s.joined nid r cid).vcm.getNidByVid v = n := by
    intro r' v n hv
    rw [joined_vcm, Vcm.getNidByVid_eq]
    by_cases hvn : v = s.vcm.nextVid
    · subst hvn
      rw [hnext, hcache r' n hv]
      rfl
    · have hfind : (Vcm.getNewVid (nid r) s.vcm).2.vidNidMap.find v = s.vcm.vidNidMap.find v :=
        s.vcm.vidNidMap.find_insert_of_ne _ hvn
      rw [hfind, ← Vcm.getNidByVid_eq]
      exact h.cache r' v n hv
  constructor
  · intro r' v n hv
    rw [joined_cache] at hv
    split at hv
    · rcases UnorderedMap.find_insert_iff.mp hv with hv | ⟨rfl, -, rfl⟩
      · exact hold r v n hv
      · rw [joined_vcm, Vcm.getNidByVid_eq, hnext]
        rfl
    · exact hold r' v n hv
  · intro r' cid' v hv
    rw [joined_cidVidMap nid s hnew] at hv
    split at hv
    · rename_i heq
      rw [heq.1, ← Option.some_inj.mp hv]
      exact hnext
    · exact Vcm.find_getNewVid_mono (h.joins r' cid' v hv) (nid r)

/-- A lookup keeps the notes right. -/
theorem Noted.lookedUp (h : Noted nid s) (r : R) (vid : Int32) :
    Noted nid (s.lookedUp r vid) where
  cache r' v n hv := by
    rw [lookedUp_cache] at hv
    split at hv
    · rcases UnorderedMap.find_insert_iff.mp hv with hv | ⟨rfl, -, rfl⟩
      · exact h.cache r v n hv
      · rfl
    · exact h.cache r' v n hv
  joins r' cid v hv := h.joins r' cid v (by simpa using hv)

/-- **One step.**  A call that meets the condition keeps the notes right. -/
theorem Noted.step (h : Noted nid s) (hs : s.Connected) {c : Call R}
    (hc : HandoutClear nid s c) : Noted nid (step nid s c).2 := by
  obtain ⟨_, _, _, -, -, he⟩ | ⟨r, cid, rfl, hnew, he⟩ | ⟨_, _, _, -, -, he⟩ |
    ⟨r, vid, -, -, he⟩ | ⟨_, _, -, he⟩ := step_cases nid hs c
  · rwa [he]
  · rw [he]
    exact h.joined hnew hc
  · rwa [he]
  · rw [he]
    exact h.lookedUp r vid
  · rwa [he]

end

/-! ## Whole runs -/

/-- Every call of the run meets the condition in the state it is made in. -/
def RunClear (nid : R → Int32) (sock : R → Descriptor) (calls : List (Call R)) : Prop :=
  ∀ pre c, pre ++ [c] <+: calls → HandoutClear nid (run nid sock pre) c

variable {nid : R → Int32} {sock : R → Descriptor}

theorem RunClear.of_prefix {calls calls' : List (Call R)} (h : RunClear nid sock calls')
    (hp : calls <+: calls') : RunClear nid sock calls :=
  fun pre c hpre ↦ h pre c (hpre.trans hp)

/-- **Whole runs.**  Calls that all meet the condition keep the notes right. -/
theorem noted_run {calls : List (Call R)} (h : RunClear nid sock calls) :
    Noted nid (run nid sock calls) := by
  induction calls using List.reverseRecOn with
  | nil => exact noted_init nid sock
  | append_singleton calls c ih =>
      rw [run_concat]
      exact (ih (h.of_prefix (List.prefix_append _ _))).step (connected_run nid sock calls)
        (h calls c (List.prefix_refl _))

/-- A binding of the manager's table outlives any calls. -/
theorem find_vidNidMap_mono {calls : List (Call R)} {v n : Int32}
    (h : (run nid sock calls).vcm.vidNidMap.find v = some n) (mid : List (Call R)) :
    (run nid sock (calls ++ mid)).vcm.vidNidMap.find v = some n := by
  induction mid using List.reverseRecOn with
  | nil => simpa using h
  | append_singleton mid c ih =>
      rw [← List.append_assoc, run_concat]
      obtain ⟨_, _, _, -, -, he⟩ | ⟨_, _, -, -, he⟩ | ⟨_, _, _, -, -, he⟩ | ⟨_, _, -, -, he⟩ |
        ⟨_, _, -, he⟩ := step_cases nid (connected_run nid sock (calls ++ mid)) c
      · rwa [he]
      · rw [he]
        exact Vcm.find_getNewVid_mono ih _
      · rwa [he]
      · rwa [he]
      · rwa [he]

/-- Calls that meet the condition keep the cluster coherent. -/
theorem RunClear.coherent {calls : List (Call R)} (h : RunClear nid sock calls) :
    Coherent nid sock calls where
  agrees pre hpre := (noted_run (h.of_prefix hpre)).agrees (connected_run nid sock pre)
  joins pre r cid mid hpre r' := by
    have hjoin : pre ++ [.vcmJoin r cid] <+: calls :=
      List.IsPrefix.trans ⟨mid, by simp⟩ hpre
    have hnoted := noted_run (h.of_prefix hjoin)
    have hnote := find_cidVidMap_vcmJoin nid (connected_run nid sock pre) r cid
    rw [← run_concat] at hnote
    have hfind := find_vidNidMap_mono (hnoted.joins r cid _ hnote) mid
    rw [List.append_assoc, List.singleton_append] at hfind
    rw [(noted_run (h.of_prefix hpre)).agrees (connected_run nid sock _), Vcm.getNidByVid_eq, hfind]
    rfl

/-- In a coherent run every call meets the condition: a vid that some table binds
to another nid would, once handed out, resolve to that nid there. -/
theorem Coherent.runClear {calls : List (Call R)} (h : Coherent nid sock calls) :
    RunClear nid sock calls := by
  intro pre c hpre
  cases c with
  | vcmVidNid r vid => trivial
  | vcmGetNodeId r cid => trivial
  | vcmJoin r cid =>
      intro hnew
      have hs := connected_run nid sock pre
      have hstep : step nid (run nid sock pre) (.vcmJoin r cid) =
          ((run nid sock pre).vcm.nextVid, (run nid sock pre).joined nid r cid) :=
        step_vcmJoin_new hs hnew
      have hrun : run nid sock (pre ++ [.vcmJoin r cid]) = (run nid sock pre).joined nid r cid := by
        rw [run_concat, hstep]
      have hconn := connected_run nid sock (pre ++ [.vcmJoin r cid])
      have hnext : ∀ r', resolved nid ((run nid sock pre).joined nid r cid) r'
          (run nid sock pre).vcm.nextVid = nid r := by
        intro r'
        have hj := h.joins pre r cid [] hpre r'
        rwa [hrun, hstep] at hj
      rw [hrun] at hconn
      constructor
      · intro n hn
        have hagree := h.agrees _ hpre r (run nid sock pre).vcm.nextVid
        rw [hrun, hnext r, joined_vcm, Vcm.getNidByVid_eq, Vcm.find_getNewVid_mono hn] at hagree
        exact hagree.symm
      · intro r' n hn
        have hkeep : (((run nid sock pre).joined nid r cid).routers r').vidNidMapCache.find
            (run nid sock pre).vcm.nextVid = some n := by
          rw [joined_cache]
          split
          · rename_i heq
            exact UnorderedMap.find_mono (heq ▸ hn) _ _
          · exact hn
        have hres := hnext r'
        rwa [resolved_eq hconn, hkeep] at hres

/-- **The caches agree with the manager throughout a run, and every joined
container resolves to its router, exactly when no vid is handed out that some
table already binds to another nid.** -/
theorem coherent_iff_handoutClear (nid : R → Int32) (sock : R → Descriptor)
    (calls : List (Call R)) : Coherent nid sock calls ↔ RunClear nid sock calls :=
  ⟨Coherent.runClear, RunClear.coherent⟩

/-- The first vid is looked up on router `false` before a container joins through
router `true` and gets it: router `false` goes on answering `-1`. -/
theorem not_coherent_early_lookup :
    ¬ Coherent (fun r : Bool ↦ if r then 2 else 1) (fun _ ↦ ⟨3, by decide⟩)
      [.vcmVidNid false 1, .vcmJoin true [0x61]] := by
  intro h
  have hjoin := h.joins [.vcmVidNid false 1] true [0x61] [] (List.prefix_refl _) false
  revert hjoin
  decide

end Cluster

end Freelite
