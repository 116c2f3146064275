import Freelite.Router.Cluster

/-!
# Vids are unique and stable

What a cluster does with joins is to keep one list: the pairs of a router and a
container id that have joined, in the order of their first join.  A pair's vid is
its place in that list.  `Registered` says that the manager's counter and table
and every router's notes are that list, and that the manager has been asked for a
vid once for every pair.  Lookups and repeated joins do not touch it.

The counter is 32 bits wide, so all of this is about runs in which fewer than
`2 ^ 31` vids are handed out.
-/

namespace Freelite

open Lib Registry

/-- The pair a call joins. -/
def Call.joinPair {R : Type*} : Call R → Option (R × Cid)
  | .vcmJoin r cid => some (r, cid)
  | _ => none

namespace Cluster

variable {R : Type*} [DecidableEq R]

/-- The joins of a list of calls, oldest first. -/
def joinPairs (calls : List (Call R)) : List (R × Cid) := calls.filterMap Call.joinPair

/-- The value the first join of `cid` on `r` returned. -/
def firstJoin (r : R) (cid : Cid) (h : List (Call R × Int32)) : Option Int32 :=
  h.findSome? fun e ↦ if e.1 = .vcmJoin r cid then some e.2 else none

/-! ## The list of joined pairs -/

/-- The cluster's tables hold the joined pairs `pairs`, oldest first. -/
structure Registered (nid : R → Int32) (s : Cluster R) (pairs : List (R × Cid)) : Prop where
  represents : s.vcm.Represents (pairs.map fun p ↦ nid p.1)
  nodup : pairs.Nodup
  find_iff : ∀ r cid v, (s.routers r).cidVidMap.find cid = some v ↔
    ∃ k, pairs[k]? = some (r, cid) ∧ v = vidOf (k + 1)
  handedOut_eq : s.handedOut = pairs.length

omit [DecidableEq R] in
theorem registered_init (nid : R → Int32) (sock : R → Descriptor) :
    Registered nid (init sock) [] where
  represents := Vcm.represents_init
  nodup := List.nodup_nil
  find_iff r cid v := by simp [init, Routing.start]
  handedOut_eq := rfl

section

variable {nid : R → Int32} {s : Cluster R} {pairs : List (R × Cid)}

omit [DecidableEq R] in
/-- A container has a vid on a router exactly when it has joined there. -/
theorem Registered.find_eq_none_iff (h : Registered nid s pairs) (r : R) (cid : Cid) :
    (s.routers r).cidVidMap.find cid = none ↔ (r, cid) ∉ pairs := by
  rw [Option.eq_none_iff_forall_ne_some, List.mem_iff_getElem?]
  constructor
  · rintro hnone ⟨k, hk⟩
    exact hnone _ ((h.find_iff r cid _).mpr ⟨k, hk, rfl⟩)
  · intro hmem v hv
    obtain ⟨k, hk, -⟩ := (h.find_iff r cid v).mp hv
    exact hmem ⟨k, hk⟩

@[simp] theorem handedOut_joined (r : R) (cid : Cid) :
    (s.joined nid r cid).handedOut = s.handedOut + 1 := by
  simp [handedOut, joined]

@[simp] theorem handedOut_lookedUp (r : R) (vid : Int32) :
    (s.lookedUp r vid).handedOut = s.handedOut := by
  simp [handedOut, lookedUp, vidNid, nidVid]

/-- A new pair takes the next place. -/
theorem Registered.joined (h : Registered nid s pairs) {r : R} {cid : Cid}
    (hnew : (s.routers r).cidVidMap.find cid = none) (hlt : pairs.length + 1 < 2 ^ 31) :
    Registered nid (s.joined nid r cid) (pairs ++ [(r, cid)]) where
  represents := by
    rw [List.map_append]
    exact h.represents.getNewVid (by simpa using hlt) (nid r)
  nodup := by
    have hmem := (h.find_eq_none_iff r cid).mp hnew
    exact List.nodup_append.mpr ⟨h.nodup, List.nodup_singleton _, by
      rintro p hp q hq rfl
      rw [List.mem_singleton.mp hq] at hp
      exact hmem hp⟩
  find_iff r' cid' v := by
    have hnext : s.vcm.nextVid = vidOf (pairs.length + 1) := by
      simpa using h.represents.nextVid_eq
    have hmem := (h.find_eq_none_iff r cid).mp hnew
    rw [joined_cidVidMap nid s hnew]
    split
    · rename_i heq
      obtain ⟨rfl, rfl⟩ := heq
      constructor
      · intro hv
        exact ⟨pairs.length, by simp, by rw [← Option.some_inj.mp hv, hnext]⟩
      · rintro ⟨k, hk, rfl⟩
        rw [List.getElem?_append] at hk
        split at hk
        · exact absurd (List.mem_of_getElem? hk) hmem
        · have hk' : k - pairs.length < 1 := by
            simpa using (List.getElem?_eq_some_iff.mp hk).1
          rw [hnext, show k = pairs.length by omega]
    · rename_i hne
      rw [h.find_iff]
      constructor
      · rintro ⟨k, hk, hv⟩
        exact ⟨k, by rw [List.getElem?_append_left (List.getElem?_eq_some_iff.mp hk).1, hk], hv⟩
      · rintro ⟨k, hk, hv⟩
        rw [List.getElem?_append] at hk
        split at hk
        · exact ⟨k, hk, hv⟩
        · have hp := List.mem_singleton.mp (List.mem_of_getElem? hk)
          exact absurd (Prod.mk_inj.mp hp) hne
  handedOut_eq := by simp [h.handedOut_eq]

/-- A lookup does not touch the list. -/
theorem Registered.lookedUp (h : Registered nid s pairs) (r : R) (vid : Int32) :
    Registered nid (s.lookedUp r vid) pairs where
  represents := h.represents
  nodup := h.nodup
  find_iff r' cid v := by
    rw [lookedUp_cidVidMap]
    exact h.find_iff r' cid v
  handedOut_eq := by rw [handedOut_lookedUp, h.handedOut_eq]

/-- A call never takes a vid back. -/
theorem handedOut_le_step (hs : s.Connected) (c : Call R) :
    s.handedOut ≤ (step nid s c).2.handedOut := by
  obtain ⟨_, _, _, -, -, he⟩ | ⟨_, _, -, -, he⟩ | ⟨_, _, _, -, -, he⟩ | ⟨_, _, -, -, he⟩ |
    ⟨_, _, -, he⟩ := step_cases nid hs c
  all_goals simp [he]

/-- **One step.**  A call extends the list of joined pairs by the pair it joins, if
that is new. -/
theorem Registered.step (h : Registered nid s pairs) (hs : s.Connected) (c : Call R)
    (hlt : (step nid s c).2.handedOut < 2 ^ 31) :
    ∃ pairs', Registered nid (Cluster.step nid s c).2 pairs' ∧ pairs <+: pairs' ∧
      ∀ p, p ∈ pairs' ↔ p ∈ pairs ∨ c.joinPair = some p := by
  obtain ⟨r, cid, v, rfl, hv, he⟩ | ⟨r, cid, rfl, hnew, he⟩ | ⟨_, _, _, rfl, -, he⟩ |
    ⟨r, vid, rfl, -, he⟩ | ⟨_, _, rfl, he⟩ := step_cases nid hs c
  · refine ⟨pairs, by rwa [he], List.prefix_refl _, fun p ↦ ?_⟩
    obtain ⟨k, hk, -⟩ := (h.find_iff r cid v).mp hv
    have hmem : (r, cid) ∈ pairs := List.mem_of_getElem? hk
    constructor
    · exact Or.inl
    · rintro (hp | hp)
      · exact hp
      · rwa [← Option.some_inj.mp hp]
  · rw [he, handedOut_joined, h.handedOut_eq] at hlt
    refine ⟨pairs ++ [(r, cid)], ?_, List.prefix_append _ _, fun p ↦ ?_⟩
    · rw [he]
      exact h.joined hnew hlt
    · simp [Call.joinPair, eq_comm]
  · exact ⟨pairs, by rwa [he], List.prefix_refl _, fun p ↦ by simp [Call.joinPair]⟩
  · refine ⟨pairs, ?_, List.prefix_refl _, fun p ↦ by simp [Call.joinPair]⟩
    rw [he]
    exact h.lookedUp r vid
  · exact ⟨pairs, by rwa [he], List.prefix_refl _, fun p ↦ by simp [Call.joinPair]⟩

end

/-! ## Whole runs -/

variable {nid : R → Int32} {sock : R → Descriptor}

/-- What is known after a run: the joined pairs are those of its joins, and every
join returned the vid its router has noted. -/
structure Recorded (nid : R → Int32) (sock : R → Descriptor) (calls : List (Call R))
    (pairs : List (R × Cid)) : Prop where
  registered : Registered nid (run nid sock calls) pairs
  mem_iff : ∀ p, p ∈ pairs ↔ p ∈ joinPairs calls
  returned : ∀ r cid v, (Call.vcmJoin r cid, v) ∈ history nid sock calls →
    ((run nid sock calls).routers r).cidVidMap.find cid = some v

/-- **Whole runs.**  By induction on the calls, the last one at a time. -/
theorem exists_recorded {calls : List (Call R)}
    (hlt : (run nid sock calls).handedOut < 2 ^ 31) :
    ∃ pairs, Recorded nid sock calls pairs := by
  induction calls using List.reverseRecOn with
  | nil =>
      exact ⟨[], registered_init nid sock, fun p ↦ by simp [joinPairs], fun r cid v h ↦ by
        simp [history, historyFrom] at h⟩
  | append_singleton calls c ih =>
      have hs := connected_run nid sock calls
      rw [run_concat] at hlt
      obtain ⟨pairs, hreg, hmem, hret⟩ := ih (lt_of_le_of_lt (handedOut_le_step hs c) hlt)
      obtain ⟨pairs', hreg', -, hmem'⟩ := hreg.step hs c hlt
      refine ⟨pairs', by rwa [run_concat], fun p ↦ ?_, fun r cid v hv ↦ ?_⟩
      · rw [hmem', hmem, joinPairs, joinPairs, List.filterMap_append, List.mem_append]
        cases hc : c.joinPair <;> simp [hc, eq_comm]
      · rw [history_concat, List.mem_append, List.mem_singleton] at hv
        rw [run_concat]
        rcases hv with hv | hv
        · exact find_cidVidMap_mono nid hs (hret r cid v hv) c
        · obtain ⟨rfl, rfl⟩ := Prod.mk_inj.mp hv
          exact find_cidVidMap_vcmJoin nid hs r cid

/-- The calls of a run and of its history are the same. -/
theorem mem_joinPairs_iff (nid : R → Int32) (sock : R → Descriptor) {calls : List (Call R)} {r : R}
    {cid : Cid} : (r, cid) ∈ joinPairs calls ↔ ∃ v, (Call.vcmJoin r cid, v) ∈ history nid sock calls := by
  induction calls using List.reverseRecOn with
  | nil => simp [joinPairs, history, historyFrom]
  | append_singleton calls c ih =>
      simp only [history_concat, joinPairs, List.filterMap_append, List.mem_append,
        List.mem_singleton, exists_or] at ih ⊢
      rw [ih]
      refine or_congr Iff.rfl ?_
      cases c <;> simp [Call.joinPair, eq_comm]

omit [DecidableEq R] in
/-- A join that is in a history is not skipped by the search for the first one. -/
theorem firstJoin_eq_none_iff [DecidableEq R] {h : List (Call R × Int32)} {r : R} {cid : Cid} :
    firstJoin r cid h = none ↔ ∀ v, (Call.vcmJoin r cid, v) ∉ h := by
  simp only [firstJoin, List.findSome?_eq_none_iff, ite_eq_right_iff, reduceCtorEq, imp_false]
  constructor
  · intro hn v hv
    exact hn _ hv rfl
  · rintro hn ⟨c, v⟩ hv rfl
    exact hn v hv

omit [DecidableEq R] in
theorem mem_of_firstJoin [DecidableEq R] {h : List (Call R × Int32)} {r : R} {cid : Cid}
    {v : Int32} (hv : firstJoin r cid h = some v) : (Call.vcmJoin r cid, v) ∈ h := by
  obtain ⟨⟨c, w⟩, hmem, hif⟩ := List.exists_of_findSome?_eq_some hv
  split at hif
  · rename_i heq
    simp only at heq
    rwa [← heq, ← Option.some_inj.mp hif]
  · contradiction

namespace Recorded

variable {calls : List (Call R)} {pairs : List (R × Cid)}

/-- A returned vid is the place of the joined pair. -/
theorem exists_index (h : Recorded nid sock calls pairs) {r : R} {cid : Cid} {v : Int32}
    (hv : (Call.vcmJoin r cid, v) ∈ history nid sock calls) :
    ∃ k, pairs[k]? = some (r, cid) ∧ v = vidOf (k + 1) :=
  (h.registered.find_iff r cid v).mp (h.returned r cid v hv)

/-- Equal vids mean the same router and container, and conversely. -/
theorem vid_eq_iff (h : Recorded nid sock calls pairs)
    (hlt : (run nid sock calls).handedOut < 2 ^ 31) {r r' : R} {cid cid' : Cid} {v v' : Int32}
    (hv : (Call.vcmJoin r cid, v) ∈ history nid sock calls)
    (hv' : (Call.vcmJoin r' cid', v') ∈ history nid sock calls) :
    v = v' ↔ r = r' ∧ cid = cid' := by
  obtain ⟨k, hk, rfl⟩ := h.exists_index hv
  obtain ⟨k', hk', rfl⟩ := h.exists_index hv'
  rw [h.registered.handedOut_eq] at hlt
  have hkl := (List.getElem?_eq_some_iff.mp hk).1
  have hkl' := (List.getElem?_eq_some_iff.mp hk').1
  rw [vidOf_inj (by omega) (by omega)]
  constructor
  · intro he
    rw [show k = k' by omega, hk'] at hk
    obtain ⟨rfl, rfl⟩ := Prod.mk_inj.mp (Option.some_inj.mp hk)
    exact ⟨rfl, rfl⟩
  · rintro ⟨rfl, rfl⟩
    have hkk : pairs[k] = pairs[k'] := by
      rw [(List.getElem?_eq_some_iff.mp hk).2, (List.getElem?_eq_some_iff.mp hk').2]
    rw [h.registered.nodup.getElem_inj_iff.mp hkk]

/-- `vcm_get_node_id` returns what the first join returned, and `-1` before it. -/
theorem vcmGetNodeId_eq (h : Recorded nid sock calls pairs) (r : R) (cid : Cid) :
    Routing.vcmGetNodeId cid ((run nid sock calls).routers r) =
      (firstJoin r cid (history nid sock calls)).getD (-1) := by
  rw [Routing.vcmGetNodeId_eq]
  congr 1
  cases hf : firstJoin r cid (history nid sock calls) with
  | some v => exact h.returned r cid v (mem_of_firstJoin hf)
  | none =>
      rw [h.registered.find_eq_none_iff, h.mem_iff, mem_joinPairs_iff nid sock]
      rintro ⟨v, hv⟩
      exact firstJoin_eq_none_iff.mp hf v hv

/-- The manager has the nid of the router a vid was joined on. -/
theorem find_vidNidMap (h : Recorded nid sock calls pairs)
    (hlt : (run nid sock calls).handedOut < 2 ^ 31) {r : R} {cid : Cid} {v : Int32}
    (hv : (Call.vcmJoin r cid, v) ∈ history nid sock calls) :
    (run nid sock calls).vcm.vidNidMap.find v = some (nid r) := by
  obtain ⟨k, hk, rfl⟩ := h.exists_index hv
  rw [h.registered.handedOut_eq] at hlt
  have hkl := (List.getElem?_eq_some_iff.mp hk).1
  rw [h.registered.represents.find_eq, resolve_vidOf (by omega), List.getElem?_map, hk]
  rfl

/-- The manager has been asked for one vid a joined pair. -/
theorem handedOut_eq (h : Recorded nid sock calls pairs) :
    (run nid sock calls).handedOut = (joinPairs calls).toFinset.card := by
  have hset : (joinPairs calls).toFinset = pairs.toFinset := by
    ext p
    rw [List.mem_toFinset, List.mem_toFinset, h.mem_iff]
  rw [h.registered.handedOut_eq, hset, List.toFinset_card_of_nodup h.registered.nodup]

end Recorded

/-- No call takes a vid back. -/
theorem handedOut_run_le (nid : R → Int32) (sock : R → Descriptor) (calls mid : List (Call R)) :
    (run nid sock calls).handedOut ≤ (run nid sock (calls ++ mid)).handedOut := by
  induction mid using List.reverseRecOn with
  | nil => simp
  | append_singleton mid c ih =>
      rw [← List.append_assoc, run_concat]
      exact ih.trans (handedOut_le_step (connected_run nid sock _) c)

/-! ## Two joins in a row -/

/-- After a join on `r` for `k`, the vid of another container is another one. -/
theorem vcmJoin_eq_iff {calls : List (Call R)} {r : R} {k k' : Cid}
    (hlt : (run nid sock (calls ++ [.vcmJoin r k, .vcmJoin r k'])).handedOut < 2 ^ 31) :
    (step nid (step nid (run nid sock calls) (.vcmJoin r k)).2 (.vcmJoin r k')).1 =
      (step nid (run nid sock calls) (.vcmJoin r k)).1 ↔ k' = k := by
  obtain ⟨pairs, h⟩ := exists_recorded hlt
  let c : Call R := .vcmJoin r k
  let c' : Call R := .vcmJoin r k'
  let s : Cluster R := run nid sock calls
  have hhist : history nid sock (calls ++ [c, c']) =
      history nid sock calls ++ [(c, (step nid s c).1), (c', (step nid (step nid s c).2 c').1)] := by
    rw [List.append_cons, history_concat, history_concat, run_concat, List.append_assoc,
      List.singleton_append]
  have hk : (c, (step nid s c).1) ∈ history nid sock (calls ++ [c, c']) := by
    rw [hhist]
    exact List.mem_append_right _ List.mem_cons_self
  have hk' : (c', (step nid (step nid s c).2 c').1) ∈ history nid sock (calls ++ [c, c']) := by
    rw [hhist]
    exact List.mem_append_right _ (List.mem_cons_of_mem _ List.mem_cons_self)
  rw [h.vid_eq_iff hlt hk' hk]
  exact and_iff_right rfl

/-- After a join on `r` for `k`, `vcm_get_node_id` knows no other container by its
vid. -/
theorem vcmGetNodeId_eq_iff {calls : List (Call R)} {r : R} {k k' : Cid}
    (hlt : (run nid sock (calls ++ [.vcmJoin r k])).handedOut < 2 ^ 31) :
    Routing.vcmGetNodeId k' ((step nid (run nid sock calls) (.vcmJoin r k)).2.routers r) =
      (step nid (run nid sock calls) (.vcmJoin r k)).1 ↔ k' = k := by
  obtain ⟨pairs, h⟩ := exists_recorded hlt
  have hs := connected_run nid sock calls
  have hfind := find_cidVidMap_vcmJoin nid hs r k
  rw [← run_concat] at hfind ⊢
  rw [Routing.vcmGetNodeId_eq]
  have hlen : pairs.length < 2 ^ 31 := by rwa [← h.registered.handedOut_eq]
  obtain ⟨i, hi, hv⟩ := (h.registered.find_iff r k _).mp hfind
  have hil := (List.getElem?_eq_some_iff.mp hi).1
  constructor
  · intro heq
    cases hk' : ((run nid sock (calls ++ [.vcmJoin r k])).routers r).cidVidMap.find k' with
    | none =>
        rw [hk', hv] at heq
        exact absurd heq.symm (vidOf_ne_neg_one (by omega))
    | some v' =>
        obtain ⟨j, hj, hv'⟩ := (h.registered.find_iff r k' v').mp hk'
        have hjl := (List.getElem?_eq_some_iff.mp hj).1
        rw [hk', Option.getD_some, hv, hv', vidOf_inj (by omega) (by omega)] at heq
        rw [show j = i by omega, hi] at hj
        exact (Prod.mk_inj.mp (Option.some_inj.mp hj)).2.symm
  · rintro rfl
    rw [hfind]
    rfl

/-- **Vids are unique and stable across the cluster.**  In every run in which fewer
than `2 ^ 31` vids are handed out, two joins return the same vid exactly when they
are made on the same router for the same container; `vcm_get_node_id` returns the
vid of the first join, and `-1` before it; the manager has every vid's nid; and
one vid is handed out for every joined pair. -/
theorem vids_unique_and_stable (nid : R → Int32) (sock : R → Descriptor) (calls : List (Call R))
    (hlt : (run nid sock calls).handedOut < 2 ^ 31) :
    (∀ r cid v r' cid' v', (Call.vcmJoin r cid, v) ∈ history nid sock calls →
      (Call.vcmJoin r' cid', v') ∈ history nid sock calls → (v = v' ↔ r = r' ∧ cid = cid')) ∧
    (∀ r cid, Routing.vcmGetNodeId cid ((run nid sock calls).routers r) =
      (firstJoin r cid (history nid sock calls)).getD (-1)) ∧
    (∀ r cid v, (Call.vcmJoin r cid, v) ∈ history nid sock calls →
      (run nid sock calls).vcm.vidNidMap.find v = some (nid r)) ∧
    (run nid sock calls).handedOut = (joinPairs calls).toFinset.card := by
  obtain ⟨pairs, h⟩ := exists_recorded hlt
  refine ⟨?_, h.vcmGetNodeId_eq, ?_, h.handedOut_eq⟩
  · intro r cid v r' cid' v' hv hv'
    exact h.vid_eq_iff hlt hv hv'
  · intro r cid v hv
    exact h.find_vidNidMap hlt hv

/-- The theorem at a run of two routers: the same id joins on both, one of them
twice, after a lookup. -/
theorem vids_unique_and_stable_two :
    (run (fun r : Bool ↦ if r then 2 else 1) (fun _ ↦ ⟨3, by decide⟩)
      [.vcmVidNid false 1, .vcmJoin true [0x61], .vcmJoin false [0x61], .vcmJoin true [0x61]]
      ).handedOut = 2 := by
  have h := (vids_unique_and_stable (fun r : Bool ↦ if r then 2 else 1) (fun _ ↦ ⟨3, by decide⟩)
    [.vcmVidNid false 1, .vcmJoin true [0x61], .vcmJoin false [0x61], .vcmJoin true [0x61]]
    (by decide)).2.2.2
  rw [h]
  decide

end Cluster

end Freelite
