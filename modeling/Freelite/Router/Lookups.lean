import Freelite.Router.Coherence
import Freelite.Router.Identity

/-!
# What a lookup returns

`vcm_vid_nid` stores whatever the manager answers, and an entry of the cache never
changes.  So the first time a router asks for a vid decides what it says about the vid
from then on: if nobody had been handed the vid yet, the error value, for ever; otherwise
the nid of the router the container has joined on.

Here this is said in terms of the calls that have been made and of what they returned,
without the tables (`resolved_decided`).  In particular a lookup never returns the nid
of another router than the one the vid was handed out on, and what it has returned once
it always returns (`resolved_stable`).
-/

namespace Freelite

open Lib Registry

namespace Cluster

variable {R : Type*} [DecidableEq R]

omit [DecidableEq R] in
/-- A join on router `r` has returned the vid. -/
def Joined (h : List (Call R × Int32)) (r : R) (v : Int32) : Prop :=
  ∃ cid, (Call.vcmJoin r cid, v) ∈ h

/-- Router `r` has looked the vid up when no join had returned it yet. -/
def AskedEarly (nid : R → Int32) (sock : R → Descriptor) (calls : List (Call R)) (r : R)
    (v : Int32) : Prop :=
  ∃ pre, pre ++ [.vcmVidNid r v] <+: calls ∧ ∀ r', ¬ Joined (history nid sock pre) r' v

variable {nid : R → Int32} {sock : R → Descriptor} {calls : List (Call R)} {r : R} {v : Int32}

/-! ## Joins and the manager's table -/

omit [DecidableEq R] in
theorem Joined.mono {h h' : List (Call R × Int32)} (hj : Joined h r v) (hp : h <+: h') :
    Joined h' r v := by
  obtain ⟨cid, hmem⟩ := hj
  exact ⟨cid, hp.subset hmem⟩

theorem history_extends (nid : R → Int32) (sock : R → Descriptor) (calls mid : List (Call R)) :
    history nid sock calls <+: history nid sock (calls ++ mid) := by
  rw [history, history, historyFrom_append]
  exact List.prefix_append _ _

theorem AskedEarly.append (h : AskedEarly nid sock calls r v) (mid : List (Call R)) :
    AskedEarly nid sock (calls ++ mid) r v := by
  obtain ⟨pre, hpre, hno⟩ := h
  exact ⟨pre, hpre.trans (List.prefix_append _ _), hno⟩

namespace Recorded

variable {pairs : List (R × Cid)}

/-- The joins that have returned a vid are the notes of the routers. -/
theorem joined_iff (h : Recorded nid sock calls pairs) :
    Joined (history nid sock calls) r v ↔
      ∃ cid, ((run nid sock calls).routers r).cidVidMap.find cid = some v := by
  constructor
  · rintro ⟨cid, hmem⟩
    exact ⟨cid, h.returned r cid v hmem⟩
  · rintro ⟨cid, hfind⟩
    obtain ⟨k, hk, -⟩ := (h.registered.find_iff r cid v).mp hfind
    have hpair : (r, cid) ∈ joinPairs calls := (h.mem_iff _).mp (List.mem_of_getElem? hk)
    obtain ⟨v', hmem⟩ := (mem_joinPairs_iff nid sock).mp hpair
    have hv : v' = v := Option.some_inj.mp ((h.returned r cid v' hmem).symm.trans hfind)
    exact ⟨cid, hv ▸ hmem⟩

/-- The manager answers with the router a join has returned the vid on. -/
theorem getNidByVid_of_joined (h : Recorded nid sock calls pairs)
    (hlt : (run nid sock calls).handedOut < 2 ^ 31) (hj : Joined (history nid sock calls) r v) :
    (run nid sock calls).vcm.getNidByVid v = nid r := by
  obtain ⟨cid, hmem⟩ := hj
  rw [Vcm.getNidByVid_eq, h.find_vidNidMap hlt hmem, Option.getD_some]

/-- It knows no other vids. -/
theorem getNidByVid_of_not_joined (h : Recorded nid sock calls pairs)
    (hlt : (run nid sock calls).handedOut < 2 ^ 31)
    (hno : ∀ r', ¬ Joined (history nid sock calls) r' v) :
    (run nid sock calls).vcm.getNidByVid v = -1 := by
  rw [Vcm.getNidByVid_eq, h.registered.represents.find_eq]
  cases hres : Registry.resolve (pairs.map fun p ↦ nid p.1) v with
  | none => rfl
  | some n =>
      have hlen : (pairs.map fun p ↦ nid p.1).length < 2 ^ 31 := by
        rwa [List.length_map, ← h.registered.handedOut_eq]
      obtain ⟨k, hv, hk⟩ := (resolve_eq_some_iff hlen).mp hres
      rw [List.getElem?_map, Option.map_eq_some_iff] at hk
      obtain ⟨⟨r', cid⟩, hk, -⟩ := hk
      have hfind := (h.registered.find_iff r' cid v).mpr ⟨k, hk, hv⟩
      exact absurd (h.joined_iff.mpr ⟨cid, hfind⟩) (hno r')

end Recorded

/-! ## The cache -/

/-- What is known about the entry of a vid in the cache of a router. -/
structure Learned (nid : R → Int32) (sock : R → Descriptor) (calls : List (Call R)) (r : R)
    (v : Int32) : Prop where
  early : AskedEarly nid sock calls r v →
    ((run nid sock calls).routers r).vidNidMapCache.find v = some (-1)
  entry : ∀ n, ((run nid sock calls).routers r).vidNidMapCache.find v = some n →
    AskedEarly nid sock calls r v ∨ ∃ r', Joined (history nid sock calls) r' v ∧ n = nid r'

/-- An entry of the cache outlives any call. -/
theorem find_cache_mono {s : Cluster R} (hs : s.Connected) {n : Int32}
    (h : (s.routers r).vidNidMapCache.find v = some n) (c : Call R) :
    ((step nid s c).2.routers r).vidNidMapCache.find v = some n := by
  obtain ⟨_, _, _, -, -, he⟩ | ⟨r', cid, -, -, he⟩ | ⟨_, _, _, -, -, he⟩ | ⟨r', vid, -, -, he⟩ |
    ⟨_, _, -, he⟩ := step_cases nid hs c
  · rwa [he]
  · rw [he, joined_cache]
    split
    · rename_i heq
      exact UnorderedMap.find_mono (heq ▸ h) _ _
    · exact h
  · rwa [he]
  · rw [he, lookedUp_cache]
    split
    · rename_i heq
      exact UnorderedMap.find_mono (heq ▸ h) _ _
    · exact h
  · rwa [he]

/-- What is new about early questions after one more call. -/
theorem askedEarly_concat_iff {c : Call R} :
    AskedEarly nid sock (calls ++ [c]) r v ↔
      AskedEarly nid sock calls r v ∨
        c = .vcmVidNid r v ∧ ∀ r', ¬ Joined (history nid sock calls) r' v := by
  constructor
  · rintro ⟨pre, hpre, hno⟩
    rcases List.prefix_concat_iff.mp hpre with heq | hpre
    · obtain ⟨rfl, hc⟩ := List.append_inj' heq rfl
      exact Or.inr ⟨(List.singleton_inj.mp hc).symm, hno⟩
    · exact Or.inl ⟨pre, hpre, hno⟩
  · rintro (h | ⟨rfl, hno⟩)
    · exact h.append _
    · exact ⟨calls, List.prefix_refl _, hno⟩

/-- **One call.**  An entry is made by a join of the router itself, or by a lookup. -/
theorem Learned.concat (h : Learned nid sock calls r v) {c : Call R}
    (hlt : (run nid sock (calls ++ [c])).handedOut < 2 ^ 31) :
    Learned nid sock (calls ++ [c]) r v := by
  have hs := connected_run nid sock calls
  have hlt' := lt_of_le_of_lt (handedOut_run_le nid sock calls [c]) hlt
  obtain ⟨pairs, hrec⟩ := exists_recorded hlt'
  have hold {n : Int32}
      (hn : ((run nid sock calls).routers r).vidNidMapCache.find v = some n) :
      AskedEarly nid sock (calls ++ [c]) r v ∨
        ∃ r', Joined (history nid sock (calls ++ [c])) r' v ∧ n = nid r' := by
    rcases h.entry n hn with hearly | ⟨r', hj, hn⟩
    · exact Or.inl (hearly.append _)
    · exact Or.inr ⟨r', hj.mono (history_extends nid sock calls [c]), hn⟩
  constructor
  · intro hearly
    rw [run_concat]
    rcases askedEarly_concat_iff.mp hearly with hearly | ⟨rfl, hno⟩
    · exact find_cache_mono hs (h.early hearly) c
    · cases hfind : ((run nid sock calls).routers r).vidNidMapCache.find v with
      | some n =>
          rcases h.entry n hfind with hearly | ⟨r', hj, -⟩
          · exact find_cache_mono hs (h.early hearly) _
          · exact absurd hj (hno r')
      | none =>
          rw [step_vcmVidNid_new hs hfind, lookedUp_cache, if_pos rfl,
            UnorderedMap.find_insert_self, hfind, hrec.getNidByVid_of_not_joined hlt' hno]
          rfl
  · intro n hn
    rw [run_concat] at hn
    obtain ⟨_, _, _, -, -, he⟩ | ⟨r', cid, rfl, -, he⟩ | ⟨_, _, _, -, -, he⟩ |
      ⟨r', vid, rfl, hmiss, he⟩ | ⟨_, _, -, he⟩ := step_cases nid hs c
    · rw [he] at hn
      exact hold hn
    · rw [he, joined_cache] at hn
      split at hn
      · rename_i heq
        subst heq
        rcases UnorderedMap.find_insert_iff.mp hn with hn | ⟨rfl, -, rfl⟩
        · exact hold hn
        · refine Or.inr ⟨r, ⟨cid, ?_⟩, rfl⟩
          rw [history_concat, he]
          exact List.mem_append_right _ (List.mem_singleton.mpr rfl)
      · exact hold hn
    · rw [he] at hn
      exact hold hn
    · rw [he, lookedUp_cache] at hn
      split at hn
      · rename_i heq
        subst heq
        rcases UnorderedMap.find_insert_iff.mp hn with hn | ⟨rfl, -, rfl⟩
        · exact hold hn
        · by_cases hj : ∃ r', Joined (history nid sock calls) r' v
          · obtain ⟨r', hj⟩ := hj
            exact Or.inr ⟨r', hj.mono (history_extends nid sock calls _),
              hrec.getNidByVid_of_joined hlt' hj⟩
          · exact Or.inl (askedEarly_concat_iff.mpr
              (Or.inr ⟨rfl, fun r' hr' ↦ hj ⟨r', hr'⟩⟩))
      · exact hold hn
    · rw [he] at hn
      exact hold hn

/-- **Whole runs.**  By induction on the calls, the last one at a time. -/
theorem learned_run (hlt : (run nid sock calls).handedOut < 2 ^ 31) (r : R) (v : Int32) :
    Learned nid sock calls r v := by
  induction calls using List.reverseRecOn with
  | nil =>
      constructor
      · rintro ⟨pre, hpre, -⟩
        simp at hpre
      · intro n hn
        simp [init, Routing.start] at hn
  | append_singleton calls c ih =>
      exact (ih (lt_of_le_of_lt (handedOut_run_le nid sock calls [c]) hlt)).concat hlt

/-! ## Lookups -/

/-- What a lookup has returned it returns for ever. -/
theorem resolved_stable (nid : R → Int32) (sock : R → Descriptor) (calls mid : List (Call R))
    (r : R) (v : Int32) :
    resolved nid (run nid sock (calls ++ .vcmVidNid r v :: mid)) r v =
      resolved nid (run nid sock calls) r v := by
  have hs := connected_run nid sock calls
  have hfind : ((run nid sock (calls ++ .vcmVidNid r v :: mid)).routers r).vidNidMapCache.find v =
      some (resolved nid (run nid sock calls) r v) := by
    induction mid using List.reverseRecOn with
    | nil =>
        rw [run_concat, resolved_eq hs]
        cases hfind : ((run nid sock calls).routers r).vidNidMapCache.find v with
        | some n => exact find_cache_mono hs hfind _
        | none =>
            rw [step_vcmVidNid_new hs hfind, lookedUp_cache, if_pos rfl,
              UnorderedMap.find_insert_self, hfind, Option.getD_none]
    | append_singleton mid c ih =>
        rw [← List.cons_append, ← List.append_assoc, run_concat]
        exact find_cache_mono (connected_run nid sock _) ih c
  rw [resolved_eq (connected_run nid sock _), hfind, Option.getD_some]

section Decided

variable (hlt : (run nid sock calls).handedOut < 2 ^ 31)

include hlt

/-- A question that came too early. -/
theorem resolved_of_askedEarly (h : AskedEarly nid sock calls r v) :
    resolved nid (run nid sock calls) r v = -1 := by
  rw [resolved_eq (connected_run nid sock calls), (learned_run hlt r v).early h, Option.getD_some]

/-- A question about a vid somebody has. -/
theorem resolved_of_joined (h : ¬ AskedEarly nid sock calls r v) {r' : R}
    (hj : Joined (history nid sock calls) r' v) :
    resolved nid (run nid sock calls) r v = nid r' := by
  obtain ⟨pairs, hrec⟩ := exists_recorded hlt
  have hmanager := hrec.getNidByVid_of_joined hlt hj
  rw [resolved_eq (connected_run nid sock calls)]
  cases hfind : ((run nid sock calls).routers r).vidNidMapCache.find v with
  | none => exact hmanager
  | some n =>
      rcases (learned_run hlt r v).entry n hfind with hearly | ⟨r'', hj', rfl⟩
      · exact absurd hearly h
      · rw [Option.getD_some, ← hrec.getNidByVid_of_joined hlt hj', hmanager]

/-- A question about a vid nobody has. -/
theorem resolved_of_not_joined (hno : ∀ r', ¬ Joined (history nid sock calls) r' v) :
    resolved nid (run nid sock calls) r v = -1 := by
  obtain ⟨pairs, hrec⟩ := exists_recorded hlt
  rw [resolved_eq (connected_run nid sock calls)]
  cases hfind : ((run nid sock calls).routers r).vidNidMapCache.find v with
  | none => exact hrec.getNidByVid_of_not_joined hlt hno
  | some n =>
      rcases (learned_run hlt r v).entry n hfind with hearly | ⟨r', hj, -⟩
      · rw [(learned_run hlt r v).early hearly] at hfind
        rw [Option.getD_some, Option.some_inj.mp hfind]
      · exact absurd hj (hno r')

end Decided

end Cluster

end Freelite
