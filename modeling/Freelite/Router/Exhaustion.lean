import Freelite.Lib.Simulation
import Freelite.Router.Regions

/-!
# Descriptors that are never closed

`alloc_shm_mem` opens a descriptor for every region it allocates, and neither it nor
`free_shm_mem` ever closes one: `free_shm_mem` is not even given it.  The descriptors are
those of the router, which serves its clients until it is interrupted.

Whatever the sessions are asked for, in whatever order their system calls come, and
whatever they free, a region that has been allocated has used up a descriptor for good
(`Leaked`), and an object that has been created is referred to for good.  A system that
gives a process a limited number of descriptors grants so many regions and no more.
-/

namespace Freelite

open Lib

namespace Regions

/-- The descriptor a session in `alloc_shm_mem` has got. -/
def Phase.fd : Phase → Option ℕ
  | .truncating _ _ fd | .mapping _ _ fd => some fd
  | _ => none

/-- The descriptor the system chooses in a step. -/
def Act.fd {τ : Type*} : Act τ → Option ℕ
  | .create _ fd | .reopen _ fd => fd
  | _ => none

/-- `alloc_shm_mem` returns zero: the descriptor it leaves, and the object. -/
def granted {τ : Type*} (s : State τ) : Act τ → List (ℕ × ℕ)
  | .map t page =>
      match s.phase t with
      | .mapping _ size fd =>
          if (mmap page size fd s.space).1 = none then []
          else [(fd, (s.space.proc.fds fd).getD 0)]
      | _ => []
  | _ => []

variable {τ : Type*} [DecidableEq τ]

/-- What `alloc_shm_mem` has granted in a run. -/
def grants (s : State τ) (acts : List (Act τ)) : List (ℕ × ℕ) :=
  Machine.image next granted s acts

/-! ## What a step does to the descriptors -/

/-- The steps, as far as descriptors are concerned. -/
inductive Moves (s : State τ) (t : τ) : Act τ → State τ → Prop
  /-- A session gets a descriptor, of the object that the name stands for after that. -/
  | opens {a : Act τ} {s' : State τ} {n obj : ℕ} {p : Phase} : a.fd = some n →
      s.space.proc.fds n = none →
      s'.space.proc.fds = Function.update s.space.proc.fds n (some obj) → p.fd = some n →
      s'.phase = Function.update s.phase t p → granted s a = [] →
      (s'.space.shm.created = s.space.shm.created ∨
        obj = s.space.shm.created ∧ s'.space.shm.created = s.space.shm.created + 1) →
      Moves s t a s'
  /-- A session that has one returns zero. -/
  | grants {a : Act τ} {s' : State τ} {n obj : ℕ} : (s.phase t).fd = some n →
      s.space.proc.fds n = some obj → s'.space.proc.fds = s.space.proc.fds →
      s'.phase = Function.update s.phase t .idle → granted s a = [(n, obj)] →
      s'.space.shm.created = s.space.shm.created → Moves s t a s'
  /-- The session keeps the descriptor it has, or leaves it behind. -/
  | keeps {a : Act τ} {s' : State τ} {p : Phase} : s'.space.proc.fds = s.space.proc.fds →
      s'.phase = Function.update s.phase t p → (p.fd = none ∨ p.fd = (s.phase t).fd) →
      granted s a = [] → s'.space.shm.created = s.space.shm.created → Moves s t a s'

section Moves

variable {s s' : State τ} {t : τ}

theorem moves_of_create {fd : Option ℕ} (h : next s (.create t fd) = some s') :
    Moves s t (.create t fd) s' := by
  rw [next] at h
  split at h
  case h_2 => contradiction
  case h_1 name size hp =>
    obtain hc | ⟨n, hfd, -, hfree, hc⟩ := shmCreate_cases fd name s.space
    · simp only [hc, Option.some_inj] at h
      subst h
      exact .keeps rfl rfl (.inl rfl) rfl rfl
    · simp only [hc, Option.some_inj] at h
      subst h
      exact .opens hfd hfree rfl rfl rfl rfl (.inr ⟨rfl, rfl⟩)

theorem moves_of_reopen {fd : Option ℕ} (h : next s (.reopen t fd) = some s') :
    Moves s t (.reopen t fd) s' := by
  rw [next] at h
  split at h
  case h_2 => contradiction
  case h_1 name size hp =>
    obtain hc | ⟨n, obj, hfd, -, hfree, hc⟩ := shmOpen_cases fd name s.space
    · simp only [hc, Option.some_inj] at h
      subst h
      exact .keeps rfl rfl (.inl rfl) rfl rfl
    · simp only [hc, Option.some_inj] at h
      subst h
      exact .opens hfd hfree rfl rfl rfl rfl (.inl rfl)

theorem moves_of_map {page : Option ℕ} (h : next s (.map t page) = some s') :
    Moves s t (.map t page) s' := by
  obtain ⟨name, size, fd, hp, ⟨hfail, rfl⟩ | ⟨p, obj, hfd, -, hok, rfl⟩⟩ := map_eq h
  · exact .keeps rfl rfl (.inl rfl) (by simp only [granted, hp, if_pos hfail]) rfl
  · refine .grants (n := fd) (by rw [hp]; rfl) hfd rfl rfl ?_ rfl
    simp only [granted, hp, if_neg hok, hfd, Option.getD_some]

theorem moves_of_next {a : Act τ} (h : next s a = some s') : ∃ t, Moves s t a s' := by
  cases a with
  | alloc t name size =>
      obtain ⟨-, rfl⟩ := alloc_eq h
      exact ⟨t, .keeps rfl rfl (.inl rfl) rfl rfl⟩
  | free t name size addr =>
      obtain ⟨-, rfl⟩ := free_eq h
      exact ⟨t, .keeps rfl rfl (.inl rfl) rfl rfl⟩
  | create t fd => exact ⟨t, moves_of_create h⟩
  | reopen t fd => exact ⟨t, moves_of_reopen h⟩
  | truncate t ok =>
      obtain ⟨name, size, fd, hp, ⟨-, rfl⟩ | ⟨obj, -, -, rfl⟩⟩ := truncate_eq h
      · exact ⟨t, .keeps rfl rfl (.inl rfl) rfl rfl⟩
      · exact ⟨t, .keeps rfl rfl (.inr (by rw [hp]; rfl)) rfl rfl⟩
  | map t page => exact ⟨t, moves_of_map h⟩
  | unmap t =>
      obtain ⟨name, size, addr, own, hp, ⟨-, rfl⟩ | ⟨-, rfl⟩⟩ := unmap_eq h
      · exact ⟨t, .keeps rfl rfl (.inl rfl) rfl rfl⟩
      · exact ⟨t, .keeps rfl rfl (.inl rfl) rfl rfl⟩
  | unlink t =>
      obtain ⟨name, own, hp, ⟨-, rfl⟩ | ⟨-, rfl⟩⟩ := unlink_eq h
      · exact ⟨t, .keeps rfl rfl (.inl rfl) rfl rfl⟩
      · exact ⟨t, .keeps rfl rfl (.inl rfl) rfl rfl⟩

end Moves

/-! ## What is left behind -/

/-- A descriptor that is open stays open, and for the same object. -/
theorem Moves.fds {s s' : State τ} {t : τ} {a : Act τ} (h : Moves s t a s') {fd obj : ℕ}
    (hfd : s.space.proc.fds fd = some obj) : s'.space.proc.fds fd = some obj := by
  cases h with
  | opens ha hfree hfds hp hphase hgranted hcreated =>
      rw [hfds, Function.update_of_ne]
      · exact hfd
      · rintro rfl
        rw [hfree] at hfd
        contradiction
  | grants hphase hn hfds hphase' hgranted hcreated => rwa [hfds]
  | keeps hfds hphase hp hgranted hcreated => rwa [hfds]

theorem Moves.created_cases {s s' : State τ} {t : τ} {a : Act τ} (h : Moves s t a s') :
    s'.space.shm.created = s.space.shm.created ∨
      ∃ fd, s'.space.proc.fds fd = some s.space.shm.created ∧
        s'.space.shm.created = s.space.shm.created + 1 := by
  cases h with
  | opens ha hfree hfds hp hphase hgranted hcreated =>
      refine hcreated.imp_right ?_
      rintro ⟨rfl, hsucc⟩
      exact ⟨_, by rw [hfds, Function.update_self], hsucc⟩
  | grants hphase hn hfds hphase' hgranted hcreated => exact .inl hcreated
  | keeps hfds hphase hp hgranted hcreated => exact .inl hcreated

theorem fds_run {s : State τ} {fd obj : ℕ} (hfd : s.space.proc.fds fd = some obj)
    (acts : List (Act τ)) : (Machine.run next s acts).space.proc.fds fd = some obj :=
  Machine.run_induction (P := fun s : State τ ↦ s.space.proc.fds fd = some obj) acts hfd
    fun _ _ _ hfd h ↦ by
      obtain ⟨t, h⟩ := moves_of_next h
      exact h.fds hfd

/-- Every region that has been granted has its own descriptor, and so has every session
that is about to be granted one. -/
structure Leaked (s : State τ) (gs : List (ℕ × ℕ)) : Prop where
  nodup : (gs.map Prod.fst).Nodup
  fds : ∀ g ∈ gs, s.space.proc.fds g.1 = some g.2
  phase : ∀ t fd, (s.phase t).fd = some fd →
    s.space.proc.fds fd ≠ none ∧ fd ∉ gs.map Prod.fst
  alone : ∀ t u fd, (s.phase t).fd = some fd → (s.phase u).fd = some fd → t = u

omit [DecidableEq τ] in
theorem Leaked.init (shm : Shm) : Leaked (init shm : State τ) [] where
  nodup := .nil
  fds _ hg := absurd hg List.not_mem_nil
  phase _ _ h := absurd h nofun
  alone _ _ _ h := absurd h nofun

/-- A session that is somewhere else has the descriptor it had, or none. -/
theorem fd_update {s : State τ} {t u : τ} {p : Phase} {fd : ℕ}
    (hp : p.fd = none ∨ p.fd = (s.phase t).fd)
    (hu : (Function.update s.phase t p u).fd = some fd) : (s.phase u).fd = some fd := by
  rcases eq_or_ne u t with rfl | hne
  · rw [Function.update_self] at hu
    rcases hp with hp | hp
    · rw [hp] at hu
      contradiction
    · exact hp.symm.trans hu
  · rwa [Function.update_of_ne hne] at hu

theorem Moves.leaked {s s' : State τ} {t : τ} {a : Act τ} {gs : List (ℕ × ℕ)}
    (h : Moves s t a s') (hs : Leaked s gs) : Leaked s' (gs ++ granted s a) := by
  have hmove := h
  cases h with
  | @opens n obj p ha hfree hfds hp hphase hgranted hcreated =>
      have hnew {u : τ} {fd : ℕ} (hu : (s'.phase u).fd = some fd) :
          u = t ∧ fd = n ∨ u ≠ t ∧ (s.phase u).fd = some fd := by
        rw [hphase] at hu
        rcases eq_or_ne u t with rfl | hne
        · rw [Function.update_self, hp] at hu
          exact .inl ⟨rfl, (Option.some_inj.mp hu).symm⟩
        · rw [Function.update_of_ne hne] at hu
          exact .inr ⟨hne, hu⟩
      rw [hgranted, List.append_nil]
      refine ⟨hs.nodup, fun g hg ↦ hmove.fds (hs.fds g hg), fun u fd hu ↦ ?_,
        fun u v fd hu hv ↦ ?_⟩
      · rcases hnew hu with ⟨rfl, rfl⟩ | ⟨-, hu⟩
        · constructor
          · rw [hfds, Function.update_self]
            exact Option.some_ne_none _
          · intro hmem
            obtain ⟨g, hg, rfl⟩ := List.mem_map.mp hmem
            rw [hs.fds g hg] at hfree
            contradiction
        · obtain ⟨hopen, hnotMem⟩ := hs.phase u fd hu
          obtain ⟨obj', hobj'⟩ := Option.ne_none_iff_exists'.mp hopen
          rw [hmove.fds hobj']
          exact ⟨Option.some_ne_none _, hnotMem⟩
      · rcases hnew hu with ⟨rfl, rfl⟩ | ⟨-, hu⟩ <;> rcases hnew hv with ⟨rfl, hfd⟩ | ⟨-, hv⟩
        · rfl
        · exact absurd hfree (hs.phase v fd hv).1
        · rw [hfd] at hu
          exact absurd hfree (hs.phase u n hu).1
        · exact hs.alone u v fd hu hv
  | @grants n obj hfd hn hfds hphase hgranted hcreated =>
      have hold {u : τ} {fd : ℕ} (hu : (s'.phase u).fd = some fd) :
          u ≠ t ∧ (s.phase u).fd = some fd := by
        rw [hphase] at hu
        refine ⟨?_, fd_update (.inl rfl) hu⟩
        rintro rfl
        rw [Function.update_self] at hu
        contradiction
      obtain ⟨-, hnotMem⟩ := hs.phase t n hfd
      rw [hgranted]
      refine ⟨?_, fun g hg ↦ ?_, fun u fd hu ↦ ?_, fun u v fd hu hv ↦ ?_⟩
      · rw [List.map_append, List.nodup_append]
        refine ⟨hs.nodup, List.nodup_singleton _, fun fd hmem fd' hmem' ↦ ?_⟩
        obtain rfl := List.mem_singleton.mp hmem'
        rintro rfl
        exact hnotMem hmem
      · rw [hfds]
        rcases List.mem_append.mp hg with hg | hg
        · exact hs.fds g hg
        · obtain rfl := List.mem_singleton.mp hg
          exact hn
      · obtain ⟨hne, hu⟩ := hold hu
        rw [hfds, List.map_append, List.mem_append, not_or]
        refine ⟨(hs.phase u fd hu).1, (hs.phase u fd hu).2, fun hmem ↦ hne ?_⟩
        obtain rfl := List.mem_singleton.mp hmem
        exact hs.alone u t _ hu hfd
      · exact hs.alone u v fd (hold hu).2 (hold hv).2
  | keeps hfds hphase hp hgranted hcreated =>
      have hold {u : τ} {fd : ℕ} (hu : (s'.phase u).fd = some fd) : (s.phase u).fd = some fd := by
        rw [hphase] at hu
        exact fd_update hp hu
      rw [hgranted, List.append_nil]
      refine ⟨hs.nodup, fun g hg ↦ hmove.fds (hs.fds g hg), fun u fd hu ↦ ?_,
        fun u v fd hu hv ↦ hs.alone u v fd (hold hu) (hold hv)⟩
      rw [hfds]
      exact hs.phase u fd (hold hu)

theorem leaked_run (shm : Shm) (acts : List (Act τ)) :
    Leaked (Machine.run next (init shm) acts) (grants (init shm) acts) :=
  Machine.image_induction acts (.init shm) fun _ _ _ _ _ hs h ↦ by
    obtain ⟨t, h⟩ := moves_of_next h
    exact h.leaked hs

/-- **What has been allocated is never given back.**  An object that the router has created,
and the object of a region it has granted, is referred to by one of its descriptors ever
after, whether the region has been freed or not; and no two regions share one. -/
theorem referenced (shm : Shm) (acts acts' : List (Act τ)) :
    (∀ obj, shm.created ≤ obj → obj < (Machine.run next (init shm) acts).space.shm.created →
      ∃ fd, (Machine.run next (init shm) (acts ++ acts')).space.proc.fds fd = some obj) ∧
    ((grants (init shm) acts).map Prod.fst).Nodup ∧
    ∀ g ∈ grants (init shm) acts,
      (Machine.run next (init shm) (acts ++ acts')).space.proc.fds g.1 = some g.2 := by
  have hleaked := leaked_run shm acts
  rw [Machine.run_append]
  refine ⟨fun obj hle hlt ↦ ?_, hleaked.nodup, fun g hg ↦ fds_run (hleaked.fds g hg) acts'⟩
  have hcreated : ∀ obj, shm.created ≤ obj →
      obj < (Machine.run next (init shm) acts).space.shm.created →
      ∃ fd, (Machine.run next (init shm) acts).space.proc.fds fd = some obj := by
    refine Machine.run_induction (P := fun s : State τ ↦ ∀ obj, shm.created ≤ obj →
      obj < s.space.shm.created → ∃ fd, s.space.proc.fds fd = some obj) acts ?_ ?_
    · intro obj hle hlt
      exact absurd hlt hle.not_gt
    · intro s a s' hs h obj hle hlt
      obtain ⟨t, h⟩ := moves_of_next h
      rcases h.created_cases with heq | ⟨n, hn, heq⟩
      · rw [heq] at hlt
        obtain ⟨fd, hfd⟩ := hs obj hle hlt
        exact ⟨fd, h.fds hfd⟩
      · rw [heq] at hlt
        rcases Nat.lt_succ_iff_lt_or_eq.mp hlt with hlt | rfl
        · obtain ⟨fd, hfd⟩ := hs obj hle hlt
          exact ⟨fd, h.fds hfd⟩
        · exact ⟨n, hn⟩
  obtain ⟨fd, hfd⟩ := hcreated obj hle hlt
  exact ⟨fd, fds_run hfd acts'⟩

/-! ## A limited number of descriptors -/

/-- Only descriptors below the limit are open. -/
def Below (limit : ℕ) (s : State τ) : Prop := ∀ fd, s.space.proc.fds fd ≠ none → fd < limit

theorem Moves.below {s s' : State τ} {t : τ} {a : Act τ} {limit : ℕ} (h : Moves s t a s')
    (ha : ∀ fd ∈ a.fd, fd < limit) (hs : Below limit s) : Below limit s' := by
  intro fd hfd
  cases h with
  | @opens n obj p hchosen hfree hfds hp hphase hgranted hcreated =>
      rw [hfds] at hfd
      rcases eq_or_ne fd n with rfl | hne
      · exact ha fd hchosen
      · exact hs fd (by rwa [Function.update_of_ne hne] at hfd)
  | grants hphase hn hfds hphase' hgranted hcreated => exact hs fd (hfds ▸ hfd)
  | keeps hfds hphase hp hgranted hcreated => exact hs fd (hfds ▸ hfd)

/-- Without a descriptor to be had, a session that is granted a region has had one. -/
theorem Moves.granted_mem {s s' : State τ} {t : τ} {a : Act τ} {limit : ℕ} (h : Moves s t a s')
    (ha : ∀ fd ∈ a.fd, fd < limit) (hfull : ∀ fd < limit, s.space.proc.fds fd ≠ none) :
    (∀ u fd, (s'.phase u).fd = some fd → (s.phase u).fd = some fd) ∧
      ∀ g ∈ granted s a, (s.phase t).fd = some g.1 := by
  cases h with
  | opens hchosen hfree hfds hp hphase hgranted hcreated =>
      exact absurd hfree (hfull _ (ha _ hchosen))
  | grants hphase hn hfds hphase' hgranted hcreated =>
      refine ⟨fun u fd hu ↦ ?_, fun g hg ↦ ?_⟩
      · rw [hphase'] at hu
        exact fd_update (.inl rfl) hu
      · rw [hgranted] at hg
        obtain rfl := List.mem_singleton.mp hg
        exact hphase
  | keeps hfds hphase hp hgranted hcreated =>
      refine ⟨fun u fd hu ↦ ?_, fun g hg ↦ ?_⟩
      · rw [hphase] at hu
        exact fd_update hp hu
      · rw [hgranted] at hg
        exact absurd hg List.not_mem_nil

/-- **How many regions a router grants.**  On a system with descriptors below `limit` only,
it grants no more than `limit` regions in its life, however many of them are freed; and
once all descriptors are open, only sessions that have got theirs before are granted
anything. -/
theorem exhausted (shm : Shm) (limit : ℕ) (acts acts' : List (Act τ))
    (hlimit : ∀ a ∈ acts ++ acts', ∀ fd ∈ a.fd, fd < limit) :
    (grants (init shm) acts).length ≤ limit ∧
    ((∀ fd < limit, (Machine.run next (init shm) acts).space.proc.fds fd ≠ none) →
      ∀ g ∈ grants (Machine.run next (init shm) acts) acts',
        ∃ t, ((Machine.run next (init shm) acts).phase t).fd = some g.1) := by
  constructor
  · have hleaked := leaked_run shm acts
    have hbelow : Below limit (Machine.run next (init shm) acts) := by
      refine (Machine.image_induction (f := granted) (P := fun (s : State τ) _ ↦ Below limit s) acts
        (fun fd hfd ↦ absurd rfl hfd) fun s _ a s' ha hs h ↦ ?_)
      obtain ⟨t, h⟩ := moves_of_next h
      exact h.below (hlimit a (List.mem_append_left _ ha)) hs
    have hsubset : ((grants (init shm) acts).map Prod.fst).toFinset ⊆ Finset.range limit := by
      intro fd hfd
      obtain ⟨g, hg, rfl⟩ := List.mem_map.mp (List.mem_toFinset.mp hfd)
      refine Finset.mem_range.mpr (hbelow g.1 ?_)
      rw [hleaked.fds g hg]
      exact Option.some_ne_none _
    have hcard := Finset.card_le_card hsubset
    rwa [List.toFinset_card_of_nodup hleaked.nodup, List.length_map, Finset.card_range] at hcard
  · intro hfull
    set s₀ := Machine.run next (init shm) acts with hs₀
    have hrun : (∀ fd < limit, (Machine.run next s₀ acts').space.proc.fds fd ≠ none) ∧
        (∀ u fd, ((Machine.run next s₀ acts').phase u).fd = some fd →
          (s₀.phase u).fd = some fd) ∧
        ∀ g ∈ grants s₀ acts', ∃ t, (s₀.phase t).fd = some g.1 := by
      refine Machine.image_induction (f := granted) (P := fun (s : State τ) gs ↦
        (∀ fd < limit, s.space.proc.fds fd ≠ none) ∧
        (∀ u fd, (s.phase u).fd = some fd → (s₀.phase u).fd = some fd) ∧
        ∀ g ∈ gs, ∃ t, (s₀.phase t).fd = some g.1) acts'
        ⟨hfull, fun _ _ hu ↦ hu, fun g hg ↦ absurd hg List.not_mem_nil⟩ ?_
      rintro s gs a s' ha ⟨hs, hphase, hgs⟩ h
      obtain ⟨t, h⟩ := moves_of_next h
      obtain ⟨hback, hgranted⟩ := h.granted_mem (hlimit a (List.mem_append_right _ ha)) hs
      refine ⟨fun fd hfd ↦ ?_, fun u fd hu ↦ hphase u fd (hback u fd hu), fun g hg ↦ ?_⟩
      · obtain ⟨obj, hobj⟩ := Option.ne_none_iff_exists'.mp (hs fd hfd)
        rw [h.fds hobj]
        exact Option.some_ne_none _
      · rcases List.mem_append.mp hg with hg | hg
        · exact hgs g hg
        · exact ⟨t, hphase t _ (hgranted g hg)⟩
    exact hrun.2.2

/-- One descriptor: a region is granted and freed, and the next one is refused. -/
def oneDescriptor : List (Act Unit) × List (Act Unit) :=
  ([.alloc () (bytes "a") 4096, .create () (some 0), .truncate () true, .map () (some 1),
    .free () (bytes "a") 4096 4096, .unmap (), .unlink ()],
   [.alloc () (bytes "b") 4096, .create () (some 0), .reopen () none])

theorem exhausted_oneDescriptor :
    grants (init .empty) oneDescriptor.1 = [(0, 0)] ∧
      (grants (init .empty) oneDescriptor.1).length ≤ 1 ∧
      ∀ g ∈ grants (Machine.run next (init .empty) oneDescriptor.1) oneDescriptor.2,
        ∃ t, ((Machine.run next (init .empty) oneDescriptor.1).phase t).fd = some g.1 := by
  obtain ⟨hle, hmem⟩ :=
    exhausted .empty 1 oneDescriptor.1 oneDescriptor.2 (by decide)
  exact ⟨by decide, hle, hmem (by decide)⟩

end Regions

end Freelite
