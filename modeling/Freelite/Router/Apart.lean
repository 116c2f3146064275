import Freelite.Router.Undisturbed

/-!
# Sessions that keep apart

When every name has at most one user at a time, be it a live region or a session with an
unfinished request, and sessions are only asked to free their own regions, then what a
session does is confined to its name: `Keeps` is what it leaves alone, and every system
call of the two functions does.
-/

namespace Freelite

open Lib

namespace Regions

variable {τ : Type*}

/-- The condition on the requests.  A region is asked for under a name that no live region
has and no session is working on, and only a session's own live region is to be freed. -/
def Apart (s : State τ) : Act τ → Prop
  | .alloc _ name _ => (∀ R ∈ s.live, R.name ≠ name) ∧ ∀ u, (s.phase u).name ≠ some name
  | .free t name size addr => ∃ R ∈ s.live, R.IsFor t name size addr
  | _ => True

/-! ## What belongs to a name -/

/-- From one state to another, everything that does not belong to the name has been kept. -/
structure Keeps (name : List UInt8) (m m' : Space) : Prop where
  names : ∀ name' ≠ name, m'.shm.names name' = m.shm.names name'
  fds : ∀ fd obj, m.proc.fds fd = some obj → m'.proc.fds fd = some obj
  size : ∀ name' ≠ name, ∀ obj, m.shm.names name' = some obj → m'.shm.size obj = m.shm.size obj
  pages : ∀ name' ≠ name, ∀ obj, m.shm.names name' = some obj →
    ∀ q i, m.proc.pages q = some (obj, i) → m'.proc.pages q = some (obj, i)

section Keeps

variable {name : List UInt8} {m : Space}

theorem keeps_refl : Keeps name m m :=
  ⟨fun _ _ ↦ rfl, fun _ _ h ↦ h, fun _ _ _ _ ↦ rfl, fun _ _ _ _ _ _ h ↦ h⟩

/-- A new descriptor. -/
theorem keeps_openFd {fd obj : ℕ} (hfd : m.proc.fds fd = none) :
    Keeps name m ⟨m.shm, m.proc.openFd fd obj⟩ where
  names _ _ := rfl
  fds n obj' hn := by
    change Function.update m.proc.fds fd (some obj) n = some obj'
    rwa [Function.update_of_ne]
    rintro rfl
    rw [hfd] at hn
    contradiction
  size _ _ _ _ := rfl
  pages _ _ _ _ _ _ h := h

theorem keeps_create {fd : ℕ} (hfd : m.proc.fds fd = none) :
    Keeps name m ⟨m.shm.create name, m.proc.openFd fd m.shm.created⟩ where
  names _ hne := Function.update_of_ne hne _ _
  fds := (keeps_openFd hfd : Keeps name m ⟨m.shm, m.proc.openFd fd m.shm.created⟩).fds
  size _ _ _ hobj := Function.update_of_ne (m.shm.names_lt hobj).ne _ _
  pages _ _ _ _ _ _ h := h

/-- The object of the name gets another size. -/
theorem keeps_resize {obj n : ℕ} (hname : m.shm.names name = some obj) :
    Keeps name m ⟨m.shm.resize obj n, m.proc⟩ where
  names _ _ := rfl
  fds _ _ h := h
  size name' hne obj' hobj' := by
    refine Function.update_of_ne ?_ _ _
    rintro rfl
    exact hne (m.shm.names_inj hobj' hname)
  pages _ _ _ _ _ _ h := h

theorem keeps_map {p : ℕ} {size : UInt64} (hfree : m.proc.Free p size) (obj : ℕ) :
    Keeps name m ⟨m.shm, m.proc.map p (pageCount size) obj⟩ where
  names _ _ := rfl
  fds _ _ h := h
  size _ _ _ _ := rfl
  pages _ _ _ _ _ _ h := Proc.pages_map hfree obj h

/-- Pages that map the object of the name are unmapped. -/
theorem keeps_unmap {addr size : UInt64} {obj : ℕ} (hname : m.shm.names name = some obj)
    (hmaps : m.proc.Maps addr size obj) :
    Keeps name m ⟨m.shm, m.proc.unmap (pageOf addr) (pageCount size)⟩ where
  names _ _ := rfl
  fds _ _ h := h
  size _ _ _ _ := rfl
  pages name' hne obj' hobj' q i hq := by
    refine (Proc.pages_unmap fun hin ↦ ?_).trans hq
    have hpage := hmaps (q - pageOf addr) (by omega)
    rw [Nat.add_sub_cancel' hin.1, hq, Option.some_inj, Prod.mk_inj] at hpage
    exact hne (m.shm.names_inj hobj' (hpage.1 ▸ hname))

theorem keeps_unlink : Keeps name m ⟨m.shm.unlink name, m.proc⟩ where
  names _ hne := Function.update_of_ne hne _ _
  fds _ _ h := h
  size _ _ _ _ := rfl
  pages _ _ _ _ _ _ h := h

end Keeps

/-- What a session in the middle of a request can count on. -/
def Phase.Holds (m : Space) : Phase → Prop
  | .truncating name _ fd => ∃ obj, m.proc.fds fd = some obj ∧ m.shm.names name = some obj
  | .mapping name size fd => ∃ obj, m.proc.fds fd = some obj ∧ m.shm.names name = some obj ∧
      size.toNat ≤ m.shm.size obj
  | .unmapping name size addr _ => ∃ obj, m.shm.names name = some obj ∧ m.proc.Maps addr size obj
  | .unlinking name _ => m.shm.names name ≠ none
  | _ => True

theorem Phase.Holds.keeps {p : Phase} {m m' : Space} {name : List UInt8} (h : p.Holds m)
    (hk : Keeps name m m') (hne : p.name ≠ some name) : p.Holds m' := by
  have of_ne {name' : List UInt8} (hp : some name' ≠ some name) : name' ≠ name :=
    fun heq ↦ hp (congrArg some heq)
  cases p with
  | truncating name' size fd =>
      obtain ⟨obj, hfd, hobj⟩ := h
      exact ⟨obj, hk.fds fd obj hfd, (hk.names name' (of_ne hne)).trans hobj⟩
  | mapping name' size fd =>
      obtain ⟨obj, hfd, hobj, hsize⟩ := h
      refine ⟨obj, hk.fds fd obj hfd, (hk.names name' (of_ne hne)).trans hobj, ?_⟩
      rwa [hk.size name' (of_ne hne) obj hobj]
  | unmapping name' size addr own =>
      obtain ⟨obj, hobj, hmaps⟩ := h
      exact ⟨obj, (hk.names name' (of_ne hne)).trans hobj,
        fun i hi ↦ hk.pages name' (of_ne hne) obj hobj _ _ (hmaps i hi)⟩
  | unlinking name' own =>
      change m'.shm.names name' ≠ none
      rw [hk.names name' (of_ne hne)]
      exact h
  | _ => trivial

/-! ## One user for every name -/

structure Held (s : State τ) : Prop where
  unique : ∀ R ∈ s.live, ∀ R' ∈ s.live, R.name = R'.name → R = R'
  busy : ∀ R ∈ s.live, ∀ u, (s.phase u).name ≠ some R.name
  alone : ∀ t u name, (s.phase t).name = some name → (s.phase u).name = some name → t = u
  names : ∀ R ∈ s.live, s.space.shm.names R.name = some R.obj
  working : ∀ t, (s.phase t).Holds s.space

theorem held_init (shm : Shm) : Held (init shm : State τ) := by
  constructor <;> simp [init, Phase.name, Phase.Holds]

section Steps

variable [DecidableEq τ] {s s' : State τ} {t : τ}

theorem name_goto (p : Phase) (u : τ) :
    ((s.goto t p).phase u).name = if u = t then p.name else (s.phase u).name := by
  change (Function.update s.phase t p u).name = _
  by_cases hut : u = t
  · rw [hut, Function.update_self, if_pos rfl]
  · rw [Function.update_of_ne hut, if_neg hut]

namespace Held

/-- A session goes on with its name, or is done with it. -/
theorem step (hs : Held s) {name : List UInt8} {p : Phase} {m : Space}
    (ht : (s.phase t).name = some name) (hp : p.name = some name ∨ p = .idle)
    (hk : Keeps name s.space m) (hh : p.Holds m) : Held { s.goto t p with space := m } := by
  have hbusy {R : Region τ} (hR : R ∈ s.live) : R.name ≠ name := by
    rintro rfl
    exact hs.busy R hR t ht
  have hold {u : τ} {name' : List UInt8}
      (hu : (Function.update s.phase t p u).name = some name') : (s.phase u).name = some name' := by
    by_cases hut : u = t
    · subst hut
      rw [Function.update_self] at hu
      obtain hp | rfl := hp
      · rwa [ht, ← hp]
      · contradiction
    · rwa [Function.update_of_ne hut] at hu
  exact
    { unique := hs.unique
      busy := fun R hR u hu ↦ hs.busy R hR u (hold hu)
      alone := fun u v name' hu hv ↦ hs.alone u v name' (hold hu) (hold hv)
      names := fun R hR ↦ (hk.names R.name (hbusy hR)).trans (hs.names R hR)
      working := fun u ↦ by
        change (Function.update s.phase t p u).Holds m
        by_cases hut : u = t
        · subst hut
          rwa [Function.update_self]
        · rw [Function.update_of_ne hut]
          exact (hs.working u).keeps hk fun hu ↦ hut (hs.alone u t name hu ht) }

omit [DecidableEq τ] in
/-- The name of a session that is done becomes the name of a live region. -/
theorem concat (hs : Held s) {R : Region τ} (hlive : ∀ R' ∈ s.live, R'.name ≠ R.name)
    (hbusy : ∀ u, (s.phase u).name ≠ some R.name)
    (hname : s.space.shm.names R.name = some R.obj) : Held { s with live := s.live ++ [R] } where
  unique R₁ h₁ R₂ h₂ heq := by
    obtain h₁ | h₁ := List.mem_append.mp h₁ <;> obtain h₂ | h₂ := List.mem_append.mp h₂
    · exact hs.unique R₁ h₁ R₂ h₂ heq
    · rw [List.mem_singleton.mp h₂] at heq
      exact (hlive R₁ h₁ heq).elim
    · rw [List.mem_singleton.mp h₁] at heq
      exact (hlive R₂ h₂ heq.symm).elim
    · rw [List.mem_singleton.mp h₁, List.mem_singleton.mp h₂]
  busy R' hR' := by
    obtain hR' | hR' := List.mem_append.mp hR'
    · exact hs.busy R' hR'
    · rw [List.mem_singleton.mp hR']
      exact hbusy
  alone := hs.alone
  names R' hR' := by
    obtain hR' | hR' := List.mem_append.mp hR'
    · exact hs.names R' hR'
    · rw [List.mem_singleton.mp hR']
      exact hname
  working := hs.working

/-- A session that takes up a name no session has is the only one to have it. -/
theorem alone_goto (hs : Held s) {name : List UInt8} {p : Phase} (hp : p.name = some name)
    (hbusy : ∀ u, (s.phase u).name ≠ some name) {u v : τ} {name' : List UInt8}
    (hu : ((s.goto t p).phase u).name = some name')
    (hv : ((s.goto t p).phase v).name = some name') : u = v := by
  rw [name_goto, hp] at hu hv
  split_ifs at hu hv with hut hvt hvt
  · rw [hut, hvt]
  · exact (hbusy v (hv.trans hu.symm)).elim
  · exact (hbusy u (hu.trans hv.symm)).elim
  · exact hs.alone u v name' hu hv

theorem working_goto (hs : Held s) {p : Phase} (hp : p.Holds s.space) (u : τ) :
    ((s.goto t p).phase u).Holds s.space := by
  change (Function.update s.phase t p u).Holds s.space
  by_cases hut : u = t
  · rwa [hut, Function.update_self]
  · rw [Function.update_of_ne hut]
    exact hs.working u

/-- A session is asked for a region under an unused name. -/
theorem alloc (hs : Held s) {name : List UInt8} {size : UInt64}
    (hlive : ∀ R ∈ s.live, R.name ≠ name) (hbusy : ∀ u, (s.phase u).name ≠ some name) :
    Held (s.goto t (.creating name size)) where
  unique := hs.unique
  busy R hR u hu := by
    rw [name_goto] at hu
    split_ifs at hu
    · exact hlive R hR (Option.some_inj.mp hu).symm
    · exact hs.busy R hR u hu
  alone _ _ _ hu hv := hs.alone_goto rfl hbusy hu hv
  names := hs.names
  working := hs.working_goto trivial

/-- A session is asked to free its own region. -/
theorem free (hs : Held s) {R : Region τ} (hR : R ∈ s.live)
    (hmaps : s.space.proc.Maps R.addr R.size R.obj) {own : Bool} {live : List (Region τ)}
    (hlive : ∀ R' ∈ live, R' ∈ s.live ∧ R' ≠ R) :
    Held { s.goto t (.unmapping R.name R.size R.addr own) with live } where
  unique R₁ h₁ R₂ h₂ := hs.unique R₁ (hlive R₁ h₁).1 R₂ (hlive R₂ h₂).1
  busy R' hR' u hu := by
    obtain ⟨hmem, hne⟩ := hlive R' hR'
    change ((s.goto t _).phase u).name = some R'.name at hu
    rw [name_goto] at hu
    split_ifs at hu
    · exact hne (hs.unique R' hmem R hR (Option.some_inj.mp hu).symm)
    · exact hs.busy R' hmem u hu
  alone _ _ _ hu hv := hs.alone_goto rfl (hs.busy R hR) hu hv
  names R' hR' := hs.names R' (hlive R' hR').1
  working := hs.working_goto ⟨R.obj, hs.names R hR, hmaps⟩

theorem next (hs : Held s) (hu : Undisturbed s) {act : Act τ} (hap : Apart s act)
    (h : next s act = some s') : Held s' := by
  cases act with
  | alloc t name size =>
      obtain ⟨-, rfl⟩ := alloc_eq h
      exact hs.alloc hap.1 hap.2
  | free t name size addr =>
      obtain ⟨-, rfl⟩ := free_eq h
      obtain ⟨R, hR, hfor⟩ := hap
      obtain ⟨-, rfl, rfl, rfl⟩ := id hfor
      refine hs.free hR (hu.mapped R hR) fun R' hR' ↦ ?_
      obtain ⟨hmem, hnot⟩ := List.mem_filter.mp hR'
      refine ⟨hmem, ?_⟩
      rintro rfl
      exact of_decide_eq_true hnot hfor
  | create t fd =>
      obtain ⟨name, size, hp, rfl | ⟨n, hname, hfree, rfl⟩⟩ := create_eq h
      · exact hs.step (by rw [hp]; rfl) (.inl rfl) keeps_refl trivial
      · refine hs.step (by rw [hp]; rfl) (.inl rfl) (keeps_create hfree) ?_
        exact ⟨s.space.shm.created, Function.update_self .., Function.update_self ..⟩
  | reopen t fd =>
      obtain ⟨name, size, hp, rfl | ⟨n, obj, hname, hfree, rfl⟩⟩ := reopen_eq h
      · exact hs.step (by rw [hp]; rfl) (.inr rfl) keeps_refl trivial
      · refine hs.step (by rw [hp]; rfl) (.inl rfl) (keeps_openFd hfree) ?_
        exact ⟨obj, Function.update_self .., hname⟩
  | truncate t ok =>
      obtain ⟨name, size, fd, hp, ⟨-, rfl⟩ | ⟨obj, hfd, -, rfl⟩⟩ := truncate_eq h
      · exact hs.step (by rw [hp]; rfl) (.inr rfl) keeps_refl trivial
      · obtain ⟨obj', hfd', hname⟩ : (Phase.truncating name size fd).Holds s.space :=
          hp ▸ hs.working t
        obtain rfl := Option.some_inj.mp (hfd.symm.trans hfd')
        refine hs.step (by rw [hp]; rfl) (.inl rfl) (keeps_resize hname) ?_
        refine ⟨obj, hfd, hname, ?_⟩
        change size.toNat ≤ Function.update s.space.shm.size obj size.toNat obj
        rw [Function.update_self]
  | map t page =>
      obtain ⟨name, size, fd, hp, ⟨-, rfl⟩ | ⟨p, obj, hfd, hfree, -, rfl⟩⟩ := map_eq h
      · exact hs.step (by rw [hp]; rfl) (.inr rfl) keeps_refl trivial
      · obtain ⟨obj', hfd', hname, -⟩ : (Phase.mapping name size fd).Holds s.space :=
          hp ▸ hs.working t
        obtain rfl := Option.some_inj.mp (hfd.symm.trans hfd')
        have ht : (s.phase t).name = some name := by rw [hp]; rfl
        have hidle := hs.step ht (.inr rfl) (keeps_map hfree obj) trivial
        refine hidle.concat (fun R hR heq ↦ hs.busy R hR t (heq ▸ ht)) (fun u hu ↦ ?_) hname
        change (Function.update s.phase t .idle u).name = some name at hu
        by_cases hut : u = t
        · rw [hut, Function.update_self] at hu
          contradiction
        · rw [Function.update_of_ne hut] at hu
          exact hut (hs.alone u t name hu ht)
  | unmap t =>
      obtain ⟨name, size, addr, own, hp, ⟨-, rfl⟩ | ⟨-, rfl⟩⟩ := unmap_eq h
      · exact { hs.step (p := .idle) (by rw [hp]; rfl) (.inr rfl) keeps_refl trivial with }
      · obtain ⟨obj, hname, hmaps⟩ : (Phase.unmapping name size addr own).Holds s.space :=
          hp ▸ hs.working t
        refine hs.step (by rw [hp]; rfl) (.inl rfl) (keeps_unmap hname hmaps) ?_
        change s.space.shm.names name ≠ none
        simp [hname]
  | unlink t =>
      obtain ⟨name, own, hp, ⟨-, rfl⟩ | ⟨-, rfl⟩⟩ := unlink_eq h
      · exact { hs.step (p := .idle) (by rw [hp]; rfl) (.inr rfl) keeps_refl trivial with }
      · exact { hs.step (p := .idle) (by rw [hp]; rfl) (.inr rfl) keeps_unlink trivial with }

omit [DecidableEq τ] in
/-- A live region is no object that a session is working on. -/
theorem obj_ne (hs : Held s) {name : List UInt8} {obj : ℕ} (ht : (s.phase t).name = some name)
    (hname : s.space.shm.names name = some obj) {R : Region τ} (hR : R ∈ s.live) :
    R.obj ≠ obj := by
  rintro rfl
  have heq := s.space.shm.names_inj (hs.names R hR) hname
  exact hs.busy R hR t (heq ▸ ht)

omit [DecidableEq τ] in
/-- Every system call is clear of the live regions. -/
theorem clear (hs : Held s) (hu : Undisturbed s) (act : Act τ) : Clear s act := by
  cases act with
  | truncate t ok =>
      intro name size fd obj hp hfd _ R hR hobj
      obtain ⟨obj', hfd', hname⟩ : (Phase.truncating name size fd).Holds s.space :=
        hp ▸ hs.working t
      obtain rfl := Option.some_inj.mp (hfd.symm.trans hfd')
      exact (hs.obj_ne (by rw [hp]; rfl) hname hR hobj).elim
  | map t page =>
      intro name size fd obj hp hfd _
      obtain ⟨obj', hfd', hname, hsize⟩ : (Phase.mapping name size fd).Holds s.space :=
        hp ▸ hs.working t
      obtain rfl := Option.some_inj.mp (hfd.symm.trans hfd')
      exact ⟨hsize, fun R hR _ ↦ hs.obj_ne (by rw [hp]; rfl) hname hR⟩
  | unmap t =>
      intro name size addr own hp _ R hR i hi hin
      obtain ⟨obj, hname, hmaps⟩ : (Phase.unmapping name size addr own).Holds s.space :=
        hp ▸ hs.working t
      have hpage := hmaps (pageOf R.addr + i - pageOf addr) (by omega)
      rw [Nat.add_sub_cancel' hin.1, hu.mapped R hR i hi, Option.some_inj, Prod.mk_inj] at hpage
      exact hs.obj_ne (by rw [hp]; rfl) hname hR hpage.1
  | unlink t =>
      intro name hp
      exact (hp ▸ hs.working t : (Phase.unlinking name true).Holds s.space)
  | _ => trivial

end Held

end Steps

/-! ## Runs -/

/-- **When live regions are undisturbed.**  They are throughout a run if and only if every
system call is clear of them; and they are if the sessions keep apart. -/
theorem undisturbed_iff [DecidableEq τ] (shm : Shm) (acts : List (Act τ)) :
    ((∀ acts', acts' <+: acts → Undisturbed (Machine.run next (init shm) acts')) ↔
      Machine.Meets next Clear (init shm) acts) ∧
    (Machine.Meets next Apart (init shm) acts →
      ∀ acts', acts' <+: acts → Undisturbed (Machine.run next (init shm) acts')) := by
  have hiff : Machine.Meets next Clear (init shm) acts ↔
      ∀ acts', acts' <+: acts → Undisturbed (Machine.run next (init shm) acts') :=
    Machine.meets_iff_forall_prefix (sound_init shm) (undisturbed_init shm)
      (fun _ _ _ hw h ↦ hw.next h) fun _ _ _ hw hs h ↦ clear_iff hw hs h
  refine ⟨hiff.symm, fun hap ↦ hiff.mp ?_⟩
  refine Machine.meets_of_meets (P := fun s ↦ Sound s ∧ Undisturbed s ∧ Held s)
    ⟨sound_init shm, undisturbed_init shm, held_init shm⟩ hap ?_
  intro s act s' ⟨hw, hu, hs⟩ hact h
  have hclear := hs.clear hu act
  exact ⟨hclear, hw.next h, (clear_iff hw hu h).mp hclear, hs.next hu hact h⟩

/-- Two sessions are asked for regions under one name. -/
theorem not_undisturbed_same_name :
    ¬ ∀ acts : List (Act (Fin 2)), Undisturbed (Machine.run next (init .empty) acts) := by
  intro h
  have hs := h
    [.alloc 0 [0x61] 4096, .create 0 (some 3), .truncate 0 true, .map 0 (some 1),
      .alloc 1 [0x61] 4096, .create 1 (some 4), .reopen 1 (some 4), .truncate 1 true,
      .map 1 (some 2)]
  exact hs.distinct ⟨0, [0x61], 4096, pageAddr 1, 0⟩ (by decide)
    ⟨1, [0x61], 4096, pageAddr 2, 0⟩ (by decide) (by decide) rfl

end Regions

end Freelite
