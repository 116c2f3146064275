import Freelite.Router.Regions

/-!
# When live regions are left alone

`Undisturbed` is what the owner of a live region relies on: its pages stay mapped, the
object behind them keeps its size, no other session's region is the same object, and
freeing it succeeds.  `Clear` is what a system call must not do to it, and nothing more:
`clear_iff` is an equivalence for every step.

That the sessions keep `Apart` is a condition on what they are asked for, and not on
system calls.  Under it the objects of different names do not meet (`Held`).
-/

namespace Freelite

open Lib

namespace Regions

variable {τ : Type*}

/-- The live regions have been left alone so far. -/
structure Undisturbed (s : State τ) : Prop where
  mapped : ∀ R ∈ s.live, s.space.proc.Maps R.addr R.size R.obj
  size : ∀ R ∈ s.live, R.size.toNat ≤ s.space.shm.size R.obj
  distinct : ∀ R ∈ s.live, ∀ R' ∈ s.live, R.owner ≠ R'.owner → R.obj ≠ R'.obj
  /-- Freeing one's own region has returned zero. -/
  freed : ∀ e ∈ s.freed, e.1 = true → e.2 = 0

/-- A system call is clear of the live regions.  No live region is larger than an object
after `ftruncate`; when `mmap` completes an allocation, the object still has the size and
is not another session's live region; `munmap` meets none of their pages; and a session
that frees its own region still finds the name. -/
def Clear (s : State τ) : Act τ → Prop
  | .truncate t ok => ∀ name size fd obj, s.phase t = .truncating name size fd →
      s.space.proc.fds fd = some obj → (ftruncate ok fd size s.space).1 = true →
        ∀ R ∈ s.live, R.obj = obj → R.size.toNat ≤ size.toNat
  | .map t page => ∀ name size fd obj, s.phase t = .mapping name size fd →
      s.space.proc.fds fd = some obj → (mmap page size fd s.space).1 ≠ none →
        size.toNat ≤ s.space.shm.size obj ∧ ∀ R ∈ s.live, R.owner ≠ t → R.obj ≠ obj
  | .unmap t => ∀ name size addr own, s.phase t = .unmapping name size addr own →
      Unmappable addr size → ∀ R ∈ s.live, ∀ i < pageCount R.size,
        ¬ (pageOf addr ≤ pageOf R.addr + i ∧ pageOf R.addr + i < pageOf addr + pageCount size)
  | .unlink t => ∀ name, s.phase t = .unlinking name true → s.space.shm.names name ≠ none
  | _ => True

/-- What holds whatever the sessions do. -/
structure Sound (s : State τ) : Prop where
  fds_lt : ∀ fd obj, s.space.proc.fds fd = some obj → obj < s.space.shm.created
  live_lt : ∀ R ∈ s.live, R.obj < s.space.shm.created
  unmappable : ∀ R ∈ s.live, Unmappable R.addr R.size
  own : ∀ t name size addr, s.phase t = .unmapping name size addr true → Unmappable addr size

theorem sound_init (shm : Shm) : Sound (init shm : State τ) := by
  constructor <;> simp [init, Proc.empty]

theorem undisturbed_init (shm : Shm) : Undisturbed (init shm : State τ) := by
  constructor <;> simp [init]

section Steps

variable [DecidableEq τ] {s s' : State τ} {t : τ}

/-! ## Sound states -/

namespace Sound

/-- The session goes where it is not about to unmap a region of its own. -/
theorem goto (hs : Sound s) {p : Phase}
    (hp : ∀ name size addr, p = .unmapping name size addr true → Unmappable addr size) :
    Sound (s.goto t p) where
  __ := hs
  own u name size addr hu := by
    change Function.update s.phase t p u = _ at hu
    by_cases hut : u = t
    · subst hut
      rw [Function.update_self] at hu
      exact hp name size addr hu
    · rw [Function.update_of_ne hut] at hu
      exact hs.own u name size addr hu

omit [DecidableEq τ] in
/-- A new descriptor. -/
theorem openFd (hs : Sound s) {fd obj : ℕ} (hobj : obj < s.space.shm.created) :
    Sound { s with space := ⟨s.space.shm, s.space.proc.openFd fd obj⟩ } where
  __ := hs
  fds_lt n obj' hn := by
    change Function.update s.space.proc.fds fd (some obj) n = _ at hn
    by_cases h : n = fd
    · rw [h, Function.update_self, Option.some_inj] at hn
      exact hn ▸ hobj
    · rw [Function.update_of_ne h] at hn
      exact hs.fds_lt n obj' hn

omit [DecidableEq τ] in
/-- More objects. -/
theorem create (hs : Sound s) (name : List UInt8) :
    Sound { s with space := ⟨s.space.shm.create name, s.space.proc⟩ } where
  fds_lt fd obj h := (hs.fds_lt fd obj h).trans (Nat.lt_succ_self _)
  live_lt R hR := (hs.live_lt R hR).trans (Nat.lt_succ_self _)
  unmappable := hs.unmappable
  own := hs.own

theorem next (hs : Sound s) {act : Act τ} (h : next s act = some s') : Sound s' := by
  cases act with
  | alloc t name size =>
      obtain ⟨-, rfl⟩ := alloc_eq h
      exact hs.goto (by simp)
  | free t name size addr =>
      obtain ⟨-, rfl⟩ := free_eq h
      have hgoto : Sound (s.goto t (.unmapping name size addr
          (s.live.any fun R ↦ R.IsFor t name size addr))) := by
        refine hs.goto fun _ _ _ heq ↦ ?_
        obtain ⟨rfl, rfl, rfl, hown⟩ := Phase.unmapping.inj heq
        obtain ⟨R, hR, hfor⟩ := List.any_eq_true.mp hown
        obtain ⟨-, -, rfl, rfl⟩ := of_decide_eq_true hfor
        exact hs.unmappable R hR
      exact
        { hgoto with
          live_lt := fun R hR ↦ hs.live_lt R (List.mem_of_mem_filter hR)
          unmappable := fun R hR ↦ hs.unmappable R (List.mem_of_mem_filter hR) }
  | create t fd =>
      obtain ⟨name, size, -, rfl | ⟨n, -, -, rfl⟩⟩ := create_eq h
      · exact hs.goto (by simp)
      · exact ((hs.create name).openFd (Nat.lt_succ_self _)).goto (by simp)
  | reopen t fd =>
      obtain ⟨name, size, -, rfl | ⟨n, obj, hn, -, rfl⟩⟩ := reopen_eq h
      · exact hs.goto (by simp)
      · exact (hs.openFd (s.space.shm.names_lt hn)).goto (by simp)
  | truncate t ok =>
      obtain ⟨name, size, fd, -, ⟨-, rfl⟩ | ⟨obj, -, -, rfl⟩⟩ := truncate_eq h
      · exact hs.goto (by simp)
      · exact { hs.goto (t := t) (p := .mapping name size fd) (by simp) with }
  | map t page =>
      obtain ⟨name, size, fd, -, ⟨-, rfl⟩ | ⟨p, obj, hfd, hfree, -, rfl⟩⟩ := map_eq h
      · exact hs.goto (by simp)
      · refine
          { hs.goto (t := t) (p := .idle) (by simp) with
            live_lt := fun R hR ↦ ?_
            unmappable := fun R hR ↦ ?_ }
        all_goals
          rw [List.mem_append, List.mem_singleton] at hR
          obtain hR | rfl := hR
        · exact hs.live_lt R hR
        · exact hs.fds_lt fd obj hfd
        · exact hs.unmappable R hR
        · exact hfree.unmappable
  | unmap t =>
      obtain ⟨name, size, addr, own, -, ⟨-, rfl⟩ | ⟨-, rfl⟩⟩ := unmap_eq h
      · exact { hs.goto (t := t) (p := .idle) (by simp) with }
      · exact { hs.goto (t := t) (p := .unlinking name own) (by simp) with }
  | unlink t =>
      obtain ⟨name, own, -, ⟨-, rfl⟩ | ⟨-, rfl⟩⟩ := unlink_eq h
      · exact { hs.goto (t := t) (p := .idle) (by simp) with }
      · exact { hs.goto (t := t) (p := .idle) (by simp) with }

end Sound

/-! ## What a step must not do -/

omit [DecidableEq τ] in
/-- Fewer regions, and nothing happens to them. -/
theorem Undisturbed.of_subset (hs : Undisturbed s) (hlive : ∀ R ∈ s'.live, R ∈ s.live)
    (hpages : s'.space.proc.pages = s.space.proc.pages)
    (hsize : ∀ R ∈ s.live, s'.space.shm.size R.obj = s.space.shm.size R.obj)
    (hfreed : s'.freed = s.freed) : Undisturbed s' where
  mapped R hR i hi := by
    rw [hpages]
    exact hs.mapped R (hlive R hR) i hi
  size R hR := by
    rw [hsize R (hlive R hR)]
    exact hs.size R (hlive R hR)
  distinct R hR R' hR' := hs.distinct R (hlive R hR) R' (hlive R' hR')
  freed := by
    rw [hfreed]
    exact hs.freed

theorem truncate_iff (hs : Undisturbed s) {p : Phase} {obj n : ℕ} :
    (∀ R ∈ s.live, R.obj = obj → R.size.toNat ≤ n) ↔
      Undisturbed { s.goto t p with space := ⟨s.space.shm.resize obj n, s.space.proc⟩ } := by
  constructor
  · intro h
    refine { hs with size := fun R hR ↦ ?_ }
    change R.size.toNat ≤ Function.update s.space.shm.size obj n R.obj
    by_cases hobj : R.obj = obj
    · rw [hobj, Function.update_self]
      exact h R hR hobj
    · rw [Function.update_of_ne hobj]
      exact hs.size R hR
  · rintro h R hR rfl
    have hsize := h.size R hR
    change R.size.toNat ≤ Function.update s.space.shm.size R.obj n R.obj at hsize
    rwa [Function.update_self] at hsize

theorem map_iff (hs : Undisturbed s) {q : Phase} {name : List UInt8} {size : UInt64} {p obj : ℕ}
    (hfree : s.space.proc.Free p size) :
    (size.toNat ≤ s.space.shm.size obj ∧ ∀ R ∈ s.live, R.owner ≠ t → R.obj ≠ obj) ↔
      Undisturbed { s.goto t q with
        space := ⟨s.space.shm, s.space.proc.map p (pageCount size) obj⟩
        live := s.live ++ [⟨t, name, size, pageAddr p, obj⟩] } := by
  have hnew : (⟨t, name, size, pageAddr p, obj⟩ : Region τ) ∈
      s.live ++ [⟨t, name, size, pageAddr p, obj⟩] :=
    List.mem_append_right _ (List.mem_singleton_self _)
  constructor
  · intro ⟨hsize, hobj⟩
    refine { mapped := fun R hR ↦ ?_, size := fun R hR ↦ ?_, distinct := ?_, freed := hs.freed }
    · obtain hR | hR := List.mem_append.mp hR
      · exact fun i hi ↦ Proc.pages_map hfree obj (hs.mapped R hR i hi)
      · rw [List.mem_singleton.mp hR]
        exact Proc.maps_map hfree obj
    · obtain hR | hR := List.mem_append.mp hR
      · exact hs.size R hR
      · rw [List.mem_singleton.mp hR]
        exact hsize
    · intro R hR R' hR' hne
      obtain hR | hR := List.mem_append.mp hR <;> obtain hR' | hR' := List.mem_append.mp hR'
      · exact hs.distinct R hR R' hR' hne
      · obtain rfl := List.mem_singleton.mp hR'
        exact hobj R hR hne
      · obtain rfl := List.mem_singleton.mp hR
        exact (hobj R' hR' hne.symm).symm
      · rw [List.mem_singleton.mp hR, List.mem_singleton.mp hR'] at hne
        exact (hne rfl).elim
  · intro h
    refine ⟨h.size _ hnew, fun R hR hne ↦ ?_⟩
    exact h.distinct R (List.mem_append_left _ hR) _ hnew hne

theorem unmap_iff (hs : Undisturbed s) {q : Phase} {p n : ℕ} :
    (∀ R ∈ s.live, ∀ i < pageCount R.size, ¬ (p ≤ pageOf R.addr + i ∧ pageOf R.addr + i < p + n)) ↔
      Undisturbed { s.goto t q with space := ⟨s.space.shm, s.space.proc.unmap p n⟩ } := by
  constructor
  · intro h
    refine { hs with mapped := fun R hR i hi ↦ ?_ }
    exact (Proc.pages_unmap (h R hR i hi)).trans (hs.mapped R hR i hi)
  · intro h R hR i hi hin
    have hmapped : (s.space.proc.unmap p n).pages (pageOf R.addr + i) = _ := h.mapped R hR i hi
    rw [Proc.pages_unmap_self hin] at hmapped
    contradiction

/-- A call of `free_shm_mem` returns. -/
theorem freed_iff (hs : Undisturbed s) {q : Phase} {shm : Shm} {own : Bool} {ret : Int32}
    (hsize : shm.size = s.space.shm.size) :
    (own = true → ret = 0) ↔
      Undisturbed { s.goto t q with
        space := ⟨shm, s.space.proc⟩
        freed := s.freed ++ [(own, ret)] } := by
  constructor
  · intro h
    refine { hs with size := fun R hR ↦ ?_, freed := fun e he ↦ ?_ }
    · exact (hs.size R hR).trans_eq (congrFun hsize R.obj).symm
    · obtain he | he := List.mem_append.mp he
      · exact hs.freed e he
      · rw [List.mem_singleton.mp he]
        exact h
  · intro h
    exact h.freed (own, ret) (List.mem_append_right _ (List.mem_singleton_self _))

/-- **Being clear is what a step needs.** -/
theorem clear_iff (hw : Sound s) (hs : Undisturbed s) {act : Act τ}
    (h : next s act = some s') : Clear s act ↔ Undisturbed s' := by
  have hgoto {t : τ} {p : Phase} : Undisturbed (s.goto t p) := { hs with }
  cases act with
  | alloc t name size =>
      obtain ⟨-, rfl⟩ := alloc_eq h
      exact iff_of_true trivial hgoto
  | free t name size addr =>
      obtain ⟨-, rfl⟩ := free_eq h
      refine iff_of_true trivial (hs.of_subset (fun R hR ↦ ?_) rfl (fun _ _ ↦ rfl) rfl)
      exact List.mem_of_mem_filter hR
  | create t fd =>
      obtain ⟨name, size, -, rfl | ⟨n, -, -, rfl⟩⟩ := create_eq h
      · exact iff_of_true trivial hgoto
      · refine iff_of_true trivial (hs.of_subset (fun _ hR ↦ hR) rfl (fun R hR ↦ ?_) rfl)
        exact Function.update_of_ne (hw.live_lt R hR).ne _ _
  | reopen t fd =>
      obtain ⟨name, size, -, rfl | ⟨n, obj, -, -, rfl⟩⟩ := reopen_eq h
      · exact iff_of_true trivial hgoto
      · exact iff_of_true trivial (hs.of_subset (fun _ hR ↦ hR) rfl (fun _ _ ↦ rfl) rfl)
  | truncate t ok =>
      obtain ⟨name, size, fd, hp, ⟨hok, rfl⟩ | ⟨obj, hfd, hok, rfl⟩⟩ := truncate_eq h
      · refine iff_of_true (fun _ _ _ _ hp' _ hok' ↦ ?_) hgoto
        obtain ⟨-, rfl, rfl⟩ := Phase.truncating.inj (hp.symm.trans hp')
        simp [hok] at hok'
      · rw [← truncate_iff hs]
        refine ⟨fun hc ↦ hc name size fd obj hp hfd hok, fun hall _ _ _ _ hp' hfd' _ ↦ ?_⟩
        obtain ⟨-, rfl, rfl⟩ := Phase.truncating.inj (hp.symm.trans hp')
        obtain rfl := Option.some_inj.mp (hfd.symm.trans hfd')
        exact hall
  | map t page =>
      obtain ⟨name, size, fd, hp, ⟨hnone, rfl⟩ | ⟨p, obj, hfd, hfree, hsome, rfl⟩⟩ := map_eq h
      · refine iff_of_true (fun _ _ _ _ hp' _ hsome ↦ ?_) hgoto
        obtain ⟨-, rfl, rfl⟩ := Phase.mapping.inj (hp.symm.trans hp')
        exact (hsome hnone).elim
      · rw [← map_iff hs hfree]
        refine ⟨fun hc ↦ hc name size fd obj hp hfd hsome, fun hall _ _ _ _ hp' hfd' _ ↦ ?_⟩
        obtain ⟨-, rfl, rfl⟩ := Phase.mapping.inj (hp.symm.trans hp')
        obtain rfl := Option.some_inj.mp (hfd.symm.trans hfd')
        exact hall
  | unmap t =>
      obtain ⟨name, size, addr, own, hp, ⟨hbad, rfl⟩ | ⟨hu, rfl⟩⟩ := unmap_eq h
      · refine iff_of_true (fun _ _ _ _ hp' hu ↦ ?_) ((freed_iff hs rfl).mp ?_)
        · obtain ⟨-, rfl, rfl, -⟩ := Phase.unmapping.inj (hp.symm.trans hp')
          exact (hbad hu).elim
        · rintro rfl
          exact (hbad (hw.own t name size addr hp)).elim
      · rw [← unmap_iff hs]
        refine ⟨fun hc ↦ hc name size addr own hp hu, fun hall _ _ _ _ hp' _ ↦ ?_⟩
        obtain ⟨-, rfl, rfl, -⟩ := Phase.unmapping.inj (hp.symm.trans hp')
        exact hall
  | unlink t =>
      obtain ⟨name, own, hp, ⟨hnone, rfl⟩ | ⟨hbound, rfl⟩⟩ := unlink_eq h
      · have hfreed : (own = true → (-1 : Int32) = 0) ↔
            Undisturbed { s.goto t .idle with freed := s.freed ++ [(own, -1)] } :=
          freed_iff hs rfl
        rw [← hfreed]
        refine ⟨fun hc ↦ ?_, fun hc _ hp' ↦ ?_⟩
        · rintro rfl
          exact (hc name hp hnone).elim
        · obtain ⟨rfl, rfl⟩ := Phase.unlinking.inj (hp.symm.trans hp')
          exact absurd (hc rfl) (by decide)
      · refine iff_of_true (fun _ hp' ↦ ?_) ?_
        · obtain ⟨rfl, -⟩ := Phase.unlinking.inj (hp.symm.trans hp')
          exact hbound
        · refine (freed_iff hs ?_).mp fun _ ↦ rfl
          rfl

end Steps

end Regions

end Freelite
