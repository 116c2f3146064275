import Freelite.Lib.Shm
import Freelite.Router.Session

/-!
# Shared memory in the router

`router/lib/shm.cpp`.  Both functions are chains of system calls that return at the
first failure, and neither undoes what the calls before it have done.  The descriptor
that `alloc_shm_mem` opens is never closed, whatever it returns.
-/

namespace Freelite

open Lib

/-- What the system chooses in a call of `alloc_shm_mem`. -/
structure AllocOutcome where
  /-- The descriptor of the first `shm_open`. -/
  create : Option ℕ
  /-- The descriptor of the second. -/
  reopen : Option ℕ
  truncate : Bool
  /-- The page `mmap` maps at. -/
  page : Option ℕ
deriving DecidableEq

/-- What the system chooses in a call of `free_shm_mem`. -/
structure FreeOutcome where
  unmap : Bool
  unlink : Bool
deriving DecidableEq

/-- The two calls of `shm_open`: create the object, or else open the one there is. -/
def openShm (o : AllocOutcome) (name : List UInt8) (s : Space) : Option ℕ × Space :=
  match shmCreate o.create name s with
  | (some fd, s') => (some fd, s')
  | (none, s') => shmOpen o.reopen name s'

/-- `alloc_shm_mem`: the return value, what has been assigned to `*addr`, if anything
has, and the new state. -/
def allocShmMem (o : AllocOutcome) (name : List UInt8) (size : UInt64) (s : Space) :
    Int32 × Option UInt64 × Space :=
  match openShm o name s with
  | (none, s₁) => (-1, none, s₁)
  | (some fd, s₁) =>
      match ftruncate o.truncate fd size s₁ with
      | (false, s₂) => (-1, none, s₂)
      | (true, s₂) =>
          match mmap o.page size fd s₂ with
          | (none, s₃) => (-1, some mapFailed, s₃)
          | (some addr, s₃) => (0, some addr, s₃)

/-- `free_shm_mem`. -/
def freeShmMem (o : FreeOutcome) (name : List UInt8) (size addr : UInt64) (s : Space) :
    Int32 × Space :=
  match munmap o.unmap addr size s with
  | (false, s₁) => (-1, s₁)
  | (true, s₁) =>
      match shmUnlink o.unlink name s₁ with
      | (false, s₂) => (-1, s₂)
      | (true, s₂) => (0, s₂)

/-! ## What the two functions can do -/

/-- The call of `alloc_shm_mem` gets a descriptor. -/
def CanOpen (o : AllocOutcome) (name : List UInt8) (s : Space) : Prop :=
  ∃ fd, (if s.shm.names name = none then o.create else o.reopen) = some fd ∧
    s.proc.fds fd = none

/-- After that it resizes and maps the object. -/
def CanMap (o : AllocOutcome) (size : UInt64) (s : Space) : Prop :=
  (o.truncate ∧ size.toNat < 2 ^ 63) ∧ ∃ p, o.page = some p ∧ s.proc.Free p size

section Cases

variable (o : AllocOutcome) (name : List UInt8) (size : UInt64) (s : Space)

theorem openShm_cases :
    (openShm o name s = (none, s) ∧ ¬ CanOpen o name s) ∨
      ∃ fd, s.proc.fds fd = none ∧ CanOpen o name s ∧
        openShm o name s =
          (some fd, ⟨s.shm.opened name, s.proc.openFd fd (s.shm.named name)⟩) := by
  unfold openShm CanOpen Shm.opened Shm.named
  cases hname : s.shm.names name with
  | none =>
      have hopen : shmOpen o.reopen name s = (none, s) := by
        cases hr : o.reopen <;> simp [shmOpen, hname]
      obtain hc | ⟨fd, hfd, -, hfree, hc⟩ := shmCreate_cases o.create name s
      · refine .inl ⟨by rw [hc]; exact hopen, fun ⟨fd, hfd, hfree⟩ ↦ ?_⟩
        rw [if_pos rfl] at hfd
        simp [shmCreate, hname, hfd, hfree] at hc
      · exact .inr ⟨fd, hfree, ⟨fd, by rw [if_pos rfl, hfd], hfree⟩, by rw [hc]; rfl⟩
  | some obj =>
      have hcreate : shmCreate o.create name s = (none, s) := by
        cases hc : o.create <;> simp [shmCreate, hname]
      rw [hcreate]
      obtain hc | ⟨fd, obj', hfd, hobj, hfree, hc⟩ := shmOpen_cases o.reopen name s
      · refine .inl ⟨hc, fun ⟨fd, hfd, hfree⟩ ↦ ?_⟩
        rw [if_neg (by simp)] at hfd
        simp [shmOpen, hname, hfd, hfree] at hc
      · obtain rfl := Option.some_inj.mp (hname.symm.trans hobj)
        exact .inr ⟨fd, hfree, ⟨fd, by rw [if_neg (by simp), hfd], hfree⟩, by simp [hc]⟩

theorem allocShmMem_cases :
    (allocShmMem o name size s = (-1, none, s) ∧ ¬ CanOpen o name s) ∨
    (∃ fd addr space, s.proc.fds fd = none ∧ CanOpen o name s ∧ ¬ CanMap o size s ∧
      space.proc.fds fd ≠ none ∧ allocShmMem o name size s = (-1, addr, space)) ∨
    ∃ fd p, s.proc.fds fd = none ∧ CanOpen o name s ∧ CanMap o size s ∧ s.proc.Free p size ∧
      allocShmMem o name size s =
        (0, some (pageAddr p),
          ⟨(s.shm.opened name).resize (s.shm.named name) size.toNat,
            (s.proc.openFd fd (s.shm.named name)).map p (pageCount size) (s.shm.named name)⟩) := by
  unfold allocShmMem
  obtain ⟨hopen, hcan⟩ | ⟨fd, hfree, hcan, hopen⟩ := openShm_cases o name s
  · exact .inl ⟨by rw [hopen], hcan⟩
  have hfd : (s.proc.openFd fd (s.shm.named name)).fds fd = some (s.shm.named name) :=
    Function.update_self ..
  rw [hopen]
  by_cases htruncate : o.truncate ∧ size.toNat < 2 ^ 63
  · by_cases hmap : ∃ p, o.page = some p ∧ s.proc.Free p size
    · obtain ⟨p, hpage, hp⟩ := hmap
      refine .inr (.inr ⟨fd, p, hfree, hcan, ⟨htruncate, p, hpage, hp⟩, hp, ?_⟩)
      have hp' : (s.proc.openFd fd (s.shm.named name)).Free p size := hp
      rw [hpage]
      simp only [ftruncate, hfd, if_pos htruncate, mmap, if_pos hp']
    · set s₂ : Space := ⟨(s.shm.opened name).resize (s.shm.named name) size.toNat,
        s.proc.openFd fd (s.shm.named name)⟩ with hs₂
      have hm : mmap o.page size fd s₂ = (none, s₂) := by
        obtain hm | ⟨p, _, hpage, -, hp, -⟩ := mmap_cases o.page size fd s₂
        · exact hm
        · exact (hmap ⟨p, hpage, hp⟩).elim
      refine .inr (.inl ⟨fd, some mapFailed, s₂, hfree, hcan, fun h ↦ hmap h.2,
        by simp [hs₂, hfd], ?_⟩)
      simp only [ftruncate, hfd, if_pos htruncate, ← hs₂, hm]
  · refine .inr (.inl ⟨fd, none, _, hfree, hcan, fun h ↦ htruncate h.1, ?_, by
      simp only [ftruncate, hfd, if_neg htruncate]
      rfl⟩)
    simp [hfd]

end Cases

/-- `munmap` accepts the arguments and reports no error. -/
def CanUnmap (o : FreeOutcome) (size addr : UInt64) : Prop := o.unmap ∧ Unmappable addr size

/-- `shm_unlink` finds the name and reports no error. -/
def CanUnlink (o : FreeOutcome) (name : List UInt8) (s : Space) : Prop :=
  o.unlink ∧ s.shm.names name ≠ none

theorem freeShmMem_cases (o : FreeOutcome) (name : List UInt8) (size addr : UInt64) (s : Space) :
    (¬ CanUnmap o size addr ∧ freeShmMem o name size addr s = (-1, s)) ∨
    (CanUnmap o size addr ∧ ¬ CanUnlink o name s ∧ freeShmMem o name size addr s =
      (-1, ⟨s.shm, s.proc.unmap (pageOf addr) (pageCount size)⟩)) ∨
    (CanUnmap o size addr ∧ CanUnlink o name s ∧ freeShmMem o name size addr s =
      (0, ⟨s.shm.unlink name, s.proc.unmap (pageOf addr) (pageCount size)⟩)) := by
  unfold freeShmMem
  obtain ⟨hm, hcan⟩ | ⟨hcan, hm⟩ := munmap_cases o.unmap addr size s
  · exact .inl ⟨hcan, by rw [hm]⟩
  · rw [hm]
    obtain ⟨hu, hcan'⟩ | ⟨hcan', hu⟩ := shmUnlink_cases o.unlink name
      ⟨s.shm, s.proc.unmap (pageOf addr) (pageCount size)⟩
    · exact .inr (.inl ⟨hcan, hcan', by simp only [hu]⟩)
    · exact .inr (.inr ⟨hcan, hcan', by simp only [hu]⟩)

/-! ## When a failing operation changes nothing -/

/-- Nothing is mapped on the pages of a range. -/
def Unmapped (size addr : UInt64) (s : Space) : Prop :=
  ∀ i < pageCount size, s.proc.pages (pageOf addr + i) = none

theorem unmap_eq_iff (size addr : UInt64) (s : Space) :
    s.proc.unmap (pageOf addr) (pageCount size) = s.proc ↔ Unmapped size addr s := by
  constructor
  · intro h i hi
    rw [← h]
    exact if_pos ⟨Nat.le_add_right _ _, Nat.add_lt_add_left hi _⟩
  · intro h
    refine Proc.ext rfl (funext fun q ↦ ?_)
    by_cases hq : pageOf addr ≤ q ∧ q < pageOf addr + pageCount size
    · have hnone := h (q - pageOf addr) (by omega)
      rw [Nat.add_sub_cancel' hq.1] at hnone
      exact (if_pos hq).trans hnone.symm
    · exact if_neg hq

/-- A failing `alloc_shm_mem` leaves its descriptor open, so it changes nothing only if it
has not got one. -/
theorem alloc_unchanged_iff (o : AllocOutcome) (name : List UInt8) (size : UInt64) (s : Space) :
    ((allocShmMem o name size s).1 = -1 → (allocShmMem o name size s).2.2 = s) ↔
      (CanOpen o name s → CanMap o size s) := by
  obtain ⟨h, hopen⟩ | ⟨fd, addr, space, hfree, hopen, hmap, hfd, h⟩ |
    ⟨fd, p, -, -, hmap, -, h⟩ := allocShmMem_cases o name size s <;> rw [h]
  · exact iff_of_true (fun _ ↦ rfl) fun hc ↦ (hopen hc).elim
  · refine iff_of_false (fun heq ↦ hfd ?_) fun hc ↦ hmap (hc hopen)
    change -1 = (-1 : Int32) → space = s at heq
    rw [heq rfl, hfree]
  · exact iff_of_true (fun h0 : (0 : Int32) = -1 ↦ absurd h0 (by decide)) fun _ ↦ hmap

/-- A failing `free_shm_mem` has removed the mapping if it is `shm_unlink` that fails. -/
theorem free_unchanged_iff (o : FreeOutcome) (name : List UInt8) (size addr : UInt64)
    (s : Space) :
    ((freeShmMem o name size addr s).1 = -1 → (freeShmMem o name size addr s).2 = s) ↔
      (CanUnmap o size addr → CanUnlink o name s ∨ Unmapped size addr s) := by
  obtain ⟨hmap, h⟩ | ⟨hmap, hlink, h⟩ | ⟨-, hlink, h⟩ := freeShmMem_cases o name size addr s <;>
    rw [h]
  · exact iff_of_true (fun _ ↦ rfl) fun hc ↦ (hmap hc).elim
  · rw [← unmap_eq_iff]
    constructor
    · exact fun heq _ ↦ .inr (congrArg Space.proc (heq rfl))
    · intro hc _
      rw [(hc hmap).resolve_left hlink]
  · exact iff_of_true (fun h0 : (0 : Int32) = -1 ↦ absurd h0 (by decide)) fun _ ↦ .inl hlink

/-- **When a failing shared-memory operation changes nothing**, for both functions. -/
theorem failure_changes_nothing_iff (o : AllocOutcome) (o' : FreeOutcome) (name : List UInt8)
    (size addr : UInt64) (s : Space) :
    (((allocShmMem o name size s).1 = -1 → (allocShmMem o name size s).2.2 = s) ↔
      (CanOpen o name s → CanMap o size s)) ∧
    (((freeShmMem o' name size addr s).1 = -1 → (freeShmMem o' name size addr s).2 = s) ↔
      (CanUnmap o' size addr → CanUnlink o' name s ∨ Unmapped size addr s)) :=
  ⟨alloc_unchanged_iff o name size s, free_unchanged_iff o' name size addr s⟩

/-- The name is new and `mmap` fails: the name and the descriptor stay. -/
theorem not_failure_changes_nothing : ¬ ∀ (o : AllocOutcome) (name : List UInt8) (size : UInt64)
    (s : Space), (allocShmMem o name size s).1 = -1 → (allocShmMem o name size s).2.2 = s := by
  intro h
  have hs := h ⟨some 3, none, true, none⟩ (bytes "a") 4096 ⟨.empty, .empty⟩ (by decide)
  have hfd := congrArg (fun s ↦ s.proc.fds 3) hs
  revert hfd
  decide

end Freelite
