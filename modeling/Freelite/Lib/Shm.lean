import Mathlib

/-!
# Shared memory objects

What `shm_open`, `ftruncate`, `mmap`, `munmap` and `shm_unlink` do to the names and
sizes of the shared memory objects and to one process: its descriptors, and the pages
of its address space that map an object.  An object exists as long as something refers
to it, and objects are numbered so that none is a later one again.

A system call can fail for reasons that are not in this state, and which descriptor or
page the system chooses is not in it either; so both are arguments, and a choice that
is not possible counts as a failure.
-/

namespace Freelite.Lib

/-- `MAP_FAILED`. -/
def mapFailed : UInt64 := 0xffffffffffffffff

/-- The shared memory objects. -/
@[ext]
structure Shm where
  /-- The object a name stands for. -/
  names : List UInt8 → Option ℕ
  /-- The size of an object in bytes. -/
  size : ℕ → ℕ
  /-- How many objects have been created. -/
  created : ℕ
  names_lt : ∀ {name obj}, names name = some obj → obj < created
  names_inj : ∀ {name name' obj}, names name = some obj → names name' = some obj → name = name'

/-- What a process has of them. -/
@[ext]
structure Proc where
  /-- The object an open descriptor refers to. -/
  fds : ℕ → Option ℕ
  /-- The object that is mapped at a page, and which page of it. -/
  pages : ℕ → Option (ℕ × ℕ)

/-- The objects and one process. -/
@[ext]
structure Space where
  shm : Shm
  proc : Proc

namespace Shm

/-- No object has been created yet. -/
def empty : Shm where
  names _ := none
  size _ := 0
  created := 0
  names_lt h := by contradiction
  names_inj h := by contradiction

/-- A new object of size zero. -/
def create (m : Shm) (name : List UInt8) : Shm where
  names := Function.update m.names name (some m.created)
  size := Function.update m.size m.created 0
  created := m.created + 1
  names_lt {name' obj} h := by
    by_cases hn : name' = name
    · subst hn
      rw [Function.update_self, Option.some_inj] at h
      omega
    · rw [Function.update_of_ne hn] at h
      exact (m.names_lt h).trans (Nat.lt_succ_self _)
  names_inj {name₁ name₂ obj} h₁ h₂ := by
    by_cases hn₁ : name₁ = name <;> by_cases hn₂ : name₂ = name
    · rw [hn₁, hn₂]
    · rw [hn₁, Function.update_self, Option.some_inj] at h₁
      rw [Function.update_of_ne hn₂] at h₂
      exact ((m.names_lt h₂).ne h₁.symm).elim
    · rw [hn₂, Function.update_self, Option.some_inj] at h₂
      rw [Function.update_of_ne hn₁] at h₁
      exact ((m.names_lt h₁).ne h₂.symm).elim
    · rw [Function.update_of_ne hn₁] at h₁
      rw [Function.update_of_ne hn₂] at h₂
      exact m.names_inj h₁ h₂

def resize (m : Shm) (obj n : ℕ) : Shm := { m with size := Function.update m.size obj n }

def unlink (m : Shm) (name : List UInt8) : Shm where
  names := Function.update m.names name none
  size := m.size
  created := m.created
  names_lt {name' obj} h := by
    by_cases hn : name' = name
    · subst hn
      rw [Function.update_self] at h
      contradiction
    · rw [Function.update_of_ne hn] at h
      exact m.names_lt h
  names_inj {name₁ name₂ obj} h₁ h₂ := by
    by_cases hn₁ : name₁ = name
    · rw [hn₁, Function.update_self] at h₁
      contradiction
    · by_cases hn₂ : name₂ = name
      · rw [hn₂, Function.update_self] at h₂
        contradiction
      · rw [Function.update_of_ne hn₁] at h₁
        rw [Function.update_of_ne hn₂] at h₂
        exact m.names_inj h₁ h₂

/-- The object a name stands for once it has been opened, or created if there is none. -/
def named (m : Shm) (name : List UInt8) : ℕ := (m.names name).getD m.created

/-- The objects after a name has been opened, or its object created if there is none. -/
def opened (m : Shm) (name : List UInt8) : Shm :=
  if m.names name = none then m.create name else m

@[simp] theorem names_opened (m : Shm) (name : List UInt8) :
    (m.opened name).names name = some (m.named name) := by
  unfold opened named
  split_ifs with h
  · rw [h]
    exact Function.update_self ..
  · obtain ⟨obj, hobj⟩ := Option.ne_none_iff_exists'.mp h
    rw [hobj, Option.getD_some]

end Shm

/-! ## Pages -/

/-- How many pages there are in a 64-bit address space. -/
def pageLimit : ℕ := 2 ^ 52

/-- How many pages `size` bytes take. -/
def pageCount (size : UInt64) : ℕ := (size.toNat + 4095) / 4096

/-- The page an address is on. -/
def pageOf (addr : UInt64) : ℕ := addr.toNat / 4096

/-- The address of a page. -/
def pageAddr (p : ℕ) : UInt64 := UInt64.ofNat (p * 4096)

theorem toNat_pageAddr {p : ℕ} (h : p < pageLimit) : (pageAddr p).toNat = p * 4096 := by
  rw [pageLimit] at h
  rw [pageAddr, UInt64.toNat_ofNat']
  omega

@[simp] theorem pageOf_pageAddr {p : ℕ} (h : p < pageLimit) : pageOf (pageAddr p) = p := by
  rw [pageOf, toNat_pageAddr h]
  omega

theorem pageCount_pos {size : UInt64} (h : size ≠ 0) : 0 < pageCount size := by
  have hpos : size.toNat ≠ 0 := fun h0 ↦ h (UInt64.toNat_inj.mp h0)
  rw [pageCount]
  omega

namespace Proc

/-- A process without descriptors or mappings. -/
def empty : Proc := ⟨fun _ ↦ none, fun _ ↦ none⟩

def openFd (m : Proc) (fd obj : ℕ) : Proc := { m with fds := Function.update m.fds fd (some obj) }

/-- Map the first `n` pages of an object at page `p`. -/
def map (m : Proc) (p n obj : ℕ) : Proc :=
  { m with pages := fun q ↦ if p ≤ q ∧ q < p + n then some (obj, q - p) else m.pages q }

def unmap (m : Proc) (p n : ℕ) : Proc :=
  { m with pages := fun q ↦ if p ≤ q ∧ q < p + n then none else m.pages q }

/-- `size` bytes from `addr` on map an object from its beginning. -/
def Maps (m : Proc) (addr size : UInt64) (obj : ℕ) : Prop :=
  ∀ i < pageCount size, m.pages (pageOf addr + i) = some (obj, i)

/-- `addr` is the address of a mapping of `size` bytes of an object that has them. -/
def ValidMapping (m : Proc) (shm : Shm) (addr size : UInt64) (obj : ℕ) : Prop :=
  addr.toNat % 4096 = 0 ∧ m.Maps addr size obj ∧ size.toNat ≤ shm.size obj

/-- `mmap` can map `size` bytes at page `p`. -/
def Free (m : Proc) (p : ℕ) (size : UInt64) : Prop :=
  0 < p ∧ size ≠ 0 ∧ p + pageCount size ≤ pageLimit ∧
    ∀ i < pageCount size, m.pages (p + i) = none

instance (m : Proc) (p : ℕ) (size : UInt64) : Decidable (m.Free p size) :=
  inferInstanceAs (Decidable (_ ∧ _))

theorem Free.lt {m : Proc} {p : ℕ} {size : UInt64} (h : m.Free p size) : p < pageLimit := by
  have hpos := pageCount_pos h.2.1
  have hle := h.2.2.1
  omega

theorem maps_map {m : Proc} {p : ℕ} {size : UInt64} (h : m.Free p size) (obj : ℕ) :
    (m.map p (pageCount size) obj).Maps (pageAddr p) size obj := by
  intro i hi
  rw [pageOf_pageAddr h.lt]
  change (if p ≤ p + i ∧ p + i < p + pageCount size then some (obj, p + i - p) else _) = _
  rw [if_pos ⟨Nat.le_add_right _ _, Nat.add_lt_add_left hi _⟩, Nat.add_sub_cancel_left]

/-- One address maps one object. -/
theorem Maps.obj_eq {m : Proc} {addr size : UInt64} {obj obj' : ℕ} (hsize : size ≠ 0)
    (h : m.Maps addr size obj) (h' : m.Maps addr size obj') : obj = obj' := by
  have hpage := (h 0 (pageCount_pos hsize)).symm.trans (h' 0 (pageCount_pos hsize))
  exact (Prod.mk_inj.mp (Option.some_inj.mp hpage)).1

/-- Mapping free pages leaves what is mapped alone. -/
theorem pages_map {m : Proc} {p : ℕ} {size : UInt64} (h : m.Free p size) (obj : ℕ) {q : ℕ}
    {x : ℕ × ℕ} (hq : m.pages q = some x) : (m.map p (pageCount size) obj).pages q = some x := by
  change (if p ≤ q ∧ q < p + pageCount size then some (obj, q - p) else m.pages q) = some x
  rw [if_neg, hq]
  intro ⟨hle, hlt⟩
  have hfree := h.2.2.2 (q - p) (by omega)
  rw [Nat.add_sub_cancel' hle, hq] at hfree
  contradiction

theorem pages_unmap_self {m : Proc} {p n q : ℕ} (h : p ≤ q ∧ q < p + n) :
    (m.unmap p n).pages q = none := if_pos h

theorem pages_unmap {m : Proc} {p n q : ℕ} (h : ¬ (p ≤ q ∧ q < p + n)) :
    (m.unmap p n).pages q = m.pages q := if_neg h

end Proc

/-! ## System calls -/

/-- `munmap` accepts its arguments. -/
def Unmappable (addr size : UInt64) : Prop :=
  addr.toNat % 4096 = 0 ∧ size ≠ 0 ∧ pageOf addr + pageCount size ≤ pageLimit

instance (addr size : UInt64) : Decidable (Unmappable addr size) :=
  inferInstanceAs (Decidable (_ ∧ _))

theorem Proc.Free.unmappable {m : Proc} {p : ℕ} {size : UInt64} (h : m.Free p size) :
    Unmappable (pageAddr p) size := by
  refine ⟨?_, h.2.1, ?_⟩
  · rw [toNat_pageAddr h.lt, Nat.mul_mod_left]
  · rw [pageOf_pageAddr h.lt]
    exact h.2.2.1

/-- `shm_open(name, O_RDWR | O_CREAT | O_EXCL, …)`. -/
def shmCreate (fd : Option ℕ) (name : List UInt8) (s : Space) : Option ℕ × Space :=
  match fd, s.shm.names name with
  | some fd, none =>
      if s.proc.fds fd = none then
        (some fd, ⟨s.shm.create name, s.proc.openFd fd s.shm.created⟩)
      else (none, s)
  | _, _ => (none, s)

/-- `shm_open(name, O_RDWR, …)`. -/
def shmOpen (fd : Option ℕ) (name : List UInt8) (s : Space) : Option ℕ × Space :=
  match fd, s.shm.names name with
  | some fd, some obj =>
      if s.proc.fds fd = none then (some fd, { s with proc := s.proc.openFd fd obj })
      else (none, s)
  | _, _ => (none, s)

/-- `ftruncate(fd, size)`, for a size that is an `off_t`. -/
def ftruncate (ok : Bool) (fd : ℕ) (size : UInt64) (s : Space) : Bool × Space :=
  match s.proc.fds fd with
  | none => (false, s)
  | some obj =>
      if ok ∧ size.toNat < 2 ^ 63 then (true, { s with shm := s.shm.resize obj size.toNat })
      else (false, s)

/-- `mmap(NULL, size, …, MAP_SHARED, fd, 0)`. -/
def mmap (page : Option ℕ) (size : UInt64) (fd : ℕ) (s : Space) : Option UInt64 × Space :=
  match page, s.proc.fds fd with
  | some p, some obj =>
      if s.proc.Free p size then
        (some (pageAddr p), { s with proc := s.proc.map p (pageCount size) obj })
      else (none, s)
  | _, _ => (none, s)

/-- `munmap(addr, size)`, which does not ask whether anything is mapped there. -/
def munmap (ok : Bool) (addr size : UInt64) (s : Space) : Bool × Space :=
  if ok ∧ Unmappable addr size then
    (true, { s with proc := s.proc.unmap (pageOf addr) (pageCount size) })
  else (false, s)

/-- `shm_unlink(name)`. -/
def shmUnlink (ok : Bool) (name : List UInt8) (s : Space) : Bool × Space :=
  if ok ∧ s.shm.names name ≠ none then (true, { s with shm := s.shm.unlink name })
  else (false, s)

/-! ### What the calls can do -/

section Cases

variable {name : List UInt8} {size addr : UInt64} {ok : Bool} {s : Space}

theorem shmCreate_cases (fd : Option ℕ) (name : List UInt8) (s : Space) :
    shmCreate fd name s = (none, s) ∨
      ∃ n, fd = some n ∧ s.shm.names name = none ∧ s.proc.fds n = none ∧
        shmCreate fd name s = (some n, ⟨s.shm.create name, s.proc.openFd n s.shm.created⟩) := by
  unfold shmCreate
  split
  case h_1 n hn =>
    split_ifs with hfd
    · exact .inr ⟨n, rfl, hn, hfd, rfl⟩
    · exact .inl rfl
  case h_2 => exact .inl rfl

theorem shmOpen_cases (fd : Option ℕ) (name : List UInt8) (s : Space) :
    shmOpen fd name s = (none, s) ∨
      ∃ n obj, fd = some n ∧ s.shm.names name = some obj ∧ s.proc.fds n = none ∧
        shmOpen fd name s = (some n, { s with proc := s.proc.openFd n obj }) := by
  unfold shmOpen
  split
  case h_1 n obj hn =>
    split_ifs with hfd
    · exact .inr ⟨n, obj, rfl, hn, hfd, rfl⟩
    · exact .inl rfl
  case h_2 => exact .inl rfl

theorem ftruncate_cases (ok : Bool) (fd : ℕ) (size : UInt64) (s : Space) :
    ftruncate ok fd size s = (false, s) ∨
      ∃ obj, s.proc.fds fd = some obj ∧
        ftruncate ok fd size s = (true, { s with shm := s.shm.resize obj size.toNat }) := by
  unfold ftruncate
  split
  case h_1 => exact .inl rfl
  case h_2 obj hfd =>
    split_ifs
    · exact .inr ⟨obj, hfd, rfl⟩
    · exact .inl rfl

theorem mmap_cases (page : Option ℕ) (size : UInt64) (fd : ℕ) (s : Space) :
    mmap page size fd s = (none, s) ∨
      ∃ p obj, page = some p ∧ s.proc.fds fd = some obj ∧ s.proc.Free p size ∧
        mmap page size fd s =
          (some (pageAddr p), { s with proc := s.proc.map p (pageCount size) obj }) := by
  unfold mmap
  split
  case h_1 p obj hfd =>
    split_ifs with hfree
    · exact .inr ⟨p, obj, rfl, hfd, hfree, rfl⟩
    · exact .inl rfl
  case h_2 => exact .inl rfl

theorem munmap_cases (ok : Bool) (addr size : UInt64) (s : Space) :
    (munmap ok addr size s = (false, s) ∧ ¬ (ok ∧ Unmappable addr size)) ∨
      (ok ∧ Unmappable addr size) ∧ munmap ok addr size s =
        (true, { s with proc := s.proc.unmap (pageOf addr) (pageCount size) }) := by
  unfold munmap
  split_ifs with h
  · exact .inr ⟨h, rfl⟩
  · exact .inl ⟨rfl, h⟩

theorem shmUnlink_cases (ok : Bool) (name : List UInt8) (s : Space) :
    (shmUnlink ok name s = (false, s) ∧ ¬ (ok ∧ s.shm.names name ≠ none)) ∨
      (ok ∧ s.shm.names name ≠ none) ∧
        shmUnlink ok name s = (true, { s with shm := s.shm.unlink name }) := by
  unfold shmUnlink
  split_ifs with h
  · exact .inr ⟨h, rfl⟩
  · exact .inl ⟨rfl, h⟩

end Cases

end Freelite.Lib
