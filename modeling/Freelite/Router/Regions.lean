import Freelite.Lib.Machine
import Freelite.Router.Shm

/-!
# The regions of the sessions

The sessions of a router call `alloc_shm_mem` and `free_shm_mem` for their clients,
without a lock: the system calls of one are interleaved with those of the others.  What
a request names, and the range it wants unmapped, is whatever the client has sent.

A region is live from the moment `alloc_shm_mem` returns zero until its own session is
asked to free it.  `undisturbed_iff` says, one system call at a time, what must not
happen to live regions.  `Held` is the invariant of sessions that keep apart, that is,
allocate only under names nobody uses and free only what they have allocated: a session
then touches nothing but what belongs to its name.
-/

namespace Freelite

open Lib

namespace Regions

/-- Where a session is. -/
inductive Phase
  | idle
  /-- In `alloc_shm_mem`, about to call `shm_open` with `O_EXCL`. -/
  | creating (name : List UInt8) (size : UInt64)
  /-- About to call it a second time. -/
  | reopening (name : List UInt8) (size : UInt64)
  | truncating (name : List UInt8) (size : UInt64) (fd : ℕ)
  | mapping (name : List UInt8) (size : UInt64) (fd : ℕ)
  /-- In `free_shm_mem`, about to call `munmap`, for a region of its own or not. -/
  | unmapping (name : List UInt8) (size addr : UInt64) (own : Bool)
  | unlinking (name : List UInt8) (own : Bool)
deriving DecidableEq

/-- The name a session works on. -/
def Phase.name : Phase → Option (List UInt8)
  | .idle => none
  | .creating name _ | .reopening name _ | .truncating name _ _ | .mapping name _ _
  | .unmapping name _ _ _ | .unlinking name _ => some name

/-- A region that has been allocated, and the object it maps. -/
structure Region (τ : Type*) where
  owner : τ
  name : List UInt8
  size : UInt64
  addr : UInt64
  obj : ℕ
deriving DecidableEq

/-- The request of session `t` is the one to free this region. -/
def Region.IsFor {τ : Type*} (R : Region τ) (t : τ) (name : List UInt8) (size addr : UInt64) :
    Prop :=
  R.owner = t ∧ R.name = name ∧ R.size = size ∧ R.addr = addr

instance {τ : Type*} [DecidableEq τ] (R : Region τ) (t : τ) (name : List UInt8)
    (size addr : UInt64) : Decidable (R.IsFor t name size addr) :=
  inferInstanceAs (Decidable (_ ∧ _))

/-- The router with the sessions `τ`. -/
structure State (τ : Type*) where
  space : Space
  phase : τ → Phase
  live : List (Region τ)
  /-- The calls of `free_shm_mem` that have returned: whether the session's own region was
  meant, and the return value. -/
  freed : List (Bool × Int32)

inductive Act (τ : Type*)
  /-- The session is asked for a region. -/
  | alloc (t : τ) (name : List UInt8) (size : UInt64)
  /-- The session is asked to free one. -/
  | free (t : τ) (name : List UInt8) (size addr : UInt64)
  | create (t : τ) (fd : Option ℕ)
  | reopen (t : τ) (fd : Option ℕ)
  | truncate (t : τ) (ok : Bool)
  | map (t : τ) (page : Option ℕ)
  | unmap (t : τ)
  | unlink (t : τ)

variable {τ : Type*}

/-- A router that has just started: there may be objects, but it has none of them. -/
def init (shm : Shm) : State τ := ⟨⟨shm, .empty⟩, fun _ ↦ .idle, [], []⟩

variable [DecidableEq τ]

/-- The session is somewhere else. -/
def State.goto (s : State τ) (t : τ) (p : Phase) : State τ :=
  { s with phase := Function.update s.phase t p }

def next (s : State τ) : Act τ → Option (State τ)
  | .alloc t name size =>
      match s.phase t with
      | .idle => some (s.goto t (.creating name size))
      | _ => none
  | .free t name size addr =>
      match s.phase t with
      | .idle =>
          let own := s.live.any fun R ↦ R.IsFor t name size addr
          some { s.goto t (.unmapping name size addr own) with
            live := s.live.filter fun R ↦ ¬ R.IsFor t name size addr }
      | _ => none
  | .create t fd =>
      match s.phase t with
      | .creating name size =>
          match shmCreate fd name s.space with
          | (some fd, space) => some { s.goto t (.truncating name size fd) with space }
          | (none, space) => some { s.goto t (.reopening name size) with space }
      | _ => none
  | .reopen t fd =>
      match s.phase t with
      | .reopening name size =>
          match shmOpen fd name s.space with
          | (some fd, space) => some { s.goto t (.truncating name size fd) with space }
          | (none, space) => some { s.goto t .idle with space }
      | _ => none
  | .truncate t ok =>
      match s.phase t with
      | .truncating name size fd =>
          match ftruncate ok fd size s.space with
          | (true, space) => some { s.goto t (.mapping name size fd) with space }
          | (false, space) => some { s.goto t .idle with space }
      | _ => none
  | .map t page =>
      match s.phase t with
      | .mapping name size fd =>
          match mmap page size fd s.space with
          | (some addr, space) =>
              some { s.goto t .idle with
                space
                live := s.live ++ [⟨t, name, size, addr, (s.space.proc.fds fd).getD 0⟩] }
          | (none, space) => some { s.goto t .idle with space }
      | _ => none
  | .unmap t =>
      match s.phase t with
      | .unmapping name size addr own =>
          match munmap true addr size s.space with
          | (true, space) => some { s.goto t (.unlinking name own) with space }
          | (false, space) =>
              some { s.goto t .idle with space, freed := s.freed ++ [(own, -1)] }
      | _ => none
  | .unlink t =>
      match s.phase t with
      | .unlinking name own =>
          match shmUnlink true name s.space with
          | (true, space) => some { s.goto t .idle with space, freed := s.freed ++ [(own, 0)] }
          | (false, space) =>
              some { s.goto t .idle with space, freed := s.freed ++ [(own, -1)] }
      | _ => none

/-! ## What each step does -/

section Inversion

variable {s s' : State τ} {t : τ}

theorem alloc_eq {name : List UInt8} {size : UInt64} (h : next s (.alloc t name size) = some s') :
    s.phase t = .idle ∧ s' = s.goto t (.creating name size) := by
  rw [next] at h
  split at h
  case h_1 hp => exact ⟨hp, (Option.some_inj.mp h).symm⟩
  case h_2 => contradiction

theorem free_eq {name : List UInt8} {size addr : UInt64}
    (h : next s (.free t name size addr) = some s') :
    s.phase t = .idle ∧
      s' = { s.goto t (.unmapping name size addr (s.live.any fun R ↦ R.IsFor t name size addr))
        with live := s.live.filter fun R ↦ ¬ R.IsFor t name size addr } := by
  rw [next] at h
  split at h
  case h_1 hp => exact ⟨hp, (Option.some_inj.mp h).symm⟩
  case h_2 => contradiction

theorem create_eq {fd : Option ℕ} (h : next s (.create t fd) = some s') :
    ∃ name size, s.phase t = .creating name size ∧
      (s' = s.goto t (.reopening name size) ∨
        ∃ n, s.space.shm.names name = none ∧ s.space.proc.fds n = none ∧
          s' = { s.goto t (.truncating name size n) with
            space := ⟨s.space.shm.create name,
              s.space.proc.openFd n s.space.shm.created⟩ }) := by
  rw [next] at h
  split at h
  case h_1 name size hp =>
    refine ⟨name, size, hp, ?_⟩
    obtain hc | ⟨n, -, hn, hfree, hc⟩ := shmCreate_cases fd name s.space
    · simp only [hc, Option.some_inj] at h
      exact .inl h.symm
    · simp only [hc, Option.some_inj] at h
      exact .inr ⟨n, hn, hfree, h.symm⟩
  case h_2 => contradiction

theorem reopen_eq {fd : Option ℕ} (h : next s (.reopen t fd) = some s') :
    ∃ name size, s.phase t = .reopening name size ∧
      (s' = s.goto t .idle ∨
        ∃ n obj, s.space.shm.names name = some obj ∧ s.space.proc.fds n = none ∧
          s' = { s.goto t (.truncating name size n) with
            space := ⟨s.space.shm, s.space.proc.openFd n obj⟩ }) := by
  rw [next] at h
  split at h
  case h_1 name size hp =>
    refine ⟨name, size, hp, ?_⟩
    obtain hc | ⟨n, obj, -, hn, hfree, hc⟩ := shmOpen_cases fd name s.space
    · simp only [hc, Option.some_inj] at h
      exact .inl h.symm
    · simp only [hc, Option.some_inj] at h
      exact .inr ⟨n, obj, hn, hfree, h.symm⟩
  case h_2 => contradiction

theorem truncate_eq {ok : Bool} (h : next s (.truncate t ok) = some s') :
    ∃ name size fd, s.phase t = .truncating name size fd ∧
      (((ftruncate ok fd size s.space).1 = false ∧ s' = s.goto t .idle) ∨
        ∃ obj, s.space.proc.fds fd = some obj ∧ (ftruncate ok fd size s.space).1 = true ∧
          s' = { s.goto t (.mapping name size fd) with
            space := ⟨s.space.shm.resize obj size.toNat, s.space.proc⟩ }) := by
  rw [next] at h
  split at h
  case h_1 name size fd hp =>
    refine ⟨name, size, fd, hp, ?_⟩
    obtain hc | ⟨obj, hfd, hc⟩ := ftruncate_cases ok fd size s.space
    · simp only [hc, Option.some_inj] at h
      exact .inl ⟨by rw [hc], h.symm⟩
    · simp only [hc, Option.some_inj] at h
      exact .inr ⟨obj, hfd, by rw [hc], h.symm⟩
  case h_2 => contradiction

theorem map_eq {page : Option ℕ} (h : next s (.map t page) = some s') :
    ∃ name size fd, s.phase t = .mapping name size fd ∧
      (((mmap page size fd s.space).1 = none ∧ s' = s.goto t .idle) ∨
        ∃ p obj, s.space.proc.fds fd = some obj ∧ s.space.proc.Free p size ∧
          (mmap page size fd s.space).1 ≠ none ∧
          s' = { s.goto t .idle with
            space := ⟨s.space.shm, s.space.proc.map p (pageCount size) obj⟩
            live := s.live ++ [⟨t, name, size, pageAddr p, obj⟩] }) := by
  rw [next] at h
  split at h
  case h_1 name size fd hp =>
    refine ⟨name, size, fd, hp, ?_⟩
    obtain hc | ⟨p, obj, -, hfd, hfree, hc⟩ := mmap_cases page size fd s.space
    · simp only [hc, Option.some_inj] at h
      exact .inl ⟨by rw [hc], h.symm⟩
    · simp only [hc, hfd, Option.getD_some, Option.some_inj] at h
      exact .inr ⟨p, obj, hfd, hfree, by simp [hc], h.symm⟩
  case h_2 => contradiction

theorem unmap_eq (h : next s (.unmap t) = some s') :
    ∃ name size addr own, s.phase t = .unmapping name size addr own ∧
      ((¬ Unmappable addr size ∧ s' = { s.goto t .idle with freed := s.freed ++ [(own, -1)] }) ∨
        (Unmappable addr size ∧ s' = { s.goto t (.unlinking name own) with
          space := ⟨s.space.shm,
            s.space.proc.unmap (pageOf addr) (pageCount size)⟩ })) := by
  rw [next] at h
  split at h
  case h_1 name size addr own hp =>
    refine ⟨name, size, addr, own, hp, ?_⟩
    obtain ⟨hc, hcan⟩ | ⟨hcan, hc⟩ := munmap_cases true addr size s.space
    · simp only [hc, Option.some_inj] at h
      exact .inl ⟨fun hu ↦ hcan ⟨rfl, hu⟩, h.symm⟩
    · simp only [hc, Option.some_inj] at h
      exact .inr ⟨hcan.2, h.symm⟩
  case h_2 => contradiction

theorem unlink_eq (h : next s (.unlink t) = some s') :
    ∃ name own, s.phase t = .unlinking name own ∧
      ((s.space.shm.names name = none ∧
          s' = { s.goto t .idle with freed := s.freed ++ [(own, -1)] }) ∨
        (s.space.shm.names name ≠ none ∧ s' = { s.goto t .idle with
          space := ⟨s.space.shm.unlink name, s.space.proc⟩
          freed := s.freed ++ [(own, 0)] })) := by
  rw [next] at h
  split at h
  case h_1 name own hp =>
    refine ⟨name, own, hp, ?_⟩
    obtain ⟨hc, hcan⟩ | ⟨hcan, hc⟩ := shmUnlink_cases true name s.space
    · simp only [hc, Option.some_inj] at h
      exact .inl ⟨by simpa using hcan, h.symm⟩
    · simp only [hc, Option.some_inj] at h
      exact .inr ⟨hcan.2, h.symm⟩
  case h_2 => contradiction

end Inversion

/-! ## A session that is not interrupted -/

section Whole

variable {s : State τ} {t : τ}

theorem run_alloc (hp : s.phase t = .idle) (o : AllocOutcome) (name : List UInt8)
    (size : UInt64) :
    (Machine.run next s [.alloc t name size, .create t o.create, .reopen t o.reopen,
      .truncate t o.truncate, .map t o.page]).space = (allocShmMem o name size s.space).2.2 := by
  simp only [Machine.run, List.foldl_cons, List.foldl_nil, next, hp, Option.getD_some, State.goto,
    Function.update_self, allocShmMem, openShm]
  rcases shmCreate o.create name s.space with ⟨_ | fd, space⟩
  · simp only [Option.getD_some, Function.update_self]
    rcases shmOpen o.reopen name space with ⟨_ | fd, space⟩
    · simp
    · simp only [Option.getD_some, Function.update_self]
      rcases ftruncate o.truncate fd size space with ⟨_ | _, space⟩
      · simp
      · simp only [Option.getD_some, Function.update_self]
        rcases mmap o.page size fd space with ⟨_ | addr, space⟩ <;> simp
  · simp only [Option.getD_some, Option.getD_none, Function.update_self]
    rcases ftruncate o.truncate fd size space with ⟨_ | _, space⟩
    · simp
    · simp only [Option.getD_some, Function.update_self]
      rcases mmap o.page size fd space with ⟨_ | addr, space⟩ <;> simp

theorem run_free (hp : s.phase t = .idle) (name : List UInt8) (size addr : UInt64) :
    (Machine.run next s [.free t name size addr, .unmap t, .unlink t]).space =
      (freeShmMem ⟨true, true⟩ name size addr s.space).2 := by
  simp only [Machine.run, List.foldl_cons, List.foldl_nil, next, hp, Option.getD_some, State.goto,
    Function.update_self, freeShmMem]
  rcases munmap true addr size s.space with ⟨_ | _, space⟩
  · simp
  · simp only [Option.getD_some, Function.update_self]
    rcases shmUnlink true name space with ⟨_ | _, space⟩ <;> simp

end Whole

end Regions

end Freelite
