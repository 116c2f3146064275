import Freelite.Link.Transparency
import Freelite.Router.Regions

/-!
# Memory that a client and its router share

`userspace_liteapi_alloc_local_mem` is a protocol of two processes.  The router creates or
opens the object of a name and maps it; then the client opens the name and maps what it
stands for now.  In between, the router's sessions may have carried out any requests of
other clients (`window`).

`allocLocalMem_cases` says how the protocol can end, for the composition of the library,
the session and `shm.cpp`.
-/

namespace Freelite

open Lib

namespace SharedMem

variable {ν τ : Type*}

/-- The backend of a router, in which `shm.cpp` makes two of the calls. -/
def shmBackend (o : AllocOutcome) (o' : FreeOutcome)
    (other : BackendCall → Regions.State τ → BackendResult × Regions.State τ) :
    BackendCall → Regions.State τ → BackendResult × Regions.State τ
  | .allocShmMem name size, b =>
      let (ret, addr, space) := allocShmMem o name size b.space
      (⟨ret, none, none, addr⟩, { b with space })
  | .freeShmMem name size addr, b =>
      let (ret, space) := freeShmMem o' name size addr b.space
      (⟨ret, none, none, none⟩, { b with space })
  | c, b => other c b

/-- A router with this backend. -/
def shmEnv (env : Env ν (Regions.State τ)) (o : AllocOutcome) (o' : FreeOutcome) :
    Env ν (Regions.State τ) :=
  { env with backend := shmBackend o o' env.backend }

/-- What the system chooses in the client's two calls. -/
structure ClientOutcome where
  fd : Option {n : ℕ // n < 2 ^ 31}
  page : Option ℕ

/-- The number of the descriptor. -/
def ClientOutcome.fdNum (c : ClientOutcome) : Option ℕ := c.fd.map Subtype.val

/-- The number a client passes on. -/
def descr (fd : Int32) : ℕ := fd.toInt.toNat

/-- A client process and the session that serves it. -/
abbrev Pair (ν τ : Type*) := Link ν (Regions.State τ) Proc

/-- The objects and the client's process. -/
def clientSpace (l : Pair ν τ) : Space := ⟨l.world.backend.space.shm, l.client⟩

/-- The router's sessions carry out what they are asked for in the window. -/
def afterWindow [DecidableEq τ] (window : List (Regions.Act τ)) (l : Pair ν τ) : Pair ν τ :=
  { l with world :=
      { l.world with backend := Machine.run Regions.next l.world.backend window } }

/-- The operating system as the client sees it.  The window is over when the client calls
`shm_open`. -/
def clientOs [DecidableEq τ] (c : ClientOutcome) (window : List (Regions.Act τ)) :
    ClientOs (Option (Pair ν τ)) where
  shmOpen name link :=
    match link with
    | none => (none, none)
    | some l =>
        let l := afterWindow window l
        match shmOpen c.fdNum name (clientSpace l) with
        | (none, _) => (none, some l)
        | (some n, space) => (some (Int32.ofNat n), some { l with client := space.proc })
  mmap size fd link :=
    match link with
    | none => (none, none)
    | some l =>
        let (addr, space) := mmap c.page size (descr fd) (clientSpace l)
        (addr, some { l with client := space.proc })

section Calls

variable [DecidableEq τ] {c : ClientOutcome} {window : List (Regions.Act τ)} {name : List UInt8}
  {l : Pair ν τ} {space : Space}

theorem shmOpen_clientOs_none
    (h : shmOpen c.fdNum name (clientSpace (afterWindow window l)) = (none, space)) :
    (clientOs c window).shmOpen name (some l) = (none, some (afterWindow window l)) := by
  simp only [clientOs, h]

theorem shmOpen_clientOs_some {n : ℕ}
    (h : shmOpen c.fdNum name (clientSpace (afterWindow window l)) = (some n, space)) :
    (clientOs c window).shmOpen name (some l) =
      (some (Int32.ofNat n), some { afterWindow window l with client := space.proc }) := by
  simp only [clientOs, h]

/-- The number survives as an `int`, and opening changes no object. -/
theorem shmOpen_fdNum {s : Space} {n : ℕ} (h : shmOpen c.fdNum name s = (some n, space)) :
    descr (Int32.ofNat n) = n ∧ space.shm = s.shm := by
  obtain hc | ⟨n', obj, hfd, -, -, hc⟩ := shmOpen_cases c.fdNum name s <;>
    rw [hc, Prod.mk_inj] at h
  · exact absurd h.1 (by simp)
  · obtain ⟨⟨k, hk⟩, -, rfl⟩ := Option.map_eq_some_iff.mp hfd
    obtain ⟨rfl, rfl⟩ := And.intro (Option.some_inj.mp h.1) h.2
    exact ⟨by rw [descr, Int32.toInt_ofNat_of_lt hk, Int.toNat_natCast], rfl⟩

end Calls

section Protocol

variable [DecidableEq τ] (env : Env ν (Regions.State τ)) (cid : Cid) (o : AllocOutcome)
  (o' : FreeOutcome) (c : ClientOutcome) (window : List (Regions.Act τ)) (rsp₀ : RspMsg)
  (name : List UInt8) (size : UInt64) (localAddr : VarAddr) (l : Pair ν τ)

/-- The call of the client library. -/
def allocLocalMem : Option (LiteLib.AllocResult × Option (Pair ν τ)) :=
  LiteLib.userspaceLiteapiAllocLocalMem (Link.rpcHandler (shmEnv env o o') cid) rsp₀
    (clientOs c window) name size localAddr (some l)

/-- The router's part of it. -/
def routerAlloc : Int32 × Option UInt64 × Space := allocShmMem o name size l.world.backend.space

/-- The state of the router when the client calls `shm_open`. -/
def atOpen : Regions.State τ :=
  Machine.run Regions.next { l.world.backend with space := (routerAlloc o name size l).2.2 } window

/-- The client's `shm_open`. -/
def clientOpen : Option ℕ × Space :=
  shmOpen c.fdNum name ⟨(atOpen o window name size l).space.shm, l.client⟩

/-- The client's `mmap`. -/
def clientMap (fd : ℕ) : Option UInt64 × Space :=
  mmap c.page size fd (clientOpen o c window name size l).2

theorem allocLocalMemReq_isSome (hlt : name.length < AllocLocalMemReq.name.size) :
    ∃ req, LiteLib.allocLocalMemReq name size = some req := by
  rw [← Option.ne_none_iff_exists', LiteLib.allocLocalMemReq, ne_eq,
    CharArray.strncpy_eq_none_iff]
  omega

variable {env cid o o' c window rsp₀ name size localAddr l}

/-- **How the call can end.**  The router fails; or the client cannot open the name; or the
client has opened it, and then the call returns what the router has returned, whatever its
`mmap` returns. -/
theorem allocLocalMem_cases (hname : 0 ∉ name) (hlt : name.length < AllocLocalMemReq.name.size) :
    ∃ res l', allocLocalMem env cid o o' c window rsp₀ name size localAddr l = some (res, some l') ∧
      (((routerAlloc o name size l).1 = -1 ∧ res = ⟨-1, none, none⟩) ∨
      ∃ addr, routerAlloc o name size l = (0, some addr, (routerAlloc o name size l).2.2) ∧
        l'.world.backend = atOpen o window name size l ∧
        (((clientOpen o c window name size l).1 = none ∧ res = ⟨-1, none, none⟩ ∧
            l'.client = l.client) ∨
          ∃ fd, (clientOpen o c window name size l).1 = some fd ∧
            res = ⟨0, some ((clientMap o c window name size l fd).1.getD mapFailed), some addr⟩ ∧
            l'.client = (clientMap o c window name size l fd).2.proc)) := by
  obtain ⟨req, hreq⟩ := allocLocalMemReq_isSome name size hlt
  -- the exchange with the session
  set r := routerAlloc o name size l with hr
  let rsp := RspMsg.intRsp.set r.1 (Session.output AllocLocalMemRsp.remoteAddr r.2.1 l.rsp)
  let l₁ : Pair ν τ :=
    { rsp
      world :=
        { l.world with
          backend := { l.world.backend with space := r.2.2 }
          calls := l.world.calls ++ [.allocShmMem name size] }
      client := l.client }
  have hd : Session.dispatch (shmEnv env o o') cid req l.rsp l.world = .reply rsp l₁.world :=
    dispatch_allocLocalMemReq l.rsp l.world hname hlt hreq
  have hrpc : Link.rpcHandler (shmEnv env o o') cid req rsp₀ (some l) = (0, rsp, some l₁) := by
    simp only [Link.rpcHandler, hd]
    rfl
  have hret : RspMsg.intRsp.get rsp = r.1 := Field.get_set_self _ _ _
  simp only [allocLocalMem, LiteLib.userspaceLiteapiAllocLocalMem, hreq, Option.map_some, hrpc,
    hret]
  obtain ⟨hfail, -⟩ | ⟨_, _, _, -, -, -, -, hfail⟩ | ⟨_, p, -, -, -, -, hsucc⟩ :=
    allocShmMem_cases o name size l.world.backend.space
  · have hneg : r.1 = -1 := congrArg Prod.fst hfail
    exact ⟨_, l₁, by rw [hneg]; rfl, .inl ⟨hneg, rfl⟩⟩
  · have hneg : r.1 = -1 := congrArg Prod.fst hfail
    exact ⟨_, l₁, by rw [hneg]; rfl, .inl ⟨hneg, rfl⟩⟩
  · have hzero : r.1 = 0 := congrArg Prod.fst hsucc
    have haddr : r.2.1 = some (pageAddr p) := congrArg (fun x ↦ x.2.1) hsucc
    have hremote : AllocLocalMemRsp.remoteAddr.get rsp = pageAddr p := by
      simp (disch := decide) only [rsp, haddr, Session.output, Field.get_set_of_disjoint,
        Field.get_set_self]
    have hr' : r = (0, some (pageAddr p), r.2.2) := by
      rw [← hzero, ← haddr]
    rw [hzero]
    -- the client's own calls
    cases hopen : clientOpen o c window name size l with
    | mk fd space =>
        have hopen' : shmOpen c.fdNum name (clientSpace (afterWindow window l₁)) =
            (fd, space) := hopen
        cases fd with
        | none =>
            refine ⟨⟨-1, none, none⟩, afterWindow window l₁, ?_,
              .inr ⟨pageAddr p, hr', rfl, .inl ⟨rfl, rfl, rfl⟩⟩⟩
            rw [shmOpen_clientOs_none hopen']
            rfl
        | some n =>
            obtain ⟨hnum, hshm⟩ := shmOpen_fdNum hopen'
            refine ⟨_, { afterWindow window l₁ with
                client := (clientMap o c window name size l n).2.proc }, ?_,
              .inr ⟨pageAddr p, hr', rfl, .inr ⟨n, rfl, rfl, rfl⟩⟩⟩
            have hspace : clientSpace { afterWindow window l₁ with client := space.proc } =
                (clientOpen o c window name size l).2 := by
              rw [hopen]
              exact Space.ext hshm.symm rfl
            rw [shmOpen_clientOs_some hopen']
            simp only [clientOs, hnum, hspace, localAddr.2, hremote, clientMap, if_false]
            rfl

/-! ## The same memory on both sides -/

variable (o c window name size l) in
/-- One of the steps of the protocol fails. -/
def Fails : Prop :=
  (routerAlloc o name size l).1 ≠ 0 ∨ (clientOpen o c window name size l).1 = none ∨
    ∃ fd, (clientOpen o c window name size l).1 = some fd ∧
      (clientMap o c window name size l fd).1 = none

/-- What the caller of `userspace_liteapi_alloc_local_mem` relies on. -/
structure SameMemory (fails : Prop) (size : UInt64) (res : LiteLib.AllocResult)
    (l : Pair ν τ) : Prop where
  /-- If the value is not negative, both addresses map the same object. -/
  success : 0 ≤ res.ret → ∃ localAddr remoteAddr obj, res.localAddr = some localAddr ∧
    res.remoteAddr = some remoteAddr ∧
      l.client.ValidMapping l.world.backend.space.shm localAddr size obj ∧
      l.world.backend.space.proc.ValidMapping l.world.backend.space.shm remoteAddr size obj
  /-- If a step fails, the value is negative and `*remote_addr` is not written. -/
  failure : fails → res.ret < 0 ∧ res.remoteAddr = none

variable (o window name size l) in
/-- When the client opens it, the name stands for an object that has the size, and that the
router still maps where it has said. -/
def StillThere : Prop :=
  ∃ addr obj, (routerAlloc o name size l).2.1 = some addr ∧
    (atOpen o window name size l).space.shm.names name = some obj ∧
      (atOpen o window name size l).space.proc.ValidMapping (atOpen o window name size l).space.shm
        addr size obj

/-- What the client maps is the object the name stands for when it opens it. -/
theorem clientMap_cases {fd : ℕ} (hopen : (clientOpen o c window name size l).1 = some fd) :
    ∃ obj, (atOpen o window name size l).space.shm.names name = some obj ∧
      ((clientMap o c window name size l fd).1 = none ∨
        ∃ p, (clientMap o c window name size l fd).1 = some (pageAddr p) ∧ size ≠ 0 ∧
          (pageAddr p).toNat % 4096 = 0 ∧
          (clientMap o c window name size l fd).2.proc.Maps (pageAddr p) size obj) := by
  obtain hc | ⟨n, obj, -, hname, hfree, hc⟩ := shmOpen_cases c.fdNum name
    ⟨(atOpen o window name size l).space.shm, l.client⟩ <;>
    rw [clientOpen, hc] at hopen
  · contradiction
  · obtain rfl := Option.some_inj.mp hopen
    refine ⟨obj, hname, ?_⟩
    rw [clientMap, clientOpen, hc]
    obtain hm | ⟨p, obj', -, hobj', hfree, hm⟩ := mmap_cases c.page size n
      ⟨(atOpen o window name size l).space.shm, l.client.openFd n obj⟩ <;> rw [hm]
    · exact .inl rfl
    · obtain rfl : obj = obj' := by
        change Function.update l.client.fds n (some obj) n = some obj' at hobj'
        rwa [Function.update_self, Option.some_inj] at hobj'
      refine .inr ⟨p, rfl, hfree.2.1, ?_, Proc.maps_map hfree obj⟩
      rw [toNat_pageAddr hfree.lt, Nat.mul_mod_left]

/-- The call ends in one way. -/
theorem sameMemory_iff_of_eq {res : LiteLib.AllocResult} {l' : Pair ν τ}
    (hres : allocLocalMem env cid o o' c window rsp₀ name size localAddr l = some (res, some l')) :
    (∃ res l', allocLocalMem env cid o o' c window rsp₀ name size localAddr l =
        some (res, some l') ∧ SameMemory (Fails o c window name size l) size res l') ↔
      SameMemory (Fails o c window name size l) size res l' := by
  rw [hres]
  refine ⟨?_, fun h ↦ ⟨res, l', rfl, h⟩⟩
  rintro ⟨_, _, heq, h⟩
  rw [Option.some_inj, Prod.mk_inj, Option.some_inj] at heq
  obtain ⟨rfl, rfl⟩ := heq
  exact h

/-- Once the client has the name open, everything depends on what the name stands for. -/
theorem sameMemory_iff_stillThere (hname : 0 ∉ name)
    (hlt : name.length < AllocLocalMemReq.name.size)
    (hzero : (routerAlloc o name size l).1 = 0) {n : ℕ}
    (hopen : (clientOpen o c window name size l).1 = some n)
    (hmmap : (clientMap o c window name size l n).1 ≠ none) :
    (∃ res l', allocLocalMem env cid o o' c window rsp₀ name size localAddr l =
        some (res, some l') ∧ SameMemory (Fails o c window name size l) size res l') ↔
      StillThere o window name size l := by
  obtain ⟨res, l', hres, hcases⟩ :=
    @allocLocalMem_cases ν τ _ env cid o o' c window rsp₀ name size localAddr l hname hlt
  rw [sameMemory_iff_of_eq hres]
  obtain ⟨hfail, -⟩ | ⟨addr, hr, hback, ⟨hnone, -⟩ | ⟨fd', hopen', rfl, hclient⟩⟩ := hcases
  · rw [hzero] at hfail
    contradiction
  · rw [hopen] at hnone
    contradiction
  obtain rfl := Option.some_inj.mp (hopen.symm.trans hopen')
  obtain ⟨obj, hobj, hnone | ⟨p, hmap, hsize, halign, hmaps⟩⟩ := clientMap_cases hopen
  · exact (hmmap hnone).elim
  have haddr : (routerAlloc o name size l).2.1 = some addr := by rw [hr]
  rw [hmap, Option.getD_some]
  constructor
  · intro h
    obtain ⟨localAddr, remoteAddr, obj', hlocal, hremote, ⟨-, hlmaps, -⟩, hrouter⟩ :=
      h.success (Int32.le_refl 0)
    obtain rfl := Option.some_inj.mp hlocal
    obtain rfl := Option.some_inj.mp hremote
    rw [hclient] at hlmaps
    obtain rfl := hmaps.obj_eq hsize hlmaps
    rw [hback] at hrouter
    exact ⟨addr, obj, haddr, hobj, hrouter⟩
  · rintro ⟨addr', obj', haddr', hobj', hrouter⟩
    obtain rfl := Option.some_inj.mp (haddr.symm.trans haddr')
    obtain rfl := Option.some_inj.mp (hobj.symm.trans hobj')
    refine ⟨fun _ ↦ ⟨pageAddr p, addr, obj, rfl, rfl, ⟨halign, ?_, ?_⟩, ?_⟩, fun hfails ↦ ?_⟩
    · rw [hclient]
      exact hmaps
    · rw [hback]
      exact hrouter.2.2
    · rw [hback]
      exact hrouter
    · obtain h0 | hnone | ⟨fd', hopen', hnone⟩ := hfails
      · exact (h0 hzero).elim
      · rw [hopen] at hnone
        contradiction
      · obtain rfl := Option.some_inj.mp (hopen.symm.trans hopen')
        exact (hmmap hnone).elim

variable (env cid o o' c window rsp₀ localAddr) in
/-- **When a successful allocation is the same memory.**  If the client's `mmap` does not
fail, the call does what its caller relies on if and only if the name still stands for the
router's memory when the client opens it. -/
theorem sameMemory_iff (hname : 0 ∉ name) (hlt : name.length < AllocLocalMemReq.name.size)
    (hmmap : ∀ fd, (clientOpen o c window name size l).1 = some fd →
      (clientMap o c window name size l fd).1 ≠ none) :
    (∃ res l', allocLocalMem env cid o o' c window rsp₀ name size localAddr l =
        some (res, some l') ∧ SameMemory (Fails o c window name size l) size res l') ↔
      ((routerAlloc o name size l).1 = 0 → (clientOpen o c window name size l).1 ≠ none →
        StillThere o window name size l) := by
  obtain ⟨res, l', hres, hcases⟩ :=
    @allocLocalMem_cases ν τ _ env cid o o' c window rsp₀ name size localAddr l hname hlt
  have hnegative : SameMemory (Fails o c window name size l) size ⟨-1, none, none⟩ l' :=
    ⟨fun h ↦ absurd h (by decide), fun _ ↦ ⟨by decide, rfl⟩⟩
  obtain ⟨hfail, rfl⟩ | ⟨addr, hr, -, ⟨hopen, rfl, -⟩ | ⟨fd, hopen, -, -⟩⟩ := hcases
  · rw [sameMemory_iff_of_eq hres]
    refine iff_of_true hnegative fun h0 ↦ ?_
    rw [hfail] at h0
    contradiction
  · rw [sameMemory_iff_of_eq hres]
    exact iff_of_true hnegative fun _ h ↦ (h hopen).elim
  · have hzero : (routerAlloc o name size l).1 = 0 := by rw [hr]
    rw [sameMemory_iff_stillThere hname hlt hzero hopen (hmmap fd hopen)]
    exact ⟨fun h _ _ ↦ h, fun h ↦ h hzero (by rw [hopen]; simp)⟩

end Protocol

/-! ### An instance -/

/-- A router with two sessions that has just started, and a client. -/
def freshPair : Pair Unit (Fin 2) :=
  ⟨Flat.zero 24, ⟨World.quiet.routing, (), Regions.init .empty, []⟩, .empty⟩

/-- Its environment. -/
def freshEnv : Env Unit (Regions.State (Fin 2)) where
  build := .noContainer
  routerNid := 1
  peer _ _ := (.received [], ())
  backend _ b := (⟨-1, none, none, none⟩, b)

/-- All system calls succeed. -/
def lucky : AllocOutcome := ⟨some 3, none, true, some 1⟩

/-- In the window another session allocates a region of its own, and is refused one. -/
def alongside : List (Regions.Act (Fin 2)) :=
  [.alloc 1 [0x62] 8192, .create 1 (some 4), .truncate 1 true, .map 1 (some 2),
    .alloc 1 [0x63] 4096, .create 1 none, .reopen 1 none]

/-- Then both sides have the same memory. -/
theorem sameMemory_iff_alongside :
    ∃ res l', allocLocalMem freshEnv [] lucky ⟨true, true⟩ ⟨some ⟨3, by decide⟩, some 1⟩ alongside
        (Flat.zero 24) [0x61] 4096 ⟨0x1000, by decide⟩ freshPair = some (res, some l') ∧
      SameMemory (Fails lucky ⟨some ⟨3, by decide⟩, some 1⟩ alongside [0x61] 4096 freshPair) 4096
        res l' := by
  refine (sameMemory_iff freshEnv [] lucky ⟨true, true⟩ ⟨some ⟨3, by decide⟩, some 1⟩ alongside
    (Flat.zero 24) ⟨0x1000, by decide⟩ (by decide) (by decide) (by decide)).mpr fun _ _ ↦ ?_
  refine ⟨pageAddr 1, 0, by decide, by decide, by decide, ?_, by decide⟩
  intro i hi
  obtain rfl : i = 0 := Nat.lt_one_iff.mp hi
  decide

/-- A session frees the region that another one has just allocated, and allocates it anew. -/
def recreate : List (Regions.Act (Fin 2)) :=
  [.free 1 [0x61] 4096 (pageAddr 1), .unmap 1, .unlink 1, .alloc 1 [0x61] 4096,
    .create 1 (some 4), .truncate 1 true, .map 1 (some 2)]

/-- In the window the other session frees the name and allocates it again: the call returns
zero, and the two sides map different objects. -/
theorem not_sameMemory_recreated :
    ¬ ∀ (c : ClientOutcome) (window : List (Regions.Act (Fin 2))) (size : UInt64),
      ∃ res l', allocLocalMem freshEnv [] lucky ⟨true, true⟩ c window (Flat.zero 24) [0x61] size
          ⟨0x1000, by decide⟩ freshPair = some (res, some l') ∧
        SameMemory (Fails lucky c window [0x61] size freshPair) size res l' := by
  intro h
  have hs := h ⟨some ⟨3, by decide⟩, some 1⟩ recreate 4096
  rw [sameMemory_iff_stillThere (n := 3) (by decide) (by decide) (by decide) (by decide)
    (by decide)] at hs
  obtain ⟨addr, obj, haddr, -, -, hmaps, -⟩ := hs
  obtain rfl : pageAddr 1 = addr := Option.some_inj.mp haddr
  have hnone : (atOpen lucky recreate [0x61] 4096 freshPair).space.proc.pages
      (pageOf (pageAddr 1)) = none := by decide
  have hpage := hmaps 0 (by decide)
  rw [Nat.add_zero, hnone] at hpage
  contradiction

end SharedMem

end Freelite
