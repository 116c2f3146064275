import Freelite.Link.SharedMem

/-!
# Allocating and freeing again

`userspace_liteapi_free_local_mem` asks the router to unmap its side and to unlink the
name.  Nobody closes the two descriptors that the allocation has opened, one in the router
and one in the client, and nobody unmaps the client's side.

`allocFree_restores` is what a pair of the two calls leaves as it was when all goes well,
and `allocFree_leaks` what it leaves behind.
-/

namespace Freelite

open Lib

namespace SharedMem

variable {ν τ : Type*} [DecidableEq τ]

/-- What is given and what the system chooses in a pair of calls. -/
structure Round (ν τ : Type*) where
  env : Env ν (Regions.State τ)
  cid : Cid
  alloc : AllocOutcome
  free : FreeOutcome
  client : ClientOutcome
  rsp₀ : RspMsg
  rsp₁ : RspMsg
  name : List UInt8
  size : UInt64
  localAddr : VarAddr
  /-- The caller's variables before the calls. -/
  localVar : UInt64
  remoteVar : UInt64

/-- The call of the client library. -/
def freeLocalMem (env : Env ν (Regions.State τ)) (cid : Cid) (o : AllocOutcome)
    (o' : FreeOutcome) (rsp₀ : RspMsg) (name : List UInt8) (size localAddr remoteAddr : UInt64)
    (link : Option (Pair ν τ)) : Option (Int32 × Option (Pair ν τ)) :=
  LiteLib.userspaceLiteapiFreeLocalMem (Link.rpcHandler (shmEnv env o o') cid) rsp₀ name size
    localAddr remoteAddr link

/-- Allocate, and free what the allocation has returned, with nobody in between: the two
return values. -/
def allocFree (x : Round ν τ) (l : Pair ν τ) : Option (Int32 × Int32 × Option (Pair ν τ)) :=
  (allocLocalMem x.env x.cid x.alloc x.free x.client [] x.rsp₀ x.name x.size x.localAddr l).bind
    fun (res, link) ↦
      (freeLocalMem x.env x.cid x.alloc x.free x.rsp₁ x.name x.size
        (res.localAddr.getD x.localVar) (res.remoteAddr.getD x.remoteVar) link).map
          fun (ret, link) ↦ (res.ret, ret, link)

/-- Both calls return zero, and everything is as it was. -/
structure Restored (x : Round ν τ) (l : Pair ν τ) (l' : Pair ν τ) : Prop where
  returns : allocFree x l = some (0, 0, some l')
  names : l'.world.backend.space.shm.names = l.world.backend.space.shm.names
  mappings : l'.world.backend.space.proc.pages = l.world.backend.space.proc.pages
  descriptors : l'.world.backend.space.proc.fds = l.world.backend.space.proc.fds
  clientMappings : l'.client.pages = l.client.pages
  clientDescriptors : l'.client.fds = l.client.fds

/-! ## The client's descriptors -/

section Client

variable {x : Round ν τ} {l l' : Pair ν τ}

omit [DecidableEq τ] in
/-- An exchange does not touch the client's process. -/
theorem client_rpcHandler {env : Env ν (Regions.State τ)} {cid : Cid} {req : ReqMsg}
    {rsp : RspMsg} (h : (Link.rpcHandler env cid req rsp (some l)).2.2 = some l') :
    l'.client = l.client := by
  unfold Link.rpcHandler at h
  cases hd : Session.dispatch env cid req l.rsp l.world with
  | reply rsp' w =>
      simp only [hd, Option.some_inj] at h
      rw [← h]
  | close w => simp [hd] at h
  | undefined => simp [hd] at h

/-- A successful allocation has opened a descriptor and closed none. -/
theorem exists_fd_allocLocalMem {env : Env ν (Regions.State τ)} {cid : Cid} {o : AllocOutcome}
    {o' : FreeOutcome} {c : ClientOutcome} {window : List (Regions.Act τ)} {rsp₀ : RspMsg}
    {name : List UInt8} {size : UInt64} {localAddr : VarAddr} {res : LiteLib.AllocResult}
    (h : allocLocalMem env cid o o' c window rsp₀ name size localAddr l = some (res, some l'))
    (hret : res.ret = 0) :
    ∃ n obj, l.client.fds n = none ∧ l'.client.fds = Function.update l.client.fds n (some obj) := by
  unfold allocLocalMem LiteLib.userspaceLiteapiAllocLocalMem at h
  obtain ⟨req, -, h⟩ := Option.map_eq_some_iff.mp h
  rcases hrpc : Link.rpcHandler (shmEnv env o o') cid req rsp₀ (some l) with ⟨err, rsp, k⟩
  simp only [hrpc] at h
  by_cases hneg : RspMsg.intRsp.get rsp < 0
  · rw [if_pos hneg, Prod.mk_inj] at h
    rw [← h.1] at hret
    exact absurd hret (by decide)
  rw [if_neg hneg] at h
  cases k with
  | none =>
      simp only [clientOs, Prod.mk_inj] at h
      exact absurd h.2 (by simp)
  | some l₁ =>
      have hclient : l₁.client = l.client := client_rpcHandler (congrArg (·.2.2) hrpc)
      rcases hopen : shmOpen c.fdNum name (clientSpace (afterWindow window l₁)) with ⟨_ | n, space⟩
      · rw [shmOpen_clientOs_none hopen, Prod.mk_inj] at h
        rw [← h.1] at hret
        exact absurd hret (by decide)
      · rw [shmOpen_clientOs_some hopen] at h
        simp only [clientOs, localAddr.2, if_false, Prod.mk_inj, Option.some_inj] at h
        rw [← h.2]
        obtain hc | ⟨n', obj, -, -, hfree, hc⟩ := shmOpen_cases c.fdNum name
          (clientSpace (afterWindow window l₁)) <;>
          rw [hc, Prod.mk_inj] at hopen
        · exact absurd hopen.1 (by simp)
        · obtain ⟨-, rfl⟩ := hopen
          refine ⟨n', obj, hclient ▸ hfree, ?_⟩
          rw [← hclient]
          obtain hm | ⟨p, obj', -, -, -, hm⟩ := mmap_cases c.page size (descr (Int32.ofNat n))
            (clientSpace { afterWindow window l₁ with client := l₁.client.openFd n' obj })
          · exact congrArg (fun r ↦ r.2.proc.fds) hm
          · exact congrArg (fun r ↦ r.2.proc.fds) hm

omit [DecidableEq τ] in
/-- Freeing closes none either. -/
theorem client_freeLocalMem {env : Env ν (Regions.State τ)} {cid : Cid} {o : AllocOutcome}
    {o' : FreeOutcome} {rsp₀ : RspMsg} {name : List UInt8} {size localAddr remoteAddr : UInt64}
    {ret : Int32}
    (h : freeLocalMem env cid o o' rsp₀ name size localAddr remoteAddr (some l) =
      some (ret, some l')) : l'.client = l.client := by
  unfold freeLocalMem LiteLib.userspaceLiteapiFreeLocalMem LiteLib.callInt at h
  obtain ⟨req, -, h⟩ := Option.map_eq_some_iff.mp h
  exact client_rpcHandler (congrArg Prod.snd h)

/-- So a pair of calls leaves a descriptor behind. -/
theorem exists_fd_allocFree {ret : Int32} (h : allocFree x l = some (0, ret, some l')) :
    ∃ n obj, l.client.fds n = none ∧ l'.client.fds = Function.update l.client.fds n (some obj) := by
  unfold allocFree at h
  obtain ⟨⟨res, link⟩, halloc, h⟩ := Option.bind_eq_some_iff.mp h
  obtain ⟨⟨ret', link'⟩, hfree, h⟩ := Option.map_eq_some_iff.mp h
  simp only [Prod.mk_inj] at h
  obtain ⟨hret, -, rfl⟩ := h
  cases link with
  | none =>
      unfold freeLocalMem LiteLib.userspaceLiteapiFreeLocalMem LiteLib.callInt Link.rpcHandler
        at hfree
      obtain ⟨req, -, hfree⟩ := Option.map_eq_some_iff.mp hfree
      exact absurd (congrArg Prod.snd hfree) (by simp)
  | some l₁ =>
      rw [client_freeLocalMem hfree]
      exact exists_fd_allocLocalMem halloc hret

end Client

/-! ## A pair of calls that succeeds -/

section Success

variable {x : Round ν τ} {l : Pair ν τ}

variable (x l) in
/-- The name is not in use, and every system call succeeds. -/
structure Lucky : Prop where
  notMem : 0 ∉ x.name
  lt : x.name.length < AllocLocalMemReq.name.size
  unused : l.world.backend.space.shm.names x.name = none
  opens : CanOpen x.alloc x.name l.world.backend.space
  maps : CanMap x.alloc x.size l.world.backend.space
  clientOpens : (clientOpen x.alloc x.client [] x.name x.size l).1 ≠ none
  clientMaps : ∀ n, (clientOpen x.alloc x.client [] x.name x.size l).1 = some n →
    (clientMap x.alloc x.client [] x.name x.size l n).1 ≠ none
  frees : x.free = ⟨true, true⟩

/-- What the router has allocated in a fresh name. -/
theorem Lucky.routerAlloc_eq (h : Lucky x l) :
    ∃ fd p obj shm, l.world.backend.space.proc.Free p x.size ∧
      shm.names = Function.update l.world.backend.space.shm.names x.name (some obj) ∧
        routerAlloc x.alloc x.name x.size l = (0, some (pageAddr p),
          ⟨shm, (l.world.backend.space.proc.openFd fd obj).map p (pageCount x.size) obj⟩) := by
  obtain ⟨-, hopen⟩ | ⟨_, _, _, -, -, hmap, -⟩ | ⟨fd, p, -, -, -, hfree, halloc⟩ :=
    allocShmMem_cases x.alloc x.name x.size l.world.backend.space
  · exact (hopen h.opens).elim
  · exact (hmap h.maps).elim
  · refine ⟨fd, p, _, _, hfree, ?_, halloc⟩
    have hopened : l.world.backend.space.shm.opened x.name =
        l.world.backend.space.shm.create x.name := if_pos h.unused
    have hnamed : l.world.backend.space.shm.named x.name =
        l.world.backend.space.shm.created := by rw [Shm.named, h.unused, Option.getD_none]
    rw [hopened, hnamed]
    rfl

/-- Pages that were free are free again after a mapping on them has been removed. -/
theorem unmap_map {m : Proc} {p obj : ℕ} {size : UInt64} (h : m.Free p size) :
    ((m.map p (pageCount size) obj).unmap p (pageCount size)).pages = m.pages := by
  funext q
  by_cases hq : p ≤ q ∧ q < p + pageCount size
  · rw [Proc.pages_unmap_self hq]
    have hnone := h.2.2.2 (q - p) (by omega)
    rwa [Nat.add_sub_cancel' hq.1, eq_comm] at hnone
  · rw [Proc.pages_unmap hq]
    exact if_neg hq

omit [DecidableEq τ] in
/-- Freeing what the router has mapped under a name that it finds. -/
theorem freeLocalMem_eq {env : Env ν (Regions.State τ)} {cid : Cid} {o : AllocOutcome}
    {rsp₀ : RspMsg} {name : List UInt8} {size localAddr addr : UInt64} (hname : 0 ∉ name)
    (hlt : name.length < FreeLocalMemReq.name.size) (haddr : Unmappable addr size)
    (hbound : l.world.backend.space.shm.names name ≠ none) :
    ∃ l', freeLocalMem env cid o ⟨true, true⟩ rsp₀ name size localAddr addr (some l) =
        some (0, some l') ∧ l'.client = l.client ∧
      l'.world.backend.space = ⟨l.world.backend.space.shm.unlink name,
        l.world.backend.space.proc.unmap (pageOf addr) (pageCount size)⟩ := by
  obtain ⟨req, hreq⟩ : ∃ req, LiteLib.freeLocalMemReq name size addr = some req := by
    rw [← Option.ne_none_iff_exists', LiteLib.freeLocalMemReq, ne_eq,
      CharArray.strncpy_eq_none_iff]
    omega
  obtain ⟨hno, -⟩ | ⟨-, hno, -⟩ | ⟨-, -, hfree⟩ :=
    freeShmMem_cases ⟨true, true⟩ name size addr l.world.backend.space
  · exact (hno ⟨rfl, haddr⟩).elim
  · exact (hno ⟨rfl, hbound⟩).elim
  let l' : Pair ν τ :=
    { rsp := RspMsg.intRsp.set 0 l.rsp
      world :=
        { l.world with
          backend := { l.world.backend with space := ⟨l.world.backend.space.shm.unlink name,
            l.world.backend.space.proc.unmap (pageOf addr) (pageCount size)⟩ }
          calls := l.world.calls ++ [.freeShmMem name size addr] }
      client := l.client }
  have hd : Session.dispatch (shmEnv env o ⟨true, true⟩) cid req l.rsp l.world =
      .reply l'.rsp l'.world := by
    rw [dispatch_freeLocalMemReq l.rsp l.world hname hlt hreq]
    simp only [Session.callInt, World.call, shmEnv, shmBackend, hfree]
    rfl
  refine ⟨l', ?_, rfl, rfl⟩
  simp only [freeLocalMem, LiteLib.userspaceLiteapiFreeLocalMem, hreq, Option.map_some,
    LiteLib.callInt, Link.rpcHandler, hd]
  rw [show RspMsg.intRsp.get l'.rsp = 0 from Field.get_set_self _ _ _]

/-- **What a pair of calls restores.**  When all goes well both calls return zero, and the
names and the router's mappings are what they were. -/
theorem allocFree_restores (h : Lucky x l) :
    ∃ l', allocFree x l = some (0, 0, some l') ∧
      l'.world.backend.space.shm.names = l.world.backend.space.shm.names ∧
        l'.world.backend.space.proc.pages = l.world.backend.space.proc.pages := by
  obtain ⟨fd, p, obj, shm, hfree, hnames, hr⟩ := h.routerAlloc_eq
  obtain ⟨res, l₁, hres, ⟨hfail, -⟩ | ⟨addr, hr', hback, ⟨hnone, -⟩ | ⟨n, -, rfl, -⟩⟩⟩ :=
    @allocLocalMem_cases ν τ _ x.env x.cid x.alloc x.free x.client [] x.rsp₀ x.name x.size
      x.localAddr l h.notMem h.lt
  · rw [hr] at hfail
    exact absurd (show (0 : Int32) = -1 from hfail) (by decide)
  · exact (h.clientOpens hnone).elim
  obtain rfl : pageAddr p = addr := by
    rw [hr, Prod.mk_inj, Prod.mk_inj, Option.some_inj] at hr'
    exact hr'.2.1
  have hspace : l₁.world.backend.space = ⟨shm,
      (l.world.backend.space.proc.openFd fd obj).map p (pageCount x.size) obj⟩ := by
    rw [hback]
    exact congrArg (·.2.2) hr
  obtain ⟨l', hfreed, -, hspace'⟩ := @freeLocalMem_eq ν τ l₁ x.env x.cid x.alloc x.rsp₁ x.name
    x.size ((clientMap x.alloc x.client [] x.name x.size l n).1.getD mapFailed) (pageAddr p)
    h.notMem h.lt hfree.unmappable (by rw [hspace, hnames, Function.update_self]; simp)
  refine ⟨l', ?_, ?_, ?_⟩
  · rw [allocFree, hres, Option.bind_some, h.frees]
    simp only [Option.getD_some, hfreed, Option.map_some]
  · rw [hspace', hspace]
    change Function.update shm.names x.name none = _
    rw [hnames, Function.update_idem, ← h.unused, Function.update_eq_self]
  · rw [hspace', hspace, pageOf_pageAddr hfree.lt]
    exact unmap_map hfree

end Success

/-! ## What it leaves behind -/

theorem Restored.elim {x : Round ν τ} {l l' : Pair ν τ} (h : Restored x l l') : False := by
  obtain ⟨n, obj, hfree, hfds⟩ := exists_fd_allocFree h.returns
  have hn := congrFun (h.clientDescriptors.symm.trans hfds) n
  rw [hfree, Function.update_self] at hn
  contradiction

/-- Every pair of calls leaves one descriptor more behind, and closes none. -/
theorem exists_fds_of_rounds {n : ℕ} {x : ℕ → Round ν τ} {l : ℕ → Pair ν τ}
    (h : ∀ i < n, ∃ ret, allocFree (x i) (l i) = some (0, ret, some (l (i + 1)))) :
    (∀ fd, (l n).client.fds fd = none → (l 0).client.fds fd = none) ∧
      ∃ S : Finset ℕ, S.card = n ∧
        ∀ fd ∈ S, (l 0).client.fds fd = none ∧ (l n).client.fds fd ≠ none := by
  induction n with
  | zero => exact ⟨fun _ h ↦ h, ∅, rfl, by simp⟩
  | succ n ih =>
      obtain ⟨hmono, S, hcard, hS⟩ := ih fun i hi ↦ h i (hi.trans (Nat.lt_succ_self n))
      obtain ⟨ret, hround⟩ := h n (Nat.lt_succ_self n)
      obtain ⟨fd, obj, hfree, hfds⟩ := exists_fd_allocFree hround
      have hkeep {k : ℕ} (hk : (l n).client.fds k ≠ none) : (l (n + 1)).client.fds k ≠ none := by
        rw [hfds, Function.update_of_ne (by rintro rfl; exact hk hfree)]
        exact hk
      refine ⟨fun k hk ↦ hmono k (by_contra fun hne ↦ hkeep hne hk), insert fd S, ?_, ?_⟩
      · rw [Finset.card_insert_of_notMem fun hmem ↦ (hS fd hmem).2 hfree, hcard]
      · intro k hk
        obtain rfl | hk := Finset.mem_insert.mp hk
        · exact ⟨hmono k hfree, by rw [hfds, Function.update_self]; simp⟩
        · exact ⟨(hS k hk).1, hkeep (hS k hk).2⟩

/-- **No pair of calls restores everything**, and the descriptors of a client that goes on
making them are without bound. -/
theorem allocFree_leaks :
    (∀ (x : Round ν τ) (l l' : Pair ν τ), ¬ Restored x l l') ∧
    ∀ (n : ℕ) (x : ℕ → Round ν τ) (l : ℕ → Pair ν τ),
      (∀ i < n, ∃ ret, allocFree (x i) (l i) = some (0, ret, some (l (i + 1)))) →
        ∃ S : Finset ℕ, S.card = n ∧
          ∀ fd ∈ S, (l 0).client.fds fd = none ∧ (l n).client.fds fd ≠ none := by
  exact ⟨fun _ _ _ h ↦ h.elim, fun _ _ _ h ↦ (exists_fds_of_rounds h).2⟩

/-- A client that allocates and frees one page. -/
def onePage : Round Unit (Fin 2) where
  env := freshEnv
  cid := []
  alloc := lucky
  free := ⟨true, true⟩
  client := ⟨some ⟨3, by decide⟩, some 1⟩
  rsp₀ := Flat.zero 24
  rsp₁ := Flat.zero 24
  name := [0x61]
  size := 4096
  localAddr := ⟨0x1000, by decide⟩
  localVar := 0
  remoteVar := 0

/-- All goes well, and the client's descriptor is left open. -/
theorem not_restored_onePage : ¬ ∀ (x : Round Unit (Fin 2)) (l : Pair Unit (Fin 2)),
    Lucky x l → ∃ l', Restored x l l' := by
  intro h
  have hlucky : Lucky onePage freshPair :=
    { notMem := by decide
      lt := by decide
      unused := rfl
      opens := ⟨3, rfl, rfl⟩
      maps := ⟨⟨rfl, by decide⟩, 1, rfl, by decide⟩
      clientOpens := by decide
      clientMaps := by decide
      frees := rfl }
  obtain ⟨l', hl'⟩ := h onePage freshPair hlucky
  exact hl'.elim

end SharedMem

end Freelite
