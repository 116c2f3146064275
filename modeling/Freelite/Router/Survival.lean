import Freelite.Lib.Machine
import Freelite.Router.SessionThread

/-!
# What a client can do to the router

`router/test_router.cpp`, `server_accept_request` and the accept loop of `main` in the
container build, with clients that do whatever they like.

A session thread that ends by itself leaves the other sessions alone, as long as its
connection is no one else's.  But it takes its descriptor from a variable of `main`, which
the next `accept` overwrites (`Freelite/Vcm/AcceptLoop.lean`), and some of its steps are
the end of the process.  `Router.goesOn_iff_survives` says when the process, and every
session in it, survives all of its clients.
-/

namespace Freelite

open Lib

inductive Status
  | running
  /-- The process has been terminated, and its threads with it. -/
  | terminated
  /-- A step without meaning has been taken. -/
  | undefined
deriving DecidableEq

/-- Where `main` is in its loop. -/
inductive Accepting
  /-- In `select` or `accept`. -/
  | waiting
  /-- At `pthread_create`. -/
  | creating
deriving DecidableEq

inductive Thread
  | absent
  /-- It has been created with the address of `main`'s variable, and has not read it. -/
  | created
  | session (c : SessionThread)

/-- The router process. -/
structure Router (τ β : Type*) where
  status : Status
  main : Accepting
  /-- The variable of `main` that every thread gets the address of, once `accept` has
  stored a descriptor into it. -/
  clientSock : Option ℕ
  /-- The connections that descriptors refer to. -/
  fds : ℕ → Option Connection
  threads : τ → Thread
  world : World Unit β
  /-- A `send` to the manager raises `SIGPIPE`. -/
  vcmBroken : Bool

namespace Router

inductive Act (τ β : Type*)
  /-- `accept` returns a descriptor that is not open yet, for a client at this address. -/
  | accept (n : ℕ) (path : SunPath)
  /-- `select` or `accept` reports an error, and `main` exits. -/
  | acceptError
  /-- `pthread_create` starts a thread, or returns an error number, which is not noticed. -/
  | create (t : Option τ)
  /-- A thread reads its descriptor. -/
  | read (t : τ)
  /-- The client sends something. -/
  | peerSend (n : ℕ) (piece : Piece)
  /-- The client closes its end. -/
  | peerClose (n : ℕ)
  | vcmBreak
  /-- The backend does something on its own account. -/
  | backend (b : β)
  | thread (t : τ) (i : ThreadAct β)

variable {τ β : Type*}

/-- The thread a step is one of. -/
def Act.actor : Act τ β → Option τ
  | read t | thread t _ => some t
  | _ => none

/-- The step is one of `main`. -/
def Act.OfMain : Act τ β → Prop
  | accept _ _ | acceptError | create _ => True
  | _ => False

/-- A router that has not accepted anybody yet. -/
def start (w : World Unit β) : Router τ β where
  status := .running
  main := .waiting
  clientSock := none
  fds _ := none
  threads _ := .absent
  world := w
  vcmBroken := false

/-- The descriptor a thread works on, or is going to: the one it has read, or the one it
would read now. -/
def sockOf (s : Router τ β) (t : τ) : Option ℕ :=
  match s.threads t with
  | .absent => none
  | .created => s.clientSock
  | .session c => if c.stage = .ended then none else some c.clientSock

/-- The connection of a thread. -/
def connOf (s : Router τ β) (t : τ) : Option Connection := (s.sockOf t).bind s.fds

variable [DecidableEq τ]

def set (s : Router τ β) (t : τ) (l : Thread) : Router τ β :=
  { s with threads := Function.update s.threads t l }

/-- The process after a step of a session thread. -/
def after (s : Router τ β) (t : τ) : Effect β → Router τ β
  | .goes c k w =>
      { s.set t (.session c) with fds := Function.update s.fds c.clientSock k, world := w }
  | .terminated => { s with status := .terminated }
  | .undefined => { s with status := .undefined }

/-- A step while the process is running. -/
def step (m : Memory β) (routerNid : Int32) (s : Router τ β) : Act τ β → Option (Router τ β)
  | .accept n path =>
      match s.main, s.fds n with
      | .waiting, none =>
          some
            { s with
              main := .creating
              clientSock := some n
              fds := Function.update s.fds n (some ⟨path, [], false⟩) }
      | _, _ => none
  | .acceptError =>
      match s.main with
      | .waiting => some { s with status := .terminated }
      | .creating => none
  | .create t =>
      match s.main, t with
      | .creating, none => some { s with main := .waiting }
      | .creating, some t =>
          match s.threads t with
          | .absent => some { s.set t .created with main := .waiting }
          | _ => none
      | _, _ => none
  | .read t =>
      match s.threads t, s.clientSock with
      | .created, some n => some (s.set t (.session (.start n)))
      | _, _ => none
  | .peerSend n piece =>
      match s.fds n with
      | some k =>
          if k.hungUp then none
          else
            some { s with
              fds := Function.update s.fds n (some { k with inbox := k.inbox ++ [piece] }) }
      | none => none
  | .peerClose n =>
      (s.fds n).map fun k ↦
        { s with fds := Function.update s.fds n (some { k with hungUp := true }) }
  | .vcmBreak => some { s with vcmBroken := true }
  | .backend b => some { s with world := { s.world with backend := b } }
  | .thread t i =>
      match s.threads t with
      | .session c =>
          (serverAcceptRequest m routerNid s.vcmBroken (s.fds c.clientSock) c s.world i).map
            (s.after t)
      | _ => none

def next (m : Memory β) (routerNid : Int32) (s : Router τ β) (i : Act τ β) :
    Option (Router τ β) :=
  if s.status = .running then step m routerNid s i else none

/-- The step is one that the process survives, and that leaves everybody the connection
they have. -/
def Survives (m : Memory β) (s : Router τ β) : Act τ β → Prop
  | .accept _ _ => ∀ t, s.threads t ≠ .created
  | .acceptError => False
  | .thread t i =>
      ∀ c, s.threads t = .session c → Harmless m s.vcmBroken (s.fds c.clientSock) c s.world i
  | _ => True

variable {m : Memory β} {routerNid : Int32} {s s' : Router τ β} {i : Act τ β}

theorem status_of_next (h : next m routerNid s i = some s') : s.status = .running := by
  by_contra hrun
  rw [next, if_neg hrun] at h
  contradiction

/-- The steps that are possible, and the states they lead to. -/
inductive Step (m : Memory β) (routerNid : Int32) (s : Router τ β) : Act τ β → Router τ β → Prop
  | accept {n : ℕ} (path : SunPath) : s.main = .waiting → s.fds n = none →
      Step m routerNid s (.accept n path)
        { s with
          main := .creating
          clientSock := some n
          fds := Function.update s.fds n (some ⟨path, [], false⟩) }
  | acceptError : s.main = .waiting →
      Step m routerNid s .acceptError { s with status := .terminated }
  | createError : s.main = .creating →
      Step m routerNid s (.create none) { s with main := .waiting }
  | create {t : τ} : s.main = .creating → s.threads t = .absent →
      Step m routerNid s (.create (some t)) { s.set t .created with main := .waiting }
  | read {t : τ} {n : ℕ} : s.threads t = .created → s.clientSock = some n →
      Step m routerNid s (.read t) (s.set t (.session (.start n)))
  | peerSend {n : ℕ} {k : Connection} (piece : Piece) : s.fds n = some k →
      Step m routerNid s (.peerSend n piece)
        { s with fds := Function.update s.fds n (some { k with inbox := k.inbox ++ [piece] }) }
  | peerClose {n : ℕ} {k : Connection} : s.fds n = some k →
      Step m routerNid s (.peerClose n)
        { s with fds := Function.update s.fds n (some { k with hungUp := true }) }
  | vcmBreak : Step m routerNid s .vcmBreak { s with vcmBroken := true }
  | backend (b : β) :
      Step m routerNid s (.backend b) { s with world := { s.world with backend := b } }
  | thread {t : τ} {i : ThreadAct β} {c : SessionThread} {r : Effect β} :
      s.threads t = .session c →
      serverAcceptRequest m routerNid s.vcmBroken (s.fds c.clientSock) c s.world i = some r →
      Step m routerNid s (.thread t i) (s.after t r)

theorem step_of_next (h : next m routerNid s i = some s') : Step m routerNid s i s' := by
  rw [next, if_pos (status_of_next h)] at h
  cases i with
  | accept n path =>
      simp only [step] at h
      split at h
      case h_1 hmain hn => exact Option.some_inj.mp h ▸ .accept path hmain hn
      case h_2 => contradiction
  | acceptError =>
      simp only [step] at h
      split at h
      case h_1 hmain => exact Option.some_inj.mp h ▸ .acceptError hmain
      case h_2 => contradiction
  | create t =>
      simp only [step] at h
      split at h
      case h_1 hmain => exact Option.some_inj.mp h ▸ .createError hmain
      case h_2 hmain =>
        split at h
        case h_1 ht => exact Option.some_inj.mp h ▸ .create hmain ht
        case h_2 => contradiction
      case h_3 => contradiction
  | read t =>
      simp only [step] at h
      split at h
      case h_1 ht hn => exact Option.some_inj.mp h ▸ .read ht hn
      case h_2 => contradiction
  | peerSend n piece =>
      simp only [step] at h
      split at h
      case h_1 hn =>
        split_ifs at h
        exact Option.some_inj.mp h ▸ .peerSend piece hn
      case h_2 => contradiction
  | peerClose n =>
      obtain ⟨k, hn, rfl⟩ := Option.map_eq_some_iff.mp h
      exact .peerClose hn
  | vcmBreak => exact Option.some_inj.mp h ▸ .vcmBreak
  | backend b => exact Option.some_inj.mp h ▸ .backend b
  | thread t i =>
      simp only [step] at h
      split at h
      case h_1 ht =>
        obtain ⟨r, hr, rfl⟩ := Option.map_eq_some_iff.mp h
        exact .thread ht hr
      case h_2 => contradiction

theorem status_after (hrun : s.status = .running) (t : τ) (r : Effect β) :
    (s.after t r).status = .running ↔ r.Goes := by
  cases r with
  | goes c k w => exact iff_of_true hrun trivial
  | terminated => exact iff_of_false Status.noConfusion id
  | undefined => exact iff_of_false Status.noConfusion id

theorem threads_set_self (s : Router τ β) (t : τ) (l : Thread) : (s.set t l).threads t = l :=
  Function.update_self ..

theorem threads_set_of_ne {t u : τ} (hu : u ≠ t) (l : Thread) :
    (s.set t l).threads u = s.threads u := Function.update_of_ne hu ..

/-! ### Who has which connection -/

section Socks

omit [DecidableEq τ]

variable {u : τ} {c : SessionThread}

theorem sockOf_created (hu : s.threads u = .created) : s.sockOf u = s.clientSock := by
  rw [sockOf, hu]

theorem sockOf_session (hu : s.threads u = .session c) (hc : c.stage ≠ .ended) :
    s.sockOf u = some c.clientSock := by
  simp only [sockOf, hu, if_neg hc]

theorem sockOf_ended (hu : s.threads u = .session c) (hc : c.stage = .ended) :
    s.sockOf u = none := by
  simp only [sockOf, hu, if_pos hc]

/-- Only a thread that has not read its descriptor depends on the variable of `main`. -/
theorem sockOf_congr (hu : s'.threads u = s.threads u)
    (hvar : s.threads u = .created → s'.clientSock = s.clientSock) :
    s'.sockOf u = s.sockOf u := by
  cases hl : s.threads u with
  | absent => simp only [sockOf, hu, hl]
  | created => rw [sockOf_created (hu.trans hl), sockOf_created hl, hvar hl]
  | session c => simp only [sockOf, hu, hl]

end Socks

omit [DecidableEq τ] in
/-- Every thread has a connection of its own: what holds as long as no step endangers the
process or a session. -/
structure Inv (s : Router τ β) : Prop where
  inj : ∀ t u n, s.sockOf t = some n → s.sockOf u = some n → t = u
  isOpen : ∀ t n, s.sockOf t = some n → (s.fds n).isSome
  created : ∀ t, s.threads t = .created → s.clientSock.isSome
  /-- The connection that a thread is about to be created for is waiting for it. -/
  creating : s.main = .creating → (∀ t, s.threads t ≠ .created) ∧
    ∃ n, s.clientSock = some n ∧ (s.fds n).isSome ∧ ∀ t, s.sockOf t ≠ some n

/-- What a step has to do with a thread: it is one of the thread itself, or of the client at
the other end of its connection. -/
def Concerns (s : Router τ β) (u : τ) : Act τ β → Prop
  | .create t => t = some u
  | .read t | .thread t _ => t = u
  | .peerSend n _ | .peerClose n => s.sockOf u = some n
  | _ => False

/-- A thread is where it was, with the connection it had. -/
structure Same (s s' : Router τ β) (u : τ) : Prop where
  thread : s'.threads u = s.threads u
  sock : s'.sockOf u = s.sockOf u
  conn : s'.connOf u = s.connOf u

omit [DecidableEq τ] in
theorem same_of_eq {u : τ} (hu : s'.threads u = s.threads u)
    (hvar : s.threads u = .created → s'.clientSock = s.clientSock)
    (hfds : ∀ n, s.sockOf u = some n → s'.fds n = s.fds n) : Same s s' u := by
  have hsock := sockOf_congr hu hvar
  refine ⟨hu, hsock, ?_⟩
  rw [connOf, connOf, hsock]
  cases hn : s.sockOf u with
  | none => rfl
  | some n => exact hfds n hn

/-- **A step that nobody is endangered by leaves the others alone.** -/
theorem same_of_survives (hI : Inv s) (hs : Survives m s i) (h : next m routerNid s i = some s')
    {u : τ} (hu : ¬ s.Concerns u i) : Same s s' u := by
  cases step_of_next h with
  | accept path hmain hn =>
      refine same_of_eq rfl (fun hc ↦ absurd hc (hs u)) fun v hv ↦ Function.update_of_ne ?_ ..
      -- the descriptor is not one that is open
      rintro rfl
      exact Option.isSome_iff_ne_none.mp (hI.isOpen u v hv) hn
  | acceptError => exact hs.elim
  | createError | vcmBreak | backend => exact same_of_eq rfl (fun _ ↦ rfl) fun _ _ ↦ rfl
  | create =>
      have hne : u ≠ _ := fun h ↦ hu (congrArg some h.symm)
      exact same_of_eq (threads_set_of_ne hne _) (fun _ ↦ rfl) fun _ _ ↦ rfl
  | read =>
      exact same_of_eq (threads_set_of_ne (Ne.symm hu) _) (fun _ ↦ rfl) fun _ _ ↦ rfl
  | peerSend | peerClose =>
      refine same_of_eq rfl (fun _ ↦ rfl) fun v hv ↦ Function.update_of_ne ?_ ..
      rintro rfl
      exact hu hv
  | @thread t i c r ht hr =>
      cases r with
      | goes c' k w =>
          have hkeeps := keeps_serverAcceptRequest hr
          have hsock := sockOf_session ht (stage_ne_ended hr)
          refine same_of_eq (threads_set_of_ne (Ne.symm hu) _) (fun _ ↦ rfl) fun v hv ↦
            Function.update_of_ne ?_ ..
          -- nobody else has the descriptor of the thread
          rintro rfl
          rw [hkeeps.1] at hv
          exact hu (hI.inj t u _ hsock hv)
      | terminated => exact ((harmless_iff_goes hr).mp (hs c ht)).elim
      | undefined => exact ((harmless_iff_goes hr).mp (hs c ht)).elim

omit [DecidableEq τ] in
theorem inv_start (w : World Unit β) : Inv (start w : Router τ β) where
  inj _ _ _ h := by contradiction
  isOpen _ _ h := by contradiction
  created _ h := by contradiction
  creating h := by contradiction

omit [DecidableEq τ] in
/-- A step after which no thread has a descriptor that it has not had before, and nothing
is closed that somebody has or is about to get. -/
theorem inv_of_kept (hI : Inv s) (hmain : s'.main = s.main) (hvar : s'.clientSock = s.clientSock)
    (hcreated : ∀ u, s'.threads u = .created → s.threads u = .created)
    (hsock : ∀ u n, s'.sockOf u = some n → s.sockOf u = some n)
    (hisOpen : ∀ u n, s'.sockOf u = some n → (s'.fds n).isSome)
    (hfree : ∀ n, (∀ u, s.sockOf u ≠ some n) → (s.fds n).isSome → (s'.fds n).isSome) :
    Inv s' where
  inj t u n ht hu := hI.inj t u n (hsock t n ht) (hsock u n hu)
  isOpen := hisOpen
  created t ht := hvar ▸ hI.created t (hcreated t ht)
  creating hc := by
    obtain ⟨hnone, n, hn, hopen, hfresh⟩ := hI.creating (hmain ▸ hc)
    exact ⟨fun t ht ↦ hnone t (hcreated t ht), n, hvar.trans hn, hfree n hfresh hopen,
      fun t ht ↦ hfresh t (hsock t n ht)⟩

omit [DecidableEq τ] in
/-- What the client does to its connection does not close the descriptor. -/
theorem inv_update_fds (hI : Inv s) (n : ℕ) (k : Connection) :
    Inv { s with fds := Function.update s.fds n (some k) } := by
  have hopen (v : ℕ) (hv : (s.fds v).isSome) : (Function.update s.fds n (some k) v).isSome := by
    by_cases hne : v = n
    · rw [hne, Function.update_self]
      rfl
    · rwa [Function.update_of_ne hne]
  exact inv_of_kept hI rfl rfl (fun _ ↦ id) (fun _ _ ↦ id)
    (fun u v hv ↦ hopen v (hI.isOpen u v hv)) fun v _ ↦ hopen v

omit [DecidableEq τ] in
theorem inv_accept (hI : Inv s) (hs : ∀ t, s.threads t ≠ .created) {n : ℕ} (hn : s.fds n = none)
    (k : Connection) :
    Inv { s with
      main := .creating
      clientSock := some n
      fds := Function.update s.fds n (some k) } := by
  have hsock (u : τ) :
      sockOf { s with
        main := .creating
        clientSock := some n
        fds := Function.update s.fds n (some k) } u = s.sockOf u :=
    sockOf_congr rfl fun hc ↦ absurd hc (hs u)
  have hfresh (u : τ) : s.sockOf u ≠ some n := fun hu ↦
    Option.isSome_iff_ne_none.mp (hI.isOpen u n hu) hn
  constructor
  case inj =>
    intro t u v ht hu
    exact hI.inj t u v ((hsock t).symm.trans ht) ((hsock u).symm.trans hu)
  case isOpen =>
    intro u v hv
    have hne : v ≠ n := by
      rintro rfl
      exact hfresh u ((hsock u).symm.trans hv)
    simpa only [Function.update_of_ne hne] using hI.isOpen u v ((hsock u).symm.trans hv)
  case created => exact fun _ _ ↦ rfl
  case creating =>
    refine fun _ ↦ ⟨hs, n, rfl, ?_, fun u hu ↦ hfresh u ((hsock u).symm.trans hu)⟩
    simp only [Function.update_self, Option.isSome_some]

/-- The new thread gets the connection that was waiting for it. -/
theorem inv_create (hI : Inv s) (hmain : s.main = .creating) (t : τ) :
    Inv { s.set t .created with main := .waiting } := by
  obtain ⟨-, n, hn, hopen, hfresh⟩ := hI.creating hmain
  have hself : sockOf { s.set t .created with main := .waiting } t = some n :=
    (sockOf_created (threads_set_self ..)).trans hn
  have hother {u : τ} (hu : u ≠ t) :
      sockOf { s.set t .created with main := .waiting } u = s.sockOf u :=
    sockOf_congr (threads_set_of_ne hu _) fun _ ↦ rfl
  constructor
  case inj =>
    intro u v k hu hv
    by_cases hut : u = t <;> by_cases hvt : v = t
    · rw [hut, hvt]
    · rw [hut, hself] at hu
      rw [hother hvt, ← hu] at hv
      exact absurd hv (hfresh v)
    · rw [hvt, hself] at hv
      rw [hother hut, ← hv] at hu
      exact absurd hu (hfresh u)
    · rw [hother hut] at hu
      rw [hother hvt] at hv
      exact hI.inj u v k hu hv
  case isOpen =>
    intro u v hv
    by_cases hut : u = t
    · rw [hut, hself] at hv
      exact Option.some_inj.mp hv ▸ hopen
    · exact hI.isOpen u v (hother hut ▸ hv)
  case created => exact fun _ _ ↦ hn ▸ rfl
  case creating => exact fun h ↦ absurd h Accepting.noConfusion

/-- Nothing becomes of the connection when a thread reads its descriptor. -/
theorem inv_read (hI : Inv s) {t : τ} {n : ℕ} (ht : s.threads t = .created)
    (hn : s.clientSock = some n) : Inv (s.set t (.session (.start n))) := by
  have hsock (u : τ) : (s.set t (.session (.start n))).sockOf u = s.sockOf u := by
    by_cases hut : u = t
    · rw [hut, sockOf_created ht, hn]
      exact sockOf_session (threads_set_self ..) Stage.noConfusion
    · exact sockOf_congr (threads_set_of_ne hut _) fun _ ↦ rfl
  refine inv_of_kept hI rfl rfl (fun u hu ↦ ?_) (fun u v hv ↦ hsock u ▸ hv)
    (fun u v hv ↦ hI.isOpen u v (hsock u ▸ hv)) fun _ _ ↦ id
  by_cases hut : u = t
  · exact hut ▸ ht
  · exact (threads_set_of_ne hut _).symm.trans hu

/-- A thread closes no descriptor but its own, and then it has ended. -/
theorem inv_after (hI : Inv s) {t : τ} {c : SessionThread} {i : ThreadAct β} {r : Effect β}
    (ht : s.threads t = .session c)
    (hr : serverAcceptRequest m routerNid s.vcmBroken (s.fds c.clientSock) c s.world i = some r)
    (hgoes : r.Goes) : Inv (s.after t r) := by
  cases r with
  | terminated => exact hgoes.elim
  | undefined => exact hgoes.elim
  | goes c' k w =>
      obtain ⟨hc', hstage⟩ := keeps_serverAcceptRequest hr
      have hself := sockOf_session ht (stage_ne_ended hr)
      have hother {u : τ} (hu : u ≠ t) : (s.after t (.goes c' k w)).sockOf u = s.sockOf u :=
        sockOf_congr (threads_set_of_ne hu _) fun _ ↦ rfl
      have hfds {v : ℕ} (hv : v ≠ c.clientSock) : (s.after t (.goes c' k w)).fds v = s.fds v :=
        Function.update_of_ne (hc' ▸ hv) ..
      have hthread : (s.after t (.goes c' k w)).threads t = .session c' := threads_set_self ..
      have hkept (v : ℕ) (hv : (s.after t (.goes c' k w)).sockOf t = some v) :
          v = c.clientSock ∧ k.isSome := by
        obtain ⟨hend, -⟩ | ⟨hgo, hopen⟩ := hstage
        · rw [sockOf_ended hthread hend] at hv
          contradiction
        · rw [sockOf_session hthread hgo, hc'] at hv
          exact ⟨(Option.some_inj.mp hv).symm, hopen (hI.isOpen t _ hself)⟩
      have hmain : (s.after t (.goes c' k w)).main = s.main := rfl
      apply inv_of_kept hI hmain rfl
      case hcreated =>
        intro u hu
        by_cases hut : u = t
        · rw [hut, hthread] at hu
          contradiction
        · exact (threads_set_of_ne hut _).symm.trans hu
      case hsock =>
        intro u v hv
        by_cases hut : u = t
        · rw [hut] at hv ⊢
          rw [(hkept v hv).1, hself]
        · exact hother hut ▸ hv
      case hisOpen =>
        intro u v hv
        by_cases hut : u = t
        · rw [hut] at hv
          obtain ⟨rfl, hk⟩ := hkept v hv
          simpa only [after, hc', Function.update_self] using hk
        · rw [hother hut] at hv
          have hne : v ≠ c.clientSock := fun h ↦ hut (hI.inj u t v hv (h ▸ hself))
          exact hfds hne ▸ hI.isOpen u v hv
      case hfree =>
        intro v hv hopen
        have hne : v ≠ c.clientSock := fun h ↦ hv t (h ▸ hself)
        exact hfds hne ▸ hopen

/-- **The invariant.** -/
theorem inv_next (hI : Inv s) (hs : Survives m s i) (h : next m routerNid s i = some s') :
    Inv s' := by
  cases step_of_next h with
  | accept path _ hn => exact inv_accept hI hs hn _
  | acceptError => exact hs.elim
  | createError =>
      exact ⟨hI.inj, hI.isOpen, hI.created, fun h ↦ absurd h Accepting.noConfusion⟩
  | create hmain _ => exact inv_create hI hmain _
  | read ht hn => exact inv_read hI ht hn
  | peerSend | peerClose => exact inv_update_fds hI ..
  | vcmBreak | backend => exact ⟨hI.inj, hI.isOpen, hI.created, hI.creating⟩
  | thread ht hr => exact inv_after hI ht hr ((harmless_iff_goes hr).mp (hs _ ht))

/-! ### Runs -/

/-- The step is no concern of the sessions that it is not one of, nor of the accept loop. -/
structure GoesOn (m : Memory β) (routerNid : Int32) (s s' : Router τ β) (i : Act τ β) : Prop where
  running : s'.status = .running
  others : ∀ u, ¬ s.Concerns u i → Same s s' u
  steps : ∀ u j, ¬ s.Concerns u i → j.actor = some u →
    ((next m routerNid s' j).isSome ↔ (next m routerNid s j).isSome)
  loop : ¬ i.OfMain → s'.main = s.main ∧ s'.clientSock = s.clientSock
  accepts : s'.main = .waiting → ∀ n path, s'.fds n = none →
    (next m routerNid s' (.accept n path)).isSome
  creates : s'.main = .creating → ∀ t, s'.threads t = .absent →
    (next m routerNid s' (.create (some t))).isSome

theorem running_of_survives (hs : Survives m s i) (h : next m routerNid s i = some s') :
    s'.status = .running := by
  have hrun := status_of_next h
  cases step_of_next h with
  | acceptError => exact hs.elim
  | @thread t _ c r ht hr => exact (status_after hrun t r).mpr ((harmless_iff_goes hr).mp (hs c ht))
  | _ => exact hrun

/-- Whether a thread can take a step is up to its own descriptor and its own connection. -/
theorem isSome_next_congr {u : τ} {j : Act τ β} (hrun : s.status = .running)
    (hrun' : s'.status = .running) (hu : Same s s' u) (hj : j.actor = some u) :
    (next m routerNid s' j).isSome ↔ (next m routerNid s j).isSome := by
  rw [next, next, if_pos hrun, if_pos hrun']
  cases j with
  | read t =>
      obtain rfl := Option.some_inj.mp hj
      have hsock := hu.sock
      simp only [step, hu.thread]
      cases ht : s.threads t with
      | created =>
          rw [sockOf_created ht, sockOf_created (hu.thread.trans ht)] at hsock
          rw [hsock]
          cases s.clientSock <;> rfl
      | absent | session _ => rfl
  | thread t i =>
      obtain rfl := Option.some_inj.mp hj
      simp only [step, hu.thread]
      cases ht : s.threads t with
      | session c =>
          simp only [Option.isSome_map, isSome_serverAcceptRequest]
          by_cases hend : c.stage = .ended
          · exact iff_of_false (fun h ↦ h.stage_ne_ended hend) fun h ↦ h.stage_ne_ended hend
          · have hconn := hu.conn
            rw [connOf, connOf, hu.sock, sockOf_session ht hend, Option.bind_some,
              Option.bind_some] at hconn
            rw [hconn]
      | absent | created => rfl
  | accept | acceptError | create | peerSend | peerClose | vcmBreak | backend => contradiction

theorem goesOn_of_survives (hI : Inv s) (hs : Survives m s i)
    (h : next m routerNid s i = some s') : GoesOn m routerNid s s' i where
  running := running_of_survives hs h
  others _ hu := same_of_survives hI hs h hu
  steps _ _ hu hj :=
    isSome_next_congr (status_of_next h) (running_of_survives hs h) (same_of_survives hI hs h hu) hj
  loop hi := by
    cases step_of_next h with
    | accept | acceptError | createError | create => exact absurd trivial hi
    | @thread t _ _ r _ _ => cases r <;> exact ⟨rfl, rfl⟩
    | _ => exact ⟨rfl, rfl⟩
  accepts hmain n path hn := by simp only [next, running_of_survives hs h, if_true, step, hmain, hn,
    Option.isSome_some]
  creates hmain t ht := by simp only [next, running_of_survives hs h, if_true, step, hmain, ht,
    Option.isSome_some]

/-- A thread that has not read its descriptor loses its connection to the next `accept`. -/
theorem survives_of_goesOn (hI : Inv s) (h : next m routerNid s i = some s')
    (hgo : GoesOn m routerNid s s' i) : Survives m s i := by
  cases step_of_next h with
  | @accept n path hmain hn =>
      intro t ht
      have hsock : some n = s.clientSock := by
        simpa only [sockOf, ht] using (hgo.others t id).sock
      have hopen := hI.isOpen t n ((sockOf_created ht).trans hsock.symm)
      exact Option.isSome_iff_ne_none.mp hopen hn
  | acceptError => exact Status.noConfusion hgo.running
  | @thread t i c r ht hr =>
      intro c' hc'
      obtain rfl := Thread.session.inj (ht.symm.trans hc')
      exact (harmless_iff_goes hr).mpr ((status_after (status_of_next h) t r).mp hgo.running)
  | _ => trivial

/-- **When no client can take the router down.**  In a run of a router with any clients,
every step leaves the process running, the other sessions as they were, with the
connection they had, and able to go on, and the accept loop where it was and ready for new
clients, if and only if every step is one that the process and its sessions survive. -/
theorem goesOn_iff_survives (m : Memory β) (routerNid : Int32) (w : World Unit β)
    (acts : List (Act τ β)) :
    Machine.Meets (next m routerNid) (Survives m) (start w) acts ↔
      Machine.Meets (next m routerNid)
        (fun s i ↦ ∀ s', next m routerNid s i = some s' → GoesOn m routerNid s s' i)
        (start w) acts := by
  constructor <;> intro h
  · refine Machine.meets_of_meets (inv_start w) h fun s i s' hI hs hnext ↦ ?_
    refine ⟨fun s'' hnext' ↦ ?_, inv_next hI hs hnext⟩
    obtain rfl := Option.some_inj.mp (hnext.symm.trans hnext')
    exact goesOn_of_survives hI hs hnext
  · refine Machine.meets_of_meets (inv_start w) h fun s i s' hI hgo hnext ↦ ?_
    have hs := survives_of_goesOn hI hnext (hgo s' hnext)
    exact ⟨hs, inv_next hI hs hnext⟩

/-- A client that has not bound its socket connects, and the router is gone, with the
client that was there before. -/
theorem not_goesOn_unbound :
    ¬ ∀ acts : List (Act Bool Unit),
      Machine.Meets (next ⟨fun _ _ ↦ true, fun _ _ ↦ false⟩ 1)
        (fun s i ↦ ∀ s', next ⟨fun _ _ ↦ true, fun _ _ ↦ false⟩ 1 s i = some s' →
          GoesOn ⟨fun _ _ ↦ true, fun _ _ ↦ false⟩ 1 s s' i)
        (start .quiet) acts := by
  intro h
  obtain ⟨-, -, -, -, -, -, h, -⟩ := h
    [.accept 4 ⟨bytes "/var/tmp/abcdef00041", by decide⟩, .create (some true), .read true,
      .accept 5 ⟨[], by decide⟩, .create (some false), .read false,
      .thread false (.getpeername true)]
  have hgo := (h rfl _ rfl).running
  exact Status.noConfusion hgo

/-- So it is when a client does not wait for the reply. -/
example : (Machine.run (next ⟨fun _ _ ↦ true, fun _ _ ↦ false⟩ 1) (start .quiet)
    [.accept 4 ⟨bytes "/var/tmp/abcdef00041", by decide⟩, .create (some ()), .read (),
      .thread () (.getpeername true), .peerSend 4 ⟨[1, 0, 0, 0], by decide⟩,
      .thread () (.recv true), .peerClose 4,
      .thread () (.handle .recvError ⟨0, none, none, none⟩ ()),
      .thread () (.send true)]).status = .terminated := by decide

/-- And when a client connects before the thread of another one has read its descriptor,
that thread serves the wrong client. -/
example : ((Machine.run (next (τ := Bool) ⟨fun _ _ ↦ true, fun _ _ ↦ false⟩ 1) (start .quiet)
    [.accept 4 ⟨bytes "/var/tmp/abcdef00041", by decide⟩, .create (some true),
      .accept 5 ⟨bytes "/var/tmp/abcdef00042", by decide⟩, .read true]).sockOf true) = some 5 := by
  decide

end Router

end Freelite
