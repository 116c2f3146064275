import Freelite.Lib.Machine

/-!
# The accept loop and its session threads

`main`, and what `server_accept_request` does with its descriptor, in `vcm/vcm.cpp` and in
`router/test_router.cpp`: the accept loop is the same, and so is the end of `main` but for
the `vcm_disconn` of the router, which is about another connection.  `main` keeps the
descriptor of the connection it has accepted in one variable, and every thread gets the
address of that variable.

The connections are numbered as they are accepted, since a descriptor that has been
closed may be handed out again; the number is not part of the program, and neither is
the record of the calls of `close`.  The system chooses when a thread gets to read the
variable, and whether `pthread_create` succeeds.

`oneOwner_iff_safe` says which orders of steps give every connection one owner.
-/

namespace Freelite

open Lib

namespace AcceptLoop

/-- What is in an `int` that is meant to hold a descriptor. -/
inductive Var
  /-- Nothing has been stored yet. -/
  | indeterminate
  | minusOne
  | fd (n : ℕ)
deriving DecidableEq

/-- What an open descriptor refers to. -/
inductive Use
  /-- The socket that `main` listens on. -/
  | listening
  | conn (k : ℕ)
deriving DecidableEq

/-- Where `main` is. -/
inductive Phase
  /-- At the condition of the loop. -/
  | testing
  /-- In `select` or `accept`. -/
  | waiting
  /-- At `pthread_create`. -/
  | creating
  /-- At `close(server_sock)`, which is followed by `close(client_sock)` or is not. -/
  | closingServer (both : Bool)
  | closingClient
  | leaving
  | gone
deriving DecidableEq

/-- Where a session thread is, and the connection its descriptor referred to when it read
it. -/
inductive Thread
  | absent
  /-- It has been created, and has not read the variable. -/
  | starting
  | serving (clientSock : Var) (k : Option ℕ)
  | ended (k : Option ℕ)
deriving DecidableEq

/-- The connection the thread has taken. -/
def Thread.took : Thread → Option ℕ
  | serving _ k | ended k => k
  | _ => none

/-- A call of `close` on a descriptor: by a thread, or by `main`, and what the descriptor
referred to. -/
structure Close (τ : Type*) where
  thread : Option τ
  what : Option Use
deriving DecidableEq

/-- The process. -/
structure State (τ : Type*) where
  main : Phase
  keepRunning : Bool
  serverSock : ℕ
  clientSock : Var
  fds : ℕ → Option Use
  /-- How many connections have been accepted. -/
  accepted : ℕ
  threads : τ → Thread
  closes : List (Close τ)

inductive Act (τ : Type*)
  /-- `SIGINT`. -/
  | interrupt
  | test
  | timeout
  | selectError
  /-- `accept` returns a descriptor that is not open yet. -/
  | accept (n : ℕ)
  | acceptError
  /-- `pthread_create` starts a thread, or returns an error number. -/
  | create (t : Option τ)
  /-- `main` makes its next call of `close`. -/
  | close
  /-- `main` returns, or calls `exit`. -/
  | leave
  /-- A thread reads the variable. -/
  | read (t : τ)
  /-- A thread closes its descriptor and ends. -/
  | finish (t : τ)

variable {τ : Type*}

/-- The process when it has begun to listen. -/
def init (serverSock : ℕ) : State τ where
  main := .testing
  keepRunning := true
  serverSock
  clientSock := .indeterminate
  fds := Function.update (fun _ ↦ none) serverSock (some .listening)
  accepted := 0
  threads _ := .absent
  closes := []

namespace State

/-- What a descriptor refers to. -/
def refers (s : State τ) : Var → Option Use
  | .fd n => s.fds n
  | _ => none

/-- The connection it refers to. -/
def conn (s : State τ) (v : Var) : Option ℕ :=
  match s.refers v with
  | some (.conn k) => some k
  | _ => none

/-- `close`.  It does nothing for the error value; what it does for an indeterminate one
cannot be said. -/
def close (s : State τ) (thread : Option τ) : Var → State τ
  | .minusOne => s
  | .indeterminate => { s with closes := s.closes ++ [⟨thread, none⟩] }
  | .fd n =>
      { s with
        fds := Function.update s.fds n none
        closes := s.closes ++ [⟨thread, s.fds n⟩] }

/-- How often a connection has been closed. -/
def closedTimes (s : State τ) (k : ℕ) : ℕ := s.closes.countP fun c ↦ c.what = some (.conn k)

end State

variable [DecidableEq τ]

/-- The threads after one of them has got somewhere else. -/
def State.goto (s : State τ) (t : τ) (l : Thread) : State τ :=
  { s with threads := Function.update s.threads t l }

/-- A step of `main`. -/
def mainStep (s : State τ) : Act τ → Option (State τ)
  | .interrupt => some { s with keepRunning := false }
  | .test =>
      match s.main with
      | .testing =>
          if s.keepRunning then some { s with main := .waiting }
          else some { s with main := .closingServer true }
      | _ => none
  | .timeout =>
      match s.main with
      | .waiting => some { s with main := .testing }
      | _ => none
  | .selectError =>
      match s.main with
      | .waiting => some { s with main := .closingServer false }
      | _ => none
  | .accept n =>
      match s.main, s.fds n with
      | .waiting, none =>
          some
            { s with
              main := .creating
              clientSock := .fd n
              fds := Function.update s.fds n (some (.conn s.accepted))
              accepted := s.accepted + 1 }
      | _, _ => none
  | .acceptError =>
      match s.main with
      | .waiting =>
          some { s with main := .closingServer true, clientSock := .minusOne }
      | _ => none
  | .create t =>
      match s.main, t with
      -- the return value is tested for being negative, and an error number is not
      | .creating, none => some { s with main := .testing }
      | .creating, some t =>
          if s.threads t = .absent then some { s.goto t .starting with main := .testing }
          else none
      | _, _ => none
  | .close =>
      match s.main with
      | .closingServer both =>
          some
            { s.close none (.fd s.serverSock) with
              main := if both then .closingClient else .leaving }
      | .closingClient => some { s.close none s.clientSock with main := .leaving }
      | _ => none
  | .leave =>
      match s.main with
      | .leaving => some { s with main := .gone }
      | _ => none
  | _ => none

/-- A step of a session thread. -/
def threadStep (s : State τ) : Act τ → Option (State τ)
  | .read t =>
      match s.threads t with
      | .starting => some (s.goto t (.serving s.clientSock (s.conn s.clientSock)))
      | _ => none
  | .finish t =>
      match s.threads t with
      | .serving clientSock k => some ((s.close (some t) clientSock).goto t (.ended k))
      | _ => none
  | _ => none

/-- When `main` has left, the threads are gone too. -/
def next (s : State τ) (i : Act τ) : Option (State τ) :=
  if s.main = .gone then none else (mainStep s i).orElse fun _ ↦ threadStep s i

/-! ## One owner -/

namespace State

omit [DecidableEq τ]

/-- The thread has read the descriptor of this connection. -/
def Took (s : State τ) (t : τ) (k : ℕ) : Prop := (s.threads t).took = some k

def Unread (s : State τ) (k : ℕ) : Prop := ∀ t, ¬ s.Took t k

/-- Whoever reads the variable next finds this connection, and nobody has read it yet. -/
def Handed (s : State τ) (k : ℕ) : Prop := s.conn s.clientSock = some k ∧ s.Unread k

/-- One thread is about to read the variable: it is to be created, or has just been. -/
def OneReader (s : State τ) : Prop :=
  (s.main = .creating ∧ ∀ t, s.threads t ≠ .starting) ∨
    (s.main ≠ .creating ∧ ∃! t, s.threads t = .starting)

end State

/-- Every connection has one owner. -/
structure OneOwner (s : State τ) : Prop where
  /-- One thread has read its descriptor, or one is about to. -/
  read : ∀ k < s.accepted, (∃! t, s.Took t k) ∨ s.Handed k ∧ s.OneReader
  /-- No descriptor is served by two threads. -/
  served : ∀ t u n k l, s.threads t = .serving (.fd n) k → s.threads u = .serving (.fd n) l → t = u
  /-- A connection is closed once, by the time its thread ends. -/
  closed : ∀ k, s.closedTimes k ≤ 1 ∧ ∀ t, s.threads t = .ended (some k) → s.closedTimes k = 1
  /-- `main` closes what it has opened, and no thread has closed or has in use. -/
  main : ∀ c ∈ s.closes, c.thread = none →
    c.what = some .listening ∨ ∃ k, c.what = some (.conn k) ∧ s.Unread k

/-- The step leaves every connection its one owner. -/
def Safe (s : State τ) : Act τ → Prop
  | .accept _ | .acceptError => ∀ t, s.threads t ≠ .starting
  | .create t => t ≠ none
  | .close => s.main = .closingClient → s.clientSock = .minusOne
  | _ => True

/-- `server_sock` has not been closed. -/
def Phase.Listens : Phase → Prop
  | testing | waiting | creating | closingServer _ => True
  | closingClient | leaving | gone => False

/-- What holds as long as all steps are safe. -/
structure Inv (s : State τ) : Prop where
  read : ∀ k < s.accepted, (∃! t, s.Took t k) ∨ s.Handed k ∧ s.OneReader
  took_lt : ∀ t k, s.Took t k → k < s.accepted
  pending : (s.main = .creating ∨ ∃ t, s.threads t = .starting) → ∃ k, s.Handed k
  serving : ∀ t v k, s.threads t = .serving v k →
    ∃ n c, v = .fd n ∧ k = some c ∧ s.fds n = some (.conn c)
  closed : ∀ k, s.closedTimes k = 1 ∧ (∃ t, s.threads t = .ended (some k)) ∨
    s.closedTimes k = 0 ∧ ∀ t, s.threads t ≠ .ended (some k)
  main : ∀ c ∈ s.closes, c.thread = none → c.what = some .listening
  listening : s.main.Listens → s.fds s.serverSock = some .listening
  clientSock : s.refers s.clientSock ≠ some .listening
  lt : ∀ n k, s.fds n = some (.conn k) → k < s.accepted
  inj : ∀ n m k, s.fds n = some (.conn k) → s.fds m = some (.conn k) → n = m

section

omit [DecidableEq τ]

variable {s : State τ}

theorem conn_eq_some_iff {v : Var} {k : ℕ} :
    s.conn v = some k ↔ ∃ n, v = .fd n ∧ s.fds n = some (.conn k) := by
  cases v with
  | indeterminate => simp [State.conn, State.refers]
  | minusOne => simp [State.conn, State.refers]
  | fd n =>
      simp only [State.conn, State.refers, Var.fd.injEq]
      cases hn : s.fds n with
      | none => simp [hn]
      | some u => cases u <;> simp [hn]

/-- Closing something else does not count. -/
theorem closedTimes_close_of_ne {n k : ℕ} (hn : s.fds n ≠ some (.conn k)) (thread : Option τ) :
    (s.close thread (.fd n)).closedTimes k = s.closedTimes k := by
  simp [State.closedTimes, State.close, hn]

theorem closedTimes_close {n k : ℕ} (hn : s.fds n = some (.conn k)) (thread : Option τ) :
    (s.close thread (.fd n)).closedTimes k = s.closedTimes k + 1 := by
  simp [State.closedTimes, State.close, hn]

/-- Closing a descriptor makes no other one refer to something. -/
theorem refers_close_ne {v : Var} {u : Use} (hv : s.refers v ≠ some u) (n : ℕ)
    (thread : Option τ) : (s.close thread (.fd n)).refers v ≠ some u := by
  cases v with
  | indeterminate => simp [State.refers]
  | minusOne => simp [State.refers]
  | fd m =>
      change Function.update s.fds n none m ≠ some u
      by_cases hm : m = n
      · rw [hm, Function.update_self]
        simp
      · rw [Function.update_of_ne hm]
        exact hv

theorem fds_init_ne_conn (serverSock n k : ℕ) :
    (init (τ := τ) serverSock).fds n ≠ some (.conn k) := by
  by_cases hn : n = serverSock <;> simp [init, hn]

theorem inv_init (serverSock : ℕ) : Inv (init (τ := τ) serverSock) where
  read _ hk := absurd hk (Nat.not_lt_zero _)
  took_lt _ _ h := by contradiction
  pending := by rintro (h | ⟨t, h⟩) <;> contradiction
  serving _ _ _ h := by contradiction
  closed _ := Or.inr ⟨rfl, fun t h ↦ by contradiction⟩
  main _ hc := by contradiction
  listening _ := by simp [init]
  clientSock := by simp [init, State.refers]
  lt n k h := absurd h (fds_init_ne_conn serverSock n k)
  inj n _ k h := absurd h (fds_init_ne_conn serverSock n k)

theorem Inv.oneOwner (h : Inv s) : OneOwner s where
  read := h.read
  served t u n k l ht hu := by
    obtain ⟨_, c, hn, rfl, hc⟩ := h.serving t _ _ ht
    obtain ⟨_, d, hm, rfl, hd⟩ := h.serving u _ _ hu
    obtain rfl := Var.fd.inj hn
    obtain rfl := Var.fd.inj hm
    obtain rfl : c = d := by simpa [hc] using hd
    have htook : s.Took t c := by rw [State.Took, ht]; rfl
    have hutook : s.Took u c := by rw [State.Took, hu]; rfl
    rcases h.read c (h.took_lt t c htook) with ⟨_, -, huniq⟩ | ⟨hhanded, -⟩
    · exact (huniq t htook).trans (huniq u hutook).symm
    · exact absurd htook (hhanded.2 t)
  closed k := by
    rcases h.closed k with ⟨hk, -⟩ | ⟨hk, hnone⟩
    · exact ⟨hk.le, fun _ _ ↦ hk⟩
    · exact ⟨by omega, fun t ht ↦ absurd ht (hnone t)⟩
  main c hc hmain := Or.inl (h.main c hc hmain)

/-! ## The steps of `main` -/

/-- Between two connections `main` may go anywhere. -/
theorem Inv.goto_main (h : Inv s) {here main : Phase} (hs : s.main = here)
    (hhere : here ≠ .creating) (hmain : main ≠ .creating)
    (hlisten : main.Listens → here.Listens) : Inv { s with main } where
  read k hk := by
    rcases h.read k hk with hread | ⟨hhanded, hreader⟩
    · exact Or.inl hread
    · rcases hreader with ⟨hc, -⟩ | ⟨-, hone⟩
      · exact absurd (hs.symm.trans hc) hhere
      · exact Or.inr ⟨hhanded, Or.inr ⟨hmain, hone⟩⟩
  took_lt := h.took_lt
  pending hp := by
    rcases hp with hc | hstarting
    · exact absurd hc hmain
    · exact h.pending (Or.inr hstarting)
  serving := h.serving
  closed := h.closed
  main := h.main
  listening hl := h.listening (hs ▸ hlisten hl)
  clientSock := h.clientSock
  lt := h.lt
  inj := h.inj

/-- With nobody about to read it, the variable can be overwritten. -/
theorem Inv.read_of_idle (h : Inv s) (hs : s.main ≠ .creating)
    (hidle : ∀ t, s.threads t ≠ .starting) {k : ℕ} (hk : k < s.accepted) :
    ∃! t, s.Took t k := by
  rcases h.read k hk with hread | ⟨-, ⟨hc, -⟩ | ⟨-, t, ht, -⟩⟩
  · exact hread
  · exact absurd hc hs
  · exact absurd ht (hidle t)

theorem Inv.accept (h : Inv s) {n : ℕ} (hmain : s.main = .waiting) (hn : s.fds n = none)
    (hidle : ∀ t, s.threads t ≠ .starting) :
    Inv
      { s with
        main := .creating
        clientSock := .fd n
        fds := Function.update s.fds n (some (.conn s.accepted))
        accepted := s.accepted + 1 } := by
  have hself : Function.update s.fds n (some (.conn s.accepted)) n = some (.conn s.accepted) :=
    Function.update_self ..
  have hother {m : ℕ} (hm : m ≠ n) :
      Function.update s.fds n (some (.conn s.accepted)) m = s.fds m := Function.update_of_ne hm ..
  have hmain' : s.main ≠ .creating := by rw [hmain]; exact Phase.noConfusion
  have hunread : s.Unread s.accepted := fun t ht ↦ lt_irrefl _ (h.took_lt t _ ht)
  have hhanded : State.conn
      { s with
        main := .creating
        clientSock := .fd n
        fds := Function.update s.fds n (some (.conn s.accepted))
        accepted := s.accepted + 1 } (.fd n) = some s.accepted :=
    conn_eq_some_iff.mpr ⟨n, rfl, hself⟩
  refine ⟨?_, ?_, ?_, ?_, h.closed, h.main, ?_, ?_, ?_, ?_⟩
  · intro k hk
    rcases Nat.lt_succ_iff_lt_or_eq.mp hk with hk | rfl
    · exact Or.inl (h.read_of_idle hmain' hidle hk)
    · exact Or.inr ⟨⟨hhanded, hunread⟩, Or.inl ⟨rfl, hidle⟩⟩
  · exact fun t k ht ↦ Nat.lt_succ_of_lt (h.took_lt t k ht)
  · exact fun _ ↦ ⟨s.accepted, hhanded, hunread⟩
  · intro t v k ht
    obtain ⟨m, c, rfl, rfl, hc⟩ := h.serving t v k ht
    refine ⟨m, c, rfl, rfl, ?_⟩
    change Function.update s.fds n (some (.conn s.accepted)) m = some (.conn c)
    rw [hother fun hm ↦ by rw [hm, hn] at hc; contradiction, hc]
  · intro _
    have hl := h.listening (by rw [hmain]; trivial)
    change Function.update s.fds n (some (.conn s.accepted)) s.serverSock = some .listening
    rw [hother fun hm ↦ by rw [hm, hn] at hl; contradiction, hl]
  · change Function.update s.fds n (some (.conn s.accepted)) n ≠ some .listening
    rw [hself]
    simp
  · intro m k hm
    change Function.update s.fds n (some (.conn s.accepted)) m = some (.conn k) at hm
    by_cases hmn : m = n
    · rw [hmn, hself] at hm
      simp only [Option.some_inj, Use.conn.injEq] at hm
      exact hm ▸ Nat.lt_succ_self _
    · rw [hother hmn] at hm
      exact Nat.lt_succ_of_lt (h.lt m k hm)
  · intro m m' k hm hm'
    change Function.update s.fds n (some (.conn s.accepted)) m = some (.conn k) at hm
    change Function.update s.fds n (some (.conn s.accepted)) m' = some (.conn k) at hm'
    by_cases hmn : m = n <;> by_cases hmn' : m' = n
    · rw [hmn, hmn']
    · rw [hmn, hself] at hm
      rw [hother hmn'] at hm'
      simp only [Option.some_inj, Use.conn.injEq] at hm
      exact absurd (hm ▸ h.lt m' k hm') (lt_irrefl _)
    · rw [hmn', hself] at hm'
      rw [hother hmn] at hm
      simp only [Option.some_inj, Use.conn.injEq] at hm'
      exact absurd (hm' ▸ h.lt m k hm) (lt_irrefl _)
    · rw [hother hmn] at hm
      rw [hother hmn'] at hm'
      exact h.inj m m' k hm hm'

theorem Inv.acceptError (h : Inv s) (hmain : s.main = .waiting)
    (hidle : ∀ t, s.threads t ≠ .starting) :
    Inv { s with main := .closingServer true, clientSock := .minusOne } where
  read k hk := Or.inl (h.read_of_idle (by rw [hmain]; exact Phase.noConfusion) hidle hk)
  took_lt := h.took_lt
  pending hp := by
    rcases hp with hc | ⟨t, ht⟩
    · contradiction
    · exact absurd ht (hidle t)
  serving := h.serving
  closed := h.closed
  main := h.main
  listening _ := h.listening (by rw [hmain]; trivial)
  clientSock := by simp [State.refers]
  lt := h.lt
  inj := h.inj

/-- `close(server_sock)`. -/
theorem Inv.closeServer (h : Inv s) {both : Bool} (hmain : s.main = .closingServer both) :
    Inv
      { s.close none (.fd s.serverSock) with
        main := if both then .closingClient else .leaving } := by
  have hl := h.listening (by rw [hmain]; trivial)
  have hmain' : (if both then Phase.closingClient else .leaving) ≠ .creating := by
    cases both <;> exact Phase.noConfusion
  have hconn {n k : ℕ} : Function.update s.fds s.serverSock none n = some (.conn k) ↔
      s.fds n = some (.conn k) := by
    by_cases hn : n = s.serverSock
    · rw [hn, Function.update_self, hl]
      simp
    · rw [Function.update_of_ne hn]
  have hhanded {k : ℕ} (hk : s.Handed k) :
      State.Handed
        { s.close none (.fd s.serverSock) with
          main := if both then .closingClient else .leaving } k := by
    obtain ⟨n, hn, hfd⟩ := conn_eq_some_iff.mp hk.1
    exact ⟨conn_eq_some_iff.mpr ⟨n, hn, hconn.mpr hfd⟩, hk.2⟩
  have hclosed (k : ℕ) : State.closedTimes
      { s.close none (.fd s.serverSock) with
        main := if both then .closingClient else .leaving } k = s.closedTimes k :=
    closedTimes_close_of_ne (by rw [hl]; simp) none
  refine ⟨?_, h.took_lt, ?_, ?_, ?_, ?_, ?_, ?_, ?_, ?_⟩
  · intro k hk
    rcases h.read k hk with hread | ⟨hk, hreader⟩
    · exact Or.inl hread
    · rcases hreader with ⟨hc, -⟩ | ⟨-, hone⟩
      · rw [hmain] at hc
        contradiction
      · exact Or.inr ⟨hhanded hk, Or.inr ⟨hmain', hone⟩⟩
  · rintro (hc | hstarting)
    · exact absurd hc hmain'
    · obtain ⟨k, hk⟩ := h.pending (Or.inr hstarting)
      exact ⟨k, hhanded hk⟩
  · intro t v k ht
    obtain ⟨n, c, rfl, rfl, hc⟩ := h.serving t v k ht
    exact ⟨n, c, rfl, rfl, hconn.mpr hc⟩
  · intro k
    rw [hclosed]
    exact h.closed k
  · intro c hc hnone
    rcases List.mem_append.mp hc with hc | hc
    · exact h.main c hc hnone
    · rw [List.mem_singleton.mp hc]
      exact hl
  · intro hlisten
    cases both <;> exact hlisten.elim
  · exact refers_close_ne h.clientSock s.serverSock none
  · exact fun n k hk ↦ h.lt n k (hconn.mp hk)
  · exact fun n m k hn hm ↦ h.inj n m k (hconn.mp hn) (hconn.mp hm)

/-- When somebody is about to read the variable, it is one thread. -/
theorem Inv.oneReader (h : Inv s) (hp : s.main = .creating ∨ ∃ t, s.threads t = .starting) :
    s.OneReader := by
  obtain ⟨k, hconn, hunread⟩ := h.pending hp
  obtain ⟨n, -, hn⟩ := conn_eq_some_iff.mp hconn
  rcases h.read k (h.lt n k hn) with ⟨t, ht, -⟩ | ⟨-, hreader⟩
  · exact absurd ht (hunread t)
  · exact hreader

/-- A connection is taken by one thread only. -/
theorem Inv.took_unique (h : Inv s) {t u : τ} {k : ℕ} (ht : s.Took t k) (hu : s.Took u k) :
    t = u := by
  rcases h.read k (h.took_lt t k ht) with ⟨_, -, huniq⟩ | ⟨hhanded, -⟩
  · exact (huniq t ht).trans (huniq u hu).symm
  · exact absurd ht (hhanded.2 t)

end

section

variable {s : State τ} {t : τ} {l : Thread}

theorem threads_goto_self : (s.goto t l).threads t = l := Function.update_self ..

theorem threads_goto_of_ne {u : τ} (hu : u ≠ t) : (s.goto t l).threads u = s.threads u :=
  Function.update_of_ne hu ..

/-- Who is at a place the thread neither leaves nor gets to. -/
theorem threads_goto_iff {l' : Thread} (hold : s.threads t ≠ l') (hnew : l ≠ l') (u : τ) :
    (s.goto t l).threads u = l' ↔ s.threads u = l' := by
  by_cases hu : u = t
  · rw [hu, threads_goto_self]
    exact iff_of_false hnew hold
  · rw [threads_goto_of_ne hu]

/-- A thread that gets somewhere else without reading the variable. -/
theorem took_goto (hl : l.took = (s.threads t).took) (u : τ) (k : ℕ) :
    (s.goto t l).Took u k ↔ s.Took u k := by
  by_cases hu : u = t
  · rw [State.Took, State.Took, hu, threads_goto_self, hl]
  · rw [State.Took, State.Took, threads_goto_of_ne hu]

/-- `pthread_create` succeeds. -/
theorem Inv.create (h : Inv s) (hmain : s.main = .creating) (ht : s.threads t = .absent) :
    Inv { s.goto t .starting with main := .testing } := by
  have htook (u : τ) (k : ℕ) : (s.goto t .starting).Took u k ↔ s.Took u k :=
    took_goto (by rw [ht]; rfl) u k
  have hidle : ∀ u, s.threads u ≠ .starting := by
    rcases h.oneReader (Or.inl hmain) with ⟨-, hidle⟩ | ⟨hc, -⟩
    · exact hidle
    · exact absurd hmain hc
  have hone : ∃! u, (s.goto t .starting).threads u = .starting := by
    refine ⟨t, threads_goto_self, ?_⟩
    intro u (hu : (s.goto t .starting).threads u = .starting)
    by_contra hne
    rw [threads_goto_of_ne hne] at hu
    exact hidle u hu
  have hhanded {k : ℕ} (hk : s.Handed k) :
      State.Handed { s.goto t .starting with main := .testing } k :=
    ⟨hk.1, fun u hu ↦ hk.2 u ((htook u k).mp hu)⟩
  have hended (u : τ) (k : Option ℕ) :
      (s.goto t .starting).threads u = .ended k ↔ s.threads u = .ended k :=
    threads_goto_iff (by rw [ht]; exact Thread.noConfusion) Thread.noConfusion u
  refine ⟨?_, ?_, ?_, ?_, ?_, h.main, ?_, h.clientSock, h.lt, h.inj⟩
  · intro k hk
    rcases h.read k hk with ⟨u, hu, huniq⟩ | ⟨hk, -⟩
    · exact Or.inl ⟨u, (htook u k).mpr hu, fun v hv ↦ huniq v ((htook v k).mp hv)⟩
    · exact Or.inr ⟨hhanded hk, Or.inr ⟨Phase.noConfusion, hone⟩⟩
  · exact fun u k hu ↦ h.took_lt u k ((htook u k).mp hu)
  · intro _
    obtain ⟨k, hk⟩ := h.pending (Or.inl hmain)
    exact ⟨k, hhanded hk⟩
  · intro u v k hu
    change (s.goto t .starting).threads u = .serving v k at hu
    by_cases hut : u = t
    · rw [hut, threads_goto_self] at hu
      contradiction
    · rw [threads_goto_of_ne hut] at hu
      exact h.serving u v k hu
  · intro k
    change s.closedTimes k = 1 ∧ (∃ u, (s.goto t .starting).threads u = .ended (some k)) ∨
      s.closedTimes k = 0 ∧ ∀ u, ¬ (s.goto t .starting).threads u = .ended (some k)
    simp only [hended]
    exact h.closed k
  · exact fun _ ↦ h.listening (by rw [hmain]; trivial)

/-! ## The steps of a session thread -/

/-- A thread reads the variable. -/
theorem Inv.readVar (h : Inv s) (ht : s.threads t = .starting) :
    Inv (s.goto t (.serving s.clientSock (s.conn s.clientSock))) := by
  obtain ⟨k, hconn, hunread⟩ := h.pending (Or.inr ⟨t, ht⟩)
  obtain ⟨n, hv, hn⟩ := conn_eq_some_iff.mp hconn
  obtain ⟨hc, hone⟩ : s.main ≠ .creating ∧ ∃! u, s.threads u = .starting := by
    rcases h.oneReader (Or.inr ⟨t, ht⟩) with ⟨-, hidle⟩ | hone
    · exact absurd ht (hidle t)
    · exact hone
  set s' := s.goto t (.serving s.clientSock (s.conn s.clientSock)) with hs'
  have hself : s'.threads t = .serving s.clientSock (some k) := by
    rw [hs', threads_goto_self, hconn]
  have hother {u : τ} (hu : u ≠ t) : s'.threads u = s.threads u := threads_goto_of_ne hu
  have hnot (j : ℕ) : ¬ s.Took t j := by
    rw [State.Took, ht]
    simp [Thread.took]
  have htook {u : τ} {j : ℕ} (hj : j ≠ k) : s'.Took u j ↔ s.Took u j := by
    by_cases hu : u = t
    · rw [hu]
      refine iff_of_false (fun h ↦ ?_) (hnot j)
      rw [State.Took, hself, Thread.took, Option.some_inj] at h
      exact hj h.symm
    · rw [State.Took, State.Took, hother hu]
  have hend (u : τ) (j : Option ℕ) : s'.threads u = .ended j ↔ s.threads u = .ended j :=
    threads_goto_iff (by rw [ht]; exact Thread.noConfusion) Thread.noConfusion u
  have hgone (u : τ) : s'.threads u ≠ .starting := by
    intro hu
    by_cases hut : u = t
    · rw [hut, hself] at hu
      contradiction
    · rw [hother hut] at hu
      exact hut (hone.unique hu ht)
  refine ⟨?_, ?_, ?_, ?_, ?_, h.main, h.listening, h.clientSock, h.lt, h.inj⟩
  · intro j hj
    left
    by_cases hjk : j = k
    · subst hjk
      refine ⟨t, congrArg Thread.took hself, ?_⟩
      intro u (hu : (s'.threads u).took = some j)
      by_contra hut
      rw [hother hut] at hu
      exact hunread u hu
    · rcases h.read j hj with ⟨u, hu, huniq⟩ | ⟨hhanded, -⟩
      · exact ⟨u, (htook hjk).mpr hu, fun v hv ↦ huniq v ((htook hjk).mp hv)⟩
      · exact absurd (Option.some_inj.mp (hhanded.1.symm.trans hconn)) hjk
  · intro u j hu
    by_cases hjk : j = k
    · exact hjk ▸ h.lt n k hn
    · exact h.took_lt u j ((htook hjk).mp hu)
  · rintro (hmain | ⟨u, hu⟩)
    · exact absurd hmain hc
    · exact absurd hu (hgone u)
  · intro u v j hu
    by_cases hut : u = t
    · rw [hut, hself, Thread.serving.injEq] at hu
      exact ⟨n, k, hu.1.symm.trans hv, hu.2.symm, hn⟩
    · rw [hother hut] at hu
      exact h.serving u v j hu
  · intro j
    change s.closedTimes j = 1 ∧ (∃ u, s'.threads u = .ended (some j)) ∨
      s.closedTimes j = 0 ∧ ∀ u, ¬ s'.threads u = .ended (some j)
    simp only [hend]
    exact h.closed j

/-- A thread closes its descriptor and ends. -/
theorem Inv.finish (h : Inv s) {v : Var} {k : Option ℕ} (ht : s.threads t = .serving v k) :
    Inv ((s.close (some t) v).goto t (.ended k)) := by
  obtain ⟨n, c, rfl, rfl, hn⟩ := h.serving t v k ht
  have htc : s.Took t c := by rw [State.Took, ht]; rfl
  set s' := (s.close (some t) (.fd n)).goto t (.ended (some c))
  have hself : s'.threads t = .ended (some c) := threads_goto_self
  have hother {u : τ} (hu : u ≠ t) : s'.threads u = s.threads u := threads_goto_of_ne hu
  have htook (u : τ) (j : ℕ) : s'.Took u j ↔ s.Took u j :=
    took_goto (s := s.close (some t) (.fd n)) (by
      change (Thread.ended (some c)).took = (s.threads t).took
      rw [ht]
      rfl) u j
  have hfds (m : ℕ) : s'.fds m = if m = n then none else s.fds m := Function.update_apply ..
  have hconn {m j : ℕ} (hm : s'.fds m = some (.conn j)) : m ≠ n ∧ s.fds m = some (.conn j) := by
    rw [hfds] at hm
    split_ifs at hm with hmn
    exact ⟨hmn, hm⟩
  have hhanded {j : ℕ} (hj : s.Handed j) : s'.Handed j := by
    obtain ⟨m, hv, hm⟩ := conn_eq_some_iff.mp hj.1
    refine ⟨conn_eq_some_iff.mpr ⟨m, hv, ?_⟩, fun u hu ↦ hj.2 u ((htook u j).mp hu)⟩
    rw [hfds, if_neg, hm]
    rintro rfl
    rw [hn, Option.some_inj, Use.conn.injEq] at hm
    exact hj.2 t (hm ▸ htc)
  have hold {l : Thread} (hl : .serving (.fd n) (some c) ≠ l) :
      (s.close (some t) (.fd n)).threads t ≠ l := by
    change s.threads t ≠ l
    rwa [ht]
  have hstart (u : τ) : s'.threads u = .starting ↔ s.threads u = .starting :=
    threads_goto_iff (hold Thread.noConfusion) Thread.noConfusion u
  refine ⟨?_, ?_, ?_, ?_, ?_, ?_, ?_, refers_close_ne h.clientSock n (some t), ?_, ?_⟩
  · intro j hj
    rcases h.read j hj with ⟨u, hu, huniq⟩ | ⟨hj, hreader⟩
    · exact Or.inl ⟨u, (htook u j).mpr hu, fun v hv ↦ huniq v ((htook v j).mp hv)⟩
    · refine Or.inr ⟨hhanded hj, ?_⟩
      simp only [State.OneReader, ne_eq, hstart]
      exact hreader
  · exact fun u j hu ↦ h.took_lt u j ((htook u j).mp hu)
  · intro hp
    simp only [hstart] at hp
    obtain ⟨j, hj⟩ := h.pending hp
    exact ⟨j, hhanded hj⟩
  · intro u v j hu
    by_cases hut : u = t
    · rw [hut, hself] at hu
      contradiction
    · rw [hother hut] at hu
      obtain ⟨m, d, rfl, rfl, hm⟩ := h.serving u v j hu
      refine ⟨m, d, rfl, rfl, ?_⟩
      rw [hfds, if_neg, hm]
      rintro rfl
      have hud : s.Took u d := by rw [State.Took, hu]; rfl
      rw [hn, Option.some_inj, Use.conn.injEq] at hm
      exact hut (h.took_unique (hm ▸ hud) htc)
  · intro j
    by_cases hjc : j = c
    · left
      refine ⟨?_, t, by rw [hself, hjc]⟩
      have h0 : s.closedTimes j = 0 := by
        rcases h.closed j with ⟨-, u, hu⟩ | ⟨h0, -⟩
        · have huc : s.Took u c := by rw [State.Took, hu, hjc]; rfl
          rw [h.took_unique huc htc, ht] at hu
          contradiction
        · exact h0
      have h1 : s'.closedTimes j = s.closedTimes j + 1 :=
        closedTimes_close (by rw [hn, hjc]) (some t)
      rw [h1, h0]
    · have h1 : s'.closedTimes j = s.closedTimes j :=
        closedTimes_close_of_ne (by rw [hn]; simpa using Ne.symm hjc) (some t)
      have hend (u : τ) : s'.threads u = .ended (some j) ↔ s.threads u = .ended (some j) :=
        threads_goto_iff (hold Thread.noConfusion) (by simpa using Ne.symm hjc) u
      simp only [h1, ne_eq, hend]
      exact h.closed j
  · intro e he hnone
    rcases List.mem_append.mp he with he | he
    · exact h.main e he hnone
    · rw [List.mem_singleton.mp he] at hnone
      contradiction
  · intro hl
    have hlisten := h.listening hl
    change s'.fds s.serverSock = some .listening
    rw [hfds, if_neg, hlisten]
    intro hs
    rw [hs, hn] at hlisten
    exact Use.noConfusion (Option.some_inj.mp hlisten)
  · exact fun m j hm ↦ h.lt m j (hconn hm).2
  · exact fun m m' j hm hm' ↦ h.inj m m' j (hconn hm).2 (hconn hm').2

/-! ## Every step -/

variable {s' : State τ} {i : Act τ}

omit [DecidableEq τ] in
/-- If the variable is overwritten while a thread is about to read it, the connection it
held is lost. -/
theorem Inv.idle_of_lost (h : Inv s) (howner : OneOwner s') (hle : s.accepted ≤ s'.accepted)
    (hthreads : s'.threads = s.threads)
    (hlost : ∀ k < s.accepted, s'.conn s'.clientSock ≠ some k) :
    ∀ t, s.threads t ≠ .starting := by
  intro t ht
  obtain ⟨k, hconn, hunread⟩ := h.pending (Or.inr ⟨t, ht⟩)
  obtain ⟨n, -, hn⟩ := conn_eq_some_iff.mp hconn
  have hk := h.lt n k hn
  rcases howner.read k (hk.trans_le hle) with ⟨u, hu, -⟩ | ⟨hhanded, -⟩
  · rw [State.Took, hthreads] at hu
    exact hunread u hu
  · exact hlost k hk hhanded.1

omit [DecidableEq τ] in
/-- A connection for which no thread can be created has no owner. -/
theorem Inv.not_oneOwner_of_create (h : Inv s) (hmain : s.main = .creating) :
    ¬ OneOwner { s with main := .testing } := by
  intro howner
  obtain ⟨k, hconn, hunread⟩ := h.pending (Or.inl hmain)
  obtain ⟨n, -, hn⟩ := conn_eq_some_iff.mp hconn
  have hidle : ∀ t, s.threads t ≠ .starting := by
    rcases h.oneReader (Or.inl hmain) with ⟨-, hidle⟩ | ⟨hc, -⟩
    · exact hidle
    · exact absurd hmain hc
  rcases howner.read k (h.lt n k hn) with ⟨u, hu, -⟩ | ⟨-, ⟨hc, -⟩ | ⟨-, t, ht, -⟩⟩
  · exact hunread u hu
  · contradiction
  · exact hidle t ht

omit [DecidableEq τ] in
/-- `close(client_sock)` closes what is not for `main` to close. -/
theorem Inv.minusOne_of_closeClient (h : Inv s)
    (howner : OneOwner { s.close none s.clientSock with main := .leaving }) :
    s.clientSock = .minusOne := by
  cases hv : s.clientSock with
  | minusOne => rfl
  | indeterminate =>
      rw [hv] at howner
      have hmem : (⟨none, none⟩ : Close τ) ∈ s.closes ++ [⟨none, none⟩] := by simp
      rcases howner.main _ hmem rfl with hwhat | ⟨k, hwhat, -⟩ <;> contradiction
  | fd n =>
      rw [hv] at howner
      have hmem : (⟨none, s.fds n⟩ : Close τ) ∈ s.closes ++ [⟨none, s.fds n⟩] := by simp
      rcases howner.main _ hmem rfl with hwhat | ⟨k, hwhat, hunread⟩
      · exact absurd hwhat (by simpa [hv, State.refers] using h.clientSock)
      · rcases howner.read k (h.lt n k hwhat) with ⟨u, hu, -⟩ | ⟨⟨hconn, -⟩, -⟩
        · exact absurd hu (hunread u)
        · obtain ⟨m, hm, hfd⟩ := conn_eq_some_iff.mp hconn
          change s.clientSock = .fd m at hm
          change Function.update s.fds n none m = some (.conn k) at hfd
          obtain rfl := Var.fd.inj (hv.symm.trans hm)
          rw [Function.update_self] at hfd
          contradiction

theorem step_of_next (h : next s i = some s') :
    mainStep s i = some s' ∨ threadStep s i = some s' := by
  rw [next] at h
  split_ifs at h
  cases hm : mainStep s i with
  | none => exact Or.inr (by simpa [hm] using h)
  | some a => exact Or.inl (by simpa [hm] using h)

theorem Inv.mainStep (h : Inv s) (hi : mainStep s i = some s') :
    (Safe s i → Inv s') ∧ (OneOwner s' → Safe s i) := by
  cases i with
  | interrupt =>
      obtain rfl := Option.some_inj.mp hi
      exact ⟨fun _ ↦ ⟨h.read, h.took_lt, h.pending, h.serving, h.closed, h.main, h.listening,
        h.clientSock, h.lt, h.inj⟩, fun _ ↦ trivial⟩
  | test =>
      simp only [AcceptLoop.mainStep] at hi
      split at hi
      case h_2 => contradiction
      case h_1 hmain =>
        refine ⟨fun _ ↦ ?_, fun _ ↦ trivial⟩
        split_ifs at hi
        · obtain rfl := Option.some_inj.mp hi
          exact h.goto_main hmain Phase.noConfusion Phase.noConfusion id
        · obtain rfl := Option.some_inj.mp hi
          exact h.goto_main hmain Phase.noConfusion Phase.noConfusion id
  | timeout =>
      simp only [AcceptLoop.mainStep] at hi
      split at hi
      case h_2 => contradiction
      case h_1 hmain =>
        obtain rfl := Option.some_inj.mp hi
        refine ⟨fun _ ↦ ?_, fun _ ↦ trivial⟩
        exact h.goto_main hmain Phase.noConfusion Phase.noConfusion id
  | selectError =>
      simp only [AcceptLoop.mainStep] at hi
      split at hi
      case h_2 => contradiction
      case h_1 hmain =>
        obtain rfl := Option.some_inj.mp hi
        refine ⟨fun _ ↦ ?_, fun _ ↦ trivial⟩
        exact h.goto_main hmain Phase.noConfusion Phase.noConfusion id
  | accept n =>
      simp only [AcceptLoop.mainStep] at hi
      split at hi
      case h_2 => contradiction
      case h_1 hmain hn =>
        obtain rfl := Option.some_inj.mp hi
        refine ⟨fun hidle ↦ h.accept hmain hn hidle, fun howner ↦ ?_⟩
        refine h.idle_of_lost howner (Nat.le_succ _) rfl fun k hk hconn ↦ ?_
        obtain ⟨m, hm, hfd⟩ := conn_eq_some_iff.mp hconn
        obtain rfl := Var.fd.inj hm
        change Function.update s.fds n (some (.conn s.accepted)) n = some (.conn k) at hfd
        rw [Function.update_self, Option.some_inj, Use.conn.injEq] at hfd
        omega
  | acceptError =>
      simp only [AcceptLoop.mainStep] at hi
      split at hi
      case h_2 => contradiction
      case h_1 hmain =>
        obtain rfl := Option.some_inj.mp hi
        refine ⟨fun hidle ↦ h.acceptError hmain hidle, fun howner ↦ ?_⟩
        exact h.idle_of_lost howner le_rfl rfl fun k _ ↦ by simp [State.conn, State.refers]
  | create t =>
      simp only [AcceptLoop.mainStep] at hi
      split at hi
      case h_1 hmain =>
        obtain rfl := Option.some_inj.mp hi
        exact ⟨fun hsafe ↦ absurd rfl hsafe,
          fun howner ↦ absurd howner (h.not_oneOwner_of_create hmain)⟩
      case h_2 t hmain =>
        split_ifs at hi with ht
        obtain rfl := Option.some_inj.mp hi
        exact ⟨fun _ ↦ h.create hmain ht, fun _ ↦ Option.some_ne_none t⟩
      case h_3 => contradiction
  | close =>
      simp only [AcceptLoop.mainStep] at hi
      split at hi
      case h_1 both hmain =>
        obtain rfl := Option.some_inj.mp hi
        refine ⟨fun _ ↦ h.closeServer hmain, fun _ hc ↦ ?_⟩
        rw [hmain] at hc
        contradiction
      case h_2 hmain =>
        obtain rfl := Option.some_inj.mp hi
        refine ⟨fun hsafe ↦ ?_, fun howner _ ↦ h.minusOne_of_closeClient howner⟩
        rw [hsafe hmain, State.close]
        exact h.goto_main hmain Phase.noConfusion Phase.noConfusion id
      case h_3 => contradiction
  | leave =>
      simp only [AcceptLoop.mainStep] at hi
      split at hi
      case h_2 => contradiction
      case h_1 hmain =>
        obtain rfl := Option.some_inj.mp hi
        refine ⟨fun _ ↦ ?_, fun _ ↦ trivial⟩
        exact h.goto_main hmain Phase.noConfusion Phase.noConfusion id
  | read t => contradiction
  | finish t => contradiction

theorem Inv.threadStep (h : Inv s) (hi : threadStep s i = some s') :
    (Safe s i → Inv s') ∧ (OneOwner s' → Safe s i) := by
  cases i with
  | read t =>
      simp only [AcceptLoop.threadStep] at hi
      split at hi
      case h_2 => contradiction
      case h_1 ht => exact ⟨fun _ ↦ Option.some_inj.mp hi ▸ h.readVar ht, fun _ ↦ trivial⟩
  | finish t =>
      simp only [AcceptLoop.threadStep] at hi
      split at hi
      case h_2 => contradiction
      case h_1 ht => exact ⟨fun _ ↦ Option.some_inj.mp hi ▸ h.finish ht, fun _ ↦ trivial⟩
  | _ => contradiction

end

/-- **When every connection has one owner.**  In a run of the accept loop and its threads,
every connection has one owner all along if and only if no connection is accepted while
a thread has not read the variable yet, `pthread_create` never fails, and `main` does not
come to `close(client_sock)` except after an `accept` that has failed. -/
theorem oneOwner_iff_safe (serverSock : ℕ) (acts : List (Act τ)) :
    Machine.Meets next Safe (init serverSock) acts ↔
      ∀ acts', acts' <+: acts → OneOwner (Machine.run next (init serverSock) acts') := by
  refine Machine.meets_iff_forall_prefix_of_meets (inv_init serverSock) ?_ ?_
  · intro s h
    exact h.oneOwner
  · intro s i s' h hnext
    rcases step_of_next hnext with hi | hi
    · exact h.mainStep hi
    · exact h.threadStep hi

/-- Two clients connect before the first thread has run.  Both threads read the descriptor
of the second, and the first client waits for ever. -/
def twoAtOnce : List (Act Bool) :=
  [.test, .accept 4, .create (some false), .test, .accept 5, .create (some true),
    .read false, .read true]

theorem not_oneOwner_twoAtOnce :
    ¬ ∀ acts : List (Act Bool), OneOwner (Machine.run next (init 3) acts) := by
  intro h
  have howner := h twoAtOnce
  have hread : ∀ t, ((Machine.run next (init 3) twoAtOnce).threads t).took = some 1 := by decide
  have hconn : (Machine.run next (init 3) twoAtOnce).conn
      (Machine.run next (init 3) twoAtOnce).clientSock = some 1 := by decide
  rcases howner.read 0 (by decide) with ⟨t, ht, -⟩ | ⟨hhanded, -⟩
  · rw [State.Took, hread] at ht
    exact absurd ht (by decide)
  · rw [State.Handed, hconn] at hhanded
    exact absurd hhanded.1 (by decide)

end AcceptLoop

end Freelite
