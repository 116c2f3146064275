import Freelite.Inc.RpcTypes
import Freelite.Lib.Machine

/-!
# The threads of a client process

`rpc_handler` keeps its connection in one static variable, and nothing in it is
protected by a lock.  Here the threads of one process run it in steps: they test
`client_sock`, go through `rpc_conn`, send, call `recv` and return from it, in any
order.  A system call reads `client_sock` when it is made, so a thread that is in
`recv` stays with the socket it has called it with.

No system call fails: a step that would make one fail, such as connecting a socket that
is connected already or sending on one that is not, is not possible.  The sockets are
numbered as they are opened, and none is ever closed.  On the other side of every
connection a session of the router answers one request after the other; what it answers
is an argument of its step.

Requests are numbered as they are sent, and a response has the number of the request it
answers.  The numbers are not in the messages.
-/

namespace Freelite

open Lib

namespace Threads

/-- Where a thread is in `rpc_handler`. -/
inductive Phase
  | idle
  /-- About to test `client_sock`. -/
  | testing (req : ReqMsg)
  /-- In `rpc_conn`, about to call `socket`. -/
  | opening (req : ReqMsg)
  /-- In `rpc_conn`, about to call `bind` and `connect`. -/
  | connecting (req : ReqMsg)
  | sending (req : ReqMsg)
  /-- The request has been sent, and has this number. -/
  | sent (number : ℕ)
  /-- In `recv` on a socket. -/
  | receiving (number sock : ℕ)

/-- The request a thread has sent and waits for the response to. -/
def Phase.awaits : Phase → Option ℕ
  | .sent number | .receiving number _ => some number
  | _ => none

/-- A request that has been sent: by whom and on which socket. -/
structure Request (τ : Type*) where
  thread : τ
  sock : ℕ
  msg : ReqMsg

/-- A call that has returned zero: the number of its request, and the response in
`rsp_msg` with the number of the request that it answers. -/
structure Return (τ : Type*) where
  thread : τ
  number : ℕ
  answers : ℕ
  msg : RspMsg

/-- A client process with the threads `τ`, and its sessions in the router. -/
structure Process (τ : Type*) where
  /-- `client_sock`, if it is not `-1`. -/
  clientSock : Option ℕ
  /-- How many sockets have been opened. -/
  opened : ℕ
  connected : List ℕ
  /-- The requests on a connection that its session has not received. -/
  requests : ℕ → List (ℕ × ReqMsg)
  /-- The responses on a connection that no thread has received. -/
  responses : ℕ → List (ℕ × RspMsg)
  phase : τ → Phase
  /-- The requests in the order in which they have been sent. -/
  sent : List (Request τ)
  /-- What the sessions have answered: the number, the request and the response. -/
  answered : List (ℕ × ReqMsg × RspMsg)
  returned : List (Return τ)

inductive Act (τ : Type*)
  /-- The thread calls `rpc_handler`. -/
  | call (t : τ) (req : ReqMsg)
  | test (t : τ)
  | socket (t : τ)
  | connect (t : τ)
  | send (t : τ)
  /-- The thread calls `recv`. -/
  | recv (t : τ)
  /-- `recv` returns, and with it `rpc_handler`. -/
  | deliver (t : τ)
  /-- The session on the other side of a socket answers its next request. -/
  | serve (sock : ℕ) (rsp : RspMsg)

variable {τ : Type*}

/-- Before the first call. -/
def init : Process τ where
  clientSock := none
  opened := 0
  connected := []
  requests _ := []
  responses _ := []
  phase _ := .idle
  sent := []
  answered := []
  returned := []

variable [DecidableEq τ]

/-- The thread is somewhere else. -/
def Process.goto (s : Process τ) (t : τ) (p : Phase) : Process τ :=
  { s with phase := Function.update s.phase t p }

def next (s : Process τ) : Act τ → Option (Process τ)
  | .call t req =>
      match s.phase t with
      | .idle => some (s.goto t (.testing req))
      | _ => none
  | .test t =>
      match s.phase t with
      | .testing req =>
          some (s.goto t (if s.clientSock = none then .opening req else .sending req))
      | _ => none
  | .socket t =>
      match s.phase t with
      | .opening req =>
          some { s.goto t (.connecting req) with
            clientSock := some s.opened
            opened := s.opened + 1 }
      | _ => none
  | .connect t =>
      match s.phase t, s.clientSock with
      | .connecting req, some sock =>
          if sock ∈ s.connected then none
          else some { s.goto t (.sending req) with connected := sock :: s.connected }
      | _, _ => none
  | .send t =>
      match s.phase t, s.clientSock with
      | .sending req, some sock =>
          if sock ∈ s.connected then
            some { s.goto t (.sent s.sent.length) with
              requests :=
                Function.update s.requests sock (s.requests sock ++ [(s.sent.length, req)])
              sent := s.sent ++ [⟨t, sock, req⟩] }
          else none
      | _, _ => none
  | .recv t =>
      match s.phase t, s.clientSock with
      | .sent number, some sock =>
          if sock ∈ s.connected then some (s.goto t (.receiving number sock)) else none
      | _, _ => none
  | .deliver t =>
      match s.phase t with
      | .receiving number sock =>
          match s.responses sock with
          | [] => none
          | (answers, msg) :: responses =>
              some { s.goto t .idle with
                responses := Function.update s.responses sock responses
                returned := s.returned ++ [⟨t, number, answers, msg⟩] }
      | _ => none
  | .serve sock rsp =>
      match s.requests sock with
      | [] => none
      | (number, req) :: requests =>
          some { s with
            requests := Function.update s.requests sock requests
            responses := Function.update s.responses sock (s.responses sock ++ [(number, rsp)])
            answered := s.answered ++ [(number, req, rsp)] }

/-! ## What each step does -/

section Inversion

variable {s s' : Process τ} {t : τ} {sock : ℕ}

theorem call_eq {req : ReqMsg} (h : next s (.call t req) = some s') :
    s.phase t = .idle ∧ s' = s.goto t (.testing req) := by
  rw [next] at h
  split at h
  case h_1 hp => exact ⟨hp, (Option.some_inj.mp h).symm⟩
  case h_2 => contradiction

theorem test_eq (h : next s (.test t) = some s') :
    ∃ req, s.phase t = .testing req ∧
      s' = s.goto t (if s.clientSock = none then .opening req else .sending req) := by
  rw [next] at h
  split at h
  case h_1 req hp => exact ⟨req, hp, (Option.some_inj.mp h).symm⟩
  case h_2 => contradiction

theorem socket_eq (h : next s (.socket t) = some s') :
    ∃ req, s.phase t = .opening req ∧
      s' = { s.goto t (.connecting req) with
        clientSock := some s.opened
        opened := s.opened + 1 } := by
  rw [next] at h
  split at h
  case h_1 req hp => exact ⟨req, hp, (Option.some_inj.mp h).symm⟩
  case h_2 => contradiction

theorem connect_eq (h : next s (.connect t) = some s') :
    ∃ req sock, s.phase t = .connecting req ∧ s.clientSock = some sock ∧
      s' = { s.goto t (.sending req) with connected := sock :: s.connected } := by
  rw [next] at h
  split at h
  case h_1 req sock hp hc =>
    split_ifs at h
    exact ⟨req, sock, hp, hc, (Option.some_inj.mp h).symm⟩
  case h_2 => contradiction

theorem send_eq (h : next s (.send t) = some s') :
    ∃ req sock, s.phase t = .sending req ∧ s.clientSock = some sock ∧
      s' = { s.goto t (.sent s.sent.length) with
        requests := Function.update s.requests sock (s.requests sock ++ [(s.sent.length, req)])
        sent := s.sent ++ [⟨t, sock, req⟩] } := by
  rw [next] at h
  split at h
  case h_1 req sock hp hc =>
    split_ifs at h
    exact ⟨req, sock, hp, hc, (Option.some_inj.mp h).symm⟩
  case h_2 => contradiction

theorem recv_eq (h : next s (.recv t) = some s') :
    ∃ number sock, s.phase t = .sent number ∧ s.clientSock = some sock ∧
      s' = s.goto t (.receiving number sock) := by
  rw [next] at h
  split at h
  case h_1 number sock hp hc =>
    split_ifs at h
    exact ⟨number, sock, hp, hc, (Option.some_inj.mp h).symm⟩
  case h_2 => contradiction

theorem deliver_eq (h : next s (.deliver t) = some s') :
    ∃ number sock answers msg responses, s.phase t = .receiving number sock ∧
      s.responses sock = (answers, msg) :: responses ∧
      s' = { s.goto t .idle with
        responses := Function.update s.responses sock responses
        returned := s.returned ++ [⟨t, number, answers, msg⟩] } := by
  rw [next] at h
  split at h
  case h_1 number sock hp =>
    split at h
    case h_1 => contradiction
    case h_2 answers msg responses hr =>
      exact ⟨number, sock, answers, msg, responses, hp, hr, (Option.some_inj.mp h).symm⟩
  case h_2 => contradiction

theorem serve_eq {rsp : RspMsg} (h : next s (.serve sock rsp) = some s') :
    ∃ number req requests, s.requests sock = (number, req) :: requests ∧
      s' = { s with
        requests := Function.update s.requests sock requests
        responses := Function.update s.responses sock (s.responses sock ++ [(number, rsp)])
        answered := s.answered ++ [(number, req, rsp)] } := by
  rw [next] at h
  split at h
  case h_1 => contradiction
  case h_2 number req requests hr =>
    exact ⟨number, req, requests, hr, (Option.some_inj.mp h).symm⟩

end Inversion

end Threads

end Freelite
