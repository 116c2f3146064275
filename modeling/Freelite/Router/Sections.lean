import Freelite.Lib.Monitor
import Freelite.Router.Routing

/-!
# The critical sections of the router, step by step

`vcm_join`, `vcm_vid_nid` and `vcm_get_node_id` hold `map_mutex` from entry to return,
also while they wait for the manager.  Here they are bodies of a monitor whose shared
state is the static variables of `routing.cpp` and the connection: the requests that
have been sent and not handled, the replies that have been sent and not received.  The
manager handles the next request whenever it likes; it answers from a state of its own
(`serve`), and it may do so after the router has given up on the connection.

Every request carries the number of the request it is, and every reply that of the
request it answers.  The numbers are not in the messages.  They are what "the answer to
its own request" is about.  In the same way a call returns, next to its value, what its
system calls have come to; a sequence of calls that explains an interleaving has to be one
in which every call meets what it has met.
-/

namespace Freelite

open Lib

namespace Routing

/-- A call of one of the three functions. -/
inductive SessionCall
  | vcmJoin (cid : Cid)
  | vcmVidNid (vid : Int32)
  | vcmGetNodeId (cid : Cid)
deriving DecidableEq

/-- What becomes of the exchange of a call that has to ask. -/
inductive Fate
  | answered
  | sendError
  | recvError
deriving DecidableEq

/-- How far a call has got. -/
inductive Progress
  /-- The lock is taken. -/
  | entered
  /-- The table has no entry: `vcm_handler` is called. -/
  | sending
  /-- `vcm_handler` has sent request `number` and is in `recv`. -/
  | receiving (number : Nat)
  /-- `vcm_handler` returns zero, with a message that answers request `answers`. -/
  | handled (number answers : Nat) (msg : VcmMsg)
  /-- `vcm_join` has inserted the vid of the container. -/
  | noted (vid : Int32)
  /-- The return value is known.  There has been an exchange with this fate, or none. -/
  | returning (ret : Int32) (fate : Option Fate)
deriving DecidableEq

/-- What a system call reports. -/
inductive Syscall
  | ok
  | error
deriving DecidableEq

/-- What the session threads share. -/
structure Shared (ν : Type*) where
  routing : Routing
  vcm : ν
  /-- The requests the manager has not handled yet, with their numbers. -/
  requests : List (Nat × VcmMsg)
  /-- The replies the router has not received, with the numbers of their requests. -/
  replies : List (Nat × VcmMsg)
  /-- The calls that have sent a request, oldest first. -/
  asked : List SessionCall
  /-- What the manager has handled: the number, the request and the reply. -/
  answers : List (Nat × VcmMsg × VcmMsg)

section Bodies

variable {ν : Type*} (serve : VcmMsg → ν → VcmMsg × ν) (routerNid : Int32)

/-- The request of a call that has to ask. -/
def SessionCall.request : SessionCall → VcmMsg
  | vcmJoin _ => ⟨nidVid, routerNid⟩
  | vcmVidNid vid => ⟨vidNid, vid⟩
  -- `vcm_get_node_id` never asks
  | vcmGetNodeId _ => ⟨vidNid, 0⟩

/-- The table lookup at the beginning of a call: the value to return, if it is there. -/
def SessionCall.lookup : SessionCall → Routing → Option Int32
  | vcmJoin cid, s => s.cidVidMap.find cid
  | vcmVidNid vid, s => s.vidNidMapCache.find vid
  | vcmGetNodeId cid, s => some (s.vcmGetNodeId cid)

/-- The bodies of the three functions. -/
def body : Body SessionCall Progress Syscall (Shared ν) (Int32 × Option Fate) where
  enter := .entered
  step
    | o, .entered, _, s =>
        match o.lookup s.routing with
        | some ret => some (.returning ret none, s)
        | none => some (.sending, s)
    | o, .sending, result, s =>
        if s.routing.clientSock = -1 then some (.returning (-1) none, s)
        else
          match result with
          | .error =>
              some (.returning (-1) (some .sendError), { s with routing := s.routing.vcmDisconn })
          | .ok =>
              some (.receiving s.asked.length,
                { s with
                  requests := s.requests ++ [(s.asked.length, o.request routerNid)]
                  asked := s.asked ++ [o] })
    | _, .receiving _, .error, s =>
        some (.returning (-1) (some .recvError), { s with routing := s.routing.vcmDisconn })
    | _, .receiving number, .ok, s =>
        match s.replies with
        | [] => none
        | (answers, msg) :: replies => some (.handled number answers msg, { s with replies })
    | .vcmJoin cid, .handled _ _ msg, _, s =>
        some (.noted msg.id,
          { s with routing :=
              { s.routing with cidVidMap := s.routing.cidVidMap.insert cid msg.id } })
    | .vcmJoin _, .noted vid, _, s =>
        some (.returning vid (some .answered),
          { s with routing :=
              { s.routing with
                vidNidMapCache := s.routing.vidNidMapCache.insert vid routerNid } })
    | .vcmVidNid vid, .handled _ _ msg, _, s =>
        some (.returning msg.id (some .answered),
          { s with routing :=
              { s.routing with
                vidNidMapCache := s.routing.vidNidMapCache.insert vid msg.id } })
    | _, _, _, _ => none
  result
    | .returning ret fate => some (ret, fate)
    | _ => none

section Steps

variable {routerNid} (o : SessionCall) (i : Syscall) (s : Shared ν)

theorem step_entered : (body routerNid).step o .entered i s =
    match o.lookup s.routing with
    | some ret => some (.returning ret none, s)
    | none => some (.sending, s) := rfl

theorem step_sending : (body routerNid).step o .sending i s =
    if s.routing.clientSock = -1 then some (.returning (-1) none, s)
    else
      match i with
      | .error =>
          some (.returning (-1) (some .sendError), { s with routing := s.routing.vcmDisconn })
      | .ok =>
          some (.receiving s.asked.length,
            { s with
              requests := s.requests ++ [(s.asked.length, o.request routerNid)]
              asked := s.asked ++ [o] }) := rfl

theorem step_receiving_error (number : Nat) :
    (body routerNid).step o (.receiving number) .error s =
      some (.returning (-1) (some .recvError), { s with routing := s.routing.vcmDisconn }) := by
  cases o <;> rfl

theorem step_receiving_ok (number : Nat) :
    (body routerNid).step o (.receiving number) .ok s =
      match s.replies with
      | [] => none
      | (answers, msg) :: replies => some (.handled number answers msg, { s with replies }) := by
  cases o <;> rfl

end Steps

/-- The manager handles the next request on the connection. -/
def serveNext (_ : Unit) (s : Shared ν) : Option (Shared ν) :=
  match s.requests with
  | [] => none
  | (number, msg) :: requests =>
      let (rsp, vcm) := serve msg s.vcm
      some { s with
        vcm, requests
        replies := s.replies ++ [(number, rsp)]
        answers := s.answers ++ [(number, msg, rsp)] }

/-! ## One call after the other -/

/-- The other side of the connection in an exchange with this fate. -/
def Fate.peer (fate : Fate) : Peer ν := fun msg v ↦
  match fate with
  | answered => (.received (VcmMsg.codec.enc (serve msg v).1), (serve msg v).2)
  | sendError => (.sendError, v)
  | recvError => (.recvError, v)

/-- A whole call of one of the functions of `routing.cpp`. -/
def SessionCall.run (fate : Fate) : SessionCall → Routing → ν → Int32 × Routing × ν
  | vcmJoin cid, s, v => s.vcmJoin (fate.peer serve) routerNid cid v
  | vcmVidNid vid, s, v => s.vcmVidNid (fate.peer serve) vid v
  | vcmGetNodeId cid, s, v => (s.vcmGetNodeId cid, s, v)

/-- What calls that are made one after the other leave behind. -/
structure Sequential (ν : Type*) where
  routing : Routing
  vcm : ν
  /-- The calls that have sent a request, oldest first. -/
  asked : List SessionCall

/-- A call as one operation: it returns this value, after an exchange with this fate or
without one, and leaves the state `a'`.  It has asked unless its request could not be
sent. -/
def Atomic (o : SessionCall) (a : Sequential ν) (r : Int32 × Option Fate) (a' : Sequential ν) :
    Prop :=
  -- a call without an exchange comes to the same whatever one would have come to
  o.run serve routerNid (r.2.getD .answered) a.routing a.vcm = (r.1, a'.routing, a'.vcm) ∧
    (r.2.isSome ↔ o.lookup a.routing = none ∧ a.routing.clientSock ≠ -1) ∧
    a'.asked = a.asked ++ if r.2 = none ∨ r.2 = some .sendError then [] else [o]

/-- What a call that has asked enters into the tables. -/
def SessionCall.note (id : Int32) : SessionCall → Routing → Routing
  | vcmJoin cid, s =>
      { s with
        cidVidMap := s.cidVidMap.insert cid id
        vidNidMapCache := s.vidNidMapCache.insert id routerNid }
  | vcmVidNid vid, s => { s with vidNidMapCache := s.vidNidMapCache.insert vid id }
  | vcmGetNodeId _, s => s

variable {serve routerNid} {o : SessionCall} {a a' : Sequential ν} {r : Int32} {fate : Option Fate}

/-- The call is answered from the table. -/
theorem run_of_lookup (fate : Fate) {s : Routing} (h : o.lookup s = some r) (v : ν) :
    o.run serve routerNid fate s v = (r, s, v) := by
  cases o with
  | vcmJoin cid => exact vcmJoin_of_find h _ _ _
  | vcmVidNid vid => exact vcmVidNid_of_find h _ _
  | vcmGetNodeId cid =>
      obtain rfl := Option.some_inj.mp h
      rfl

/-- The call has to ask, and `vcm_handler` fails. -/
theorem run_of_handler_error (fate : Fate) {s s' : Routing} {v v' : ν}
    (h : o.lookup s = none) {msg : VcmMsg}
    (hh : vcmHandler (fate.peer serve) (o.request routerNid) s v = (-1, msg, s', v')) :
    o.run serve routerNid fate s v = (-1, s', v') := by
  cases o with
  | vcmJoin cid =>
      change s.cidVidMap.find cid = none at h
      change vcmHandler _ ⟨nidVid, routerNid⟩ s v = _ at hh
      rw [SessionCall.run, vcmJoin_of_vcmHandler h hh, if_pos (by decide)]
  | vcmVidNid vid =>
      change s.vidNidMapCache.find vid = none at h
      change vcmHandler _ ⟨vidNid, vid⟩ s v = _ at hh
      rw [SessionCall.run, vcmVidNid_of_vcmHandler h hh, if_pos (by decide)]
  | vcmGetNodeId cid => contradiction

/-- The call has to ask, and the manager answers. -/
theorem run_of_answered {s : Routing} (h : o.lookup s = none) (hs : s.clientSock ≠ -1) (v : ν) :
    o.run serve routerNid .answered s v =
      ((serve (o.request routerNid) v).1.id,
        o.note routerNid (serve (o.request routerNid) v).1.id s,
        (serve (o.request routerNid) v).2) := by
  have hp (msg : VcmMsg) : Fate.answered.peer serve msg v =
      (.received (VcmMsg.codec.enc (serve msg v).1), (serve msg v).2) := rfl
  cases o with
  | vcmJoin cid =>
      change s.cidVidMap.find cid = none at h
      rw [SessionCall.run, vcmJoin_of_reply h hs (hp ⟨nidVid, routerNid⟩)]
      simp only [SessionCall.request, SessionCall.note]
  | vcmVidNid vid =>
      change s.vidNidMapCache.find vid = none at h
      rw [SessionCall.run, vcmVidNid_of_reply h hs (hp ⟨vidNid, vid⟩)]
      simp only [SessionCall.request, SessionCall.note]
  | vcmGetNodeId cid => contradiction

section Ways

theorem atomic_known (h : o.lookup a.routing = some r) :
    Atomic serve routerNid o a (r, none) a :=
  ⟨run_of_lookup _ h _, by simp [h], by simp⟩

theorem atomic_down (h : o.lookup a.routing = none) (hs : a.routing.clientSock = -1) :
    Atomic serve routerNid o a (-1, none) a :=
  ⟨run_of_handler_error _ h (vcmHandler_of_down hs _ _ _), by simp [hs], by simp⟩

theorem atomic_sendError (h : o.lookup a.routing = none) (hs : a.routing.clientSock ≠ -1) :
    Atomic serve routerNid o a (-1, some .sendError)
      { a with routing := a.routing.vcmDisconn } :=
  ⟨run_of_handler_error .sendError h (vcmHandler_of_sendError hs rfl), by simp [h, hs], by simp⟩

theorem atomic_recvError (h : o.lookup a.routing = none) (hs : a.routing.clientSock ≠ -1) :
    Atomic serve routerNid o a (-1, some .recvError)
      { a with routing := a.routing.vcmDisconn, asked := a.asked ++ [o] } :=
  ⟨run_of_handler_error .recvError h (vcmHandler_of_recvError hs rfl), by simp [h, hs], by simp⟩

theorem atomic_answered (h : o.lookup a.routing = none) (hs : a.routing.clientSock ≠ -1) :
    Atomic serve routerNid o a ((serve (o.request routerNid) a.vcm).1.id, some .answered)
      { routing := o.note routerNid (serve (o.request routerNid) a.vcm).1.id a.routing
        vcm := (serve (o.request routerNid) a.vcm).2
        asked := a.asked ++ [o] } :=
  ⟨run_of_answered h hs _, by simp [h, hs], by simp⟩

end Ways

/-- **The ways a call can go.**  It is answered from the table; or it has to ask and
comes to nothing, and then the router has no connection afterwards; or it is answered by
the manager. -/
theorem atomic_cases (h : Atomic serve routerNid o a (r, fate) a') :
    (o.lookup a.routing = some r ∧ a'.routing = a.routing ∧ a'.asked = a.asked) ∨
    (o.lookup a.routing = none ∧ r = -1 ∧ a'.routing = a.routing.vcmDisconn ∧
      (a'.asked = a.asked ∨ a.routing.clientSock ≠ -1 ∧ a'.asked = a.asked ++ [o])) ∨
    (o.lookup a.routing = none ∧ a.routing.clientSock ≠ -1 ∧
      a'.routing = o.note routerNid r a.routing ∧ a'.asked = a.asked ++ [o]) := by
  obtain ⟨hrun, hsome, hasked⟩ := h
  cases fate with
  | none =>
      simp only [reduceCtorEq, or_false, if_true, List.append_nil] at hasked
      cases hl : o.lookup a.routing with
      | some ret =>
          rw [run_of_lookup _ hl, Prod.mk_inj, Prod.mk_inj] at hrun
          obtain ⟨rfl, hr, -⟩ := hrun
          exact .inl ⟨rfl, hr.symm, hasked⟩
      | none =>
          have hs : a.routing.clientSock = -1 := by
            by_contra hs
            exact Bool.false_ne_true (hsome.mpr ⟨hl, hs⟩)
          rw [run_of_handler_error _ hl (vcmHandler_of_down hs _ _ _), Prod.mk_inj,
            Prod.mk_inj] at hrun
          obtain ⟨rfl, hr, -⟩ := hrun
          refine .inr (.inl ⟨rfl, rfl, ?_, .inl hasked⟩)
          rw [← hr, vcmDisconn, ← hs]
  | some fate =>
      obtain ⟨hl, hs⟩ := hsome.mp rfl
      cases fate with
      | sendError =>
          rw [Option.getD_some, run_of_handler_error .sendError hl (vcmHandler_of_sendError hs rfl),
            Prod.mk_inj, Prod.mk_inj] at hrun
          obtain ⟨rfl, hr, -⟩ := hrun
          exact .inr (.inl ⟨hl, rfl, hr.symm, .inl (by simpa using hasked)⟩)
      | recvError =>
          rw [Option.getD_some, run_of_handler_error .recvError hl (vcmHandler_of_recvError hs rfl),
            Prod.mk_inj, Prod.mk_inj] at hrun
          obtain ⟨rfl, hr, -⟩ := hrun
          exact .inr (.inl ⟨hl, rfl, hr.symm, .inr ⟨hs, by simpa using hasked⟩⟩)
      | answered =>
          rw [Option.getD_some, run_of_answered hl hs, Prod.mk_inj, Prod.mk_inj] at hrun
          obtain ⟨rfl, hr, -⟩ := hrun
          exact .inr (.inr ⟨hl, hs, hr.symm, by simpa using hasked⟩)

end Bodies

end Routing

end Freelite
