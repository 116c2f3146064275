import Freelite.Lib.Machine
import Freelite.Link.Reported

/-!
# The one connection a program keeps

The client library and the router each keep one descriptor in a static variable:
`rpc_conn` and `vcm_conn` set it, `rpc_handler` and `vcm_handler` use it, and
`rpc_disconn` and `vcm_disconn` close it and set it back.  Whether the variable can be
relied on is one property for both (`Consistent`); the two programs get it wrong in
three places.

* The exits of `rpc_conn` between `socket` and `bind`, and the one of `vcm_conn` between
  `socket` and `connect`, return without closing anything or resetting the variable.
* `recv` returning zero is taken for success, and the connection is kept.
* `vcm_conn` does not look whether there is a connection already.

What is true of the descriptor in the variable is not recorded by either program.  It is
kept beside the state in `Tracked`.
-/

namespace Freelite

open Lib

/-- An exchange that neither fails nor meets the end of file. -/
def Exchange.alive : Exchange → Bool
  | received (_ :: _) => true
  | _ => false

/-- A state of the program, with what is true of the descriptor in `client_sock`. -/
structure Tracked (σ : Type*) where
  state : σ
  /-- The descriptor has been bound and connected, and no exchange over it has failed or
  met the end of file. -/
  sound : Bool
  /-- The last call has tried to connect and could not. -/
  refused : Bool

/-- `client_sock` can be relied on, and nothing else is open. -/
structure Consistent (clientSock : Int32) (openSocks : List Int32) (openFiles : Nat)
    (sound refused : Bool) : Prop where
  sound : clientSock = -1 ∨ sound
  refused : refused → clientSock = -1
  socks : openSocks = if clientSock = -1 then [] else [clientSock]
  files : openFiles = 0

namespace Consistent

variable {clientSock fd : Int32} {openSocks : List Int32} {sound refused : Bool}

theorem none : Consistent (-1) [] 0 sound refused := ⟨Or.inl rfl, fun _ ↦ rfl, rfl, rfl⟩

theorem some (hfd : fd ≠ -1) : Consistent fd [fd] 0 true false :=
  ⟨Or.inr rfl, fun h ↦ by contradiction, (if_neg hfd).symm, rfl⟩

theorem neg_one_iff : Consistent (-1) openSocks 0 sound refused ↔ openSocks = [] := by
  constructor
  · exact fun h ↦ h.socks
  · rintro rfl
    exact .none

theorem cons_iff (hfd : fd ≠ -1) :
    Consistent fd (fd :: openSocks) 0 true false ↔ openSocks = [] := by
  constructor
  · intro h
    simpa [hfd] using h.socks
  · rintro rfl
    exact .some hfd

/-- A descriptor that something has gone wrong with must not be kept. -/
theorem not_of_unsound {openFiles : Nat} (hfd : fd ≠ -1) :
    ¬ Consistent fd openSocks openFiles false refused := by
  intro h
  rcases h.sound with h | h
  · exact hfd h
  · contradiction

end Consistent

/-! ## The client -/

namespace Rpc

/-- A call of `rpc_handler`, with what its system calls report. -/
structure HandlerCall where
  conn : ConnOutcome
  exchange : Exchange
  req : ReqMsg
  rsp : RspMsg

/-- The state that an exchange leaves. -/
def afterExchange (x : Exchange) (s : State) : State :=
  match x with
  | .sendError => rpcDisconn s
  | .recvError => rpcDisconn s
  | .received _ => s

/-- The process `pid` calls `rpc_handler`. -/
def next (pid : Int32) (t : Tracked State) (i : HandlerCall) : Option (Tracked State) :=
  let err := (rpcConn .container pid serverPath i.conn t.state).1
  some
    { state :=
        (handler .container pid i.conn (fun _ v ↦ (i.exchange, v)) i.req i.rsp (t.state, ())).2.2.1
      sound := (if t.state.clientSock = -1 then decide (0 ≤ err) else t.sound) && i.exchange.alive
      refused := decide (t.state.clientSock = -1 ∧ err < 0) }

/-- The process before its first call. -/
def Tracked.init : Tracked State := ⟨.init, false, false⟩

/-- The connection state between two calls is consistent. -/
def Kept (t : Tracked State) : Prop :=
  Consistent t.state.clientSock t.state.openSocks t.state.openFiles t.sound t.refused

/-- The container's id can be read. -/
def ReadsCid (o : ConnOutcome) : Prop := ∃ file, o.cpuset = some file ∧ (readCid file).isSome

/-- Binding and connecting succeed. -/
def Joins (pid : Int32) (o : ConnOutcome) : Prop :=
  ∃ file cid, o.cpuset = some file ∧ readCid file = some cid ∧ o.bind (sunPath cid pid) ∧
    o.connect serverPath

/-- If a socket has to be made and is made, the id of the container can be read; and if
there is an exchange, `recv` does not return zero. -/
def Clear (pid : Int32) (t : Tracked State) (i : HandlerCall) : Prop :=
  (t.state.clientSock = -1 → i.conn.socket.isSome → ReadsCid i.conn) ∧
    (t.state.clientSock ≠ -1 ∨ i.conn.socket.isSome ∧ Joins pid i.conn →
      i.exchange ≠ .received [])

variable {pid : Int32} {o : ConnOutcome} {s : State}

theorem SockFd.ne_neg_one (fd : SockFd) : fd.1 ≠ -1 := by
  intro h
  exact absurd (h ▸ fd.2) (by decide)

/-- **What `rpc_conn` can do.** -/
theorem rpcConn_cases (pid : Int32) (o : ConnOutcome) (s : State) :
    (o.socket = none ∧
      rpcConn .container pid serverPath o s = (-1, { s with clientSock := -1 })) ∨
    (∃ fd, o.socket = some fd ∧ ¬ ReadsCid o ∧
      ∃ s', rpcConn .container pid serverPath o s = (-1, s') ∧ s'.clientSock = fd) ∨
    (∃ fd, o.socket = some fd ∧ ReadsCid o ∧ ¬ Joins pid o ∧
      rpcConn .container pid serverPath o s = (-1, { s with clientSock := -1 })) ∨
    (∃ fd, o.socket = some fd ∧ ReadsCid o ∧ Joins pid o ∧
      rpcConn .container pid serverPath o s =
        (fd.1, { s with clientSock := fd, openSocks := fd :: s.openSocks })) := by
  cases hsock : o.socket with
  | none =>
      left
      exact ⟨rfl, by simp only [rpcConn, hsock]⟩
  | some fd =>
      right
      cases hfile : o.cpuset with
      | none =>
          left
          refine ⟨fd, rfl, ?_, _, by simp only [rpcConn, hsock, hfile]; rfl, rfl⟩
          rintro ⟨file, h, -⟩
          rw [hfile] at h
          contradiction
      | some file =>
          cases hcid : readCid file with
          | none =>
              left
              refine ⟨fd, rfl, ?_, _, by simp only [rpcConn, hsock, hfile, hcid]; rfl, rfl⟩
              rintro ⟨file', h, hread⟩
              obtain rfl := Option.some_inj.mp (hfile.symm.trans h)
              rw [hcid] at hread
              contradiction
          | some cid =>
              right
              have hreads : ReadsCid o := ⟨file, hfile, by rw [hcid]; rfl⟩
              have hjoins : Joins pid o ↔ o.bind (sunPath cid pid) ∧ o.connect serverPath := by
                constructor
                · rintro ⟨file', cid', h, hread, hbind⟩
                  obtain rfl := Option.some_inj.mp (hfile.symm.trans h)
                  obtain rfl := Option.some_inj.mp (hcid.symm.trans hread)
                  exact hbind
                · exact fun h ↦ ⟨file, cid, hfile, hcid, h⟩
              -- both failures close the socket that has just been made
              have hclosed : rpcDisconn { s with clientSock := fd, openSocks := fd :: s.openSocks } =
                  { s with clientSock := -1 } := by simp [rpcDisconn]
              rw [hjoins]
              by_cases hbind : o.bind (sunPath cid pid)
              · by_cases hconn : o.connect serverPath
                · right
                  refine ⟨fd, rfl, hreads, ⟨hbind, hconn⟩, ?_⟩
                  simp [rpcConn, hsock, hfile, hcid, bindConnect, hbind, hconn]
                · left
                  refine ⟨fd, rfl, hreads, fun h ↦ hconn h.2, ?_⟩
                  simp [rpcConn, hsock, hfile, hcid, bindConnect, hbind, hconn, hclosed]
              · left
                refine ⟨fd, rfl, hreads, fun h ↦ hbind h.1, ?_⟩
                simp [rpcConn, hsock, hfile, hcid, bindConnect, hbind, hclosed]

/-- What `rpc_handler` leaves, once it has a connection. -/
theorem handler_of_connected {i : HandlerCall} {s s' : State}
    (h : Connected .container pid i.conn s s') :
    (handler .container pid i.conn (fun _ v ↦ (i.exchange, v)) i.req i.rsp (s, ())).2.2.1 =
      afterExchange i.exchange s' := by
  simp only [handler, rpcHandler_of_connected h]
  cases i.exchange <;> rfl

/-- What it leaves when it cannot get one. -/
theorem handler_of_refused {i : HandlerCall} {s s' : State} (hs : s.clientSock = -1)
    (hconn : rpcConn .container pid serverPath i.conn s = (-1, s')) :
    (handler .container pid i.conn (fun _ v ↦ (i.exchange, v)) i.req i.rsp (s, ())).2.2.1 = s' := by
  simp only [handler, rpcHandler, if_pos hs, hconn]
  rfl

/-- An exchange over a connection that has been fine so far. -/
theorem consistent_afterExchange_iff {fd : Int32} (hfd : fd ≠ -1) {x : Exchange} :
    Consistent (afterExchange x ⟨fd, [fd], 0⟩).clientSock (afterExchange x ⟨fd, [fd], 0⟩).openSocks
        (afterExchange x ⟨fd, [fd], 0⟩).openFiles x.alive false ↔
      x ≠ .received [] := by
  have hclosed : rpcDisconn ⟨fd, [fd], 0⟩ = ⟨-1, [], 0⟩ := by simp [rpcDisconn]
  cases x with
  | sendError => simp only [afterExchange, hclosed]; exact iff_of_true .none (by simp)
  | recvError => simp only [afterExchange, hclosed]; exact iff_of_true .none (by simp)
  | received chunk =>
      cases chunk with
      | nil => exact iff_of_false (Consistent.not_of_unsound hfd) (by simp)
      | cons b chunk => exact iff_of_true (.some hfd) (by simp)

theorem Kept.cases {t : Tracked State} (h : Kept t) :
    t.state = ⟨-1, [], 0⟩ ∨ ∃ fd ≠ -1, t.state = ⟨fd, [fd], 0⟩ ∧ t.sound = true := by
  obtain ⟨hsound, -, hsocks, hfiles⟩ := h
  by_cases hfd : t.state.clientSock = -1
  · rw [if_pos hfd] at hsocks
    exact Or.inl (State.ext hfd hsocks hfiles)
  · rw [if_neg hfd] at hsocks
    exact Or.inr ⟨_, hfd, State.ext rfl hsocks hfiles, hsound.resolve_left hfd⟩

/-- **One call** keeps the connection state consistent exactly when it is clear. -/
theorem clear_iff_kept {t t' : Tracked State} {i : HandlerCall} (h : Kept t)
    (hnext : next pid t i = some t') : Clear pid t i ↔ Kept t' := by
  obtain rfl := Option.some_inj.mp hnext
  obtain ⟨s, sound, refused⟩ := t
  rcases h.cases with hs | ⟨fd, hfd, hs, hsound⟩
  · obtain rfl : s = ⟨-1, [], 0⟩ := hs
    rcases rpcConn_cases pid i.conn ⟨-1, [], 0⟩ with
      ⟨hsock, hconn⟩ | ⟨fd, hsock, hcid, s', hconn, hfd⟩ | ⟨fd, hsock, hcid, hjoins, hconn⟩ |
      ⟨fd, hsock, hcid, hjoins, hconn⟩
    · have hclear : Clear pid ⟨⟨-1, [], 0⟩, sound, refused⟩ i := by
        simp [Clear, hsock]
      refine iff_of_true hclear ?_
      simp only [Kept, handler_of_refused rfl hconn]
      exact .none
    · have hclear : ¬ Clear pid ⟨⟨-1, [], 0⟩, sound, refused⟩ i := by
        intro h
        exact hcid (h.1 rfl (by rw [hsock]; rfl))
      refine iff_of_false hclear ?_
      simp only [Kept, handler_of_refused rfl hconn, hconn]
      intro h
      rcases h.sound with h | h
      · exact SockFd.ne_neg_one fd (hfd.symm.trans h)
      · simp at h
    · have hclear : Clear pid ⟨⟨-1, [], 0⟩, sound, refused⟩ i := by
        simp [Clear, hcid, hjoins]
      refine iff_of_true hclear ?_
      simp only [Kept, handler_of_refused rfl hconn]
      exact .none
    · have hfd := SockFd.ne_neg_one fd
      have hmade : Connected .container pid i.conn ⟨-1, [], 0⟩ ⟨fd, [fd.1], 0⟩ :=
        .made rfl hconn fd.2
      have hclear : Clear pid ⟨⟨-1, [], 0⟩, sound, refused⟩ i ↔ i.exchange ≠ .received [] := by
        simp [Clear, hsock, hcid, hjoins]
      rw [hclear, ← consistent_afterExchange_iff hfd]
      simp only [Kept, handler_of_connected hmade, hconn]
      simp [fd.2, Int32.not_lt.mpr fd.2]
  · obtain rfl : s = ⟨fd, [fd], 0⟩ := hs
    obtain rfl : sound = true := hsound
    have hkept : Connected .container pid i.conn ⟨fd, [fd], 0⟩ ⟨fd, [fd], 0⟩ := .kept hfd
    have hclear : Clear pid ⟨⟨fd, [fd], 0⟩, true, refused⟩ i ↔ i.exchange ≠ .received [] := by
      simp [Clear, hfd]
    rw [hclear, ← consistent_afterExchange_iff hfd]
    simp only [Kept, handler_of_connected hkept]
    simp [hfd]

theorem kept_init : Kept Tracked.init := .none

end Rpc

/-! ## The router -/

namespace Routing

/-- What the system calls of `vcm_conn` report. -/
structure ConnOutcome where
  socket : Option Rpc.SockFd
  /-- `inet_pton` accepts the address. -/
  address : Bool
  connect : Bool

/-- The static variables of `routing.cpp` and the sockets that have not been closed. -/
@[ext]
structure Sockets where
  routing : Routing
  openSocks : List Int32

namespace Sockets

/-- `vcm_disconn`, which closes the socket. -/
def vcmDisconn (s : Sockets) : Sockets where
  routing := s.routing.vcmDisconn
  openSocks := s.openSocks.erase s.routing.clientSock

/-- `vcm_conn`. -/
def vcmConn (o : ConnOutcome) (s : Sockets) : Int32 × Sockets :=
  match o.socket with
  | none => (-1, { s with routing := { s.routing with clientSock := -1 } })
  | some fd =>
      let s' : Sockets := ⟨{ s.routing with clientSock := fd }, fd :: s.openSocks⟩
      -- the socket is not closed when the address is not accepted
      if !o.address then (-1, s')
      else if !o.connect then (-1, s'.vcmDisconn)
      else (fd, s')

/-- `vcm_handler`, when its system calls report `x`. -/
def vcmHandler (x : Exchange) (msg : VcmMsg) (s : Sockets) : Int32 × VcmMsg × Sockets :=
  if s.routing.clientSock = -1 then (-1, msg, s)
  else
    match x with
    | .sendError => (-1, msg, s.vcmDisconn)
    | .recvError => (-1, msg, s.vcmDisconn)
    | .received chunk => (0, VcmMsg.codec.overwrite msg chunk, s)

/-- But for the sockets, this is `vcm_handler` as the rest of the router sees it. -/
theorem vcmHandler_routing (x : Exchange) (msg : VcmMsg) (s : Sockets) :
    Routing.vcmHandler (fun _ v ↦ (x, v)) msg s.routing () =
      ((s.vcmHandler x msg).1, (s.vcmHandler x msg).2.1, (s.vcmHandler x msg).2.2.routing, ()) := by
  simp only [Routing.vcmHandler, vcmHandler]
  split
  · rfl
  · cases x <;> rfl

/-- A call of one of the three functions, with what its system calls report. -/
inductive Act
  | vcmConn (o : ConnOutcome)
  | vcmHandler (msg : VcmMsg) (x : Exchange)
  | vcmDisconn

/-- The function is called. -/
def next (t : Tracked Sockets) : Act → Option (Tracked Sockets)
  | .vcmConn o =>
      let (ret, s) := t.state.vcmConn o
      some ⟨s, decide (0 ≤ ret), decide (ret < 0)⟩
  | .vcmHandler msg x => some ⟨(t.state.vcmHandler x msg).2.2, t.sound && x.alive, false⟩
  | .vcmDisconn => some ⟨t.state.vcmDisconn, false, false⟩

/-- The router before its first call. -/
def Tracked.init : Tracked Sockets := ⟨⟨⟨-1, .empty, .empty⟩, []⟩, false, false⟩

/-- The connection state between two calls is consistent. -/
def Kept (t : Tracked Sockets) : Prop :=
  Consistent t.state.routing.clientSock t.state.openSocks 0 t.sound t.refused

/-- `vcm_conn` is only called without a connection and for an address that is one, and
`recv` does not return zero. -/
def Clear (t : Tracked Sockets) : Act → Prop
  | .vcmConn o => t.state.routing.clientSock = -1 ∧ (o.socket.isSome → o.address)
  | .vcmHandler _ x => t.state.routing.clientSock ≠ -1 → x ≠ .received []
  | .vcmDisconn => True

variable {t t' : Tracked Sockets}

theorem kept_init : Kept Tracked.init := .none

theorem Kept.cases (h : Kept t) :
    t.state.routing.clientSock = -1 ∧ t.state.openSocks = [] ∨
      t.state.routing.clientSock ≠ -1 ∧ t.state.openSocks = [t.state.routing.clientSock] ∧
        t.sound = true := by
  obtain ⟨hsound, -, hsocks, -⟩ := h
  by_cases hfd : t.state.routing.clientSock = -1
  · rw [if_pos hfd] at hsocks
    exact Or.inl ⟨hfd, hsocks⟩
  · rw [if_neg hfd] at hsocks
    exact Or.inr ⟨hfd, hsocks, hsound.resolve_left hfd⟩

theorem Kept.openSocks_eq_nil_iff (h : Kept t) :
    t.state.openSocks = [] ↔ t.state.routing.clientSock = -1 := by
  rcases h.cases with ⟨hfd, hsocks⟩ | ⟨hfd, hsocks, -⟩
  · exact iff_of_true hsocks hfd
  · exact iff_of_false (by simp [hsocks]) hfd

theorem next_vcmConn {o : ConnOutcome} {ret : Int32} {s' : Sockets}
    (h : t.state.vcmConn o = (ret, s')) :
    next t (.vcmConn o) = some ⟨s', decide (0 ≤ ret), decide (ret < 0)⟩ := by
  simp only [next, h]

/-- Making a connection. -/
theorem clear_iff_kept_vcmConn {o : ConnOutcome} (h : Kept t)
    (hnext : next t (.vcmConn o) = some t') : Clear t (.vcmConn o) ↔ Kept t' := by
  rw [Clear, ← h.openSocks_eq_nil_iff]
  cases hsock : o.socket with
  | none =>
      have hconn : t.state.vcmConn o =
          (-1, ⟨{ t.state.routing with clientSock := -1 }, t.state.openSocks⟩) := by
        simp only [vcmConn, hsock]
      obtain rfl := Option.some_inj.mp ((next_vcmConn hconn).symm.trans hnext)
      change _ ↔ Consistent (-1) t.state.openSocks 0 _ _
      rw [Consistent.neg_one_iff]
      simp
  | some fd =>
      have hfd := Rpc.SockFd.ne_neg_one fd
      cases haddr : o.address with
      | false =>
          have hconn : t.state.vcmConn o =
              (-1, ⟨{ t.state.routing with clientSock := fd }, fd :: t.state.openSocks⟩) := by
            simp [vcmConn, hsock, haddr]
          obtain rfl := Option.some_inj.mp ((next_vcmConn hconn).symm.trans hnext)
          exact iff_of_false (by simp) (Consistent.not_of_unsound hfd)
      | true =>
          cases hconnect : o.connect with
          | false =>
              have hconn : t.state.vcmConn o =
                  (-1, ⟨{ t.state.routing with clientSock := -1 }, t.state.openSocks⟩) := by
                simp [vcmConn, hsock, haddr, hconnect, vcmDisconn, Routing.vcmDisconn]
              obtain rfl := Option.some_inj.mp ((next_vcmConn hconn).symm.trans hnext)
              change _ ↔ Consistent (-1) t.state.openSocks 0 _ _
              rw [Consistent.neg_one_iff]
              simp
          | true =>
              have hconn : t.state.vcmConn o =
                  (fd.1, ⟨{ t.state.routing with clientSock := fd }, fd :: t.state.openSocks⟩) := by
                simp [vcmConn, hsock, haddr, hconnect]
              have hret : next t (.vcmConn o) = some
                  ⟨⟨{ t.state.routing with clientSock := fd }, fd :: t.state.openSocks⟩, true,
                    false⟩ := by
                rw [next_vcmConn hconn, decide_eq_true fd.2,
                  decide_eq_false (Int32.not_lt.mpr fd.2)]
              obtain rfl := Option.some_inj.mp (hret.symm.trans hnext)
              change _ ↔ Consistent fd.1 (fd.1 :: t.state.openSocks) 0 true false
              rw [Consistent.cons_iff hfd]
              simp

/-- Giving it up. -/
theorem kept_vcmDisconn (h : Kept t) (sound refused : Bool) :
    Kept ⟨t.state.vcmDisconn, sound, refused⟩ := by
  have hsocks : t.state.vcmDisconn.openSocks = [] := by
    rcases h.cases with ⟨-, hsocks⟩ | ⟨-, hsocks, -⟩
    · simp [vcmDisconn, hsocks]
    · simp [vcmDisconn, hsocks]
  exact Consistent.neg_one_iff.mpr hsocks

/-- Using it. -/
theorem clear_iff_kept_vcmHandler {msg : VcmMsg} {x : Exchange} (h : Kept t)
    (hnext : next t (.vcmHandler msg x) = some t') : Clear t (.vcmHandler msg x) ↔ Kept t' := by
  by_cases hfd : t.state.routing.clientSock = -1
  · have hret : next t (.vcmHandler msg x) = some ⟨t.state, t.sound && x.alive, false⟩ := by
      simp only [next, vcmHandler, if_pos hfd]
    obtain rfl := Option.some_inj.mp (hret.symm.trans hnext)
    refine iff_of_true (fun hne ↦ absurd hfd hne) ?_
    rw [Kept, hfd]
    exact Consistent.neg_one_iff.mpr (h.openSocks_eq_nil_iff.mpr hfd)
  · have hclear : Clear t (.vcmHandler msg x) ↔ x ≠ .received [] := by simp [Clear, hfd]
    rw [hclear]
    cases x with
    | sendError =>
        have hret : next t (.vcmHandler msg .sendError) =
            some ⟨t.state.vcmDisconn, t.sound && false, false⟩ := by
          simp only [next, vcmHandler, if_neg hfd]
          rfl
        obtain rfl := Option.some_inj.mp (hret.symm.trans hnext)
        exact iff_of_true (by simp) (kept_vcmDisconn h _ _)
    | recvError =>
        have hret : next t (.vcmHandler msg .recvError) =
            some ⟨t.state.vcmDisconn, t.sound && false, false⟩ := by
          simp only [next, vcmHandler, if_neg hfd]
          rfl
        obtain rfl := Option.some_inj.mp (hret.symm.trans hnext)
        exact iff_of_true (by simp) (kept_vcmDisconn h _ _)
    | received chunk =>
        obtain ⟨hsocks, hsound⟩ := (h.cases.resolve_left fun h ↦ hfd h.1).2
        have hret : next t (.vcmHandler msg (.received chunk)) =
            some ⟨t.state, (Exchange.received chunk).alive, false⟩ := by
          simp only [next, vcmHandler, if_neg hfd, hsound, Bool.true_and]
        obtain rfl := Option.some_inj.mp (hret.symm.trans hnext)
        rw [Kept, hsocks]
        cases chunk with
        | nil => exact iff_of_false (by simp) (Consistent.not_of_unsound hfd)
        | cons b chunk => exact iff_of_true (by simp) (.some hfd)

theorem clear_iff_kept {i : Act} (h : Kept t) (hnext : next t i = some t') :
    Clear t i ↔ Kept t' := by
  cases i with
  | vcmConn o => exact clear_iff_kept_vcmConn h hnext
  | vcmHandler msg x => exact clear_iff_kept_vcmHandler h hnext
  | vcmDisconn =>
      obtain rfl := Option.some_inj.mp hnext
      exact iff_of_true trivial (kept_vcmDisconn h _ _)

end Sockets

end Routing

/-! ## Runs -/

/-- **When the connection state is consistent.**  It is so between any two calls of
`rpc_handler` in a client process, and between any two calls of the router's functions,
if and only if every call is clear. -/
theorem kept_iff_clear (pid : Int32) (calls : List Rpc.HandlerCall)
    (acts : List Routing.Sockets.Act) :
    (Machine.Meets (Rpc.next pid) (Rpc.Clear pid) Rpc.Tracked.init calls ↔
      ∀ calls', calls' <+: calls →
        Rpc.Kept (Machine.run (Rpc.next pid) Rpc.Tracked.init calls')) ∧
    (Machine.Meets Routing.Sockets.next Routing.Sockets.Clear Routing.Sockets.Tracked.init acts ↔
      ∀ acts', acts' <+: acts →
        Routing.Sockets.Kept
          (Machine.run Routing.Sockets.next Routing.Sockets.Tracked.init acts')) :=
  ⟨Machine.meets_iff_forall_prefix (I := fun _ ↦ True) trivial Rpc.kept_init
      (fun _ _ _ _ _ ↦ trivial) (fun _ _ _ _ h ↦ Rpc.clear_iff_kept h),
    Machine.meets_iff_forall_prefix (I := fun _ ↦ True) trivial Routing.Sockets.kept_init
      (fun _ _ _ _ _ ↦ trivial) (fun _ _ _ _ h ↦ Routing.Sockets.clear_iff_kept h)⟩

/-- A client outside of a container: the file it reads its id from is too short, and the
socket and the file stay open. -/
theorem not_kept_shortFile :
    ¬ ∀ (calls : List Rpc.HandlerCall) (acts : List Routing.Sockets.Act),
      Rpc.Kept (Machine.run (Rpc.next 1) Rpc.Tracked.init calls) ∧
        Routing.Sockets.Kept
          (Machine.run Routing.Sockets.next Routing.Sockets.Tracked.init acts) := by
  intro h
  have hkept := (h [⟨⟨some ⟨3, by decide⟩, some (bytes "/\n"), fun _ ↦ true, fun _ ↦ true⟩,
    .sendError, Flat.zero 280, Flat.zero 24⟩] []).1
  have hfiles := hkept.files
  revert hfiles
  decide

end Freelite
