import Freelite.Vcm.Sections

/-!
# The manager as a server

`vcm/vcm.cpp`, `server_accept_request`: one thread for every connection, which
receives a request, calls one of the two functions of the monitor, and sends the
reply.  A request with another function code, like the end of the connection, ends
the thread.

The steps of all threads interleave in any way.  What the server does is nevertheless
what a registry does that is asked one question after the other
(`server_refines_registry`): what is sent on a connection is the registry's answers to what
has been received there, nothing is left out but the request its thread is at
(`Exchanged`), and no thread is kept from its reply by another one (`idle_of_stuck`).
-/

namespace Freelite

open Lib

namespace Vcm

namespace Request

/-- The call the `switch` makes for a message. -/
def ofMsg (msg : VcmMsg) : Option Request :=
  if msg.funcCode = vidNid then some (.getNidByVid msg.id)
  else if msg.funcCode = nidVid then some (.getNewVid msg.id)
  else none

/-- The message that asks for a call. -/
def msg : Request → VcmMsg
  | getNidByVid vid => ⟨vidNid, vid⟩
  | getNewVid nid => ⟨nidVid, nid⟩

theorem ofMsg_eq_some_iff {m : VcmMsg} {o : Request} : ofMsg m = some o ↔ m = o.msg := by
  obtain ⟨code, id⟩ := m
  constructor
  · intro h
    simp only [ofMsg] at h
    split_ifs at h with h₀ h₁
    · obtain rfl := Option.some_inj.mp h
      rw [h₀, msg]
    · obtain rfl := Option.some_inj.mp h
      rw [h₁, msg]
  · intro h
    rw [h]
    cases o <;> rfl

end Request

/-- Where the thread of a connection is in its loop. -/
inductive Conn
  /-- In `recv`. -/
  | reading
  /-- At the `switch`, or waiting for the lock. -/
  | received (msg : VcmMsg)
  /-- In the call for this message. -/
  | calling (msg : VcmMsg)
  /-- In `send`. -/
  | replying (msg : VcmMsg)
  | closed
deriving DecidableEq

/-- The manager with the connections `C`. -/
structure Server (C : Type*) where
  monitor : Monitor C Request Progress Vcm Int32
  conn : C → Conn
  /-- What has been received on a connection, oldest first. -/
  requests : C → List VcmMsg
  /-- What has been sent on a connection, oldest first. -/
  replies : C → List VcmMsg

namespace Server

variable {C : Type*} [DecidableEq C]

/-- What can happen next on a connection. -/
inductive Act (C : Type*)
  /-- `recv` returns a message. -/
  | recv (c : C) (msg : VcmMsg)
  /-- `recv` returns zero or an error. -/
  | hangUp (c : C)
  /-- The function the message asks for is entered. -/
  | lock (c : C)
  | step (c : C)
  /-- The function returns. -/
  | unlock (c : C)
  /-- The message asks for nothing that is known. -/
  | refuse (c : C)
  | send (c : C)
  | sendError (c : C)
deriving DecidableEq

/-- The connection an action is about. -/
def Act.conn : Act C → C
  | recv c _ | hangUp c | lock c | step c | unlock c | refuse c | send c | sendError c => c

/-- The action is the thread's own: it does not depend on what becomes of the connection. -/
def Act.Serves : Act C → Prop
  | lock _ | step _ | unlock _ | refuse _ | send _ => True
  | recv _ _ | hangUp _ | sendError _ => False

/-- All connections are waiting for their first message. -/
def init : Server C := ⟨.init Vcm.init, fun _ ↦ .reading, fun _ ↦ [], fun _ ↦ []⟩

/-- A step of the monitor. -/
def nextMonitor (m : Monitor C Request Progress Vcm Int32) (act : Monitor.Act C Request Unit Empty) :
    Option (Monitor C Request Progress Vcm Int32) :=
  m.next body (fun e : Empty ↦ nomatch e) act

/-- One action. -/
def next (s : Server C) : Act C → Option (Server C)
  | .recv c msg =>
      match s.conn c with
      | .reading =>
          some { s with
            conn := Function.update s.conn c (.received msg)
            requests := Function.update s.requests c (s.requests c ++ [msg]) }
      | _ => none
  | .hangUp c =>
      match s.conn c with
      | .reading => some { s with conn := Function.update s.conn c .closed }
      | _ => none
  | .lock c =>
      match s.conn c with
      | .received msg =>
          (Request.ofMsg msg).bind fun o ↦
            (nextMonitor s.monitor (.lock c o)).map fun monitor ↦
              { s with monitor, conn := Function.update s.conn c (.calling msg) }
      | _ => none
  | .step c => (nextMonitor s.monitor (.step c ())).map fun monitor ↦ { s with monitor }
  | .unlock c =>
      match s.conn c, s.monitor.inside c with
      | .calling msg, some (_, l) =>
          (body.result l).bind fun r ↦
            (nextMonitor s.monitor (.unlock c)).map fun monitor ↦
              { s with
                monitor
                conn := Function.update s.conn c (.replying { msg with id := r }) }
      | _, _ => none
  | .refuse c =>
      match s.conn c with
      | .received msg =>
          match Request.ofMsg msg with
          | none => some { s with conn := Function.update s.conn c .closed }
          | some _ => none
      | _ => none
  | .send c =>
      match s.conn c with
      | .replying msg =>
          some { s with
            conn := Function.update s.conn c .reading
            replies := Function.update s.replies c (s.replies c ++ [msg]) }
      | _ => none
  | .sendError c =>
      match s.conn c with
      | .replying _ => some { s with conn := Function.update s.conn c .closed }
      | _ => none

/-- The state after a list of actions. -/
def run (acts : List (Act C)) : Server C := Machine.run next init acts

/-! ## What an action can do -/

/-- The actions that are possible, and the states they lead to. -/
inductive Step (s : Server C) : Act C → Server C → Prop
  | recv {c : C} (msg : VcmMsg) : s.conn c = .reading →
      Step s (.recv c msg)
        { s with
          conn := Function.update s.conn c (.received msg)
          requests := Function.update s.requests c (s.requests c ++ [msg]) }
  | hangUp {c : C} : s.conn c = .reading →
      Step s (.hangUp c) { s with conn := Function.update s.conn c .closed }
  | lock {c : C} {o : Request} {monitor : Monitor C Request Progress Vcm Int32} :
      s.conn c = .received o.msg → nextMonitor s.monitor (.lock c o) = some monitor →
      Step s (.lock c) { s with monitor, conn := Function.update s.conn c (.calling o.msg) }
  | step {c : C} {monitor : Monitor C Request Progress Vcm Int32} :
      nextMonitor s.monitor (.step c ()) = some monitor → Step s (.step c) { s with monitor }
  | unlock {c : C} {msg : VcmMsg} {o : Request} {l : Progress} {r : Int32}
      {monitor : Monitor C Request Progress Vcm Int32} :
      s.conn c = .calling msg → s.monitor.inside c = some (o, l) → body.result l = some r →
      nextMonitor s.monitor (.unlock c) = some monitor →
      Step s (.unlock c)
        { s with monitor, conn := Function.update s.conn c (.replying { msg with id := r }) }
  | refuse {c : C} {msg : VcmMsg} : s.conn c = .received msg → Request.ofMsg msg = none →
      Step s (.refuse c) { s with conn := Function.update s.conn c .closed }
  | send {c : C} {msg : VcmMsg} : s.conn c = .replying msg →
      Step s (.send c)
        { s with
          conn := Function.update s.conn c .reading
          replies := Function.update s.replies c (s.replies c ++ [msg]) }
  | sendError {c : C} {msg : VcmMsg} : s.conn c = .replying msg →
      Step s (.sendError c) { s with conn := Function.update s.conn c .closed }

theorem step_of_next {s s' : Server C} {act : Act C} (h : s.next act = some s') :
    Step s act s' := by
  cases act with
  | recv c msg =>
      cases hc : s.conn c <;> simp only [next, hc, reduceCtorEq, Option.some_inj] at h
      exact h ▸ .recv msg hc
  | hangUp c =>
      cases hc : s.conn c <;> simp only [next, hc, reduceCtorEq, Option.some_inj] at h
      exact h ▸ .hangUp hc
  | lock c =>
      cases hc : s.conn c <;> simp only [next, hc, reduceCtorEq] at h
      obtain ⟨o, ho, h⟩ := Option.bind_eq_some_iff.mp h
      obtain ⟨monitor, hm, rfl⟩ := Option.map_eq_some_iff.mp h
      obtain rfl := Request.ofMsg_eq_some_iff.mp ho
      exact .lock hc hm
  | step c =>
      obtain ⟨monitor, hm, rfl⟩ := Option.map_eq_some_iff.mp h
      exact .step hm
  | unlock c =>
      cases hin : s.monitor.inside c <;> cases hc : s.conn c <;>
        simp only [next, hc, hin, reduceCtorEq] at h
      obtain ⟨r, hr, h⟩ := Option.bind_eq_some_iff.mp h
      obtain ⟨monitor, hm, rfl⟩ := Option.map_eq_some_iff.mp h
      exact .unlock hc hin hr hm
  | refuse c =>
      cases hc : s.conn c <;> simp only [next, hc, reduceCtorEq] at h
      split at h
      · rename_i ho
        exact Option.some_inj.mp h ▸ .refuse hc ho
      · contradiction
  | send c =>
      cases hc : s.conn c <;> simp only [next, hc, reduceCtorEq, Option.some_inj] at h
      exact h ▸ .send hc
  | sendError c =>
      cases hc : s.conn c <;> simp only [next, hc, reduceCtorEq, Option.some_inj] at h
      exact h ▸ .sendError hc

/-! ## The monitor of a server -/

/-- The registry's operations explain what has gone on inside. -/
def Explained (m : Monitor C Request Progress Vcm Int32) : Prop :=
  m.Explained Rep Within Atomic []

theorem Explained.next {s s' : Server C} (h : Explained s.monitor) {act : Act C}
    (hn : s.next act = some s') : Explained s'.monitor := by
  cases step_of_next hn with
  | lock _ hm => exact body_refines.explained_next h hm
  | step hm => exact body_refines.explained_next h hm
  | unlock _ _ _ hm => exact body_refines.explained_next h hm
  | _ => exact h

/-! ## One connection -/

section Conn

variable (c : C)

/-- The requests of a connection that have been served. -/
def asked (log : List (C × Request × Int32)) : List VcmMsg :=
  (log.filter fun e ↦ e.1 = c).map fun e ↦ e.2.1.msg

/-- The replies to them. -/
def answered (log : List (C × Request × Int32)) : List VcmMsg :=
  (log.filter fun e ↦ e.1 = c).map fun e ↦ { e.2.1.msg with id := e.2.2 }

variable {c}

theorem asked_concat_self (log : List (C × Request × Int32)) (o : Request) (r : Int32) :
    asked c (log ++ [(c, o, r)]) = asked c log ++ [o.msg] := by
  simp [asked]

theorem answered_concat_self (log : List (C × Request × Int32)) (o : Request) (r : Int32) :
    answered c (log ++ [(c, o, r)]) = answered c log ++ [{ o.msg with id := r }] := by
  simp [answered]

theorem filter_concat_of_ne {c' : C} (h : c ≠ c') (log : List (C × Request × Int32))
    (o : Request) (r : Int32) :
    (log ++ [(c, o, r)]).filter (fun e ↦ e.1 = c') = log.filter fun e ↦ e.1 = c' := by
  simp [h]

end Conn

/-- What a connection has received and sent, given what has been served, and where its
thread is: all requests but the one the thread is at have been served, and all that have
been served have been answered but for the reply that is about to be sent. -/
def Exchanged (s : Server C) (c : C) : Prop :=
  match s.conn c with
  | .reading =>
      s.monitor.inside c = none ∧ s.requests c = asked c s.monitor.log ∧
        s.replies c = answered c s.monitor.log
  | .received msg =>
      s.monitor.inside c = none ∧ s.requests c = asked c s.monitor.log ++ [msg] ∧
        s.replies c = answered c s.monitor.log
  | .calling msg =>
      (∃ o l, s.monitor.inside c = some (o, l) ∧ msg = o.msg) ∧
        s.requests c = asked c s.monitor.log ++ [msg] ∧ s.replies c = answered c s.monitor.log
  | .replying msg =>
      s.monitor.inside c = none ∧ s.requests c = asked c s.monitor.log ∧
        s.replies c ++ [msg] = answered c s.monitor.log
  | .closed =>
      s.monitor.inside c = none ∧
        -- its last request was refused, or its last reply could not be sent, or neither
        ((s.requests c = asked c s.monitor.log ∧ s.replies c = answered c s.monitor.log) ∨
          (∃ msg, Request.ofMsg msg = none ∧ s.requests c = asked c s.monitor.log ++ [msg] ∧
            s.replies c = answered c s.monitor.log) ∨
          ∃ msg, s.requests c = asked c s.monitor.log ∧
            s.replies c ++ [msg] = answered c s.monitor.log)

/-- A connection is described by what is its own. -/
theorem Exchanged.congr {s s' : Server C} {c : C} (h : Exchanged s c) (hconn : s'.conn c = s.conn c)
    (hreq : s'.requests c = s.requests c) (hrep : s'.replies c = s.replies c)
    (hin : s'.monitor.inside c = s.monitor.inside c)
    (hlog : s'.monitor.log.filter (fun e ↦ e.1 = c) = s.monitor.log.filter fun e ↦ e.1 = c) :
    Exchanged s' c := by
  simp only [Exchanged, asked, answered, hconn, hreq, hrep, hin, hlog] at h ⊢
  exact h

/-- **An action leaves the other connections alone.** -/
theorem exchanged_of_ne {s s' : Server C} {act : Act C} {c : C} (h : Exchanged s c)
    (hc : c ≠ act.conn) (hn : s.next act = some s') : Exchanged s' c := by
  have hupd {β : Type} (f : C → β) (b : β) : Function.update f act.conn b c = f c :=
    Function.update_of_ne hc b f
  cases step_of_next hn with
  | recv msg _ => exact h.congr (hupd _ _) (hupd _ _) rfl rfl rfl
  | hangUp _ => exact h.congr (hupd _ _) rfl rfl rfl rfl
  | lock _ hm =>
      obtain ⟨-, -, rfl⟩ := Monitor.lock_eq hm
      exact h.congr (hupd _ _) rfl rfl (hupd _ _) rfl
  | step hm =>
      obtain ⟨o, l, l', shared, -, -, rfl⟩ := Monitor.step_eq hm
      exact h.congr rfl rfl rfl (hupd _ _) rfl
  | unlock _ _ _ hm =>
      obtain ⟨o, l, r, -, -, rfl⟩ := Monitor.unlock_eq hm
      exact h.congr (hupd _ _) rfl rfl (hupd _ _) (filter_concat_of_ne hc.symm _ _ _)
  | refuse _ _ => exact h.congr (hupd _ _) rfl rfl rfl rfl
  | send _ => exact h.congr (hupd _ _) rfl (hupd _ _) rfl rfl
  | sendError _ => exact h.congr (hupd _ _) rfl rfl rfl rfl

/-- An action takes its own connection from one place in the loop to the next. -/
theorem exchanged_self {s s' : Server C} {act : Act C} (h : Exchanged s act.conn)
    (hn : s.next act = some s') : Exchanged s' act.conn := by
  cases step_of_next hn with
  | @recv c msg hc =>
      simp only [Exchanged, Act.conn, hc] at h
      simp only [Exchanged, Act.conn, Function.update_self]
      exact ⟨h.1, by rw [h.2.1], h.2.2⟩
  | @hangUp c hc =>
      simp only [Exchanged, Act.conn, hc] at h
      simp only [Exchanged, Act.conn, Function.update_self]
      exact ⟨h.1, .inl h.2⟩
  | @lock c o monitor hc hm =>
      obtain ⟨-, -, rfl⟩ := Monitor.lock_eq hm
      simp only [Exchanged, Act.conn, hc] at h
      simp only [Exchanged, Act.conn, Function.update_self]
      exact ⟨⟨o, body.enter, rfl, rfl⟩, h.2⟩
  | @step c monitor hm =>
      obtain ⟨o, l, l', shared, hin, -, rfl⟩ := Monitor.step_eq hm
      cases hc : s.conn c <;> simp only [Exchanged, Act.conn, hc, hin, reduceCtorEq, false_and] at h
      simp only [Exchanged, Act.conn, hc, Function.update_self]
      obtain ⟨⟨o', l'', heq, rfl⟩, h⟩ := h
      obtain ⟨rfl, rfl⟩ := Prod.mk_inj.mp (Option.some_inj.mp heq)
      exact ⟨⟨o, l', rfl, rfl⟩, h⟩
  | @unlock c msg o l r monitor hc hin hret hm =>
      obtain ⟨o', l', r', hin', hret', rfl⟩ := Monitor.unlock_eq hm
      rw [hin, Option.some_inj, Prod.mk_inj] at hin'
      obtain ⟨rfl, rfl⟩ := hin'
      rw [hret, Option.some_inj] at hret'
      subst hret'
      simp only [Exchanged, Act.conn, hc, hin] at h
      obtain ⟨⟨o', l', heq, rfl⟩, hreq, hrep⟩ := h
      obtain ⟨rfl, rfl⟩ := Prod.mk_inj.mp (Option.some_inj.mp heq)
      simp only [Exchanged, Act.conn, Function.update_self, asked_concat_self, answered_concat_self]
      exact ⟨trivial, hreq, by rw [hrep]⟩
  | @refuse c msg hc hmsg =>
      simp only [Exchanged, Act.conn, hc] at h
      simp only [Exchanged, Act.conn, Function.update_self]
      exact ⟨h.1, .inr (.inl ⟨msg, hmsg, h.2⟩)⟩
  | @send c msg hc =>
      simp only [Exchanged, Act.conn, hc] at h
      simp only [Exchanged, Act.conn, Function.update_self]
      exact ⟨h.1, h.2.1, h.2.2⟩
  | @sendError c msg hc =>
      simp only [Exchanged, Act.conn, hc] at h
      simp only [Exchanged, Act.conn, Function.update_self]
      exact ⟨h.1, .inr (.inr ⟨msg, h.2⟩)⟩

theorem exchanged_next {s s' : Server C} (h : ∀ c, Exchanged s c) {act : Act C}
    (hn : s.next act = some s') (c : C) : Exchanged s' c := by
  by_cases hc : c = act.conn
  · rw [hc]
    exact exchanged_self (h _) hn
  · exact exchanged_of_ne (h c) hc hn

/-! ## Runs -/

theorem explained_run (acts : List (Act C)) : Explained (run acts).monitor :=
  Machine.run_induction (P := fun s : Server C ↦ Explained s.monitor) (s := init) acts
    (Monitor.Refines.explained_init rep_init) fun _ _ _ h hn ↦ Explained.next h hn

theorem exchanged_init (c : C) : Exchanged init c :=
  (⟨rfl, rfl, rfl⟩ : _ ∧ _ ∧ _)

theorem exchanged_run (acts : List (Act C)) : ∀ c, Exchanged (run acts) c :=
  Machine.run_induction (P := fun s : Server C ↦ ∀ c, Exchanged s c) (s := init) acts
    exchanged_init fun _ _ _ h hn ↦ exchanged_next h hn

/-- Calls return in the order in which they took the lock. -/
theorem Explained.ordered {m : Monitor C Request Progress Vcm Int32} (h : Explained m) :
    Monitor.calls m.log <+: m.entered := by
  obtain ⟨L, -, ⟨-, -, hent, -⟩ | ⟨t, o, l, -, -, hent, -⟩⟩ := h
  · rw [hent]
  · exact ⟨[(t, o)], hent.symm⟩

/-- A thread that is at the `switch` or has ended is not inside, and neither is the end
of a call. -/
theorem next_eq_none_of_outside {s : Server C} {c : C} (h : Exchanged s c)
    (hc : s.conn c = .closed ∨ ∃ msg, s.conn c = .received msg ∧ Request.ofMsg msg = none)
    {act : Act C} (hact : act.conn = c) (hne : s.conn c = .closed ∨ act ≠ .refuse c) :
    s.next act = none := by
  have hin : s.monitor.inside c = none := by
    rcases hc with hc | ⟨msg, hc, -⟩
    · simp only [Exchanged, hc] at h
      exact h.1
    · simp only [Exchanged, hc] at h
      exact h.1
  by_contra hsome
  obtain ⟨s', hs'⟩ := Option.ne_none_iff_exists'.mp hsome
  cases step_of_next hs' with
  | recv _ hrec =>
      simp only [Act.conn] at hact
      subst hact
      rcases hc with hc | ⟨msg, hc, -⟩ <;> rw [hc] at hrec <;> contradiction
  | step hm =>
      obtain ⟨o, l, l', shared, hin', -⟩ := Monitor.step_eq hm
      simp only [Act.conn] at hact
      rw [hact, hin] at hin'
      contradiction
  | lock hrec hm =>
      simp only [Act.conn] at hact
      subst hact
      rcases hc with hc | ⟨msg, hc, hmsg⟩
      · rw [hc] at hrec
        contradiction
      · rw [hc, Conn.received.injEq] at hrec
        rw [Request.ofMsg_eq_some_iff.mpr hrec] at hmsg
        contradiction
  | refuse hrec _ =>
      simp only [Act.conn] at hact
      subst hact
      rcases hne with hc | hne
      · rw [hc] at hrec
        contradiction
      · exact hne rfl
  | _ hrec =>
      simp only [Act.conn] at hact
      subst hact
      rcases hc with hc | ⟨msg, hc, -⟩ <;> rw [hc] at hrec <;> contradiction

/-! ## No request is left waiting -/

/-- Only a thread that is in a call is inside. -/
theorem Exchanged.calling {s : Server C} {c : C} (h : Exchanged s c) {p : Request × Progress}
    (hin : s.monitor.inside c = some p) : ∃ msg, s.conn c = .calling msg := by
  cases hc : s.conn c <;> simp only [Exchanged, hc, hin, reduceCtorEq, false_and] at h
  exact ⟨_, rfl⟩

/-- The holder of the lock can go on, and with the lock free everybody can. -/
theorem idle_of_stuck {s : Server C} (hexpl : Explained s.monitor) (hconn : ∀ c, Exchanged s c)
    (hstuck : ∀ act : Act C, act.Serves → s.next act = none) (c : C) :
    s.conn c = .reading ∨ s.conn c = .closed := by
  have hstep (t : C) : nextMonitor s.monitor (.step t ()) = none :=
    Option.map_eq_none_iff.mp (hstuck (.step t) trivial)
  have hunlock (t : C) : nextMonitor s.monitor (.unlock t) = none := by
    by_contra hsome
    obtain ⟨monitor, hm⟩ := Option.ne_none_iff_exists'.mp hsome
    obtain ⟨o, l, r, hin, hret, -⟩ := Monitor.unlock_eq hm
    obtain ⟨msg, hc⟩ := (hconn t).calling hin
    have hnext := hstuck (.unlock t) trivial
    simp only [next, hc, hin, hret, hm, Option.bind_some, Option.map_some] at hnext
    contradiction
  obtain ⟨-, hlock⟩ := Monitor.Refines.idle_of_stuck body_live hexpl (fun t _ _ ↦ hstep t) hunlock
    fun e ↦ nomatch e
  have hc := hconn c
  cases hconn : s.conn c with
  | reading => exact .inl rfl
  | closed => exact .inr rfl
  | received msg =>
      cases ho : Request.ofMsg msg with
      | none =>
          have hnext := hstuck (.refuse c) trivial
          simp only [next, hconn, ho] at hnext
          contradiction
      | some o =>
          obtain ⟨monitor, hm⟩ := Option.isSome_iff_exists.mp (hlock c o)
          change nextMonitor s.monitor (.lock c o) = some monitor at hm
          have hnext := hstuck (.lock c) trivial
          simp only [next, hconn, ho, Option.bind_some, hm, Option.map_some] at hnext
          contradiction
  | calling msg =>
      simp only [Exchanged, hconn] at hc
      obtain ⟨⟨o, l, hin, -⟩, -⟩ := hc
      obtain ⟨monitor, hm⟩ := Option.isSome_iff_exists.mp (hlock c o)
      rw [(Monitor.lock_eq hm).2.1] at hin
      contradiction
  | replying msg =>
      have hnext := hstuck (.send c) trivial
      simp only [next, hconn] at hnext
      contradiction

/-- The steps the thread of a connection has to take until it has ended, if nothing more is
received. -/
def left (s : Server C) (c : C) : ℕ :=
  match s.conn c with
  | .closed => 0
  | .reading => 1
  | .replying _ => 2
  | .calling _ => (s.monitor.inside c).elim 0 fun p ↦ p.2.work + 3
  | .received _ => 7

omit [DecidableEq C] in
theorem left_congr {s s' : Server C} {c : C} (hconn : s'.conn c = s.conn c)
    (hin : s'.monitor.inside c = s.monitor.inside c) : left s' c = left s c := by
  simp only [left, hconn, hin]

/-- An action leaves the other connections what they have to do. -/
theorem left_of_ne {s s' : Server C} {act : Act C} {c : C} (hc : c ≠ act.conn)
    (hn : s.next act = some s') : left s' c = left s c ∧ s'.requests c = s.requests c := by
  have hupd {β : Type _} (f : C → β) (b : β) : Function.update f act.conn b c = f c :=
    Function.update_of_ne hc b f
  cases step_of_next hn with
  | recv msg _ => exact ⟨left_congr (hupd _ _) rfl, hupd _ _⟩
  | lock _ hm =>
      obtain ⟨-, -, rfl⟩ := Monitor.lock_eq hm
      exact ⟨left_congr (hupd _ _) (hupd _ _), rfl⟩
  | step hm =>
      obtain ⟨o, l, l', shared, -, -, rfl⟩ := Monitor.step_eq hm
      exact ⟨left_congr rfl (hupd _ _), rfl⟩
  | unlock _ _ _ hm =>
      obtain ⟨o, l, r, -, -, rfl⟩ := Monitor.unlock_eq hm
      exact ⟨left_congr (hupd _ _) (hupd _ _), rfl⟩
  | _ => exact ⟨left_congr (hupd _ _) rfl, rfl⟩

/-- **Only a new request makes work**, seven steps at most. -/
theorem left_next {s s' : Server C} {act : Act C} (h : Exchanged s act.conn)
    (hn : s.next act = some s') :
    left s' act.conn + 7 * (s.requests act.conn).length + 1 ≤
      left s act.conn + 7 * (s'.requests act.conn).length := by
  cases step_of_next hn with
  | recv msg hc =>
      simp only [left, Act.conn, hc, Function.update_self, List.length_append,
        List.length_singleton]
      omega
  | lock hc hm =>
      obtain ⟨-, -, rfl⟩ := Monitor.lock_eq hm
      simp only [left, Act.conn, hc, Function.update_self, Option.elim_some, body, Progress.work]
      omega
  | step hm =>
      obtain ⟨o, l, l', shared, hin, hstep, rfl⟩ := Monitor.step_eq hm
      have hwork := work_lt hstep
      obtain ⟨msg, hc⟩ := h.calling hin
      rw [Act.conn] at hc
      simp only [left, Act.conn, hc, hin, Function.update_self, Option.elim_some]
      omega
  | unlock hc hin hret hm =>
      obtain ⟨o', l', r', -, -, rfl⟩ := Monitor.unlock_eq hm
      simp only [left, Act.conn, hc, hin, Function.update_self, Option.elim_some]
      omega
  | hangUp hc | refuse hc _ | send hc | sendError hc =>
      simp only [left, Act.conn, hc, Function.update_self]
      omega

/-- The connections of a list of actions. -/
def conns (acts : List (Act C)) : Finset C := (acts.map Act.conn).toFinset

/-- **The server does not go on for ever**: it takes seven steps at most for a request, the
one that receives it included, and one for the end of a connection. -/
theorem taken_le (acts : List (Act C)) :
    Machine.taken next init acts ≤
      ∑ c ∈ conns acts, (1 + 7 * ((run acts).requests c).length) := by
  have hinv (s : Server C) (act : Act C) (s' : Server C) (h : ∀ c, Exchanged s c)
      (hn : s.next act = some s') : ∀ c, Exchanged s' c := exchanged_next h hn
  have hlower (s : Server C) (act : Act C) (hact : act ∈ acts) (s' : Server C)
      (h : ∀ c, Exchanged s c) (hn : s.next act = some s') :
      ∑ c ∈ conns acts, left s' c + ∑ c ∈ conns acts, 7 * (s.requests c).length + 1 ≤
        ∑ c ∈ conns acts, left s c + ∑ c ∈ conns acts, 7 * (s'.requests c).length := by
    have hmem : act.conn ∈ conns acts := List.mem_toFinset.mpr (List.mem_map_of_mem hact)
    have hself := left_next (h act.conn) hn
    have hleft := Machine.sum_add_eq_of_eq_off hmem fun c hc ↦ (left_of_ne hc hn).1
    have hgain := Machine.sum_add_eq_of_eq_off (f := fun c ↦ 7 * (s.requests c).length)
      (g := fun c ↦ 7 * (s'.requests c).length) hmem
      fun c hc ↦ congrArg (7 * List.length ·) (left_of_ne hc hn).2
    omega
  have hle := Machine.taken_add_le_of_gain (fun s ↦ ∑ c ∈ conns acts, left s c)
    (fun s ↦ ∑ c ∈ conns acts, 7 * (s.requests c).length) acts
    exchanged_init hinv hlower
  rw [Finset.sum_add_distrib]
  exact (Nat.le_add_right _ _).trans ((Nat.le_add_right _ _).trans hle)

/-- What a server does that is a registry asked one question after the other. -/
structure IsRegistry (s : Server C) : Prop where
  /-- The requests are served in the order in which the functions are entered. -/
  order : Monitor.calls s.monitor.log <+: s.monitor.entered
  /-- The `k`-th request for a vid gets vid `k`. -/
  newVid : ∀ i c nid r, s.monitor.log[i]? = some (c, .getNewVid nid, r) →
    r.toInt = ((nids (s.monitor.log.take i)).length : Int) + 1
  /-- A request for a nid is answered by the registry as it is then. -/
  nidByVid : ∀ i c vid r, s.monitor.log[i]? = some (c, .getNidByVid vid, r) →
    r = answer (nids (s.monitor.log.take i)) vid
  /-- What has been resolved is resolved in the same way for ever. -/
  stable : ∀ i j c d vid nid q r, i ≤ j → s.monitor.log[i]? = some (c, .getNidByVid vid, q) →
    (nids (s.monitor.log.take i)).resolve vid = some nid →
    s.monitor.log[j]? = some (d, .getNidByVid vid, r) → q = nid ∧ r = nid
  /-- What is served on a connection is what has been received there, and what is sent
  there is what the registry answered, in the same order. -/
  connection : ∀ c, Exchanged s c
  /-- No request is left waiting: if no thread can go on, unless something is received on its
  connection or the connection fails, every connection that is not closed has been sent the
  answer to everything that has been received there. -/
  answers : (∀ act : Act C, act.Serves → s.next act = none) → ∀ c, s.conn c ≠ .closed →
    s.requests c = asked c s.monitor.log ∧ s.replies c = answered c s.monitor.log
  /-- All that can be done about any other request is to close its connection. -/
  refused : ∀ c msg, s.conn c = .received msg → msg.funcCode ≠ vidNid → msg.funcCode ≠ nidVid →
    s.next (.refuse c) = some { s with conn := Function.update s.conn c .closed } ∧
      ∀ act, act.conn = c → act ≠ .refuse c → s.next act = none
  /-- Nothing happens on a closed connection any more. -/
  closed : ∀ c act, s.conn c = .closed → act.conn = c → s.next act = none

/-- **The manager is a registry**, for any number of connections and every interleaving
of their handlers; and it answers, after no more than seven steps for each request. -/
theorem server_refines_registry (acts : List (Act C))
    (hlen : (nids (run acts).monitor.log).length < 2 ^ 31) :
    IsRegistry (run acts) ∧
      Machine.taken next init acts ≤
        ∑ c ∈ conns acts, (1 + 7 * ((run acts).requests c).length) := by
  refine ⟨?_, taken_le acts⟩
  have hexpl := explained_run acts
  have hconn := exchanged_run acts
  set s := run acts
  obtain ⟨L, hserial, -⟩ := id hexpl
  have htake (i : Nat) : (nids (s.monitor.log.take i)).length < 2 ^ 31 :=
    lt_of_le_of_lt (nids_take i).length_le hlen
  have hnid : ∀ i c vid r, s.monitor.log[i]? = some (c, .getNidByVid vid, r) →
      r = answer (nids (s.monitor.log.take i)) vid := fun i c vid r hi ↦ by
    obtain ⟨_, _, hr⟩ := atomic_getElem hserial hi
    exact hr (htake i)
  refine ⟨hexpl.ordered, fun i c nid r hi ↦ ?_, hnid, fun i j c d vid nid q r hij hi hres hj ↦ ?_,
    hconn, fun hstuck c hopen ↦ ?_, fun c msg hc h₀ h₁ ↦ ?_, fun c act hc hact ↦ ?_⟩
  · obtain ⟨_, _, hr⟩ := atomic_getElem hserial hi
    have hlt := htake (i + 1)
    rw [nids_take_succ hi, List.length_append, List.length_singleton] at hlt
    rw [hr, Registry.toInt_vidOf hlt, Nat.cast_add, Nat.cast_one]
  · have hprefix := @nids_take _ (s.monitor.log.take j) i
    rw [List.take_take, Nat.min_eq_left hij] at hprefix
    have hres' := Registry.resolve_of_prefix hprefix hres
    rw [hnid i c vid q hi, hnid j d vid r hj, answer, answer, hres, hres']
    exact ⟨rfl, rfl⟩
  · have hreading := (idle_of_stuck hexpl hconn hstuck c).resolve_right hopen
    have h := hconn c
    simp only [Exchanged, hreading] at h
    exact h.2
  · have hnone : Request.ofMsg msg = none := by simp [Request.ofMsg, h₀, h₁]
    refine ⟨by simp [next, hc, hnone], fun act hact hne ↦ ?_⟩
    exact next_eq_none_of_outside (hconn c) (.inr ⟨msg, hc, hnone⟩) hact (.inr hne)
  · exact next_eq_none_of_outside (hconn c) (.inl hc) hact (.inl hc)

/-- One connection asks for a vid, and another one for the nid behind it while the first
is still inside. -/
theorem server_refines_registry_two :
    IsRegistry (run [.recv false ⟨nidVid, 7⟩, .lock false, .step false, .recv true ⟨vidNid, 1⟩,
      .lock true, .step false, .step false, .unlock false, .lock true, .step true, .send false,
      .unlock true, .send true]) :=
  (server_refines_registry _ (by decide)).1

end Server

end Vcm

end Freelite
