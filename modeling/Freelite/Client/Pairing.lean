import Freelite.Client.LiteLib
import Freelite.Client.Wired

/-!
# Whose response a thread receives

`recv` takes the next response from the socket in `client_sock`.  It is the caller's
own if the socket is the one the request has been sent on, and if every call that sent
on it before has received its response.  Nothing in `rpc.c` makes this so: the threads
of a process may call `recv` in any order, and a thread that has found `client_sock` to
be `-1` replaces the socket another one is using.

`inOrder_iff` says that these two conditions are what it takes, step by step, and
`paired_iff_inOrder` says so for runs.  When only one thread is inside `rpc_handler` at
a time they are met.
-/

namespace Freelite

open Lib

namespace Threads

variable {τ : Type*}

/-- Every call that has returned has the response to its own request, and no message is
lost or delivered twice. -/
structure Paired (s : Process τ) : Prop where
  /-- A response is the one that the router has given to the request of the call. -/
  own : ∀ e ∈ s.returned, ∃ r, s.sent[e.number]? = some r ∧ r.thread = e.thread ∧
    e.answers = e.number ∧ (e.number, r.msg, e.msg) ∈ s.answered
  /-- The request of a call that has not returned, or the response to it, is on its way
  where the thread is going to receive it. -/
  kept : ∀ n r, s.sent[n]? = some r → (∃ e ∈ s.returned, e.number = n) ∨
    n ∈ s.onItsWay r.sock ∧
      (s.phase r.thread = .sent n ∨ s.phase r.thread = .receiving n r.sock)
  answeredOnce : (s.answered.map Prod.fst).Nodup
  receivedOnce : (s.returned.map Return.answers).Nodup

/-- The condition on a step.  A thread calls `recv` on the socket on which it has sent;
and when it receives a response, the calls that sent on the socket before have returned. -/
def InOrder (s : Process τ) : Act τ → Prop
  | .recv t => ∀ n r, s.phase t = .sent n → s.sent[n]? = some r → s.clientSock = some r.sock
  | .deliver t => ∀ n sock, s.phase t = .receiving n sock → ∀ k < n, ∀ r,
      s.sent[k]? = some r → r.sock = sock → ∃ e ∈ s.returned, e.number = k
  | _ => True

theorem paired_init : Paired (init : Process τ) := by
  constructor <;> simp [init]

section Steps

variable [DecidableEq τ] {s s' : Process τ} {t : τ} {sock n : ℕ}

namespace Paired

/-- A thread that waits for nothing goes on. -/
theorem goto (hs : Paired s) (h : (s.phase t).awaits = none) (p : Phase) :
    Paired (s.goto t p) where
  __ := hs
  kept n r hr := by
    obtain he | ⟨hway, hp⟩ := hs.kept n r hr
    · exact .inl he
    · have hne : r.thread ≠ t := by
        rintro rfl
        obtain hp | hp := hp <;> rw [hp] at h <;> contradiction
      refine .inr ⟨hway, ?_⟩
      change Function.update s.phase t p r.thread = _ ∨ Function.update s.phase t p r.thread = _
      rwa [Function.update_of_ne hne]

theorem send (hs : Paired s) (h : (s.phase t).awaits = none) (req : ReqMsg) :
    Paired { s.goto t (.sent s.sent.length) with
      requests := Function.update s.requests sock (s.requests sock ++ [(s.sent.length, req)])
      sent := s.sent ++ [⟨t, sock, req⟩] } where
  own e he := by
    obtain ⟨r, hr, hown⟩ := hs.own e he
    exact ⟨r, getElem?_concat hr, hown⟩
  kept n r hr := by
    rw [onItsWay_send, List.mem_append]
    obtain hlt | heq | hgt := Nat.lt_trichotomy n s.sent.length
    · rw [List.getElem?_append_left hlt] at hr
      obtain he | ⟨hway, hp⟩ := (hs.goto h (.sent s.sent.length)).kept n r hr
      · exact .inl he
      · exact .inr ⟨.inl hway, hp⟩
    · subst heq
      rw [List.getElem?_concat_length, Option.some_inj] at hr
      subst hr
      exact .inr ⟨.inr (by simp), .inl (Function.update_self ..)⟩
    · rw [List.getElem?_eq_none (by simpa using hgt)] at hr
      contradiction
  answeredOnce := hs.answeredOnce
  receivedOnce := hs.receivedOnce

omit [DecidableEq τ] in
theorem serve (hs : Paired s) (hw : Wired s) {k : ℕ} {req : ReqMsg}
    {requests : List (ℕ × ReqMsg)} (hr : s.requests sock = (k, req) :: requests)
    (rsp : RspMsg) :
    Paired { s with
      requests := Function.update s.requests sock requests
      responses := Function.update s.responses sock (s.responses sock ++ [(k, rsp)])
      answered := s.answered ++ [(k, req, rsp)] } where
  own e he := by
    obtain ⟨r, hsent, hthread, hanswers, hmem⟩ := hs.own e he
    exact ⟨r, hsent, hthread, hanswers, List.mem_append_left _ hmem⟩
  kept n r hsent := by
    rw [onItsWay_serve hr]
    exact hs.kept n r hsent
  answeredOnce := (hw.serve hr rsp).answeredOnce
  receivedOnce := hs.receivedOnce

omit [DecidableEq τ] in
/-- A thread that has sent a request and is still inside has it on its way. -/
theorem mem_onItsWay (hs : Paired s) (hw : Wired s) (h : (s.phase t).awaits = some n) :
    ∃ r, s.sent[n]? = some r ∧ r.thread = t ∧ n ∈ s.onItsWay r.sock ∧
      (s.phase t = .sent n ∨ s.phase t = .receiving n r.sock) := by
  obtain ⟨⟨r, hr, rfl⟩, hnot⟩ := hw.awaits t n h
  obtain ⟨e, he, heq⟩ | ⟨hway, hp⟩ := hs.kept n r hr
  · exact (hnot e he heq).elim
  · exact ⟨r, hr, rfl, hway, hp⟩

/-- Calling `recv`: on the socket on which the request has been sent, or on another one. -/
theorem recv_iff (hs : Paired s) (hw : Wired s) (hp : s.phase t = .sent n) :
    (∀ r, s.sent[n]? = some r → r.sock = sock) ↔ Paired (s.goto t (.receiving n sock)) := by
  obtain ⟨r, hr, rfl, hway, -⟩ := hs.mem_onItsWay hw (t := t) (n := n) (by rw [hp]; rfl)
  constructor
  · intro h
    obtain rfl := h r hr
    refine { hs with kept := fun m r' hr' ↦ ?_ }
    obtain he | ⟨hway', hp'⟩ := hs.kept m r' hr'
    · exact .inl he
    · refine .inr ⟨hway', ?_⟩
      change Function.update s.phase r.thread _ r'.thread = _ ∨
        Function.update s.phase r.thread _ r'.thread = _
      by_cases hne : r'.thread = r.thread
      · rw [hne, hp] at hp'
        obtain hp' | hp' := hp'
        · obtain rfl := Phase.sent.inj hp'
          obtain rfl : r = r' := Option.some_inj.mp (hr.symm.trans hr')
          exact .inr (Function.update_self ..)
        · contradiction
      · rwa [Function.update_of_ne hne]
  · intro h r' hr'
    obtain ⟨e, he, heq⟩ | ⟨-, hp'⟩ := h.kept n r hr
    · exact ((hw.awaits r.thread n (by rw [hp]; rfl)).2 e he heq).elim
    · change Function.update s.phase r.thread _ r.thread = _ ∨
        Function.update s.phase r.thread _ r.thread = _ at hp'
      rw [Function.update_self] at hp'
      obtain hp' | hp' := hp'
      · contradiction
      · rw [hr, Option.some_inj] at hr'
        rw [← hr', (Phase.receiving.inj hp').2]

/-- Returning from `recv`: with the own response, or with an older one. -/
theorem deliver_iff (hs : Paired s) (hw : Wired s) {k : ℕ} {msg : RspMsg}
    {responses : List (ℕ × RspMsg)} (hp : s.phase t = .receiving n sock)
    (hr : s.responses sock = (k, msg) :: responses) :
    (∀ m < n, ∀ r, s.sent[m]? = some r → r.sock = sock → ∃ e ∈ s.returned, e.number = m) ↔
      Paired { s.goto t .idle with
        responses := Function.update s.responses sock responses
        returned := s.returned ++ [⟨t, n, k, msg⟩] } := by
  obtain ⟨r, hsent, rfl, hway, hp'⟩ := hs.mem_onItsWay hw (t := t) (n := n) (by rw [hp]; rfl)
  obtain rfl : sock = r.sock := by
    obtain hp' | hp' := hp' <;> rw [hp] at hp'
    · contradiction
    · exact (Phase.receiving.inj hp').2
  have hk : k ∈ s.onItsWay r.sock := by simp [Process.onItsWay, hr]
  have hhead {m : ℕ} (hm : m ∈ s.onItsWay r.sock) : k ≤ m := by
    have hsorted := hw.sorted r.sock
    rw [Process.onItsWay, hr, List.map_cons, List.cons_append] at hm hsorted
    obtain rfl | hm := List.mem_cons.mp hm
    · exact le_rfl
    · exact ((List.pairwise_cons.mp hsorted).1 m hm).le
  constructor
  · intro h
    -- an older call has returned with its own response, so it cannot be on its way
    obtain rfl : k = n := by
      refine (hhead hway).antisymm (not_lt.mp fun hlt ↦ ?_)
      obtain ⟨r', hr', hsock⟩ := hw.sentOver r.sock k hk
      obtain ⟨e, he, rfl⟩ := h k hlt r' hr' hsock
      obtain ⟨-, -, -, hanswers, -⟩ := hs.own e he
      exact (hw.returned e he).2.2 r.sock (hanswers ▸ hk)
    obtain ⟨r', hr', hanswered⟩ := hw.responses r.sock (k, msg) (by simp [hr])
    obtain rfl := Option.some_inj.mp (hsent.symm.trans hr')
    refine
      { own := fun e he ↦ ?_
        kept := fun m r' hr' ↦ ?_
        answeredOnce := hs.answeredOnce
        receivedOnce := (hw.deliver hp hr).receivedOnce }
    · rw [List.mem_append, List.mem_singleton] at he
      obtain he | rfl := he
      · exact hs.own e he
      · exact ⟨r, hsent, rfl, rfl, hanswered⟩
    · by_cases hm : m = k
      · exact .inl ⟨_, List.mem_append_right _ (List.mem_singleton_self _), hm.symm⟩
      · obtain ⟨e, he, heq⟩ | ⟨hway', hp''⟩ := hs.kept m r' hr'
        · exact .inl ⟨e, List.mem_append_left _ he, heq⟩
        · rw [onItsWay_deliver (t := r.thread) (p := .idle) (e := ⟨r.thread, k, k, msg⟩) hr,
            List.mem_append] at hway'
          refine .inr ⟨hway'.resolve_left fun h ↦ ?_, ?_⟩
          · split_ifs at h
            · exact hm (List.mem_singleton.mp h)
            · contradiction
          · change Function.update s.phase r.thread _ r'.thread = _ ∨
              Function.update s.phase r.thread _ r'.thread = _
            have hne : r'.thread ≠ r.thread := by
              intro heq
              rw [heq, hp] at hp''
              obtain hp'' | hp'' := hp''
              · contradiction
              · exact hm (Phase.receiving.inj hp'').1.symm
            rwa [Function.update_of_ne hne]
  · intro h m hm r' hr' hsock
    obtain ⟨-, -, -, hanswers, -⟩ := h.own ⟨r.thread, n, k, msg⟩
      (List.mem_append_right _ (List.mem_singleton_self _))
    obtain rfl : k = n := hanswers
    obtain he | ⟨hway', -⟩ := hs.kept m r' hr'
    · exact he
    · exact ((hhead (hsock ▸ hway')).not_gt hm).elim

end Paired

/-- **The condition is what a step needs.** -/
theorem inOrder_iff (hw : Wired s) (hs : Paired s) {act : Act τ} (h : next s act = some s') :
    InOrder s act ↔ Paired s' := by
  cases act with
  | call t req =>
      obtain ⟨hp, rfl⟩ := call_eq h
      exact iff_of_true trivial (hs.goto (by rw [hp]; rfl) _)
  | test t =>
      obtain ⟨req, hp, rfl⟩ := test_eq h
      exact iff_of_true trivial (hs.goto (by rw [hp]; rfl) _)
  | socket t =>
      obtain ⟨req, hp, rfl⟩ := socket_eq h
      exact iff_of_true trivial { hs.goto (t := t) (by rw [hp]; rfl) (.connecting req) with }
  | connect t =>
      obtain ⟨req, sock, hp, -, rfl⟩ := connect_eq h
      exact iff_of_true trivial { hs.goto (t := t) (by rw [hp]; rfl) (.sending req) with }
  | send t =>
      obtain ⟨req, sock, hp, -, rfl⟩ := send_eq h
      exact iff_of_true trivial (hs.send (by rw [hp]; rfl) req)
  | recv t =>
      obtain ⟨n, sock, hp, hc, rfl⟩ := recv_eq h
      rw [← hs.recv_iff hw hp]
      refine ⟨fun hord r hr ↦ ?_, fun hsock m r hm hr ↦ ?_⟩
      · exact Option.some_inj.mp ((hord n r hp hr).symm.trans hc)
      · obtain rfl := Phase.sent.inj (hp.symm.trans hm)
        rw [hc, hsock r hr]
  | deliver t =>
      obtain ⟨n, sock, k, msg, responses, hp, hr, rfl⟩ := deliver_eq h
      rw [← hs.deliver_iff hw hp hr]
      refine ⟨fun hord ↦ hord n sock hp, fun hall m sock' hm ↦ ?_⟩
      obtain ⟨rfl, rfl⟩ := Phase.receiving.inj (hp.symm.trans hm)
      exact hall
  | serve sock rsp =>
      obtain ⟨number, req, requests, hr, rfl⟩ := serve_eq h
      exact iff_of_true trivial (hs.serve hw hr rsp)

end Steps

/-! ## Runs -/

/-- **When every call gets its own response.**  In a run of any number of threads, every
call that returns has the response to its own request and no message is lost or delivered
twice all along, if and only if every step is in order. -/
theorem paired_iff_inOrder [DecidableEq τ] (acts : List (Act τ)) :
    (∀ acts', acts' <+: acts → Paired (Machine.run next init acts')) ↔
      Machine.Meets next InOrder init acts :=
  (Machine.meets_iff_forall_prefix wired_init paired_init (fun _ _ _ hw h ↦ hw.next h)
    fun _ _ _ hw hs h ↦ inOrder_iff hw hs h).symm

/-- Two threads that have both sent receive each other's response. -/
theorem not_paired_two_threads :
    ¬ ∀ acts : List (Act (Fin 2)), Paired (Machine.run next init acts) := by
  intro h
  have hs := h
    [.call 0 (LiteLib.initReq .getNodeId), .test 0, .socket 0, .connect 0, .send 0,
      .call 1 (LiteLib.distBarrierReq 2), .test 1, .send 1,
      .serve 0 (Flat.zero 24), .serve 0 (Flat.zero 24), .recv 1, .deliver 1]
  obtain ⟨-, -, -, hanswers, -⟩ := hs.own ⟨1, 1, 0, (Flat.zero 24)⟩ (.head _)
  contradiction

/-! ## One thread at a time -/

/-- A thread calls `rpc_handler` only when no thread is inside. -/
def Alone (s : Process τ) : Act τ → Prop
  | .call _ _ => ∀ u, s.phase u = .idle
  | _ => True

/-- At most one thread is inside, and when it has sent, `client_sock` is still the socket
on which it has. -/
structure Single (s : Process τ) : Prop where
  eq : ∀ t u, s.phase t ≠ .idle → s.phase u ≠ .idle → t = u
  sock : ∀ t n r, s.phase t = .sent n → s.sent[n]? = some r → s.clientSock = some r.sock

theorem single_init : Single (init : Process τ) := by
  constructor <;> simp [init]

namespace Single

theorem inOrder {s : Process τ} (hs : Single s) (hp : Paired s) (act : Act τ) :
    InOrder s act := by
  cases act with
  | recv t => exact fun n r ↦ hs.sock t n r
  | deliver t =>
      intro n sock ht k hlt r hr _
      obtain he | ⟨-, hk⟩ := hp.kept k r hr
      · exact he
      -- the thread of the older request would be inside as well
      · have hthread : r.thread = t := by
          refine hs.eq r.thread t ?_ (by rw [ht]; simp)
          obtain hk | hk := hk <;> rw [hk] <;> simp
        rw [hthread, ht] at hk
        obtain hk | hk := hk
        · contradiction
        · exact (hlt.ne' (Phase.receiving.inj hk).1).elim
  | _ => trivial

variable [DecidableEq τ] {s s' : Process τ}

/-- The only thread that can be inside takes a step. -/
theorem of_phase {t : τ} {p : Phase} (hphase : s'.phase = Function.update s.phase t p)
    (hidle : ∀ u, u ≠ t → s.phase u = .idle)
    (hsock : ∀ n r, p = .sent n → s'.sent[n]? = some r → s'.clientSock = some r.sock) :
    Single s' := by
  have eq_of_ne {u : τ} (hu : s'.phase u ≠ .idle) : u = t := by
    by_contra hne
    rw [hphase, Function.update_of_ne hne] at hu
    exact hu (hidle u hne)
  refine ⟨fun u v hu hv ↦ (eq_of_ne hu).trans (eq_of_ne hv).symm, fun u n r hu ↦ ?_⟩
  obtain rfl : u = t := eq_of_ne (by rw [hu]; simp)
  rw [hphase, Function.update_self] at hu
  exact hsock n r hu

theorem next (hs : Single s) {act : Act τ} (hal : Alone s act)
    (h : Threads.next s act = some s') : Single s' := by
  have others {t : τ} (ht : s.phase t ≠ .idle) (u : τ) (hu : u ≠ t) : s.phase u = .idle := by
    by_contra hne
    exact hu (hs.eq u t hne ht)
  cases act with
  | call t req =>
      obtain ⟨-, rfl⟩ := call_eq h
      exact of_phase rfl (fun u _ ↦ hal u) (by simp)
  | test t =>
      obtain ⟨req, hp, rfl⟩ := test_eq h
      exact of_phase rfl (others (by rw [hp]; simp)) (by split_ifs <;> simp)
  | socket t =>
      obtain ⟨req, hp, rfl⟩ := socket_eq h
      exact of_phase rfl (others (by rw [hp]; simp)) (by simp)
  | connect t =>
      obtain ⟨req, sock, hp, -, rfl⟩ := connect_eq h
      exact of_phase rfl (others (by rw [hp]; simp)) (by simp)
  | send t =>
      obtain ⟨req, sock, hp, hc, rfl⟩ := send_eq h
      refine of_phase rfl (others (by rw [hp]; simp)) fun n r hn hr ↦ ?_
      obtain rfl := Phase.sent.inj hn
      obtain rfl := Option.some_inj.mp (List.getElem?_concat_length.symm.trans hr)
      exact hc
  | recv t =>
      obtain ⟨n, sock, hp, -, rfl⟩ := recv_eq h
      exact of_phase rfl (others (by rw [hp]; simp)) (by simp)
  | deliver t =>
      obtain ⟨n, sock, k, msg, responses, hp, -, rfl⟩ := deliver_eq h
      exact of_phase rfl (others (by rw [hp]; simp)) (by simp)
  | serve sock rsp =>
      obtain ⟨number, req, requests, -, rfl⟩ := serve_eq h
      exact ⟨hs.eq, hs.sock⟩

end Single

/-- When no two calls overlap, as under a lock that is held throughout `rpc_handler`, every
call gets its own response. -/
theorem paired_of_alone [DecidableEq τ] (acts : List (Act τ))
    (h : Machine.Meets next Alone init acts) : Paired (Machine.run next init acts) :=
  (Machine.run_induction_of_meets (P := fun s ↦ Wired s ∧ Paired s ∧ Single s)
    ⟨wired_init, paired_init, single_init⟩ h fun _ _ _ ⟨hw, hp, hs⟩ hal hn ↦
      ⟨hw.next hn, (inOrder_iff hw hp hn).mp (hs.inOrder hp _), hs.next hal hn⟩).2.1

end Threads

end Freelite
