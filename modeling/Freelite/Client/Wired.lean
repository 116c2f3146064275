import Freelite.Client.Threads

/-!
# The connections of a client process

Whatever the threads do with `client_sock`, the connections themselves are in order:
every message is on the connection its request has been sent on, requests are answered
and responses received at most once, and a connection delivers in the order in which
the requests have been sent.
-/

namespace Freelite

open Lib

namespace Threads

variable {τ : Type*} [DecidableEq τ]

/-- The numbers of the messages on their way on a connection, the next to arrive first. -/
def Process.onItsWay (s : Process τ) (sock : ℕ) : List ℕ :=
  (s.responses sock).map Prod.fst ++ (s.requests sock).map Prod.fst

/-- What holds of the messages whatever the threads do. -/
structure Wired (s : Process τ) : Prop where
  /-- A connection delivers in the order in which the requests have been sent. -/
  sorted : ∀ sock, (s.onItsWay sock).Pairwise (· < ·)
  sentOver : ∀ sock, ∀ n ∈ s.onItsWay sock, ∃ r, s.sent[n]? = some r ∧ r.sock = sock
  requests : ∀ sock, ∀ m ∈ s.requests sock,
    (∃ r, s.sent[m.1]? = some r ∧ r.msg = m.2) ∧ m.1 ∉ s.answered.map Prod.fst
  responses : ∀ sock, ∀ m ∈ s.responses sock,
    ∃ r, s.sent[m.1]? = some r ∧ (m.1, r.msg, m.2) ∈ s.answered
  awaits : ∀ t n, (s.phase t).awaits = some n →
    (∃ r, s.sent[n]? = some r ∧ r.thread = t) ∧ ∀ e ∈ s.returned, e.number ≠ n
  answered : ∀ m ∈ s.answered, m.1 < s.sent.length
  returned : ∀ e ∈ s.returned, e.number < s.sent.length ∧ e.answers < s.sent.length ∧
    ∀ sock, e.answers ∉ s.onItsWay sock
  answeredOnce : (s.answered.map Prod.fst).Nodup
  receivedOnce : (s.returned.map Return.answers).Nodup

omit [DecidableEq τ] in
theorem wired_init : Wired (init : Process τ) := by
  constructor <;> simp [init, Process.onItsWay, Phase.awaits]

section Steps

variable {s s' : Process τ} {t : τ} {sock n : ℕ}

omit [DecidableEq τ] in
theorem getElem?_concat {r r' : Request τ} (h : s.sent[n]? = some r) :
    (s.sent ++ [r'])[n]? = some r := by
  rw [List.getElem?_append_left (List.getElem?_eq_some_iff.mp h).1, h]

/-- A message on a queue that another one has been appended to. -/
theorem mem_update_concat {μ : Type*} {queue : ℕ → List μ} {sock' : ℕ} {x m : μ}
    (h : m ∈ Function.update queue sock (queue sock ++ [x]) sock') :
    m ∈ queue sock' ∨ sock' = sock ∧ m = x := by
  by_cases hsock : sock' = sock
  · subst hsock
    rw [Function.update_self, List.mem_append, List.mem_singleton] at h
    exact h.imp_right fun hm ↦ ⟨rfl, hm⟩
  · rw [Function.update_of_ne hsock] at h
    exact Or.inl h

/-- A message on a queue whose first one has been taken. -/
theorem mem_update_tail {μ : Type*} {queue : ℕ → List μ} {sock' : ℕ} {x m : μ} {rest : List μ}
    (hq : queue sock = x :: rest) (h : m ∈ Function.update queue sock rest sock') :
    m ∈ queue sock' := by
  by_cases hsock : sock' = sock
  · subst hsock
    rw [Function.update_self] at h
    rw [hq]
    exact List.mem_cons_of_mem _ h
  · rwa [Function.update_of_ne hsock] at h

/-- Who waits for an answer after a thread has got somewhere else. -/
theorem awaits_goto {p : Phase} {u : τ} (h : ((s.goto t p).phase u).awaits = some n) :
    u = t ∧ p.awaits = some n ∨ u ≠ t ∧ (s.phase u).awaits = some n := by
  change (Function.update s.phase t p u).awaits = some n at h
  by_cases hut : u = t
  · subst hut
    rw [Function.update_self] at h
    exact Or.inl ⟨rfl, h⟩
  · rw [Function.update_of_ne hut] at h
    exact Or.inr ⟨hut, h⟩

theorem onItsWay_send (req : ReqMsg) (r : Request τ) (p : Phase) (sock' : ℕ) :
    Process.onItsWay
      { s.goto t p with
        requests := Function.update s.requests sock (s.requests sock ++ [(n, req)])
        sent := s.sent ++ [r] } sock' =
      s.onItsWay sock' ++ if sock' = sock then [n] else [] := by
  by_cases h : sock' = sock
  · subst h
    simp [Process.onItsWay, Process.goto]
  · simp [Process.onItsWay, Process.goto, h]

theorem onItsWay_deliver {k : ℕ} {msg : RspMsg} {responses : List (ℕ × RspMsg)} {p : Phase}
    {e : Return τ} (hr : s.responses sock = (k, msg) :: responses) (sock' : ℕ) :
    s.onItsWay sock' = (if sock' = sock then [k] else []) ++
      Process.onItsWay
        { s.goto t p with
          responses := Function.update s.responses sock responses
          returned := s.returned ++ [e] } sock' := by
  by_cases h : sock' = sock
  · subst h
    simp [Process.onItsWay, Process.goto, hr]
  · simp [Process.onItsWay, Process.goto, h]

omit [DecidableEq τ] in
theorem onItsWay_serve {k : ℕ} {req : ReqMsg} {rsp : RspMsg} {requests : List (ℕ × ReqMsg)}
    {answered : List (ℕ × ReqMsg × RspMsg)}
    (hr : s.requests sock = (k, req) :: requests) (sock' : ℕ) :
    Process.onItsWay
      { s with
        requests := Function.update s.requests sock requests
        responses := Function.update s.responses sock (s.responses sock ++ [(k, rsp)])
        answered } sock' = s.onItsWay sock' := by
  by_cases h : sock' = sock
  · subst h
    simp [Process.onItsWay, hr]
  · simp [Process.onItsWay, h]

namespace Wired

omit [DecidableEq τ] in
theorem lt_length (hs : Wired s) (h : n ∈ s.onItsWay sock) : n < s.sent.length := by
  obtain ⟨r, hr, -⟩ := hs.sentOver sock n h
  exact (List.getElem?_eq_some_iff.mp hr).1

omit [DecidableEq τ] in
/-- A number is on its way on one connection only. -/
theorem sock_eq (hs : Wired s) {sock' : ℕ} (h : n ∈ s.onItsWay sock)
    (h' : n ∈ s.onItsWay sock') : sock = sock' := by
  obtain ⟨r, hr, rfl⟩ := hs.sentOver sock n h
  obtain ⟨r', hr', rfl⟩ := hs.sentOver sock' n h'
  rw [hr, Option.some_inj] at hr'
  rw [hr']

/-- Only the phase of a thread changes, and it does not begin to wait. -/
theorem goto (hs : Wired s) {p : Phase}
    (h : p.awaits = none ∨ p.awaits = (s.phase t).awaits) : Wired (s.goto t p) where
  __ := hs
  awaits u n hu := by
    obtain ⟨rfl, hp⟩ | ⟨-, hold⟩ := awaits_goto hu
    · obtain h | h := h <;> rw [hp] at h
      · contradiction
      · exact hs.awaits u n h.symm
    · exact hs.awaits u n hold

theorem send (hs : Wired s) (req : ReqMsg) :
    Wired { s.goto t (.sent s.sent.length) with
      requests := Function.update s.requests sock (s.requests sock ++ [(s.sent.length, req)])
      sent := s.sent ++ [⟨t, sock, req⟩] } where
  sorted sock' := by
    rw [onItsWay_send, List.pairwise_append]
    refine ⟨hs.sorted sock', by split_ifs <;> simp, fun n hn m hm ↦ ?_⟩
    split_ifs at hm
    · rw [List.mem_singleton.mp hm]
      exact hs.lt_length hn
    · contradiction
  sentOver sock' n hn := by
    rw [onItsWay_send, List.mem_append] at hn
    obtain hn | hn := hn
    · obtain ⟨r, hr, hsock⟩ := hs.sentOver sock' n hn
      exact ⟨r, getElem?_concat hr, hsock⟩
    · split_ifs at hn with hsock
      · rw [List.mem_singleton.mp hn]
        exact ⟨_, List.getElem?_concat_length, hsock.symm⟩
      · contradiction
  requests sock' m hm := by
    have of_mem (hm : m ∈ s.requests sock') :
        (∃ r, (s.sent ++ [⟨t, sock, req⟩])[m.1]? = some r ∧ r.msg = m.2) ∧
          m.1 ∉ s.answered.map Prod.fst := by
      obtain ⟨⟨r, hr, hmsg⟩, hnot⟩ := hs.requests sock' m hm
      exact ⟨⟨r, getElem?_concat hr, hmsg⟩, hnot⟩
    obtain hm | ⟨-, rfl⟩ := mem_update_concat hm
    · exact of_mem hm
    · refine ⟨⟨_, List.getElem?_concat_length, rfl⟩, fun hmem ↦ ?_⟩
      obtain ⟨m, hm, hlen⟩ := List.mem_map.mp hmem
      exact (hs.answered m hm).ne hlen
  responses sock' m hm := by
    obtain ⟨r, hr, hmem⟩ := hs.responses sock' m hm
    exact ⟨r, getElem?_concat hr, hmem⟩
  awaits u n hu := by
    obtain ⟨rfl, hp⟩ | ⟨-, hold⟩ := awaits_goto hu
    · obtain rfl := Option.some_inj.mp hp
      exact ⟨⟨_, List.getElem?_concat_length, rfl⟩, fun e he ↦ (hs.returned e he).1.ne⟩
    · obtain ⟨⟨r, hr, hthread⟩, hnot⟩ := hs.awaits u n hold
      exact ⟨⟨r, getElem?_concat hr, hthread⟩, hnot⟩
  answered m hm := by
    rw [List.length_append]
    exact (hs.answered m hm).trans_le (Nat.le_add_right _ _)
  returned e he := by
    obtain ⟨hnumber, hanswers, hnot⟩ := hs.returned e he
    rw [List.length_append]
    refine ⟨hnumber.trans_le (Nat.le_add_right _ _), hanswers.trans_le (Nat.le_add_right _ _),
      fun sock' hmem ↦ ?_⟩
    rw [onItsWay_send, List.mem_append] at hmem
    obtain hmem | hmem := hmem
    · exact hnot sock' hmem
    · split_ifs at hmem
      · exact hanswers.ne (List.mem_singleton.mp hmem)
      · contradiction
  answeredOnce := hs.answeredOnce
  receivedOnce := hs.receivedOnce

/-- A message that has been received is on no connection any more. -/
theorem notMem_deliver (hs : Wired s) {k : ℕ} {msg : RspMsg} {responses : List (ℕ × RspMsg)}
    {p : Phase} {e : Return τ} (hr : s.responses sock = (k, msg) :: responses) (sock' : ℕ) :
    k ∉ Process.onItsWay
      { s.goto t p with
        responses := Function.update s.responses sock responses
        returned := s.returned ++ [e] } sock' := by
  intro hk
  have hway := onItsWay_deliver (t := t) (p := p) (e := e) hr sock'
  have hmem : k ∈ s.onItsWay sock' := by
    rw [hway]
    exact List.mem_append_right _ hk
  have hsock : sock = sock' := hs.sock_eq (by simp [Process.onItsWay, hr]) hmem
  have hsorted := hs.sorted sock'
  rw [hway, if_pos hsock.symm, List.singleton_append, List.pairwise_cons] at hsorted
  exact (hsorted.1 k hk).false

theorem deliver (hs : Wired s) {k : ℕ} {msg : RspMsg} {responses : List (ℕ × RspMsg)}
    (hp : s.phase t = .receiving n sock) (hr : s.responses sock = (k, msg) :: responses) :
    Wired { s.goto t .idle with
      responses := Function.update s.responses sock responses
      returned := s.returned ++ [⟨t, n, k, msg⟩] } := by
  have hway := onItsWay_deliver (t := t) (p := .idle) (e := ⟨t, n, k, msg⟩) hr
  have hmem {sock' m : ℕ} (hm : m ∈ Process.onItsWay
      { s.goto t .idle with
        responses := Function.update s.responses sock responses
        returned := s.returned ++ [⟨t, n, k, msg⟩] } sock') : m ∈ s.onItsWay sock' := by
    rw [hway]
    exact List.mem_append_right _ hm
  have hk : k ∈ s.onItsWay sock := by simp [Process.onItsWay, hr]
  obtain ⟨⟨r, hsent, hthread⟩, -⟩ := hs.awaits t n (by rw [hp]; rfl)
  exact
    { sorted := fun sock' ↦ by
        have hsorted := hs.sorted sock'
        rw [hway] at hsorted
        exact hsorted.sublist (List.sublist_append_right _ _)
      sentOver := fun sock' m hm ↦ hs.sentOver sock' m (hmem hm)
      requests := hs.requests
      responses := fun sock' m hm ↦ hs.responses sock' m (mem_update_tail hr hm)
      awaits := fun u m hu ↦ by
        obtain ⟨-, hp⟩ | ⟨hut, hold⟩ := awaits_goto hu
        · contradiction
        · obtain ⟨⟨r', hr', hthread'⟩, hnot⟩ := hs.awaits u m hold
          refine ⟨⟨r', hr', hthread'⟩, fun e he ↦ ?_⟩
          rw [List.mem_append, List.mem_singleton] at he
          obtain he | rfl := he
          · exact hnot e he
          · rintro rfl
            rw [hsent, Option.some_inj] at hr'
            exact hut (hthread'.symm.trans (hr' ▸ hthread))
      answered := hs.answered
      returned := fun e he ↦ by
        rw [List.mem_append, List.mem_singleton] at he
        obtain he | rfl := he
        · obtain ⟨hnumber, hanswers, hnot⟩ := hs.returned e he
          exact ⟨hnumber, hanswers, fun sock' hm ↦ hnot sock' (hmem hm)⟩
        · exact ⟨(List.getElem?_eq_some_iff.mp hsent).1, hs.lt_length hk, hs.notMem_deliver hr⟩
      answeredOnce := hs.answeredOnce
      receivedOnce := by
        rw [List.map_append, List.map_singleton, List.nodup_append_comm, List.singleton_append,
          List.nodup_cons]
        refine ⟨fun hin ↦ ?_, hs.receivedOnce⟩
        obtain ⟨e, he, heq⟩ := List.mem_map.mp hin
        exact (hs.returned e he).2.2 sock (heq ▸ hk) }

omit [DecidableEq τ] in
theorem serve (hs : Wired s) {k : ℕ} {req : ReqMsg} {requests : List (ℕ × ReqMsg)}
    (hr : s.requests sock = (k, req) :: requests) (rsp : RspMsg) :
    Wired { s with
      requests := Function.update s.requests sock requests
      responses := Function.update s.responses sock (s.responses sock ++ [(k, rsp)])
      answered := s.answered ++ [(k, req, rsp)] } := by
  have hk : k ∈ s.onItsWay sock := by simp [Process.onItsWay, hr]
  obtain ⟨⟨r, hsent, rfl⟩, hnot⟩ := hs.requests sock (k, req) (by simp [hr])
  exact
    { sorted := fun sock' ↦ by
        rw [onItsWay_serve hr]
        exact hs.sorted sock'
      sentOver := fun sock' m hm ↦ by
        rw [onItsWay_serve hr] at hm
        exact hs.sentOver sock' m hm
      requests := fun sock' m hm ↦ by
        have hold : m ∈ s.requests sock' ∧ m.1 ≠ k := by
          by_cases h : sock' = sock
          · subst h
            change m ∈ Function.update s.requests sock' requests sock' at hm
            rw [Function.update_self] at hm
            have hsorted := hs.sorted sock'
            rw [Process.onItsWay, hr, List.pairwise_append, List.map_cons,
              List.pairwise_cons] at hsorted
            refine ⟨by rw [hr]; exact List.mem_cons_of_mem _ hm, ?_⟩
            exact (hsorted.2.1.1 m.1 (List.mem_map_of_mem hm)).ne'
          · change m ∈ Function.update s.requests sock requests sock' at hm
            rw [Function.update_of_ne h] at hm
            refine ⟨hm, fun heq ↦ h (hs.sock_eq ?_ hk)⟩
            exact heq ▸ List.mem_append_right _ (List.mem_map_of_mem hm)
        obtain ⟨hsent', hnot'⟩ := hs.requests sock' m hold.1
        refine ⟨hsent', ?_⟩
        rw [List.map_append, List.mem_append, List.map_singleton, List.mem_singleton]
        exact fun h ↦ h.elim hnot' hold.2
      responses := fun sock' m hm ↦ by
        have of_mem (hm : m ∈ s.responses sock') : ∃ r', s.sent[m.1]? = some r' ∧
            (m.1, r'.msg, m.2) ∈ s.answered ++ [(k, r.msg, rsp)] := by
          obtain ⟨r', hr', hmem⟩ := hs.responses sock' m hm
          exact ⟨r', hr', List.mem_append_left _ hmem⟩
        obtain hm | ⟨-, rfl⟩ := mem_update_concat hm
        · exact of_mem hm
        · exact ⟨r, hsent, List.mem_append_right _ (List.mem_singleton_self _)⟩
      awaits := hs.awaits
      answered := fun m hm ↦ by
        rw [List.mem_append, List.mem_singleton] at hm
        obtain hm | rfl := hm
        · exact hs.answered m hm
        · exact hs.lt_length hk
      returned := fun e he ↦ by
        obtain ⟨hnumber, hanswers, hnot⟩ := hs.returned e he
        exact ⟨hnumber, hanswers, fun sock' hm ↦ hnot sock' (by rwa [onItsWay_serve hr] at hm)⟩
      answeredOnce := by
        rw [List.map_append, List.map_singleton, List.nodup_append_comm, List.singleton_append,
          List.nodup_cons]
        exact ⟨hnot, hs.answeredOnce⟩
      receivedOnce := hs.receivedOnce }

theorem next (hs : Wired s) {act : Act τ} (h : next s act = some s') : Wired s' := by
  cases act with
  | call t req =>
      obtain ⟨-, rfl⟩ := call_eq h
      exact hs.goto (.inl rfl)
  | test t =>
      obtain ⟨req, -, rfl⟩ := test_eq h
      exact hs.goto (.inl (by split_ifs <;> rfl))
  | socket t =>
      obtain ⟨req, -, rfl⟩ := socket_eq h
      exact { hs.goto (t := t) (p := .connecting req) (.inl rfl) with }
  | connect t =>
      obtain ⟨req, sock, -, -, rfl⟩ := connect_eq h
      exact { hs.goto (t := t) (p := .sending req) (.inl rfl) with }
  | send t =>
      obtain ⟨req, sock, -, -, rfl⟩ := send_eq h
      exact hs.send req
  | recv t =>
      obtain ⟨number, sock, hp, -, rfl⟩ := recv_eq h
      exact hs.goto (.inr (by rw [hp]; rfl))
  | deliver t =>
      obtain ⟨number, sock, answers, msg, responses, hp, hr, rfl⟩ := deliver_eq h
      exact hs.deliver hp hr
  | serve sock rsp =>
      obtain ⟨number, req, requests, hr, rfl⟩ := serve_eq h
      exact hs.serve hr rsp

end Wired

end Steps

end Threads

end Freelite
