import Freelite.Lib.Layout

/-!
# Messages of one size over a byte stream

A stream transport keeps the order of the bytes and nothing else: how many of them a
`recv` returns is up to it.  Two ways of receiving messages of a fixed size occur in
programs that take one `recv` for one message.

* `Codec.serve` is a loop that receives into the same variable again and again and
  handles it after every `recv`.  It handles exactly the messages that were sent if
  and only if every `recv` returned a whole message and none of them ends the
  connection (`Division.serve_eq_iff`).  The argument is a count: as long as the
  loop goes on it handles as many messages as there were calls of `recv`.
* `Codec.deliver` is a sequence of exchanges, each with a single `recv` for the answer.
  What an incomplete one leaves in the variable, and in the stream for the next
  exchange, depends on what the variable held before.
-/

namespace Freelite.Lib

variable {σ : Type*}

namespace Codec

/-- A block of bytes is its own representation. -/
def flat (n : Nat) : Codec (Flat n) where
  width := n
  enc o := o.bytes
  dec l := ⟨(l ++ List.replicate n 0).take n, by simp⟩
  length_enc o := o.length_bytes
  dec_enc o := by
    apply Flat.ext
    exact List.take_left' o.length_bytes

end Codec

/-! ## A loop that receives into one variable -/

/-- A way in which a stream divides the bytes of `ms` among the calls of `recv`: each
returns at least one byte, and at most as many as were asked for. -/
structure Division {α : Type} (c : Codec α) (ms : List α) where
  chunks : List (List UInt8)
  ne_nil : ∀ x ∈ chunks, x ≠ []
  length_le : ∀ x ∈ chunks, x.length ≤ c.width
  flatten_chunks : chunks.flatten = (ms.map c.enc).flatten

namespace Division

variable {α : Type} {c : Codec α} {ms : List α}

/-- Every `recv` returns a whole message. -/
def Whole (d : Division c ms) : Prop := d.chunks = ms.map c.enc

/-- Two messages, of which the second comes in two pieces. -/
def cut (m₁ m₂ : α) {k : Nat} (hpos : 0 < k) (hlt : k < c.width) : Division c [m₁, m₂] where
  chunks := [c.enc m₁, (c.enc m₂).take k, (c.enc m₂).drop k]
  ne_nil x hx := by
    have hlen : x.length ≠ 0 := by
      rcases List.mem_cons.mp hx with rfl | hx
      · rw [c.length_enc]
        omega
      rcases List.mem_pair.mp hx with rfl | rfl
      · rw [List.length_take, c.length_enc]
        omega
      · rw [List.length_drop, c.length_enc]
        omega
    exact List.length_pos_iff.mp (Nat.pos_of_ne_zero hlen)
  length_le x hx := by
    rcases List.mem_cons.mp hx with rfl | hx
    · exact (c.length_enc m₁).le
    rcases List.mem_pair.mp hx with rfl | rfl
    · rw [List.length_take, c.length_enc]
      exact Nat.min_le_right _ _
    · rw [List.length_drop, c.length_enc]
      exact Nat.sub_le _ _
  flatten_chunks := by simp

theorem length_flatten_le {w : Nat} {xs : List (List UInt8)} (h : ∀ x ∈ xs, x.length ≤ w) :
    xs.flatten.length ≤ w * xs.length := by
  induction xs with
  | nil => simp
  | cons x xs ih =>
      have hx := h x List.mem_cons_self
      have hxs := ih fun y hy ↦ h y (List.mem_cons_of_mem _ hy)
      rw [List.flatten_cons, List.length_append, List.length_cons, Nat.mul_succ]
      omega

/-- As many pieces of at most the full size as there are full ones leave no choice. -/
theorem eq_of_flatten_eq {w : Nat} {xs ys : List (List UInt8)} (hx : ∀ x ∈ xs, x.length ≤ w)
    (hy : ∀ y ∈ ys, y.length = w) (hlen : xs.length = ys.length) (h : xs.flatten = ys.flatten) :
    xs = ys := by
  induction xs generalizing ys with
  | nil => exact (List.length_eq_zero_iff.mp hlen.symm).symm
  | cons x xs ih =>
      obtain _ | ⟨y, ys⟩ := ys
      · contradiction
      have hy' : ∀ z ∈ ys, z.length = w := fun z hz ↦ hy z (List.mem_cons_of_mem _ hz)
      have hx' : ∀ z ∈ xs, z.length ≤ w := fun z hz ↦ hx z (List.mem_cons_of_mem _ hz)
      have hys : ys.flatten.length = w * ys.length := by
        rw [List.length_flatten, List.map_congr_left (g := fun _ ↦ w) hy', List.map_const',
          List.sum_replicate, smul_eq_mul, Nat.mul_comm]
      have hlen' : xs.length = ys.length := Nat.succ_inj.mp hlen
      have hxlen : x.length = y.length := by
        have hle := hx x List.mem_cons_self
        have hyw := hy y List.mem_cons_self
        have hxs := length_flatten_le hx'
        have htotal := congrArg List.length h
        rw [List.flatten_cons, List.flatten_cons, List.length_append, List.length_append,
          hys] at htotal
        rw [hlen'] at hxs
        omega
      rw [List.flatten_cons, List.flatten_cons] at h
      obtain ⟨rfl, htail⟩ := List.append_inj h hxlen
      rw [ih hx' hy' hlen' htail]

theorem whole_iff (d : Division c ms) : d.Whole ↔ d.chunks.length = ms.length := by
  constructor
  · intro h
    rw [h, List.length_map]
  · intro h
    refine eq_of_flatten_eq d.length_le ?_ (by rw [h, List.length_map]) d.flatten_chunks
    intro y hy
    obtain ⟨m, -, rfl⟩ := List.mem_map.mp hy
    exact c.length_enc m

end Division

namespace Codec

variable {α : Type} (c : Codec α)

/-- The loop: every `recv` overwrites the front of the variable, and the variable is
then handled, which leaves it with a new value or ends the connection.  The result is
what was handled and, while the loop goes on, the state it is in. -/
def serve (handle : α → σ → Option (α × σ)) :
    List (List UInt8) → α → σ → List α × Option (α × σ)
  | [], a, s => ([], some (a, s))
  | x :: xs, a, s =>
      match handle (c.overwrite a x) s with
      | none => ([], none)
      | some (a', s') =>
          let r := serve handle xs a' s'
          (c.overwrite a x :: r.1, r.2)

variable {c} {handle : α → σ → Option (α × σ)}

theorem length_serve {xs : List (List UInt8)} {a : α} {s : σ}
    (h : (c.serve handle xs a s).2.isSome) : (c.serve handle xs a s).1.length = xs.length := by
  induction xs generalizing a s with
  | nil => rfl
  | cons x xs ih =>
      rw [serve] at h ⊢
      cases hm : handle (c.overwrite a x) s with
      | none => simp [hm] at h
      | some r =>
          simp only [hm] at h ⊢
          rw [List.length_cons, List.length_cons, ih h]

/-- Nothing is handled that ends the connection. -/
theorem accepted_of_mem_serve {Accepted : α → Prop}
    (hacc : ∀ m s, (handle m s).isSome ↔ Accepted m) {xs : List (List UInt8)} {a : α} {s : σ}
    {m : α} (hm : m ∈ (c.serve handle xs a s).1) : Accepted m := by
  induction xs generalizing a s with
  | nil => contradiction
  | cons x xs ih =>
      rw [serve] at hm
      cases hx : handle (c.overwrite a x) s with
      | none => simp [hx] at hm
      | some r =>
          simp only [hx, List.mem_cons] at hm
          rcases hm with rfl | hm
          · exact (hacc _ s).mp (by rw [hx, Option.isSome_some])
          · exact ih hm

/-- Whole messages are handled as they are, whatever the variable held before. -/
theorem serve_map_enc {Accepted : α → Prop} (hacc : ∀ m s, (handle m s).isSome ↔ Accepted m)
    {ms : List α} (h : ∀ m ∈ ms, Accepted m) (a : α) (s : σ) :
    (c.serve handle (ms.map c.enc) a s).1 = ms ∧
      (c.serve handle (ms.map c.enc) a s).2.isSome := by
  induction ms generalizing a s with
  | nil => exact ⟨rfl, rfl⟩
  | cons m ms ih =>
      obtain ⟨r, hr⟩ := Option.isSome_iff_exists.mp
        ((hacc m s).mpr (h m List.mem_cons_self))
      obtain ⟨hhandled, hopen⟩ := ih (fun x hx ↦ h x (List.mem_cons_of_mem _ hx)) r.1 r.2
      simp only [List.map_cons, serve, overwrite_enc, hr]
      exact ⟨by rw [hhandled], hopen⟩

end Codec

namespace Division

variable {α : Type} {c : Codec α} {ms : List α}

/-- **One `recv` for one message**: the loop handles the messages that were sent, each
once and in order, and goes on, exactly when the transport happens to keep them
together and none of them ends the connection. -/
theorem serve_eq_iff {handle : α → σ → Option (α × σ)} {Accepted : α → Prop}
    (hacc : ∀ m s, (handle m s).isSome ↔ Accepted m) (d : Division c ms) (a : α) (s : σ) :
    (∃ r, c.serve handle d.chunks a s = (ms, some r)) ↔ d.Whole ∧ ∀ m ∈ ms, Accepted m := by
  constructor
  · rintro ⟨r, hr⟩
    have hopen : (c.serve handle d.chunks a s).2.isSome := by rw [hr, Option.isSome_some]
    refine ⟨d.whole_iff.mpr ?_, fun m hm ↦ ?_⟩
    · rw [← Codec.length_serve hopen, hr]
    · have hm' : m ∈ (c.serve handle d.chunks a s).1 := by rwa [hr]
      exact Codec.accepted_of_mem_serve hacc hm'
  · rintro ⟨hwhole, hms⟩
    obtain ⟨hhandled, hopen⟩ := Codec.serve_map_enc (c := c) hacc hms a s
    obtain ⟨r, hr⟩ := Option.isSome_iff_exists.mp hopen
    exact ⟨r, by rw [hwhole]; exact Prod.ext hhandled hr⟩

end Division

/-! ## Exchanges with one `recv` each -/

/-- How many bytes each call of `recv` returns when at least `w` are there. -/
structure Recvs (w : Nat) where
  size : Nat → Nat
  pos : ∀ k, 0 < size k
  le : ∀ k, size k ≤ w

/-- The receiving end of a stream: what has arrived and has not been read, and the
number of calls of `recv` so far. -/
structure Inbox where
  unread : List UInt8
  count : Nat
deriving DecidableEq

/-- The next `recv`, after `sent` has arrived too. -/
def Recvs.recv {w : Nat} (r : Recvs w) (sent : List UInt8) (i : Inbox) : List UInt8 × Inbox :=
  let avail := i.unread ++ sent
  (avail.take (r.size i.count), ⟨avail.drop (r.size i.count), i.count + 1⟩)

namespace Codec

variable {α : Type} (c : Codec α)

/-- A sequence of exchanges.  Each is given by what the variable holds before and by the
answer that is sent; the result is what the variable holds after its `recv`. -/
def deliver (r : Recvs c.width) : List (α × α) → Inbox → List α
  | [], _ => []
  | (a, m) :: es, i =>
      let p := r.recv (c.enc m) i
      c.overwrite a p.1 :: deliver r es p.2

/-- Some answer is not complete after `k` bytes, given what `P` says the variable may
hold before it arrives. -/
def Partial (P : α → α → Prop) (k : Nat) : Prop :=
  ∃ a m, P a m ∧ c.overwrite a ((c.enc m).take k) ≠ m

variable {c} {r : Recvs c.width}

/-- A `recv` that returns a whole message into an empty inbox. -/
theorem deliver_cons {k : Nat} (hk : r.size k = c.width) (a m : α) (es : List (α × α)) :
    c.deliver r ((a, m) :: es) ⟨[], k⟩ = m :: c.deliver r es ⟨[], k + 1⟩ := by
  have hlen : (c.enc m).length = r.size k := by rw [hk, c.length_enc]
  simp only [deliver, Recvs.recv, List.nil_append, ← hlen, List.take_length, List.drop_length,
    overwrite_enc]

/-- Whole messages are delivered as they are, and leave nothing behind. -/
theorem deliver_append {es : List (α × α)} {k : Nat}
    (h : ∀ j < es.length, r.size (k + j) = c.width) (es' : List (α × α)) :
    c.deliver r (es ++ es') ⟨[], k⟩ =
      es.map Prod.snd ++ c.deliver r es' ⟨[], k + es.length⟩ := by
  induction es generalizing k with
  | nil => rfl
  | cons e es ih =>
      obtain ⟨a, m⟩ := e
      have hhead : r.size k = c.width := h 0 (Nat.zero_lt_succ _)
      have htail : ∀ j < es.length, r.size (k + 1 + j) = c.width := fun j hj ↦ by
        rw [Nat.add_assoc, Nat.add_comm 1]
        exact h (j + 1) (Nat.succ_lt_succ hj)
      rw [List.cons_append, deliver_cons hhead, ih htail, List.map_cons, List.cons_append,
        List.length_cons, Nat.add_assoc, Nat.add_comm 1]

theorem deliver_of_whole {es : List (α × α)} {k : Nat}
    (h : ∀ j < es.length, r.size (k + j) = c.width) :
    c.deliver r es ⟨[], k⟩ = es.map Prod.snd := by
  simpa [deliver] using deliver_append h []

/-- What the first exchange delivers from an empty inbox. -/
theorem head_deliver (k : Nat) (a m : α) (es : List (α × α)) :
    (c.deliver r ((a, m) :: es) ⟨[], k⟩).head? =
      some (c.overwrite a ((c.enc m).take (r.size k))) := rfl

/-- **One `recv` for one answer**, for given answers `ms`: they are delivered whatever
the variable held before if and only if every `recv` returns a whole one. -/
theorem forall_deliver_iff (hc : ∀ k < c.width, ∀ m, c.Partial (fun _ m' ↦ m' = m) k)
    (ms : List α) (k : Nat) :
    (∀ init : Nat → α, c.deliver r (ms.mapIdx fun j m ↦ (init j, m)) ⟨[], k⟩ = ms) ↔
      ∀ j < ms.length, r.size (k + j) = c.width := by
  constructor
  · intro h
    induction ms generalizing k with
    | nil => intro j hj; contradiction
    | cons m ms ih =>
        have hk : r.size k = c.width := by
          by_contra hne
          obtain ⟨a, _, rfl, hpart⟩ := hc (r.size k) (lt_of_le_of_ne (r.le k) hne) m
          have hhead := congrArg List.head? (h fun _ ↦ a)
          rw [List.mapIdx_cons, head_deliver, List.head?_cons, Option.some_inj] at hhead
          exact hpart hhead
        have htail : ∀ init : Nat → α,
            c.deliver r (ms.mapIdx fun j m ↦ (init j, m)) ⟨[], k + 1⟩ = ms := fun init ↦ by
          have hinit := h fun j ↦ init (j - 1)
          rw [List.mapIdx_cons, deliver_cons hk] at hinit
          exact List.tail_eq_of_cons_eq hinit
        rintro (_ | j) hj
        · exact hk
        · rw [Nat.add_comm j, ← Nat.add_assoc]
          exact ih (k + 1) htail j (Nat.lt_of_succ_lt_succ hj)
  · intro h init
    rw [deliver_of_whole (by simpa using h)]
    apply List.ext_getElem?
    intro j
    rw [List.getElem?_map, List.getElem?_mapIdx]
    cases ms[j]? <;> rfl

/-- **One `recv` for one answer**, for given calls of `recv`: every sequence of
exchanges that `P` admits is delivered if and only if every `recv` returns a whole
answer. -/
theorem forall_exchange_iff {P : α → α → Prop} (hc : ∀ k < c.width, c.Partial P k) :
    (∀ es : List {e : α × α // P e.1 e.2},
        c.deliver r (es.map Subtype.val) ⟨[], 0⟩ = es.map fun e ↦ e.1.2) ↔
      ∀ k, r.size k = c.width := by
  constructor
  · intro h k
    induction k using Nat.strong_induction_on with
    | _ k ih =>
        by_contra hne
        obtain ⟨a, m, hP, hpart⟩ := hc (r.size k) (lt_of_le_of_ne (r.le k) hne)
        have hes := h (List.replicate (k + 1) ⟨(a, m), hP⟩)
        -- the first `k` exchanges are whole, so the next one starts with an empty inbox
        rw [List.replicate_succ', List.map_append, List.map_append, deliver_append
          (fun j hj ↦ by simpa using ih j (by simpa using hj))] at hes
        have hlast := List.append_inj_right hes (by simp)
        simp only [List.length_map, List.length_replicate, Nat.zero_add] at hlast
        have hhead := congrArg List.head? hlast
        rw [List.map_singleton, head_deliver, List.map_singleton, List.head?_cons,
          Option.some_inj] at hhead
        exact hpart hhead
  · intro h es
    rw [deliver_of_whole fun j _ ↦ h _, List.map_map]
    rfl

/-- A block of bytes is incomplete until its last byte has come: some other content
differs from it in the first byte that has not. -/
theorem flat_partial {n : Nat} :
    ∀ k < (flat n).width, ∀ m, (flat n).Partial (fun _ m' ↦ m' = m) k := by
  intro k hk m
  change k < n at hk
  let other : UInt8 → UInt8 := fun b ↦ if b = 0 then 1 else 0
  have hother : ∀ b, other b ≠ b := fun b ↦ by
    by_cases hb : b = 0 <;> simp [other, hb, eq_comm]
  refine ⟨⟨m.bytes.map other, by simp⟩, m, rfl, fun h ↦ ?_⟩
  have hget := congrArg (fun o ↦ o.bytes[k]?) h
  have hlen := m.length_bytes
  simp [flat, overwrite, hk] at hget
  exact hother _ hget

end Codec

end Freelite.Lib
