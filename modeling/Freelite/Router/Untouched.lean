import Freelite.Lib.Machine
import Freelite.Router.Sections

/-!
# Exchanges with the manager that fail

`vcm_handler` sends and receives through one buffer and tests both system calls for a
negative result only.  When the manager has closed the connection `recv` returns zero:
the buffer still holds the request, `vcm_handler` returns zero, and the request's own
id is entered into the tables as if the manager had sent it.

Every other failure leaves the tables alone (`untouched_iff_not_hungUp`), and as long
as no exchange ends in this one way, everything the three functions ever return comes
from the manager (`Noted.next`).
-/

namespace Freelite

open Lib

namespace Routing

/-! ## How an exchange ends -/

/-- How the exchange of a call with the manager ends. -/
inductive Ending
  | sendError
  | recvError
  /-- The manager has closed the connection. -/
  | closed
  | reply (rsp : VcmMsg)
deriving DecidableEq

/-- The other side of the connection in an exchange that ends like this. -/
def Ending.peer (e : Ending) : Peer Unit := fun _ v ↦
  match e with
  | sendError => (.sendError, v)
  | recvError => (.recvError, v)
  | closed => (.received [], v)
  | reply rsp => (.received (VcmMsg.codec.enc rsp), v)

namespace SessionCall

/-- A whole call of one of the functions: its return value and the state after it. -/
def through (routerNid : Int32) (e : Ending) : SessionCall → Routing → Int32 × Routing
  | vcmJoin cid, s => let (ret, s', _) := s.vcmJoin e.peer routerNid cid (); (ret, s')
  | vcmVidNid vid, s => let (ret, s', _) := s.vcmVidNid e.peer vid (); (ret, s')
  | vcmGetNodeId cid, s => (s.vcmGetNodeId cid, s)

/-- The call has to ask the manager, and is connected to it. -/
def Asks (o : SessionCall) (s : Routing) : Prop := o.lookup s = none ∧ s.clientSock ≠ -1

/-- The call has to ask the manager and does not get a reply. -/
def Fails (e : Ending) (o : SessionCall) (s : Routing) : Prop :=
  o.lookup s = none ∧ (s.clientSock = -1 ∨ ∀ rsp, e ≠ .reply rsp)

instance (o : SessionCall) (s : Routing) : Decidable (o.Asks s) :=
  inferInstanceAs (Decidable (_ ∧ _))

variable {routerNid : Int32} {o : SessionCall} {e : Ending} {s : Routing} {ret : Int32}

/-- What the functions make of the result of `vcm_handler`. -/
theorem through_of_vcmHandler (hmiss : o.lookup s = none) {msg : VcmMsg} {s' : Routing}
    (h : vcmHandler e.peer (o.request routerNid) s () = (ret, msg, s', ())) :
    o.through routerNid e s =
      if ret < 0 then (-1, s') else (msg.id, o.note routerNid msg.id s') := by
  cases o with
  | vcmJoin cid =>
      change s.cidVidMap.find cid = none at hmiss
      change vcmHandler e.peer ⟨nidVid, routerNid⟩ s () = _ at h
      simp only [through, vcmJoin_of_vcmHandler hmiss h]
      split <;> rfl
  | vcmVidNid vid =>
      change s.vidNidMapCache.find vid = none at hmiss
      change vcmHandler e.peer ⟨vidNid, vid⟩ s () = _ at h
      simp only [through, vcmVidNid_of_vcmHandler hmiss h]
      split <;> rfl
  | vcmGetNodeId cid => contradiction

/-- **What a call can do.**  It is answered from a table; it fails, and leaves the
tables alone; it enters what the manager has replied; or it enters its own request. -/
theorem through_cases (routerNid : Int32) (e : Ending) (o : SessionCall) (s : Routing) :
    (∃ ret, o.lookup s = some ret ∧ o.through routerNid e s = (ret, s)) ∨
    (o.Fails e s ∧ ¬ (o.Asks s ∧ e = .closed) ∧
      (o.through routerNid e s = (-1, s) ∨ o.through routerNid e s = (-1, s.vcmDisconn))) ∨
    (∃ rsp, o.Asks s ∧ e = .reply rsp ∧
      o.through routerNid e s = (rsp.id, o.note routerNid rsp.id s)) ∨
    (o.Asks s ∧ e = .closed ∧
      o.through routerNid e s =
        ((o.request routerNid).id, o.note routerNid (o.request routerNid).id s)) := by
  cases hl : o.lookup s with
  | some ret =>
      refine Or.inl ⟨ret, rfl, ?_⟩
      cases o with
      | vcmJoin cid => simp only [through, vcmJoin_of_find hl]
      | vcmVidNid vid => simp only [through, vcmVidNid_of_find hl]
      | vcmGetNodeId cid => exact Prod.ext (Option.some_inj.mp hl) rfl
  | none =>
      right
      by_cases hc : s.clientSock = -1
      · have h : vcmHandler e.peer (o.request routerNid) s () =
            (-1, o.request routerNid, s, ()) := vcmHandler_of_down hc _ _ _
        exact Or.inl ⟨⟨hl, Or.inl hc⟩, fun h ↦ h.1.2 hc, Or.inl (through_of_vcmHandler hl h)⟩
      · cases e with
        | sendError =>
            have h : vcmHandler Ending.sendError.peer (o.request routerNid) s () =
                (-1, o.request routerNid, s.vcmDisconn, ()) := vcmHandler_of_sendError hc rfl
            exact Or.inl ⟨⟨hl, Or.inr (by simp)⟩, by simp, Or.inr (through_of_vcmHandler hl h)⟩
        | recvError =>
            have h : vcmHandler Ending.recvError.peer (o.request routerNid) s () =
                (-1, o.request routerNid, s.vcmDisconn, ()) := vcmHandler_of_recvError hc rfl
            exact Or.inl ⟨⟨hl, Or.inr (by simp)⟩, by simp, Or.inr (through_of_vcmHandler hl h)⟩
        | closed =>
            have h : vcmHandler Ending.closed.peer (o.request routerNid) s () =
                (0, o.request routerNid, s, ()) := by
              rw [vcmHandler_of_received hc rfl, Codec.overwrite_nil]
            exact Or.inr (Or.inr ⟨⟨hl, hc⟩, rfl, through_of_vcmHandler hl h⟩)
        | reply rsp =>
            have h : vcmHandler (Ending.reply rsp).peer (o.request routerNid) s () =
                (0, rsp, s, ()) := vcmHandler_of_reply hc rfl
            exact Or.inr (Or.inl ⟨rsp, ⟨hl, hc⟩, rfl, through_of_vcmHandler hl h⟩)

/-- The call has failed as it should: it returns the error value and the tables are
exactly as before. -/
def Untouched (s : Routing) (r : Int32 × Routing) : Prop :=
  r.1 = -1 ∧ r.2.cidVidMap = s.cidVidMap ∧ r.2.vidNidMapCache = s.vidNidMapCache

/-- An entry that was not there makes a difference. -/
theorem not_untouched_note (hmiss : o.lookup s = none) (id : Int32) :
    ¬ Untouched s (ret, o.note routerNid id s) := by
  rintro ⟨-, hcid, hcache⟩
  cases o with
  | vcmJoin cid =>
      have h := congrArg (fun m ↦ m.find cid) hcid
      change s.cidVidMap.find cid = none at hmiss
      change (s.cidVidMap.insert cid id).find cid = s.cidVidMap.find cid at h
      rw [UnorderedMap.find_insert_self, hmiss] at h
      contradiction
  | vcmVidNid vid =>
      have h := congrArg (fun m ↦ m.find vid) hcache
      change s.vidNidMapCache.find vid = none at hmiss
      change (s.vidNidMapCache.insert vid id).find vid = s.vidNidMapCache.find vid at h
      rw [UnorderedMap.find_insert_self, hmiss] at h
      contradiction
  | vcmGetNodeId cid => contradiction

/-- **A failed exchange leaves the tables untouched** unless it fails by `recv`
returning zero. -/
theorem untouched_iff_not_hungUp (routerNid : Int32) (hfail : o.Fails e s) :
    Untouched s (o.through routerNid e s) ↔ ¬ (o.Asks s ∧ e = .closed) := by
  obtain ⟨ret, hl, -⟩ | ⟨-, hne, h | h⟩ | ⟨rsp, hasks, rfl, -⟩ | ⟨hasks, he, h⟩ :=
    through_cases routerNid e o s
  · rw [hfail.1] at hl
    contradiction
  · rw [h]
    exact iff_of_true ⟨rfl, rfl, rfl⟩ hne
  · rw [h]
    exact iff_of_true ⟨rfl, rfl, rfl⟩ hne
  · rcases hfail.2 with hc | hrsp
    · exact absurd hc hasks.2
    · exact absurd rfl (hrsp rsp)
  · rw [h]
    exact iff_of_false (not_untouched_note hfail.1 _) (not_not_intro ⟨hasks, he⟩)

end SessionCall

/-! ## Runs of calls -/

/-- The router and what the manager has sent it. -/
structure Witnessed where
  routing : Routing
  /-- The requests that were answered, with their replies, oldest first. -/
  replies : List (VcmMsg × VcmMsg)

namespace Witnessed

/-- What is kept of the exchange of a call. -/
def kept (routerNid : Int32) (s : Routing) (o : SessionCall) : Ending → List (VcmMsg × VcmMsg)
  | .reply rsp => if o.Asks s then [(o.request routerNid, rsp)] else []
  | _ => []

/-- A call whose exchange, if it has one, ends like `i.2`. -/
def next (routerNid : Int32) (w : Witnessed) (i : SessionCall × Ending) : Option Witnessed :=
  some
    { routing := (i.1.through routerNid i.2 w.routing).2
      replies := w.replies ++ kept routerNid w.routing i.1 i.2 }

variable (s₀ : Routing) (replies : List (VcmMsg × VcmMsg))

/-- The manager has sent this vid for a container of the router, or it was in the table
to begin with. -/
def SentVid (vid : Int32) : Prop :=
  (∃ cid, s₀.cidVidMap.find cid = some vid) ∨
    ∃ q ∈ replies, q.1.funcCode = nidVid ∧ q.2.id = vid

/-- The manager has sent this nid for this vid, or this vid for a container on this nid,
or they were in the cache to begin with. -/
def SentNid (vid nid : Int32) : Prop :=
  s₀.vidNidMapCache.find vid = some nid ∨
    ∃ q ∈ replies, (q.1 = ⟨vidNid, vid⟩ ∧ q.2.id = nid) ∨ (q.1 = ⟨nidVid, nid⟩ ∧ q.2.id = vid)

/-- The manager has sent what the call returns. -/
def Sent (ret : Int32) : SessionCall → Prop
  | .vcmJoin _ => SentVid s₀ replies ret
  | .vcmVidNid vid => SentNid s₀ replies vid ret
  | .vcmGetNodeId _ => SentVid s₀ replies ret

/-- A call does what is expected of it: it returns the error value or what the manager
has sent, and if its exchange fails the tables are untouched. -/
def Expected (routerNid : Int32) (w : Witnessed) (i : SessionCall × Ending) : Prop :=
  let r := i.1.through routerNid i.2 w.routing
  (i.1.Fails i.2 w.routing → SessionCall.Untouched w.routing r) ∧
    (r.1 = -1 ∨ Sent s₀ (w.replies ++ kept routerNid w.routing i.1 i.2) r.1 i.1)

/-- `recv` does not return zero. -/
def NotHungUp (w : Witnessed) (i : SessionCall × Ending) : Prop :=
  ¬ (i.1.Asks w.routing ∧ i.2 = .closed)

/-- Everything in the tables has been sent by the manager. -/
structure Noted (w : Witnessed) : Prop where
  cids : ∀ cid vid, w.routing.cidVidMap.find cid = some vid → SentVid s₀ w.replies vid
  cache : ∀ vid nid, w.routing.vidNidMapCache.find vid = some nid → SentNid s₀ w.replies vid nid

section

variable {s₀ : Routing} {w w' : Witnessed} {routerNid : Int32} {o : SessionCall} {e : Ending}
  {replies : List (VcmMsg × VcmMsg)}

theorem SentVid.append {vid : Int32} (h : SentVid s₀ replies vid) (more : List (VcmMsg × VcmMsg)) :
    SentVid s₀ (replies ++ more) vid := by
  rcases h with h | ⟨q, hq, h⟩
  · exact Or.inl h
  · exact Or.inr ⟨q, List.mem_append_left _ hq, h⟩

theorem SentNid.append {vid nid : Int32} (h : SentNid s₀ replies vid nid)
    (more : List (VcmMsg × VcmMsg)) : SentNid s₀ (replies ++ more) vid nid := by
  rcases h with h | ⟨q, hq, h⟩
  · exact Or.inl h
  · exact Or.inr ⟨q, List.mem_append_left _ hq, h⟩

theorem Sent.append {ret : Int32} (h : Sent s₀ replies ret o) (more : List (VcmMsg × VcmMsg)) :
    Sent s₀ (replies ++ more) ret o := by
  cases o with
  | vcmJoin cid => exact SentVid.append h more
  | vcmVidNid vid => exact SentNid.append h more
  | vcmGetNodeId cid => exact SentVid.append h more

theorem noted_start (s₀ : Routing) : Noted s₀ ⟨s₀, []⟩ where
  cids cid _ h := Or.inl ⟨cid, h⟩
  cache _ _ h := Or.inl h

/-- More replies, and the same tables. -/
theorem Noted.of_eq (h : Noted s₀ w) {s : Routing} (hcid : s.cidVidMap = w.routing.cidVidMap)
    (hcache : s.vidNidMapCache = w.routing.vidNidMapCache) (more : List (VcmMsg × VcmMsg)) :
    Noted s₀ ⟨s, w.replies ++ more⟩ where
  cids cid vid hfind := (h.cids cid vid (hcid ▸ hfind)).append more
  cache vid nid hfind := (h.cache vid nid (hcache ▸ hfind)).append more

/-- What a table answers has been sent. -/
theorem Noted.sent (h : Noted s₀ w) {ret : Int32} (hl : o.lookup w.routing = some ret) :
    ret = -1 ∨ Sent s₀ w.replies ret o := by
  cases o with
  | vcmJoin cid => exact Or.inr (h.cids cid ret hl)
  | vcmVidNid vid => exact Or.inr (h.cache vid ret hl)
  | vcmGetNodeId cid =>
      obtain rfl : w.routing.vcmGetNodeId cid = ret := Option.some_inj.mp hl
      rw [vcmGetNodeId_eq]
      cases hfind : w.routing.cidVidMap.find cid with
      | none => exact Or.inl rfl
      | some vid => exact Or.inr (h.cids cid vid hfind)

/-- What the manager replies has been sent, and may be entered. -/
theorem Noted.replied (routerNid : Int32) (h : Noted s₀ w) (hmiss : o.lookup w.routing = none)
    (rsp : VcmMsg) :
    Sent s₀ (w.replies ++ [(o.request routerNid, rsp)]) rsp.id o ∧
      Noted s₀ ⟨o.note routerNid rsp.id w.routing,
        w.replies ++ [(o.request routerNid, rsp)]⟩ := by
  have hmem : (o.request routerNid, rsp) ∈ w.replies ++ [(o.request routerNid, rsp)] :=
    List.mem_append_right _ (List.mem_singleton.mpr rfl)
  cases o with
  | vcmJoin cid =>
      have hsent : SentVid s₀ (w.replies ++ [((SessionCall.vcmJoin cid).request routerNid, rsp)])
          rsp.id := Or.inr ⟨_, hmem, rfl, rfl⟩
      refine ⟨hsent, ?_, ?_⟩
      · intro cid' vid hfind
        rcases UnorderedMap.find_insert_iff.mp hfind with hfind | ⟨-, -, rfl⟩
        · exact (h.cids cid' vid hfind).append _
        · exact hsent
      · intro vid nid hfind
        rcases UnorderedMap.find_insert_iff.mp hfind with hfind | ⟨rfl, -, rfl⟩
        · exact (h.cache vid nid hfind).append _
        · exact Or.inr ⟨_, hmem, Or.inr ⟨rfl, rfl⟩⟩
  | vcmVidNid vid =>
      have hsent : SentNid s₀ (w.replies ++ [((SessionCall.vcmVidNid vid).request routerNid, rsp)])
          vid rsp.id := Or.inr ⟨_, hmem, Or.inl ⟨rfl, rfl⟩⟩
      refine ⟨hsent, ?_, ?_⟩
      · intro cid' vid' hfind
        exact (h.cids cid' vid' hfind).append _
      · intro vid' nid hfind
        rcases UnorderedMap.find_insert_iff.mp hfind with hfind | ⟨rfl, -, rfl⟩
        · exact (h.cache vid' nid hfind).append _
        · exact hsent
  | vcmGetNodeId cid => contradiction

/-- Nothing is kept of a call that does not ask. -/
theorem kept_of_not_asks {s : Routing} (h : ¬ o.Asks s) : kept routerNid s o e = [] := by
  cases e with
  | reply rsp => rw [kept, if_neg h]
  | _ => rfl

theorem kept_of_fails {s : Routing} (h : o.Fails e s) : kept routerNid s o e = [] := by
  cases e with
  | reply rsp =>
      rcases h.2 with hc | hrsp
      · exact kept_of_not_asks fun hasks ↦ hasks.2 hc
      · exact absurd rfl (hrsp rsp)
  | _ => rfl

/-- **One call** that is not hung up on does what is expected of it, and the tables go on
holding only what the manager has sent. -/
theorem Noted.next {i : SessionCall × Ending} (h : Noted s₀ w) (hopen : NotHungUp w i)
    (hi : next routerNid w i = some w') : Expected s₀ routerNid w i ∧ Noted s₀ w' := by
  obtain ⟨o, e⟩ := i
  obtain rfl := Option.some_inj.mp hi
  obtain ⟨ret, hl, hr⟩ | ⟨hfail, -, hr⟩ | ⟨rsp, hasks, rfl, hr⟩ | ⟨hasks, rfl, -⟩ :=
    SessionCall.through_cases routerNid e o w.routing
  · have hnot : ¬ o.Asks w.routing := fun hasks ↦ by
      rw [hasks.1] at hl
      contradiction
    have hfail : ¬ o.Fails e w.routing := fun hfail ↦ by
      rw [hfail.1] at hl
      contradiction
    simp only [Expected, hr, kept_of_not_asks hnot, List.append_nil]
    exact ⟨⟨fun hf ↦ absurd hf hfail, h.sent hl⟩, h⟩
  · rcases hr with hr | hr
    · simp only [Expected, hr, kept_of_fails hfail, List.append_nil]
      exact ⟨⟨fun _ ↦ ⟨rfl, rfl, rfl⟩, Or.inl trivial⟩, h⟩
    · simp only [Expected, hr, kept_of_fails hfail]
      exact ⟨⟨fun _ ↦ ⟨rfl, rfl, rfl⟩, Or.inl trivial⟩,
        h.of_eq (s := w.routing.vcmDisconn) rfl rfl []⟩
  · obtain ⟨hsent, hnoted⟩ := h.replied routerNid hasks.1 rsp
    have hfail : ¬ o.Fails (.reply rsp) w.routing := fun hfail ↦
      hfail.2.elim hasks.2 fun hrsp ↦ hrsp rsp rfl
    simp only [Expected, hr, kept, if_pos hasks]
    exact ⟨⟨fun hf ↦ absurd hf hfail, Or.inr hsent⟩, hnoted⟩
  · exact absurd ⟨hasks, rfl⟩ hopen

end

/-- **When the tables stay untouched by failures.**  A call that misses the table and
gets no reply returns the error value and leaves both tables exactly as before if and
only if it is not `recv` returning zero that fails; and in a run of calls every call
does what is expected of it if and only if that never happens. -/
theorem untouched_iff (routerNid : Int32) (s₀ : Routing) (calls : List (SessionCall × Ending)) :
    (∀ (o : SessionCall) (e : Ending) (s : Routing), o.Fails e s →
      (SessionCall.Untouched s (o.through routerNid e s) ↔ ¬ (o.Asks s ∧ e = .closed))) ∧
    (Machine.Meets (next routerNid) NotHungUp ⟨s₀, []⟩ calls ↔
      Machine.Meets (next routerNid) (Expected s₀ routerNid) ⟨s₀, []⟩ calls) := by
  refine ⟨fun o e s ↦ SessionCall.untouched_iff_not_hungUp routerNid, fun h ↦ ?_, fun h ↦ ?_⟩
  · refine Machine.meets_of_meets (noted_start s₀) h ?_
    intro w i w' hnoted hopen hi
    exact hnoted.next hopen hi
  · refine Machine.meets_of_meets trivial h (P := fun _ ↦ True) ?_
    intro w i w' _ hexpected _
    refine ⟨fun hhung ↦ ?_, trivial⟩
    have hfail : i.1.Fails i.2 w.routing := ⟨hhung.1.1, Or.inr fun rsp ↦ by simp [hhung.2]⟩
    exact (SessionCall.untouched_iff_not_hungUp routerNid hfail).mp (hexpected.1 hfail) hhung

/-- The manager closes the connection while the router asks for the nid of vid 7: the
router takes 7 for an answer, and keeps it. -/
theorem not_untouched_hungUp :
    ¬ ∀ (o : SessionCall) (e : Ending) (s : Routing), o.Fails e s →
      SessionCall.Untouched s (o.through 1 e s) := by
  intro h
  have hs := h (.vcmVidNid 7) .closed (.start ⟨3, by decide⟩) ⟨rfl, Or.inr fun rsp ↦ by simp⟩
  have hret : ((SessionCall.vcmVidNid 7).through 1 .closed (.start ⟨3, by decide⟩)).1 = 7 := by
    decide
  exact absurd (hret.symm.trans hs.1) (by decide)

end Witnessed

end Routing

end Freelite
