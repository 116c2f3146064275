import Freelite.Lib.Stream
import Freelite.Router.ContainerPath
import Freelite.Router.LiteLib
import Freelite.Router.Unresolved
import Freelite.Router.Untouched

/-!
# A session thread and its client

`router/test_router.cpp`, `server_accept_request` in the container build from the call of
`getpeername` on, one system call at a time, with a client that does whatever it likes.

The thread answers every error it is told of by closing its connection and ending itself.
But not every error is told.  `substr` throws, and nobody catches; writing to a connection
that the other side has closed raises a signal; and an address in a request is used as it
is.  `harmless_iff_goes` says which steps the process survives.
-/

namespace Freelite

open Lib Routing

/-! ## What a request makes the session do -/

namespace Session

/-- The call of `routing.cpp` that serves a request. -/
def vcmCall (cid : Cid) (req : ReqMsg) : Option SessionCall :=
  match FuncCode.ofCode (ReqMsg.funcCode.get req) with
  | some .getNodeId => some (.vcmGetNodeId cid)
  | some .join => some (.vcmJoin cid)
  | _ => (target req).map .vcmVidNid

/-- The request has to be put to the manager. -/
def Asks (cid : Cid) (req : ReqMsg) (s : Routing) : Prop := ∃ o ∈ vcmCall cid req, o.Asks s

instance (cid : Cid) (req : ReqMsg) (s : Routing) : Decidable (Asks cid req s) :=
  inferInstanceAs (Decidable (∃ o ∈ vcmCall cid req, o.Asks s))

/-- The string that the request makes the session read, if any, ends within it. -/
def stringsEnd (req : ReqMsg) : Bool :=
  match FuncCode.ofCode (ReqMsg.funcCode.get req) with
  | some .allocLocalMem => (req.cstring AllocLocalMemReq.name.offset).isSome
  | some .freeLocalMem => (req.cstring FreeLocalMemReq.name.offset).isSome
  | _ => true

/-- The address at which `userspace_liteapi_send_reply_imm_fast` looks for the length of
the reply: it is the one in the request. -/
def polled (req : ReqMsg) : Option UInt64 :=
  match FuncCode.ofCode (ReqMsg.funcCode.get req) with
  | some .sendReplyImmFast =>
      if Backend.TooBig (SendReplyImmFastReq.size.get req) (SendReplyImmFastReq.maxRetSize.get req)
      then none
      else some (SendReplyImmFastReq.retLength.get req)
  | _ => none

/-- The system is asked to store at an address in the request, or to unmap it. -/
def handsOver (req : ReqMsg) : Bool :=
  match FuncCode.ofCode (ReqMsg.funcCode.get req) with
  | some .rdmaRead | some .receiveMessageFast | some .freeLocalMem => true
  | some .sendReplyImmFast => (polled req).isSome
  | _ => false

variable {ν β : Type*} {env : Env ν β} {cid : Cid} {req : ReqMsg} {rsp : RspMsg} {w w' : World ν β}

theorem dispatch_eq_undefined_iff :
    dispatch env cid req rsp w = .undefined ↔ stringsEnd req = false := by
  cases hf : FuncCode.ofCode (ReqMsg.funcCode.get req) with
  | none => simp [dispatch, stringsEnd, hf]
  | some f =>
      cases f <;> simp only [dispatch, stringsEnd, hf, callInt]
      case allocLocalMem => cases req.cstring AllocLocalMemReq.name.offset <;> simp
      case freeLocalMem => cases req.cstring FreeLocalMemReq.name.offset <;> simp
      all_goals simp

theorem stringsEnd_of_ne (h : dispatch env cid req rsp w ≠ .undefined) : stringsEnd req = true :=
  eq_true_of_ne_false fun hend ↦ h (dispatch_eq_undefined_iff.mpr hend)

/-- Only a request whose code is unknown ends the session. -/
theorem handsOver_of_close (h : dispatch env cid req rsp w = .close w') :
    handsOver req = false := by
  cases hf : FuncCode.ofCode (ReqMsg.funcCode.get req) with
  | none => simp [handsOver, hf]
  | some f =>
      cases f <;> simp only [dispatch, hf, callInt] at h
      case allocLocalMem => split at h <;> contradiction
      case freeLocalMem => split at h <;> contradiction
      all_goals contradiction

/-- What becomes of an exchange does not matter to a call that needs none. -/
theorem vcmHandler_peer {s : Routing} {o : SessionCall} (hmiss : o.lookup s = none)
    (h : ¬ o.Asks s) (peer peer' : Peer ν) (msg : VcmMsg) (v : ν) :
    vcmHandler peer msg s v = vcmHandler peer' msg s v := by
  have hc : s.clientSock = -1 := by
    by_contra hc
    exact h ⟨hmiss, hc⟩
  rw [vcmHandler_of_down hc, vcmHandler_of_down hc]

theorem join_peer (h : ¬ (SessionCall.vcmJoin cid).Asks w.routing) (peer : Peer ν) :
    w.join { env with peer } cid = w.join env cid := by
  simp only [World.join, vcmJoin]
  cases hfind : w.routing.cidVidMap.find cid with
  | some vid => rfl
  | none => rw [vcmHandler_peer (o := .vcmJoin cid) hfind h peer env.peer]

theorem tempNid_peer {node : Int32} (h : ¬ (SessionCall.vcmVidNid node).Asks w.routing)
    (peer : Peer ν) : w.tempNid { env with peer } node = w.tempNid env node := by
  simp only [World.tempNid, vcmVidNid]
  cases hfind : w.routing.vidNidMapCache.find node with
  | some nid => rfl
  | none => rw [vcmHandler_peer (o := .vcmVidNid node) hfind h peer env.peer]

/-- Nor does it to a request that needs none. -/
theorem dispatch_peer (h : ¬ Asks cid req w.routing) (peer : Peer ν) :
    dispatch { env with peer } cid req rsp w = dispatch env cid req rsp w := by
  cases hf : FuncCode.ofCode (ReqMsg.funcCode.get req) with
  | none => simp only [dispatch, hf]
  | some f =>
      have hcall (o : SessionCall) (ho : vcmCall cid req = some o) : ¬ o.Asks w.routing :=
        fun hasks ↦ h ⟨o, ho, hasks⟩
      cases f <;> simp only [dispatch, hf]
      case getNodeId => rfl
      case join => rw [join_peer (hcall _ (by simp only [vcmCall, hf]))]
      case allocRemoteMem =>
        rw [tempNid_peer (hcall _ (by simp only [vcmCall, target, hf, Option.map_some]))]
        rfl
      case sendReplyImmFast =>
        rw [tempNid_peer (hcall _ (by simp only [vcmCall, target, hf, Option.map_some]))]
        rfl
      case queryPort =>
        rw [tempNid_peer (hcall _ (by simp only [vcmCall, target, hf, Option.map_some]))]
        rfl
      all_goals rfl

end Session

/-! ## A session thread -/

/-- What `getpeername` stores into `sun_path`, the rest of which is zero: nothing for a
client that is not bound to a path. -/
abbrev SunPath := {path : List UInt8 // path.length ≤ 108}

/-- `sun_path` holds a string. -/
def SunPath.Ends (path : SunPath) : Prop := path.1.length < 108 ∨ 0 ∈ path.1

instance (path : SunPath) : Decidable path.Ends := inferInstanceAs (Decidable (_ ∨ _))

/-- What one call of `recv` stores. -/
abbrev Piece := {chunk : List UInt8 // chunk ≠ [] ∧ chunk.length ≤ 280}

/-- A connection to a client. -/
structure Connection where
  /-- The address of the client. -/
  path : SunPath
  /-- What the client has sent and nobody has received. -/
  inbox : List Piece
  /-- The client has closed its end. -/
  hungUp : Bool

/-- Where a session thread is. -/
inductive Stage
  | starting
  | receiving
  | handling
  /-- In `userspace_liteapi_send_reply_imm_fast`, waiting for the length of the reply. -/
  | polling (addr : UInt64)
  | sending
  | ended
deriving DecidableEq

/-- A session thread that has read its descriptor. -/
structure SessionThread where
  stage : Stage
  clientSock : ℕ
  cid : Cid
  req : ReqMsg
  rsp : RspMsg

/-- The thread when it has read its descriptor: its buffers are cleared. -/
def SessionThread.start (clientSock : ℕ) : SessionThread where
  stage := .starting
  clientSock
  cid := []
  req := .zero _
  rsp := .zero _

/-- The thread has closed its descriptor and ended. -/
def SessionThread.finish (c : SessionThread) : SessionThread := { c with stage := .ended }

/-- A step of a session thread, with what the system reports. -/
inductive ThreadAct (β : Type*)
  | getpeername (ok : Bool)
  | recv (ok : Bool)
  /-- The request is served.  It may need an exchange with the manager, and it may need
  the backend, which returns `res` and leaves the state `b`. -/
  | handle (x : Exchange) (res : BackendResult) (b : β)
  /-- A look at the length of the reply: is it followed by another one? -/
  | poll (again : Bool)
  | send (ok : Bool)

/-- What a step of a session thread does. -/
inductive Effect (β : Type*)
  /-- It goes on, and `k` is what its descriptor refers to then. -/
  | goes (c : SessionThread) (k : Option Connection) (w : World Unit β)
  /-- The process is terminated. -/
  | terminated
  /-- The step has no meaning. -/
  | undefined

/-- What is in the memory of the router process. -/
structure Memory (β : Type*) where
  /-- An `int` can be read at this address. -/
  readable : β → UInt64 → Bool
  /-- For this request the system stores into memory of the router's own, or unmaps it. -/
  strays : β → ReqMsg → Bool

section Steps

variable {β : Type*} (m : Memory β) (routerNid : Int32)

/-- What a session is given for one request. -/
def ThreadAct.env (x : Exchange) (res : BackendResult) (b : β) : Env Unit β where
  build := .container
  routerNid
  peer _ v := (x, v)
  backend _ _ := (res, b)

/-- `server_accept_request` from `getpeername` on, one system call at a time, with a
descriptor that refers to the connection `k`, if it is open.  `vcmBroken` says that a
`send` to the manager raises `SIGPIPE`: the manager has closed its end and, since the
connection is one over TCP, an earlier `send` has been answered by a reset.  The first one
after the manager has closed succeeds, and `recv` returns zero. -/
def serverAcceptRequest (vcmBroken : Bool) (k : Option Connection) (c : SessionThread)
    (w : World Unit β) : ThreadAct β → Option (Effect β)
  | .getpeername ok =>
      match c.stage, ok, k with
      | .starting, false, _ => some (.goes c.finish none w)
      | .starting, true, some k =>
          if k.path.Ends then
            match serverCid k.path.1 with
            -- `substr` throws
            | none => some .terminated
            | some cid => some (.goes { c with stage := .receiving, cid } (some k) w)
          else some .undefined
      | _, _, _ => none
  | .recv ok =>
      match c.stage, ok, k with
      | .receiving, false, _ => some (.goes c.finish none w)
      | .receiving, true, some k =>
          match k.inbox with
          | [] => if k.hungUp then some (.goes c.finish none w) else none
          | piece :: inbox =>
              some (.goes
                { c with stage := .handling, req := (Codec.flat 280).overwrite c.req piece.1 }
                (some { k with inbox }) w)
      | _, _, _ => none
  | .handle x res b =>
      match c.stage with
      | .handling =>
          -- the `send` of `vcm_handler` raises `SIGPIPE`
          if vcmBroken ∧ Session.Asks c.cid c.req w.routing then some .terminated
          else
            match Session.dispatch (ThreadAct.env routerNid x res b) c.cid c.req c.rsp w with
            | .undefined => some .undefined
            | .close w' => some (.goes c.finish none w')
            | .reply rsp w' =>
                if Session.handsOver c.req ∧ m.strays w.backend c.req then some .undefined
                else
                  match Session.polled c.req with
                  | none => some (.goes { c with stage := .sending, rsp } k w')
                  | some addr => some (.goes { c with stage := .polling addr, rsp } k w')
      | _ => none
  | .poll again =>
      match c.stage with
      | .polling addr =>
          if m.readable w.backend addr then
            some (.goes (if again then c else { c with stage := .sending }) k w)
          else some .terminated
      | _ => none
  | .send ok =>
      match c.stage, ok, k with
      | .sending, false, none => some (.goes c.finish none w)
      | .sending, ok, some k =>
          -- `send` raises `SIGPIPE`
          if k.hungUp then some .terminated
          else
            some (if ok then .goes { c with stage := .receiving } (some k) w
              else .goes c.finish none w)
      | _, _, _ => none

/-- The step is one that the process survives. -/
def Harmless (vcmBroken : Bool) (k : Option Connection) (c : SessionThread) (w : World Unit β) :
    ThreadAct β → Prop
  | .getpeername ok => ok → ∀ conn ∈ k, conn.path.Ends ∧ 8 ≤ (cstr conn.path.1).length
  | .recv _ => True
  | .handle .. =>
      ¬ (vcmBroken ∧ Session.Asks c.cid c.req w.routing) ∧ Session.stringsEnd c.req ∧
        ¬ (Session.handsOver c.req ∧ m.strays w.backend c.req)
  | .poll _ => ∀ addr, c.stage = .polling addr → m.readable w.backend addr
  | .send _ => ∀ conn ∈ k, ¬ conn.hungUp

variable {m routerNid} {vcmBroken : Bool} {k : Option Connection} {c : SessionThread}
  {w : World Unit β} {i : ThreadAct β} {r : Effect β}

/-- The process survives the step. -/
def Effect.Goes : Effect β → Prop
  | .goes _ _ _ => True
  | _ => False

theorem serverCid_ne_none_iff {path : List UInt8} :
    serverCid path ≠ none ↔ 8 ≤ (cstr path).length := by
  rw [serverCid, substr]
  split <;> simp [*]

/-! ### The cases -/

/-- The steps of a session thread: when they are taken, and what they do. -/
inductive ThreadStep (m : Memory β) (routerNid : Int32) (vcmBroken : Bool)
    (k : Option Connection) (c : SessionThread) (w : World Unit β) : ThreadAct β → Effect β → Prop
  | noName : c.stage = .starting →
      ThreadStep m routerNid vcmBroken k c w (.getpeername false) (.goes c.finish none w)
  | pastTheEnd {conn : Connection} : c.stage = .starting → k = some conn → ¬ conn.path.Ends →
      ThreadStep m routerNid vcmBroken k c w (.getpeername true) .undefined
  | throws {conn : Connection} : c.stage = .starting → k = some conn → conn.path.Ends →
      serverCid conn.path.1 = none →
      ThreadStep m routerNid vcmBroken k c w (.getpeername true) .terminated
  | named {conn : Connection} {cid : Cid} : c.stage = .starting → k = some conn →
      conn.path.Ends → serverCid conn.path.1 = some cid →
      ThreadStep m routerNid vcmBroken k c w (.getpeername true)
        (.goes { c with stage := .receiving, cid } (some conn) w)
  | recvError : c.stage = .receiving →
      ThreadStep m routerNid vcmBroken k c w (.recv false) (.goes c.finish none w)
  | hungUp {conn : Connection} : c.stage = .receiving → k = some conn → conn.inbox = [] →
      conn.hungUp = true →
      ThreadStep m routerNid vcmBroken k c w (.recv true) (.goes c.finish none w)
  | received {conn : Connection} {piece : Piece} {inbox : List Piece} : c.stage = .receiving →
      k = some conn → conn.inbox = piece :: inbox →
      ThreadStep m routerNid vcmBroken k c w (.recv true)
        (.goes { c with stage := .handling, req := (Codec.flat 280).overwrite c.req piece.1 }
          (some { conn with inbox }) w)
  | vcmPipe {x : Exchange} {res : BackendResult} {b : β} : c.stage = .handling →
      vcmBroken ∧ Session.Asks c.cid c.req w.routing →
      ThreadStep m routerNid vcmBroken k c w (.handle x res b) .terminated
  | unended {x : Exchange} {res : BackendResult} {b : β} : c.stage = .handling →
      ¬ (vcmBroken ∧ Session.Asks c.cid c.req w.routing) →
      Session.dispatch (ThreadAct.env routerNid x res b) c.cid c.req c.rsp w = .undefined →
      ThreadStep m routerNid vcmBroken k c w (.handle x res b) .undefined
  | unknown {x : Exchange} {res : BackendResult} {b : β} {w' : World Unit β} :
      c.stage = .handling → ¬ (vcmBroken ∧ Session.Asks c.cid c.req w.routing) →
      Session.dispatch (ThreadAct.env routerNid x res b) c.cid c.req c.rsp w = .close w' →
      ThreadStep m routerNid vcmBroken k c w (.handle x res b) (.goes c.finish none w')
  | strays {x : Exchange} {res : BackendResult} {b : β} {rsp : RspMsg} {w' : World Unit β} :
      c.stage = .handling → ¬ (vcmBroken ∧ Session.Asks c.cid c.req w.routing) →
      Session.dispatch (ThreadAct.env routerNid x res b) c.cid c.req c.rsp w = .reply rsp w' →
      Session.handsOver c.req ∧ m.strays w.backend c.req →
      ThreadStep m routerNid vcmBroken k c w (.handle x res b) .undefined
  | served {x : Exchange} {res : BackendResult} {b : β} {rsp : RspMsg} {w' : World Unit β}
      {stage : Stage} :
      c.stage = .handling → ¬ (vcmBroken ∧ Session.Asks c.cid c.req w.routing) →
      Session.dispatch (ThreadAct.env routerNid x res b) c.cid c.req c.rsp w = .reply rsp w' →
      ¬ (Session.handsOver c.req ∧ m.strays w.backend c.req) →
      stage = (Session.polled c.req).elim .sending .polling →
      ThreadStep m routerNid vcmBroken k c w (.handle x res b) (.goes { c with stage, rsp } k w')
  | looks {again : Bool} {addr : UInt64} : c.stage = .polling addr → m.readable w.backend addr →
      ThreadStep m routerNid vcmBroken k c w (.poll again)
        (.goes (if again then c else { c with stage := .sending }) k w)
  | faults {again : Bool} {addr : UInt64} : c.stage = .polling addr →
      ¬ m.readable w.backend addr →
      ThreadStep m routerNid vcmBroken k c w (.poll again) .terminated
  | noSocket : c.stage = .sending → k = none →
      ThreadStep m routerNid vcmBroken k c w (.send false) (.goes c.finish none w)
  | pipe {conn : Connection} {ok : Bool} : c.stage = .sending → k = some conn →
      conn.hungUp = true → ThreadStep m routerNid vcmBroken k c w (.send ok) .terminated
  | sent {conn : Connection} : c.stage = .sending → k = some conn → ¬ conn.hungUp = true →
      ThreadStep m routerNid vcmBroken k c w (.send true)
        (.goes { c with stage := .receiving } (some conn) w)
  | sendError {conn : Connection} : c.stage = .sending → k = some conn →
      ¬ conn.hungUp = true →
      ThreadStep m routerNid vcmBroken k c w (.send false) (.goes c.finish none w)

theorem threadStep_of_eq (h : serverAcceptRequest m routerNid vcmBroken k c w i = some r) :
    ThreadStep m routerNid vcmBroken k c w i r := by
  cases i with
  | getpeername ok =>
      simp only [serverAcceptRequest] at h
      split at h
      case h_1 hstage => exact Option.some_inj.mp h ▸ .noName hstage
      case h_2 conn hstage =>
        by_cases hends : conn.path.Ends
        · rw [if_pos hends] at h
          cases hcid : serverCid conn.path.1 with
          | none =>
              rw [hcid] at h
              exact Option.some_inj.mp h ▸ .throws hstage rfl hends hcid
          | some cid =>
              rw [hcid] at h
              exact Option.some_inj.mp h ▸ .named hstage rfl hends hcid
        · rw [if_neg hends] at h
          exact Option.some_inj.mp h ▸ .pastTheEnd hstage rfl hends
      case h_3 => contradiction
  | recv ok =>
      simp only [serverAcceptRequest] at h
      split at h
      case h_1 hstage => exact Option.some_inj.mp h ▸ .recvError hstage
      case h_2 conn hstage =>
        cases hinbox : conn.inbox with
        | nil =>
            rw [hinbox] at h
            simp only at h
            split_ifs at h with hup
            exact Option.some_inj.mp h ▸ .hungUp hstage rfl hinbox hup
        | cons piece inbox =>
            rw [hinbox] at h
            exact Option.some_inj.mp h ▸ .received hstage rfl hinbox
      case h_3 => contradiction
  | handle x res b =>
      simp only [serverAcceptRequest] at h
      split at h
      case h_2 => contradiction
      case h_1 hstage =>
        by_cases hpipe : vcmBroken ∧ Session.Asks c.cid c.req w.routing
        · rw [if_pos hpipe] at h
          exact Option.some_inj.mp h ▸ .vcmPipe hstage hpipe
        rw [if_neg hpipe] at h
        cases hd : Session.dispatch (ThreadAct.env routerNid x res b) c.cid c.req c.rsp w with
        | undefined =>
            rw [hd] at h
            exact Option.some_inj.mp h ▸ .unended hstage hpipe hd
        | close w' =>
            rw [hd] at h
            exact Option.some_inj.mp h ▸ .unknown hstage hpipe hd
        | reply rsp w' =>
            rw [hd] at h
            by_cases hstrays : Session.handsOver c.req ∧ m.strays w.backend c.req
            · simp only [if_pos hstrays] at h
              exact Option.some_inj.mp h ▸ .strays hstage hpipe hd hstrays
            · simp only [if_neg hstrays] at h
              have hserved := ThreadStep.served (k := k) hstage hpipe hd hstrays rfl
              cases hp : Session.polled c.req <;> rw [hp] at h hserved <;>
                exact Option.some_inj.mp h ▸ hserved
  | poll again =>
      simp only [serverAcceptRequest] at h
      split at h
      case h_2 => contradiction
      case h_1 addr hstage =>
        by_cases hread : m.readable w.backend addr
        · rw [if_pos hread] at h
          exact Option.some_inj.mp h ▸ .looks hstage hread
        · rw [if_neg hread] at h
          exact Option.some_inj.mp h ▸ .faults hstage hread
  | send ok =>
      simp only [serverAcceptRequest] at h
      split at h
      case h_1 hstage => exact Option.some_inj.mp h ▸ .noSocket hstage rfl
      case h_2 ok _ _ _ conn hstage =>
        by_cases hup : conn.hungUp = true
        · rw [if_pos hup] at h
          exact Option.some_inj.mp h ▸ .pipe hstage rfl hup
        · rw [if_neg hup] at h
          cases ok with
          | true => exact Option.some_inj.mp h ▸ .sent hstage rfl hup
          | false => exact Option.some_inj.mp h ▸ .sendError hstage rfl hup
      case h_3 => contradiction

theorem ThreadStep.eq (h : ThreadStep m routerNid vcmBroken k c w i r) :
    serverAcceptRequest m routerNid vcmBroken k c w i = some r := by
  cases h with
  | served hstage hpipe hd hstrays hnext =>
      simp only [serverAcceptRequest, hstage, if_neg hpipe, hd, if_neg hstrays]
      cases hp : Session.polled c.req <;> rw [hnext, hp] <;> rfl
  | unended hstage hpipe hd | unknown hstage hpipe hd =>
      simp only [serverAcceptRequest, hstage, if_neg hpipe, hd]
  | strays hstage hpipe hd hstrays =>
      simp only [serverAcceptRequest, hstage, if_neg hpipe, hd, if_pos hstrays]
  | _ => simp [serverAcceptRequest, *]

/-- **One step of a session thread**: the process survives it if and only if it is
harmless. -/
theorem harmless_iff_goes (h : serverAcceptRequest m routerNid vcmBroken k c w i = some r) :
    Harmless m vcmBroken k c w i ↔ r.Goes := by
  cases threadStep_of_eq h with
  | noName _ => exact iff_of_true (fun h ↦ absurd h Bool.false_ne_true) trivial
  | pastTheEnd _ hk hends => exact iff_of_false (fun h ↦ hends (h rfl _ hk).1) id
  | throws _ hk _ hcid =>
      exact iff_of_false (fun h ↦ serverCid_ne_none_iff.mpr (h rfl _ hk).2 hcid) id
  | @named conn cid _ hk hends hcid =>
      refine iff_of_true (fun _ conn' hk' ↦ ?_) trivial
      obtain rfl := Option.some_inj.mp (hk.symm.trans hk')
      exact ⟨hends, serverCid_ne_none_iff.mp (by rw [hcid]; exact Option.some_ne_none cid)⟩
  | recvError | hungUp | received => exact iff_of_true trivial trivial
  | vcmPipe _ hpipe => exact iff_of_false (fun h ↦ h.1 hpipe) id
  | unended _ _ hd =>
      have hend := Session.dispatch_eq_undefined_iff.mp hd
      exact iff_of_false (fun h ↦ Bool.false_ne_true (hend.symm.trans h.2.1)) id
  | unknown _ hpipe hd =>
      refine iff_of_true ⟨hpipe, Session.stringsEnd_of_ne (by rw [hd]; simp), fun h ↦ ?_⟩ trivial
      exact Bool.false_ne_true ((Session.handsOver_of_close hd).symm.trans h.1)
  | strays _ _ _ hstrays => exact iff_of_false (fun h ↦ h.2.2 hstrays) id
  | served _ hpipe hd hstrays _ =>
      exact iff_of_true ⟨hpipe, Session.stringsEnd_of_ne (by rw [hd]; simp), hstrays⟩ trivial
  | looks hstage hread =>
      refine iff_of_true (fun addr' haddr' ↦ ?_) trivial
      obtain rfl := Stage.polling.inj (hstage.symm.trans haddr')
      exact hread
  | faults hstage hread => exact iff_of_false (fun h ↦ hread (h _ hstage)) id
  | noSocket _ hk =>
      refine iff_of_true (fun conn hconn ↦ ?_) trivial
      rw [hk] at hconn
      contradiction
  | pipe _ hk hup => exact iff_of_false (fun h ↦ h _ hk hup) id
  | sent _ hk hup | sendError _ hk hup =>
      refine iff_of_true (fun conn hconn ↦ ?_) trivial
      obtain rfl := Option.some_inj.mp (hk.symm.trans hconn)
      exact hup

/-- A request that needs no exchange is served in the same way whatever an exchange would
have come to. -/
theorem handle_exchange (h : ¬ Session.Asks c.cid c.req w.routing) (x x' : Exchange)
    (res : BackendResult) (b : β) :
    serverAcceptRequest m routerNid vcmBroken k c w (.handle x' res b) =
      serverAcceptRequest m routerNid vcmBroken k c w (.handle x res b) := by
  have hd : Session.dispatch (ThreadAct.env routerNid x' res b) c.cid c.req c.rsp w =
      Session.dispatch (ThreadAct.env routerNid x res b) c.cid c.req c.rsp w :=
    @Session.dispatch_peer Unit β (ThreadAct.env routerNid x res b) c.cid c.req c.rsp w h
      fun _ v ↦ (x', v)
  simp only [serverAcceptRequest, hd]

/-- The thread has got to this step, and is not waiting for its client. -/
def SessionThread.Can (k : Option Connection) (c : SessionThread) : ThreadAct β → Prop
  | .getpeername ok => c.stage = .starting ∧ (ok → k.isSome)
  | .recv ok => c.stage = .receiving ∧ (ok → ∃ conn ∈ k, conn.inbox ≠ [] ∨ conn.hungUp)
  | .handle .. => c.stage = .handling
  | .poll _ => ∃ addr, c.stage = .polling addr
  | .send ok => c.stage = .sending ∧ (ok → k.isSome)

theorem ThreadStep.can (h : ThreadStep m routerNid vcmBroken k c w i r) : c.Can k i := by
  cases h with
  | noName hstage | recvError hstage | noSocket hstage =>
      exact ⟨hstage, fun h ↦ absurd h Bool.false_ne_true⟩
  | pastTheEnd hstage hk | throws hstage hk | named hstage hk | sent hstage hk
  | pipe hstage hk | sendError hstage hk => exact ⟨hstage, fun _ ↦ by rw [hk]; rfl⟩
  | hungUp hstage hk _ hup => exact ⟨hstage, fun _ ↦ ⟨_, hk, .inr hup⟩⟩
  | received hstage hk hinbox =>
      exact ⟨hstage, fun _ ↦ ⟨_, hk, .inl (hinbox ▸ List.cons_ne_nil _ _)⟩⟩
  | vcmPipe hstage | unended hstage | unknown hstage | strays hstage | served hstage =>
      exact hstage
  | looks hstage | faults hstage => exact ⟨_, hstage⟩

theorem SessionThread.Can.exists_threadStep (h : c.Can k i) :
    ∃ r, ThreadStep m routerNid vcmBroken k c w i r := by
  cases i with
  | getpeername ok =>
      obtain ⟨hstage, hopen⟩ := h
      cases ok with
      | false => exact ⟨_, .noName hstage⟩
      | true =>
          obtain ⟨conn, hk⟩ := Option.isSome_iff_exists.mp (hopen rfl)
          by_cases hends : conn.path.Ends
          · cases hcid : serverCid conn.path.1 with
            | none => exact ⟨_, .throws hstage hk hends hcid⟩
            | some cid => exact ⟨_, .named hstage hk hends hcid⟩
          · exact ⟨_, .pastTheEnd hstage hk hends⟩
  | recv ok =>
      obtain ⟨hstage, hready⟩ := h
      cases ok with
      | false => exact ⟨_, .recvError hstage⟩
      | true =>
          obtain ⟨conn, hk, hready⟩ := hready rfl
          cases hinbox : conn.inbox with
          | nil => exact ⟨_, .hungUp hstage hk hinbox (hready.resolve_left (absurd hinbox))⟩
          | cons piece inbox => exact ⟨_, .received hstage hk hinbox⟩
  | handle x res b =>
      by_cases hpipe : vcmBroken ∧ Session.Asks c.cid c.req w.routing
      · exact ⟨_, .vcmPipe h hpipe⟩
      cases hd : Session.dispatch (ThreadAct.env routerNid x res b) c.cid c.req c.rsp w with
      | undefined => exact ⟨_, .unended h hpipe hd⟩
      | close w' => exact ⟨_, .unknown h hpipe hd⟩
      | reply rsp w' =>
          by_cases hstrays : Session.handsOver c.req ∧ m.strays w.backend c.req
          · exact ⟨_, .strays h hpipe hd hstrays⟩
          · exact ⟨_, .served h hpipe hd hstrays rfl⟩
  | poll again =>
      obtain ⟨addr, hstage⟩ := h
      by_cases hread : m.readable w.backend addr
      · exact ⟨_, .looks hstage hread⟩
      · exact ⟨_, .faults hstage hread⟩
  | send ok =>
      obtain ⟨hstage, hopen⟩ := h
      cases k with
      | none =>
          cases ok with
          | false => exact ⟨_, .noSocket hstage rfl⟩
          | true => exact absurd (hopen rfl) Bool.false_ne_true
      | some conn =>
          by_cases hup : conn.hungUp = true
          · exact ⟨_, .pipe hstage rfl hup⟩
          · cases ok with
            | true => exact ⟨_, .sent hstage rfl hup⟩
            | false => exact ⟨_, .sendError hstage rfl hup⟩

/-- Whether a thread can take a step is up to its own connection. -/
theorem isSome_serverAcceptRequest :
    (serverAcceptRequest m routerNid vcmBroken k c w i).isSome ↔ c.Can k i := by
  rw [Option.isSome_iff_exists]
  constructor
  · rintro ⟨r, h⟩
    exact (threadStep_of_eq h).can
  · intro h
    obtain ⟨r, hr⟩ := h.exists_threadStep
    exact ⟨r, hr.eq⟩

/-- A thread that can take a step has not ended. -/
theorem SessionThread.Can.stage_ne_ended (h : c.Can k i) : c.stage ≠ .ended := by
  intro hend
  cases i with
  | getpeername ok | recv ok | send ok => exact absurd (hend.symm.trans h.1) Stage.noConfusion
  | handle x res b => exact absurd (hend.symm.trans h) Stage.noConfusion
  | poll again =>
      obtain ⟨addr, haddr⟩ := h
      exact absurd (hend.symm.trans haddr) Stage.noConfusion

theorem stage_ne_ended (h : serverAcceptRequest m routerNid vcmBroken k c w i = some r) :
    c.stage ≠ .ended := by
  have hcan : c.Can k i := isSome_serverAcceptRequest.mp (by rw [h, Option.isSome_some])
  exact hcan.stage_ne_ended

/-- What a step makes of the thread and of its connection: the descriptor is the one it
was, and it is open afterwards unless the thread has ended. -/
def Effect.Keeps (k : Option Connection) (c : SessionThread) : Effect β → Prop
  | .goes c' k' _ =>
      c'.clientSock = c.clientSock ∧ (c'.stage = .ended ∧ k' = none ∨
        c'.stage ≠ .ended ∧ (k.isSome → k'.isSome))
  | _ => True

theorem keeps_serverAcceptRequest
    (h : serverAcceptRequest m routerNid vcmBroken k c w i = some r) : r.Keeps k c := by
  cases threadStep_of_eq h with
  | noName | recvError | hungUp | unknown | noSocket | sendError => exact ⟨rfl, .inl ⟨rfl, rfl⟩⟩
  | named | received | sent => exact ⟨rfl, .inr ⟨Stage.noConfusion, fun _ ↦ rfl⟩⟩
  | served _ _ _ _ hnext =>
      refine ⟨rfl, .inr ⟨?_, id⟩⟩
      rw [hnext]
      cases Session.polled c.req <;> exact Stage.noConfusion
  | looks hstage =>
      split
      · exact ⟨rfl, .inr ⟨fun hend ↦ Stage.noConfusion (hstage.symm.trans hend), id⟩⟩
      · exact ⟨rfl, .inr ⟨Stage.noConfusion, id⟩⟩
  | pastTheEnd | throws | vcmPipe | unended | strays | faults | pipe => trivial

end Steps

end Freelite
