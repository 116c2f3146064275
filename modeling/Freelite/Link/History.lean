import Freelite.Link.Reported
import Freelite.Link.Transparency
import Freelite.Router.SessionThread

/-!
# What a session remembers

`router/test_router.cpp`, `server_accept_request`: a session clears its response buffer
once and then uses it for all its requests.  A branch writes the `int` of the response,
and the backend writes the members it has been given the address of, if it does.  What
nobody writes goes out as an earlier request left it, and an earlier request may have left
it in the other member of the union.

Whether that matters depends on what the function of the client library reads.
`LibCall.independent_iff` is about all pairs of histories: the results of a call are the
same after both exactly when the calls made for it write everything that is read.
-/

namespace Freelite

open Lib

/-! ## The session's side -/

/-- Translating a target makes no backend call. -/
@[simp] theorem World.backend_tempNid {ν β : Type*} {env : Env ν β} (node : Int32)
    (w : World ν β) : (w.tempNid env node).2.backend = w.backend := by
  unfold tempNid
  cases env.build <;> rfl

namespace Session

variable {ν β : Type*} {env : Env ν β} {cid : Cid} {req : ReqMsg} {rsp rsp' : RspMsg}
  {w w' : World ν β}

/-- The request is one a session answers: its code is known, and the string that the
session reads from it ends. -/
def WellFormed (req : ReqMsg) : Prop :=
  (FuncCode.ofCode (ReqMsg.funcCode.get req)).isSome ∧ stringsEnd req = true

/-- The response buffer and the world after a list of requests, if all of them have been
answered. -/
def serve (env : Env ν β) (cid : Cid) (reqs : List ReqMsg) (s : RspMsg × World ν β) :
    Option (RspMsg × World ν β) :=
  reqs.foldlM (fun s req ↦
    match dispatch env cid req s.1 s.2 with
    | .reply rsp w => some (rsp, w)
    | _ => none) s

/-- Whether a request is answered is a matter of the request alone. -/
theorem exists_reply_iff (env : Env ν β) (cid : Cid) (rsp : RspMsg) (w : World ν β) :
    (∃ rsp' w', dispatch env cid req rsp w = .reply rsp' w') ↔ WellFormed req := by
  constructor
  · rintro ⟨rsp', w', h⟩
    refine ⟨?_, stringsEnd_of_ne (by rw [h]; simp)⟩
    by_contra hf
    rw [Option.not_isSome_iff_eq_none] at hf
    simp [dispatch, hf] at h
  · rintro ⟨hf, hend⟩
    have hne : dispatch env cid req rsp w ≠ .undefined := by
      rw [Ne, dispatch_eq_undefined_iff, hend]
      simp
    obtain ⟨f, hf⟩ := Option.isSome_iff_exists.mp hf
    cases hd : dispatch env cid req rsp w with
    | reply rsp' w' => exact ⟨rsp', w', rfl⟩
    | undefined => exact absurd hd hne
    | close w' =>
        cases f <;> simp only [dispatch, hf, callInt] at hd
        case allocLocalMem => split at hd <;> contradiction
        case freeLocalMem => split at hd <;> contradiction
        all_goals contradiction

/-- A history is served exactly when its requests are well-formed. -/
theorem serve_isSome_iff {reqs : List ReqMsg} {s : RspMsg × World ν β} :
    (serve env cid reqs s).isSome ↔ ∀ req ∈ reqs, WellFormed req := by
  induction reqs generalizing s with
  | nil => simp [serve]
  | cons req reqs ih =>
      rw [List.forall_mem_cons, ← exists_reply_iff env cid s.1 s.2, serve, List.foldlM_cons]
      cases hd : dispatch env cid req s.1 s.2 with
      | reply rsp w =>
          refine Iff.trans ih (and_iff_right ⟨rsp, w, rfl⟩).symm
      | close w => simp
      | undefined => simp

/-! ### What the calls made for a request return -/

/-- What `vcm_get_node_id`, `vcm_join` or `vcm_vid_nid` returns for a request, if it is
called. -/
def vcmResult (env : Env ν β) (cid : Cid) (req : ReqMsg) (w : World ν β) : Option Int32 :=
  match FuncCode.ofCode (ReqMsg.funcCode.get req) with
  | some .getNodeId => some (w.getNodeId env cid)
  | some .join => some (w.join env cid).1
  | _ => (target req).map fun node ↦ (w.tempNid env node).1

/-- The calls made for a request return `n`, if it is one of the manager's, and `res`, if
it is one of the backend. -/
structure Given (env : Env ν β) (cid : Cid) (req : ReqMsg) (w : World ν β) (n : Int32)
    (res : BackendResult) : Prop where
  vcm : ∀ m ∈ vcmResult env cid req w, m = n
  backend : ∀ rsp rsp' w' c, dispatch env cid req rsp w = .reply rsp' w' →
    w'.calls = w.calls ++ [c] → (env.backend c w.backend).1 = res

/-- What is written to the response, given the results. -/
def store (f : Option FuncCode) (n : Int32) (res : BackendResult) (rsp : RspMsg) : RspMsg :=
  match f with
  | some .getNodeId | some .join => RspMsg.intRsp.set n rsp
  | some .receiveMessageFast =>
      RspMsg.intRsp.set res.ret <|
        output ReceiveMessageFastRsp.retLength res.retLength <|
        output ReceiveMessageFastRsp.descriptor res.descriptor rsp
  | some .allocLocalMem =>
      RspMsg.intRsp.set res.ret (output AllocLocalMemRsp.remoteAddr res.addr rsp)
  | _ => RspMsg.intRsp.set res.ret rsp

variable {n : Int32} {res : BackendResult}

/-- The functions whose branch passes the `int` of one backend call back, and nothing
else. -/
def PassesInt : FuncCode → Prop
  | .getNodeId | .join | .receiveMessageFast | .allocLocalMem => False
  | _ => True

theorem store_of_passesInt {f : FuncCode} (hpass : PassesInt f) (n : Int32) (res : BackendResult)
    (rsp : RspMsg) : store (some f) n res rsp = RspMsg.intRsp.set res.ret rsp := by
  cases f
  case getNodeId => exact hpass.elim
  case join => exact hpass.elim
  case receiveMessageFast => exact hpass.elim
  case allocLocalMem => exact hpass.elim
  all_goals rfl

/-- Such a branch translates the target of the request, if it has one, and makes its
call. -/
theorem exists_callInt (env : Env ν β) (cid : Cid) (rsp : RspMsg) (w : World ν β) {f : FuncCode}
    (hf : FuncCode.ofCode (ReqMsg.funcCode.get req) = some f) (hpass : PassesInt f)
    (hend : stringsEnd req = true) :
    ∃ c w₁, dispatch env cid req rsp w = callInt env c rsp w₁ ∧ w₁.calls = w.calls ∧
      w₁.backend = w.backend := by
  cases ht : target req with
  | some node =>
      obtain ⟨c, -, hbranch⟩ := dispatch_of_target env cid rsp w ht
      exact ⟨c, _, hbranch, World.calls_tempNid node w, World.backend_tempNid node w⟩
  | none =>
      cases f
      case getNodeId => exact hpass.elim
      case join => exact hpass.elim
      case receiveMessageFast => exact hpass.elim
      case allocLocalMem => exact hpass.elim
      case allocRemoteMem => simp [target, hf] at ht
      case sendReplyImmFast => simp [target, hf] at ht
      case queryPort => simp [target, hf] at ht
      case freeLocalMem =>
        simp only [stringsEnd, hf] at hend
        obtain ⟨name, hname⟩ := Option.isSome_iff_exists.mp hend
        exact ⟨_, w, by simp only [dispatch, hf, hname]; rfl, rfl, rfl⟩
      all_goals exact ⟨_, w, by simp only [dispatch, hf]; rfl, rfl, rfl⟩

theorem Given.reply_of_passesInt (h : Given env cid req w n res)
    (hd : dispatch env cid req rsp w = .reply rsp' w') {f : FuncCode}
    (hf : FuncCode.ofCode (ReqMsg.funcCode.get req) = some f) (hpass : PassesInt f) :
    rsp' = store (some f) n res rsp := by
  have hend : stringsEnd req = true := stringsEnd_of_ne (by rw [hd]; simp)
  obtain ⟨c, w₁, hbranch, hcalls, hbackend⟩ := exists_callInt env cid rsp w hf hpass hend
  have hres : (env.backend c w₁.backend).1 = res := by
    rw [hbackend]
    exact h.backend rsp _ _ c hbranch (congrArg (· ++ [c]) hcalls)
  rw [hbranch] at hd
  injection hd with hrsp
  rw [store_of_passesInt hpass, ← hrsp, ← hres]

/-- **The response is made of the results** and of what was in the buffer. -/
theorem Given.reply (h : Given env cid req w n res)
    (hd : dispatch env cid req rsp w = .reply rsp' w') :
    rsp' = store (FuncCode.ofCode (ReqMsg.funcCode.get req)) n res rsp := by
  cases hf : FuncCode.ofCode (ReqMsg.funcCode.get req) with
  | none => simp [dispatch, hf] at hd
  | some f =>
      have hvcm := h.vcm
      have hbackend := h.backend rsp rsp' w'
      have hd' := hd
      cases f
      case getNodeId =>
        simp only [vcmResult, hf, Option.mem_some_iff, forall_eq'] at hvcm
        simp only [dispatch, hf, hvcm] at hd
        injection hd with hrsp
        exact hrsp.symm
      case join =>
        simp only [vcmResult, hf, Option.mem_some_iff, forall_eq'] at hvcm
        simp only [dispatch, hf, hvcm] at hd
        injection hd with hrsp
        exact hrsp.symm
      case receiveMessageFast =>
        simp only [dispatch, hf] at hd'
        injection hd' with hrsp hw
        have hres := hbackend _ hd (by rw [← hw]; rfl)
        rw [← hrsp, ← hres]
        rfl
      case allocLocalMem =>
        simp only [dispatch, hf] at hd'
        split at hd'
        · contradiction
        · injection hd' with hrsp hw
          have hres := hbackend _ hd (by rw [← hw]; rfl)
          rw [← hrsp, ← hres]
          rfl
      all_goals exact h.reply_of_passesInt hd hf trivial

/-- Of the `int` the buffer keeps nothing. -/
theorem get_intRsp_store (f : Option FuncCode) (n : Int32) (res : BackendResult)
    (rsp rsp' : RspMsg) :
    RspMsg.intRsp.get (store f n res rsp) = RspMsg.intRsp.get (store f n res rsp') := by
  unfold store
  split <;> simp only [Field.get_set_self]

/-- A member of the response that the backend has been given the address of. -/
theorem get_output_eq_getD {α : Type} (f : Field 24 α) (a : Option α) (rsp : RspMsg) :
    f.get (output f a rsp) = a.getD (f.get rsp) := by
  cases a with
  | none => rfl
  | some a => exact get_output_self f a rsp

theorem get_descriptor_store (n : Int32) (res : BackendResult) (rsp : RspMsg) :
    ReceiveMessageFastRsp.descriptor.get (store (some .receiveMessageFast) n res rsp) =
      res.descriptor.getD (ReceiveMessageFastRsp.descriptor.get rsp) := by
  simp (disch := decide) only [store, Field.get_set_of_disjoint, get_output_of_disjoint,
    get_output_eq_getD]

theorem get_retLength_store (n : Int32) (res : BackendResult) (rsp : RspMsg) :
    ReceiveMessageFastRsp.retLength.get (store (some .receiveMessageFast) n res rsp) =
      res.retLength.getD (ReceiveMessageFastRsp.retLength.get rsp) := by
  simp (disch := decide) only [store, Field.get_set_of_disjoint, get_output_of_disjoint,
    get_output_eq_getD]

theorem get_remoteAddr_store (n : Int32) (res : BackendResult) (rsp : RspMsg) :
    AllocLocalMemRsp.remoteAddr.get (store (some .allocLocalMem) n res rsp) =
      res.addr.getD (AllocLocalMemRsp.remoteAddr.get rsp) := by
  simp (disch := decide) only [store, Field.get_set_of_disjoint, get_output_eq_getD]

end Session

/-! ## The library's side -/

/-- A call of a function of the client library, the one for tests included. -/
inductive LibCall
  | api (c : ApiCall)
  | allocLocalMemTest (name : List UInt8) (size : UInt64)

namespace LibCall

variable {κ ν β : Type*}

/-- The request of the call. -/
def request : LibCall → Option ReqMsg
  | api c => c.request
  | allocLocalMemTest name size => LiteLib.allocLocalMemReq name size

/-- The call, made with the output parameters pointing to `out`: the return value and
what is in the caller's variables afterwards. -/
def run (rpc : RpcHandler κ) (os : ClientOs κ) (rsp₀ : RspMsg) (out : Outputs) (k : κ) :
    LibCall → Option (Int32 × Outputs × κ)
  | api c => c.run rpc os rsp₀ out k
  | allocLocalMemTest name size =>
      (LiteLib.userspaceLiteapiAllocLocalMemTest rpc rsp₀ name size k).map fun (r, k') ↦
        (r.ret,
          { out with
            localAddr := r.localAddr.getD out.localAddr
            remoteAddr := r.remoteAddr.getD out.remoteAddr },
          k')

section Exchange

variable {rpc : RpcHandler κ} {os : ClientOs κ} {rsp₀ : RspMsg} {out : Outputs} {k k' : κ}

theorem run_congr_of_returnsInt {c : ApiCall} (hc : c.ReturnsInt)
    (h : ∀ req, c.request = some req → rpc req rsp₀ k = rpc req rsp₀ k') :
    c.run rpc os rsp₀ out k = c.run rpc os rsp₀ out k' := by
  rw [ApiCall.run_of_returnsInt hc, ApiCall.run_of_returnsInt hc]
  cases hreq : c.request with
  | none => rfl
  | some req => simp only [Option.map_some, LiteLib.callInt, h req hreq]

theorem run_congr_receiveMessageFast {port : UInt32} {retAddr : UInt64}
    {receiveSize blockCall : Int32}
    (h : rpc (LiteLib.receiveMessageFastReq port retAddr receiveSize blockCall) rsp₀ k =
      rpc (LiteLib.receiveMessageFastReq port retAddr receiveSize blockCall) rsp₀ k') :
    (ApiCall.forwarded (.receiveMessageFast port retAddr receiveSize blockCall)).run rpc os rsp₀ out
        k =
      (ApiCall.forwarded (.receiveMessageFast port retAddr receiveSize blockCall)).run rpc os rsp₀
        out k' := by
  simp only [ApiCall.run, Forwarded.issue, LiteLib.userspaceLiteapiReceiveMessageFast, h]

theorem run_congr_allocLocalMem {name : List UInt8} {size : UInt64} {localAddr : VarAddr}
    (h : ∀ req, LiteLib.allocLocalMemReq name size = some req →
      rpc req rsp₀ k = rpc req rsp₀ k') :
    (ApiCall.forwarded (.allocLocalMem name size localAddr)).run rpc os rsp₀ out k =
      (ApiCall.forwarded (.allocLocalMem name size localAddr)).run rpc os rsp₀ out k' := by
  simp only [ApiCall.run, LiteLib.userspaceLiteapiAllocLocalMem]
  cases hreq : LiteLib.allocLocalMemReq name size with
  | none => simp only [Option.map_none]
  | some req => simp only [Option.map_some, h req hreq]

/-- A call depends on the exchange through what comes of it. -/
theorem run_congr {q : LibCall} (h : ∀ req, q.request = some req → rpc req rsp₀ k = rpc req rsp₀ k') :
    q.run rpc os rsp₀ out k = q.run rpc os rsp₀ out k' := by
  cases q with
  | allocLocalMemTest name size =>
      simp only [run, LiteLib.userspaceLiteapiAllocLocalMemTest]
      cases hreq : LiteLib.allocLocalMemReq name size with
      | none => simp only [Option.map_none]
      | some req => simp only [Option.map_some, h req hreq]
  | api c =>
      change c.run rpc os rsp₀ out k = c.run rpc os rsp₀ out k'
      rcases c with _ | ⟨inputStr, ethPort, ibPort⟩ | f
      · exact run_congr_of_returnsInt trivial h
      · exact run_congr_of_returnsInt trivial h
      · cases f
        case receiveMessageFast => exact run_congr_receiveMessageFast (h _ rfl)
        case allocLocalMem => exact run_congr_allocLocalMem h
        all_goals exact run_congr_of_returnsInt trivial h

end Exchange

/-- The client's own `shm_open` and `mmap` give these results. -/
def answers (fd : Option Int32) (addr : Option UInt64) : ClientOs Unit where
  shmOpen _ k := (fd, k)
  mmap _ _ k := (addr, k)

/-- What the call delivers, made of the response. -/
def reads (fd : Option Int32) (addr : Option UInt64) (rsp : RspMsg) (out : Outputs) :
    LibCall → Int32 × Outputs
  | api (.forwarded (.receiveMessageFast _ _ _ _)) =>
      (RspMsg.intRsp.get rsp,
        { out with
          descriptor := ReceiveMessageFastRsp.descriptor.get rsp
          retLength := ReceiveMessageFastRsp.retLength.get rsp })
  | api (.forwarded (.allocLocalMem _ _ _)) =>
      if RspMsg.intRsp.get rsp < 0 ∨ fd = none then (-1, out)
      else
        (RspMsg.intRsp.get rsp,
          { out with
            localAddr := addr.getD mapFailed
            remoteAddr := AllocLocalMemRsp.remoteAddr.get rsp })
  | api _ => (RspMsg.intRsp.get rsp, out)
  | allocLocalMemTest _ _ =>
      (RspMsg.intRsp.get rsp,
        { out with
          localAddr := 0x900
          remoteAddr := AllocLocalMemRsp.remoteAddr.get rsp })

theorem reads_of_returnsInt {c : ApiCall} (hc : c.ReturnsInt) (fd : Option Int32)
    (addr : Option UInt64) (rsp : RspMsg) (out : Outputs) :
    (api c).reads fd addr rsp out = (RspMsg.intRsp.get rsp, out) := by
  rcases c with _ | ⟨inputStr, ethPort, ibPort⟩ | f
  · rfl
  · rfl
  · cases f
    case receiveMessageFast => exact hc.elim
    case allocLocalMem => exact hc.elim
    all_goals rfl

section Reply

variable {rpc : RpcHandler (Option (Link ν β Unit))} {fd : Option Int32} {addr : Option UInt64}
  {rsp₀ rsp : RspMsg} {out : Outputs} {k : Option (Link ν β Unit)} {l : Link ν β Unit}
  {err : Int32} {req : ReqMsg}

theorem run_of_reply_allocLocalMem {name : List UInt8} {size : UInt64} {localAddr : VarAddr}
    (hreq : LiteLib.allocLocalMemReq name size = some req)
    (hrpc : rpc req rsp₀ k = (err, rsp, some l)) :
    let q := api (.forwarded (.allocLocalMem name size localAddr))
    ∃ k', q.run rpc (Link.onClient (answers fd addr)) rsp₀ out k =
      some ((q.reads fd addr rsp out).1, (q.reads fd addr rsp out).2, k') := by
  simp only [run, ApiCall.run, LiteLib.userspaceLiteapiAllocLocalMem, hreq, hrpc, Option.map_some,
    reads]
  by_cases hneg : RspMsg.intRsp.get rsp < 0
  · simp [hneg]
  · cases fd with
    | none => simp [hneg, Link.onClient, answers]
    | some fd => simp [hneg, Link.onClient, answers, localAddr.2]

/-- **What a call delivers is read from the response.** -/
theorem run_of_reply {q : LibCall} (hreq : q.request = some req)
    (hrpc : rpc req rsp₀ k = (err, rsp, some l)) (fd : Option Int32) (addr : Option UInt64)
    (out : Outputs) :
    ∃ k', q.run rpc (Link.onClient (answers fd addr)) rsp₀ out k =
      some ((q.reads fd addr rsp out).1, (q.reads fd addr rsp out).2, k') := by
  have hint {c : ApiCall} (hc : c.ReturnsInt) (hreq : c.request = some req) :
      ∃ k', (api c).run rpc (Link.onClient (answers fd addr)) rsp₀ out k =
        some (((api c).reads fd addr rsp out).1, ((api c).reads fd addr rsp out).2, k') := by
    refine ⟨some l, ?_⟩
    rw [run, ApiCall.run_of_returnsInt hc, hreq, reads_of_returnsInt hc]
    simp only [Option.map_some, LiteLib.callInt, hrpc]
  cases q with
  | allocLocalMemTest name size =>
      refine ⟨some l, ?_⟩
      change LiteLib.allocLocalMemReq name size = some req at hreq
      simp only [run, LiteLib.userspaceLiteapiAllocLocalMemTest, hreq, hrpc, Option.map_some,
        Option.getD_some, reads]
  | api c =>
      rcases c with _ | ⟨inputStr, ethPort, ibPort⟩ | f
      · exact hint trivial hreq
      · exact hint trivial hreq
      · cases f
        case receiveMessageFast port retAddr receiveSize blockCall =>
          obtain rfl : LiteLib.receiveMessageFastReq port retAddr receiveSize blockCall = req :=
            Option.some_inj.mp hreq
          refine ⟨some l, ?_⟩
          simp only [run, ApiCall.run, Forwarded.issue, LiteLib.userspaceLiteapiReceiveMessageFast,
            hrpc, Option.map_some, Option.getD_some, reads]
        case allocLocalMem => exact run_of_reply_allocLocalMem hreq hrpc
        all_goals exact hint trivial hreq

end Reply

/-! ## Two histories -/

section Histories

variable (env : Env ν β) (cid : Cid) (fd : Option Int32) (addr : Option UInt64) (rsp₀ : RspMsg)
  (out : Outputs)

/-- What a call delivers to a client of a session with this response buffer and world. -/
def delivered (q : LibCall) (s : RspMsg × World ν β) : Option (Int32 × Outputs) :=
  (q.run (Link.rpcHandler env cid) (Link.onClient (answers fd addr)) rsp₀ out
    (some ⟨s.1, s.2, ()⟩)).map fun r ↦ (r.1, r.2.1)

/-- The call sends a request that sessions answer. -/
def WellFormed (q : LibCall) : Prop := ∃ req, q.request = some req ∧ Session.WellFormed req

/-- The calls made for the request write everything the library function delivers. -/
def Written (res : BackendResult) (fd : Option Int32) : LibCall → Prop
  | api (.forwarded (.receiveMessageFast _ _ _ _)) => res.descriptor.isSome ∧ res.retLength.isSome
  | api (.forwarded (.allocLocalMem _ _ _)) => res.ret < 0 ∨ fd = none ∨ res.addr.isSome
  | api _ => True
  | allocLocalMemTest _ _ => res.addr.isSome

/-- The call delivers the same after all pairs of histories of a session, when the calls
made for it return `n` and `res` and those of the client `fd` and `addr`. -/
def Independent (q : LibCall) (n : Int32) (res : BackendResult) (fd : Option Int32)
    (addr : Option UInt64) : Prop :=
  ∀ (ν β : Type) (env : Env ν β) (cid : Cid) (w₀ : World ν β) (history history' : List ReqMsg)
    (s s' : RspMsg × World ν β),
    Session.serve env cid history (Flat.zero 24, w₀) = some s →
    Session.serve env cid history' (Flat.zero 24, w₀) = some s' →
    (∀ req, q.request = some req →
      Session.Given env cid req s.2 n res ∧ Session.Given env cid req s'.2 n res) →
    ∀ rsp₀ out, q.delivered env cid fd addr rsp₀ out s = q.delivered env cid fd addr rsp₀ out s'

variable {env cid fd addr rsp₀ out} {q : LibCall} {req : ReqMsg} {n : Int32} {res : BackendResult}

/-- A well-formed call delivers what it reads from the response. -/
theorem delivered_of_wellFormed (hreq : q.request = some req) (hwf : Session.WellFormed req)
    {s : RspMsg × World ν β} (h : Session.Given env cid req s.2 n res) :
    q.delivered env cid fd addr rsp₀ out s =
      some (q.reads fd addr
        (Session.store (FuncCode.ofCode (ReqMsg.funcCode.get req)) n res s.1) out) := by
  obtain ⟨rsp, w, hd⟩ := (Session.exists_reply_iff env cid s.1 s.2).mpr hwf
  have hrpc : Link.rpcHandler env cid req rsp₀ (some ⟨s.1, s.2, ()⟩) =
      (0, rsp, some ⟨rsp, w, ()⟩) := by
    simp only [Link.rpcHandler, hd]
  obtain ⟨k', hrun⟩ := run_of_reply hreq hrpc fd addr out
  rw [delivered, hrun, Option.map_some, h.reply hd]

/-- Any other call delivers what it makes of an untouched response. -/
theorem delivered_of_not_wellFormed (h : ¬ q.WellFormed) (s s' : RspMsg × World ν β) :
    q.delivered env cid fd addr rsp₀ out s = q.delivered env cid fd addr rsp₀ out s' := by
  have hrpc (req : ReqMsg) (hreq : q.request = some req) (s : RspMsg × World ν β) :
      Link.rpcHandler env cid req rsp₀ (some (⟨s.1, s.2, ()⟩ : Link ν β Unit)) =
        (0, rsp₀, none) := by
    have hnot : ¬ ∃ rsp' w', Session.dispatch env cid req s.1 s.2 = .reply rsp' w' := by
      rw [Session.exists_reply_iff]
      exact fun hwf ↦ h ⟨req, hreq, hwf⟩
    cases hd : Session.dispatch env cid req s.1 s.2 with
    | reply rsp' w' => exact absurd ⟨rsp', w', hd⟩ hnot
    | close w' => simp only [Link.rpcHandler, hd]
    | undefined => simp only [Link.rpcHandler, hd]
  rw [delivered, delivered, run_congr fun req hreq ↦ (hrpc req hreq s).trans (hrpc req hreq s').symm]

end Histories

/-! ### What is written is delivered -/

theorem code_receiveMessageFastReq (port : UInt32) (retAddr : UInt64)
    (receiveSize blockCall : Int32) :
    FuncCode.ofCode (ReqMsg.funcCode.get
      (LiteLib.receiveMessageFastReq port retAddr receiveSize blockCall)) =
        some .receiveMessageFast := by
  simp (disch := decide) only [LiteLib.receiveMessageFastReq, LiteLib.initReq,
    Field.get_set_self, Field.get_set_of_disjoint, FuncCode.ofCode_code]

theorem code_allocLocalMemReq {name : List UInt8} {size : UInt64} {req : ReqMsg}
    (hreq : LiteLib.allocLocalMemReq name size = some req) :
    FuncCode.ofCode (ReqMsg.funcCode.get req) = some .allocLocalMem := by
  rw [CharArray.get_strncpy (by decide) hreq]
  simp (disch := decide) only [LiteLib.initReq, Field.get_set_self, Field.get_set_of_disjoint,
    FuncCode.ofCode_code]

variable {fd : Option Int32} {addr : Option UInt64} {out : Outputs} {q : LibCall} {req : ReqMsg}
  {n : Int32} {res : BackendResult}

theorem getD_congr {α : Type} {a : Option α} (h : a.isSome) (b c : α) : a.getD b = a.getD c := by
  obtain ⟨d, rfl⟩ := Option.isSome_iff_exists.mp h
  rfl

/-- What is written hides what was in the buffer. -/
theorem reads_store (hreq : q.request = some req) (h : q.Written res fd) (n : Int32)
    (addr : Option UInt64) (out : Outputs) (rsp rsp' : RspMsg) :
    let f := FuncCode.ofCode (ReqMsg.funcCode.get req)
    q.reads fd addr (Session.store f n res rsp) out =
      q.reads fd addr (Session.store f n res rsp') out := by
  intro f
  have hint := Session.get_intRsp_store f n res rsp rsp'
  cases q with
  | allocLocalMemTest name size =>
      have hf : f = some .allocLocalMem := code_allocLocalMemReq hreq
      rw [hf] at hint ⊢
      simp only [reads, hint, Session.get_remoteAddr_store, getD_congr h _ 0]
  | api c =>
      by_cases hc : c.ReturnsInt
      · rw [reads_of_returnsInt hc, reads_of_returnsInt hc, hint]
      · rcases c with _ | ⟨inputStr, ethPort, ibPort⟩ | c
        · exact absurd trivial hc
        · exact absurd trivial hc
        · cases c
          case receiveMessageFast port retAddr receiveSize blockCall =>
            obtain rfl : LiteLib.receiveMessageFastReq port retAddr receiveSize blockCall = req :=
              Option.some_inj.mp hreq
            have hf : f = some .receiveMessageFast := code_receiveMessageFastReq _ _ _ _
            rw [hf] at hint ⊢
            simp only [reads, hint, Session.get_descriptor_store, Session.get_retLength_store,
              getD_congr h.1 _ 0, getD_congr h.2 _ 0]
          case allocLocalMem name size localAddr =>
            have hf : f = some .allocLocalMem := code_allocLocalMemReq hreq
            rw [hf] at hint ⊢
            have hret : RspMsg.intRsp.get (Session.store (some .allocLocalMem) n res rsp') =
                res.ret := Field.get_set_self _ _ _
            rcases h with h | h | h
            · simp only [reads, hint, hret, h, true_or, if_true]
            · simp only [reads, hint, h, or_true, if_true]
            · simp only [reads, hint, Session.get_remoteAddr_store, getD_congr h _ 0]
          all_goals exact absurd trivial hc

theorem independent_of_written (h : q.WellFormed → q.Written res fd) (n : Int32)
    (addr : Option UInt64) : q.Independent n res fd addr := by
  intro ν β env cid w₀ history history' s s' _ _ hgiven rsp₀ out
  by_cases hwf : q.WellFormed
  · obtain ⟨req, hreq, hreqwf⟩ := hwf
    rw [delivered_of_wellFormed hreq hreqwf (hgiven req hreq).1,
      delivered_of_wellFormed hreq hreqwf (hgiven req hreq).2,
      reads_store hreq (h ⟨req, hreq, hreqwf⟩) n addr out s.1 s'.1]
  · exact delivered_of_not_wellFormed hwf s s'

/-! ### What is not written shows -/

/-- A router whose backend writes both output parameters of one call, and gives `res` for
all others. -/
def staleEnv (port : UInt32) (res : BackendResult) : Env Unit Unit where
  build := .noContainer
  routerNid := 0
  peer _ _ := (.received [], ())
  backend c _ := (if c = .receiveMessageFast port 0 0 0 then ⟨0, some 1, some 1, none⟩ else res, ())

/-- The response buffer that call leaves. -/
def stale : RspMsg :=
  RspMsg.intRsp.set 0 <|
    ReceiveMessageFastRsp.retLength.set 1 <|
    ReceiveMessageFastRsp.descriptor.set 1 (Flat.zero 24)

theorem serve_stale (port : UInt32) (res : BackendResult) (cid : Cid) :
    ∃ w, Session.serve (staleEnv port res) cid [LiteLib.receiveMessageFastReq port 0 0 0]
      (Flat.zero 24, .quiet) = some (stale, w) := by
  refine ⟨(World.quiet.call (staleEnv port res) (.receiveMessageFast port 0 0 0)).2, ?_⟩
  rw [Session.serve, List.foldlM_cons, dispatch_receiveMessageFastReq]
  simp only [World.call, staleEnv, if_true]
  rfl

theorem given_receiveMessageFast {port port' : UInt32} (hne : port' ≠ port) (retAddr : UInt64)
    (receiveSize blockCall : Int32) (cid : Cid) (w : World Unit Unit) (n : Int32)
    (res : BackendResult) :
    Session.Given (staleEnv port res) cid
      (LiteLib.receiveMessageFastReq port' retAddr receiveSize blockCall) w n res where
  vcm := by
    simp [Session.vcmResult, Session.target, code_receiveMessageFastReq]
  backend rsp rsp' w' c hd hcalls := by
    rw [dispatch_receiveMessageFastReq] at hd
    injection hd with _ hw
    rw [← hw, World.calls_call] at hcalls
    obtain rfl : _ = c := by simpa using hcalls
    simp [staleEnv, hne]

theorem given_allocLocalMem {name : List UInt8} {size : UInt64} {req : ReqMsg}
    (hreq : LiteLib.allocLocalMemReq name size = some req) (port : UInt32) (cid : Cid)
    (w : World Unit Unit) (n : Int32) (res : BackendResult) :
    Session.Given (staleEnv port res) cid req w n res where
  vcm := by
    simp [Session.vcmResult, Session.target, code_allocLocalMemReq hreq]
  backend rsp rsp' w' c hd hcalls := by
    simp only [Session.dispatch, code_allocLocalMemReq hreq] at hd
    split at hd
    · contradiction
    · injection hd with _ hw
      rw [← hw, World.calls_call] at hcalls
      obtain rfl : _ = c := by simpa using hcalls
      simp [staleEnv]

/-- An independent call does not see the other buffer. -/
theorem Independent.reads_stale (h : q.Independent n res fd addr) (hreq : q.request = some req)
    (hwf : Session.WellFormed req) {port : UInt32}
    (hgiven : ∀ w, Session.Given (staleEnv port res) [] req w n res) (out : Outputs) :
    let f := FuncCode.ofCode (ReqMsg.funcCode.get req)
    q.reads fd addr (Session.store f n res (Flat.zero 24)) out =
      q.reads fd addr (Session.store f n res stale) out := by
  obtain ⟨w, hw⟩ := serve_stale port res []
  have hsame := h Unit Unit (staleEnv port res) [] .quiet [] _ _ _ rfl hw
    (fun req' hreq' ↦ by
      obtain rfl : req = req' := Option.some_inj.mp (hreq.symm.trans hreq')
      exact ⟨hgiven _, hgiven _⟩) (Flat.zero 24) out
  rw [delivered_of_wellFormed hreq hwf (hgiven _), delivered_of_wellFormed hreq hwf (hgiven _)]
    at hsame
  exact Option.some_inj.mp hsame

theorem isSome_of_getD {α : Type} {a : Option α} {b c : α} (hne : b ≠ c)
    (h : a.getD b = a.getD c) : a.isSome := by
  cases a with
  | none => exact absurd h hne
  | some d => rfl

theorem get_descriptor_stale : ReceiveMessageFastRsp.descriptor.get stale = 1 := by
  simp (disch := decide) only [stale, Field.get_set_of_disjoint, Field.get_set_self]

theorem get_retLength_stale : ReceiveMessageFastRsp.retLength.get stale = 1 := by
  simp (disch := decide) only [stale, Field.get_set_of_disjoint, Field.get_set_self]

/-- The address of `alloc_local_mem` is where the descriptor of `receive_message_fast`
was. -/
theorem get_remoteAddr_stale : AllocLocalMemRsp.remoteAddr.get stale = 1 := get_descriptor_stale

theorem isSome_addr_of_getD
    (h : res.addr.getD (AllocLocalMemRsp.remoteAddr.get (Flat.zero 24)) =
      res.addr.getD (AllocLocalMemRsp.remoteAddr.get stale)) : res.addr.isSome := by
  refine isSome_of_getD ?_ h
  rw [get_remoteAddr_stale]
  decide

/-- **When what a call delivers does not depend on earlier calls**: it is ill-formed, or
the calls made for it write everything it delivers. -/
theorem independent_iff (q : LibCall) (n : Int32) (res : BackendResult) (fd : Option Int32)
    (addr : Option UInt64) :
    q.Independent n res fd addr ↔ (q.WellFormed → q.Written res fd) := by
  refine ⟨?_, fun h ↦ independent_of_written h n addr⟩
  rintro h ⟨req, hreq, hwf⟩
  cases q with
  | allocLocalMemTest name size =>
      have hreads := h.reads_stale hreq hwf (given_allocLocalMem hreq 0 [] · n res) ⟨0, 0, 0, 0⟩
      simp only [code_allocLocalMemReq hreq, reads, Session.get_remoteAddr_store, Prod.mk.injEq,
        Outputs.mk.injEq] at hreads
      exact isSome_addr_of_getD hreads.2.2.2.2
  | api c =>
      rcases c with _ | ⟨inputStr, ethPort, ibPort⟩ | c
      · trivial
      · trivial
      · cases c
        case receiveMessageFast port retAddr receiveSize blockCall =>
          obtain rfl : LiteLib.receiveMessageFastReq port retAddr receiveSize blockCall = req :=
            Option.some_inj.mp hreq
          have hne : port ≠ port + 1 := by simp
          have hreads := h.reads_stale hreq hwf
            (given_receiveMessageFast hne retAddr receiveSize blockCall [] · n res) ⟨0, 0, 0, 0⟩
          simp only [code_receiveMessageFastReq, reads, Session.get_descriptor_store,
            Session.get_retLength_store, Prod.mk.injEq, Outputs.mk.injEq] at hreads
          obtain ⟨-, hdescriptor, hlength, -⟩ := hreads
          constructor
          · refine isSome_of_getD ?_ hdescriptor
            rw [get_descriptor_stale]
            decide
          · refine isSome_of_getD ?_ hlength
            rw [get_retLength_stale]
            decide
        case allocLocalMem name size localAddr =>
          have hreads := h.reads_stale hreq hwf (given_allocLocalMem hreq 0 [] · n res)
            ⟨0, 0, 0, 0⟩
          have hret (rsp : RspMsg) :
              RspMsg.intRsp.get (Session.store (some .allocLocalMem) n res rsp) = res.ret :=
            Field.get_set_self _ _ _
          by_cases hneg : res.ret < 0 ∨ fd = none
          · exact hneg.elim Or.inl (Or.inr ∘ Or.inl)
          · simp only [code_allocLocalMemReq hreq, reads, hret, if_neg hneg,
              Session.get_remoteAddr_store, Prod.mk.injEq, Outputs.mk.injEq] at hreads
            exact Or.inr (Or.inr (isSome_addr_of_getD hreads.2.2.2.2))
        all_goals trivial

theorem wellFormed_allocLocalMemReq {name : List UInt8} {size : UInt64} {req : ReqMsg}
    (hname : 0 ∉ name) (hlt : name.length < AllocLocalMemReq.name.size)
    (hreq : LiteLib.allocLocalMemReq name size = some req) : Session.WellFormed req :=
  (Session.exists_reply_iff (.quiet .container) [] (Flat.zero 24) .quiet).mp
    ⟨_, _, dispatch_allocLocalMemReq _ _ hname hlt hreq⟩

/-- The router cannot allocate, and the application is told an address all the same: the
descriptor of a message that has been received before. -/
theorem not_independent_failedShm :
    let q := allocLocalMemTest (bytes "shm") 64
    let failed : BackendResult := ⟨-1, none, none, none⟩
    let env := staleEnv 0 failed
    (∃ s, Session.serve env [] [LiteLib.receiveMessageFastReq 0 0 0 0] (Flat.zero 24, .quiet) =
        some s ∧
      q.delivered env [] none none (Flat.zero 24) ⟨0, 0, 0, 0⟩ s =
        some (-1, ⟨0, 0, 0x900, 1⟩)) ∧
    q.delivered env [] none none (Flat.zero 24) ⟨0, 0, 0, 0⟩ (Flat.zero 24, .quiet) =
      some (-1, ⟨0, 0, 0x900, 0⟩) ∧
    ¬ q.Independent 0 failed none none := by
  intro q failed env
  obtain ⟨req, hreq⟩ : ∃ req, LiteLib.allocLocalMemReq (bytes "shm") 64 = some req := by
    rw [← Option.ne_none_iff_exists', LiteLib.allocLocalMemReq, Ne,
      CharArray.strncpy_eq_none_iff]
    decide
  have hwf := wellFormed_allocLocalMemReq (by decide) (by decide) hreq
  have hdelivered (s : RspMsg × World Unit Unit) :
      q.delivered env [] none none (Flat.zero 24) ⟨0, 0, 0, 0⟩ s =
        some (-1, ⟨0, 0, 0x900, AllocLocalMemRsp.remoteAddr.get s.1⟩) := by
    have hq : q.request = some req := hreq
    have hret : RspMsg.intRsp.get (Session.store (some .allocLocalMem) 0 failed s.1) = -1 :=
      Field.get_set_self _ _ _
    rw [delivered_of_wellFormed hq hwf (given_allocLocalMem hreq 0 [] s.2 0 failed),
      code_allocLocalMemReq hreq]
    simp only [q, reads, hret, Session.get_remoteAddr_store, failed, Option.getD_none]
  obtain ⟨w, hw⟩ := serve_stale 0 failed []
  refine ⟨⟨_, hw, ?_⟩, ?_, fun h ↦ ?_⟩
  · rw [hdelivered, get_remoteAddr_stale]
  · rw [hdelivered]
    decide
  · have hreads := h.reads_stale hreq hwf (given_allocLocalMem hreq 0 [] · 0 failed) ⟨0, 0, 0, 0⟩
    simp only [code_allocLocalMemReq hreq, q, reads, Session.get_remoteAddr_store, Prod.mk.injEq,
      Outputs.mk.injEq] at hreads
    exact Bool.false_ne_true (isSome_addr_of_getD hreads.2.2.2.2)

end LibCall

end Freelite
