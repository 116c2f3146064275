import Freelite.Vcm.Basic

/-!
# The router's side of the virtual cluster manager

`router/lib/routing.cpp`: one connection to the manager, shared by all session
threads, and two tables that are only ever extended: the vid of every container
that has joined here, and the nids the manager has been asked for.

What `send` and `recv` do is not the program's choice, so the functions take it as
an argument: a `Peer` turns a request into what the two calls report, and may
change a state of its own while doing so.  The manager itself is a peer
(`Freelite/Router/Cluster.lean`), and so is a connection that fails.
-/

namespace Freelite

open Lib

/-- A container id, a `std::string`. -/
abbrev Cid := List UInt8

/-- A descriptor that is not the error value. -/
abbrev Descriptor := {fd : Int32 // fd ≠ -1}

/-- What the two system calls of one exchange report. -/
inductive Exchange
  /-- `send` fails. -/
  | sendError
  /-- `send` succeeds and `recv` fails. -/
  | recvError
  /-- Both succeed, and `recv` has stored these bytes.  There are none when the
  other side has closed the connection: `recv` then returns zero. -/
  | received (chunk : List UInt8)
deriving DecidableEq

/-- The other side of the connection, with a state of its own. -/
abbrev Peer (ν : Type*) := VcmMsg → ν → Exchange × ν

/-- The static variables of `routing.cpp`. -/
@[ext]
structure Routing where
  /-- The connection, or `-1`. -/
  clientSock : Int32
  vidNidMapCache : UnorderedMap Int32 Int32
  cidVidMap : UnorderedMap Cid Int32

namespace Routing

variable {ν : Type*}

/-- The state after `vcm_conn` has returned an open connection. -/
def start (sock : Descriptor) : Routing := ⟨sock, .empty, .empty⟩

/-- `vcm_disconn`. -/
def vcmDisconn (s : Routing) : Routing := { s with clientSock := -1 }

/-- `vcm_handler`: the error code and the message buffer, which holds the request
before the call and should hold the reply after it. -/
def vcmHandler (peer : Peer ν) (msg : VcmMsg) (s : Routing) (v : ν) :
    Int32 × VcmMsg × Routing × ν :=
  if s.clientSock = -1 then (-1, msg, s, v)
  else
    match peer msg v with
    | (.sendError, v') => (-1, msg, s.vcmDisconn, v')
    | (.recvError, v') => (-1, msg, s.vcmDisconn, v')
    -- `recv` is only tested for being negative, and it stores into the request
    | (.received chunk, v') => (0, VcmMsg.codec.overwrite msg chunk, s, v')

/-- `vcm_get_node_id`. -/
def vcmGetNodeId (cid : Cid) (s : Routing) : Int32 :=
  match s.cidVidMap.find cid with
  | none => -1
  | some vid => vid

/-- `vcm_join` on the router `routerNid`. -/
def vcmJoin (peer : Peer ν) (routerNid : Int32) (cid : Cid) (s : Routing) (v : ν) :
    Int32 × Routing × ν :=
  match s.cidVidMap.find cid with
  | none =>
      match vcmHandler peer ⟨nidVid, routerNid⟩ s v with
      | (ret, msg, s', v') =>
          if ret < 0 then (-1, s', v')
          else
            (msg.id,
              { s' with
                cidVidMap := s'.cidVidMap.insert cid msg.id
                vidNidMapCache := s'.vidNidMapCache.insert msg.id routerNid },
              v')
  | some vid => (vid, s, v)

/-- `vcm_vid_nid`. -/
def vcmVidNid (peer : Peer ν) (vid : Int32) (s : Routing) (v : ν) : Int32 × Routing × ν :=
  match s.vidNidMapCache.find vid with
  | none =>
      match vcmHandler peer ⟨vidNid, vid⟩ s v with
      | (ret, msg, s', v') =>
          if ret < 0 then (-1, s', v')
          -- the answer is stored whatever it is, the error value included
          else (msg.id, { s' with vidNidMapCache := s'.vidNidMapCache.insert vid msg.id }, v')
  | some nid => (nid, s, v)

/-! ## What the three functions can do -/

theorem vcmGetNodeId_eq (cid : Cid) (s : Routing) :
    vcmGetNodeId cid s = (s.cidVidMap.find cid).getD (-1) := by
  unfold vcmGetNodeId
  cases s.cidVidMap.find cid <;> rfl

theorem vcmJoin_of_find {s : Routing} {cid : Cid} {vid : Int32}
    (h : s.cidVidMap.find cid = some vid) (peer : Peer ν) (routerNid : Int32) (v : ν) :
    vcmJoin peer routerNid cid s v = (vid, s, v) := by
  simp [vcmJoin, h]

theorem vcmVidNid_of_find {s : Routing} {vid nid : Int32}
    (h : s.vidNidMapCache.find vid = some nid) (peer : Peer ν) (v : ν) :
    vcmVidNid peer vid s v = (nid, s, v) := by
  simp [vcmVidNid, h]

section Handler

variable {peer : Peer ν} {msg : VcmMsg} {s : Routing} {v v' : ν}

/-- Without a connection `vcm_handler` does nothing. -/
theorem vcmHandler_of_down (hs : s.clientSock = -1) (peer : Peer ν) (msg : VcmMsg) (v : ν) :
    vcmHandler peer msg s v = (-1, msg, s, v) := if_pos hs

theorem vcmHandler_of_sendError (hs : s.clientSock ≠ -1) (hp : peer msg v = (.sendError, v')) :
    vcmHandler peer msg s v = (-1, msg, s.vcmDisconn, v') := by
  simp only [vcmHandler, if_neg hs, hp]

theorem vcmHandler_of_recvError (hs : s.clientSock ≠ -1) (hp : peer msg v = (.recvError, v')) :
    vcmHandler peer msg s v = (-1, msg, s.vcmDisconn, v') := by
  simp only [vcmHandler, if_neg hs, hp]

theorem vcmHandler_of_received (hs : s.clientSock ≠ -1) {chunk : List UInt8}
    (hp : peer msg v = (.received chunk, v')) :
    vcmHandler peer msg s v = (0, VcmMsg.codec.overwrite msg chunk, s, v') := by
  simp only [vcmHandler, if_neg hs, hp]

/-- An exchange in which the other side sends a whole reply. -/
theorem vcmHandler_of_reply {rsp : VcmMsg} (hs : s.clientSock ≠ -1)
    (hp : peer msg v = (.received (VcmMsg.codec.enc rsp), v')) :
    vcmHandler peer msg s v = (0, rsp, s, v') := by
  rw [vcmHandler_of_received hs hp, Codec.overwrite_enc]

end Handler

section Handled

variable {peer : Peer ν} {s s' : Routing} {v v' : ν} {ret : Int32} {msg : VcmMsg}

/-- `vcm_join` has to ask, and `vcm_handler` returns. -/
theorem vcmJoin_of_vcmHandler {routerNid : Int32} {cid : Cid} (h : s.cidVidMap.find cid = none)
    (hh : vcmHandler peer ⟨nidVid, routerNid⟩ s v = (ret, msg, s', v')) :
    vcmJoin peer routerNid cid s v =
      if ret < 0 then (-1, s', v')
      else
        (msg.id,
          { s' with
            cidVidMap := s'.cidVidMap.insert cid msg.id
            vidNidMapCache := s'.vidNidMapCache.insert msg.id routerNid },
          v') := by
  simp only [vcmJoin, h, hh]

/-- `vcm_vid_nid` has to ask, and `vcm_handler` returns. -/
theorem vcmVidNid_of_vcmHandler {vid : Int32} (h : s.vidNidMapCache.find vid = none)
    (hh : vcmHandler peer ⟨vidNid, vid⟩ s v = (ret, msg, s', v')) :
    vcmVidNid peer vid s v =
      if ret < 0 then (-1, s', v')
      else (msg.id, { s' with vidNidMapCache := s'.vidNidMapCache.insert vid msg.id }, v') := by
  simp only [vcmVidNid, h, hh]

end Handled

section Received

variable {peer : Peer ν} {s : Routing} {v v' : ν} {rsp : VcmMsg}

theorem vcmJoin_of_reply {routerNid : Int32} {cid : Cid} (h : s.cidVidMap.find cid = none)
    (hs : s.clientSock ≠ -1)
    (hp : peer ⟨nidVid, routerNid⟩ v = (.received (VcmMsg.codec.enc rsp), v')) :
    vcmJoin peer routerNid cid s v =
      (rsp.id,
        { s with
          cidVidMap := s.cidVidMap.insert cid rsp.id
          vidNidMapCache := s.vidNidMapCache.insert rsp.id routerNid },
        v') := by
  rw [vcmJoin_of_vcmHandler h (vcmHandler_of_reply hs hp), if_neg (by decide)]

theorem vcmVidNid_of_reply {vid : Int32} (h : s.vidNidMapCache.find vid = none)
    (hs : s.clientSock ≠ -1)
    (hp : peer ⟨vidNid, vid⟩ v = (.received (VcmMsg.codec.enc rsp), v')) :
    vcmVidNid peer vid s v =
      (rsp.id, { s with vidNidMapCache := s.vidNidMapCache.insert vid rsp.id }, v') := by
  rw [vcmVidNid_of_vcmHandler h (vcmHandler_of_reply hs hp), if_neg (by decide)]

end Received

end Routing

end Freelite
