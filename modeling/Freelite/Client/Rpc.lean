import Freelite.Client.RpcConn
import Freelite.Inc.RpcTypes
import Freelite.Lib.Stream

/-!
# The client's connection

`client/lib/rpc.c`.  One descriptor is kept in a static variable and reused by every
call; `rpc_handler` connects when there is none, and drops the connection when a
system call on it reports an error.

As on the router's side, what the system calls report is an argument: a
`ConnOutcome` for the calls of `rpc_conn`, and a `RpcPeer` for the `send` and the
`recv` of one exchange.
-/

namespace Freelite

open Lib

namespace Rpc

/-- What the program keeps and what it has open. -/
@[ext]
structure State where
  /-- `client_sock`. -/
  clientSock : Int32
  /-- The descriptors of the sockets it has not closed. -/
  openSocks : List Int32
  /-- How many files it has not closed. -/
  openFiles : Nat
deriving DecidableEq

/-- Before the first call. -/
def State.init : State := ⟨-1, [], 0⟩

/-- A descriptor as `socket` returns it when it succeeds. -/
abbrev SockFd := {fd : Int32 // 0 ≤ fd}

/-- What the system calls of `rpc_conn` report. -/
structure ConnOutcome where
  socket : Option SockFd
  /-- The contents of `CID_PATH`, when it can be opened. -/
  cpuset : Option (List UInt8)
  /-- Whether binding to a path succeeds. -/
  bind : List UInt8 → Bool
  /-- Whether connecting to a path succeeds. -/
  connect : List UInt8 → Bool

/-- The other side of the connection, with a state of its own. -/
abbrev RpcPeer (ν : Type*) := ReqMsg → ν → Exchange × ν

/-- `SERVER_PATH`. -/
def serverPath : List UInt8 := bytes "/var/tmp/tpf_unix_sock.server"

/-- `rpc_disconn`. -/
def rpcDisconn (s : State) : State :=
  { s with clientSock := -1, openSocks := s.openSocks.erase s.clientSock }

/-- The end of `rpc_conn`: `bind` to the client's own path and `connect` to `name`. -/
def bindConnect (path name : List UInt8) (o : ConnOutcome) (s : State) : Int32 × State :=
  if !o.bind path then (-1, rpcDisconn s)
  else if !o.connect name then (-1, rpcDisconn s)
  else (s.clientSock, s)

/-- `rpc_conn(name)` in the process `pid`. -/
def rpcConn (build : Build) (pid : Int32) (name : List UInt8) (o : ConnOutcome) (s : State) :
    Int32 × State :=
  match o.socket with
  | none => (-1, { s with clientSock := -1 })
  | some fd =>
      let s' := { s with clientSock := fd, openSocks := fd :: s.openSocks }
      match build with
      | .container =>
          match o.cpuset with
          | none => (-1, s')
          | some file =>
              match readCid file with
              -- neither the file nor the socket is closed when the file is too short
              | none => (-1, { s' with openFiles := s'.openFiles + 1 })
              | some cid => bindConnect (sunPath cid pid) name o s'
      | .noContainer => bindConnect (sunPath [] pid) name o s'

/-- `rpc_handler`: the error code and the content of `*rsp_msg`. -/
def rpcHandler {ν : Type*} (build : Build) (pid : Int32) (o : ConnOutcome) (peer : RpcPeer ν)
    (reqMsg : ReqMsg) (rspMsg : RspMsg) (s : State) (v : ν) : Int32 × RspMsg × State × ν :=
  let (err, s) := if s.clientSock = -1 then rpcConn build pid serverPath o s else (0, s)
  if err < 0 then (-1, rspMsg, s, v)
  else
    match peer reqMsg v with
    | (.sendError, v') => (-1, rspMsg, rpcDisconn s, v')
    | (.recvError, v') => (-1, rspMsg, rpcDisconn s, v')
    | (.received chunk, v') => (0, (Codec.flat 24).overwrite rspMsg chunk, s, v')

/-- An exchange over a connection that exists and works. -/
theorem rpcHandler_of_received {ν : Type*} {build : Build} {pid : Int32} {o : ConnOutcome}
    {peer : RpcPeer ν} {reqMsg : ReqMsg} {rspMsg : RspMsg} {s : State} {v v' : ν}
    {chunk : List UInt8} (hs : s.clientSock ≠ -1) (hp : peer reqMsg v = (.received chunk, v')) :
    rpcHandler build pid o peer reqMsg rspMsg s v =
      (0, (Codec.flat 24).overwrite rspMsg chunk, s, v') := by
  simp [rpcHandler, hs, hp]

end Rpc

end Freelite
