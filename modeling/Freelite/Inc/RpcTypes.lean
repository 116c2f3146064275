import Freelite.Lib.Layout

/-!
# The messages between client and router

`inc/func_code.h` and `inc/rpc_types.h`.  A request is a function code and a union
of one structure per forwarded function; a response is an `int` and a union of two
structures.  Both are flat objects: members of a union share their bytes, so what
a request means depends on its code alone, and stale bytes of one member can show
through another.

Offsets are those of the 64-bit ABI: every scalar is aligned to its size, and the
union, which contains pointers, starts at offset 8.
-/

namespace Freelite

open Lib

/-- Client and router without and with `NO_CONTAINER`. -/
inductive Build
  | container
  | noContainer
deriving DecidableEq

/-- `FUNC_userspace_liteapi_*`. -/
inductive FuncCode
  | getNodeId | join | allocRemoteMem | rdmaWrite | rdmaRead | sendReplyImmFast
  | receiveMessageFast | replyMessage | registerApplication | distBarrier | queryPort
  | allocLocalMem | freeLocalMem
deriving DecidableEq

namespace FuncCode

/-- The number that stands for the function in a request. -/
def code : FuncCode → Int32
  | getNodeId => 1
  | join => 2
  | allocRemoteMem => 3
  | rdmaWrite => 4
  | rdmaRead => 5
  | sendReplyImmFast => 6
  | receiveMessageFast => 7
  | replyMessage => 8
  | registerApplication => 9
  | distBarrier => 10
  | queryPort => 11
  | allocLocalMem => 12
  | freeLocalMem => 13

/-- All functions that can be asked for. -/
def all : List FuncCode :=
  [getNodeId, join, allocRemoteMem, rdmaWrite, rdmaRead, sendReplyImmFast, receiveMessageFast,
    replyMessage, registerApplication, distBarrier, queryPort, allocLocalMem, freeLocalMem]

/-- The function a number stands for. -/
def ofCode (c : Int32) : Option FuncCode := all.find? fun f ↦ f.code = c

@[simp] theorem ofCode_code (f : FuncCode) : ofCode f.code = some f := by
  cases f <;> decide

end FuncCode

/-- `struct rpc_req_msg`. -/
abbrev ReqMsg := Flat 280

/-- `struct rpc_rsp_msg`. -/
abbrev RspMsg := Flat 24

/-! ## Requests -/

namespace ReqMsg

def funcCode : Field 280 Int32 := { offset := 0, codec := .int32 }

end ReqMsg

/-! `struct join_req_msg`. -/

namespace JoinReq

def inputStr : CharArray 280 := { offset := 8, size := 16 }
def ethPort : Field 280 Int32 := { offset := 8 + 16, codec := .int32 }
def ibPort : Field 280 Int32 := { offset := 8 + 20, codec := .int32 }

end JoinReq

/-! `struct alloc_remote_mem_req_msg`. -/

namespace AllocRemoteMemReq

def nodeId : Field 280 UInt32 := { offset := 8, codec := .uint32 }
def size : Field 280 UInt32 := { offset := 8 + 4, codec := .uint32 }
def atomicFlag : Field 280 Bool := { offset := 8 + 8, codec := .bool }
def password : Field 280 Int32 := { offset := 8 + 12, codec := .int32 }

end AllocRemoteMemReq

/-! `struct rdma_write_req_msg`, and `struct rdma_read_req_msg` as well. -/

namespace RdmaWriteReq

def liteHandler : Field 280 UInt32 := { offset := 8, codec := .uint32 }
def localAddr : Field 280 UInt64 := { offset := 8 + 8, codec := .uint64 }
def size : Field 280 UInt32 := { offset := 8 + 16, codec := .uint32 }
def offset : Field 280 UInt32 := { offset := 8 + 20, codec := .uint32 }
def password : Field 280 Int32 := { offset := 8 + 24, codec := .int32 }

end RdmaWriteReq

/-! `struct send_reply_imm_fast_req_msg`. -/

namespace SendReplyImmFastReq

def targetNode : Field 280 Int32 := { offset := 8, codec := .int32 }
def port : Field 280 UInt32 := { offset := 8 + 4, codec := .uint32 }
def addr : Field 280 UInt64 := { offset := 8 + 8, codec := .uint64 }
def size : Field 280 Int32 := { offset := 8 + 16, codec := .int32 }
def retAddr : Field 280 UInt64 := { offset := 8 + 24, codec := .uint64 }
def retLength : Field 280 UInt64 := { offset := 8 + 32, codec := .uint64 }
def maxRetSize : Field 280 Int32 := { offset := 8 + 40, codec := .int32 }

end SendReplyImmFastReq

/-! `struct receive_message_fast_req_msg`. -/

namespace ReceiveMessageFastReq

def port : Field 280 UInt32 := { offset := 8, codec := .uint32 }
def retAddr : Field 280 UInt64 := { offset := 8 + 8, codec := .uint64 }
def receiveSize : Field 280 Int32 := { offset := 8 + 16, codec := .int32 }
def blockCall : Field 280 Int32 := { offset := 8 + 20, codec := .int32 }

end ReceiveMessageFastReq

/-! `struct reply_message_req_msg`. -/

namespace ReplyMessageReq

def addr : Field 280 UInt64 := { offset := 8, codec := .uint64 }
def size : Field 280 Int32 := { offset := 8 + 8, codec := .int32 }
def descriptor : Field 280 UInt64 := { offset := 8 + 16, codec := .uint64 }

end ReplyMessageReq

/-! `struct register_application_req_msg`. -/

namespace RegisterApplicationReq

def destinedPort : Field 280 UInt32 := { offset := 8, codec := .uint32 }
def maxSizePerMessage : Field 280 UInt32 := { offset := 8 + 4, codec := .uint32 }
def maxUserPerNode : Field 280 UInt32 := { offset := 8 + 8, codec := .uint32 }
def name : CharArray 280 := { offset := 8 + 12, size := 32 }
def nameLen : Field 280 UInt64 := { offset := 8 + 48, codec := .uint64 }

end RegisterApplicationReq

/-! `struct dist_barrier_req_msg`. -/

namespace DistBarrierReq

def num : Field 280 UInt32 := { offset := 8, codec := .uint32 }

end DistBarrierReq

/-! `struct query_port_req_msg`. -/

namespace QueryPortReq

def targetNode : Field 280 Int32 := { offset := 8, codec := .int32 }
def designedPort : Field 280 Int32 := { offset := 8 + 4, codec := .int32 }

end QueryPortReq

/-! `struct alloc_local_mem_req_msg`. -/

namespace AllocLocalMemReq

def name : CharArray 280 := { offset := 8, size := 256 }
def size : Field 280 UInt64 := { offset := 8 + 256, codec := .uint64 }

end AllocLocalMemReq

/-! `struct free_local_mem_req_msg`. -/

namespace FreeLocalMemReq

def name : CharArray 280 := { offset := 8, size := 256 }
def size : Field 280 UInt64 := { offset := 8 + 256, codec := .uint64 }
def remoteAddr : Field 280 UInt64 := { offset := 8 + 264, codec := .uint64 }

end FreeLocalMemReq

/-! ## Responses -/

namespace RspMsg

def intRsp : Field 24 Int32 := { offset := 0, codec := .int32 }

end RspMsg

/-! `struct receive_message_fast_rsp_msg`. -/

namespace ReceiveMessageFastRsp

def descriptor : Field 24 UInt64 := { offset := 8, codec := .uint64 }
def retLength : Field 24 Int32 := { offset := 8 + 8, codec := .int32 }

end ReceiveMessageFastRsp

/-! `struct alloc_local_mem_rsp_msg`. -/

namespace AllocLocalMemRsp

def remoteAddr : Field 24 UInt64 := { offset := 8, codec := .uint64 }

end AllocLocalMemRsp

end Freelite
