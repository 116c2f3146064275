import Freelite.Inc.VcmTypes
import Freelite.Lib.UnorderedMap

/-!
# The state of the virtual cluster manager

`vcm/vcm.cpp`, lines 21–51: a counter `vid` and the table `vid_nid_map`, and the
two functions the session threads call on them.  Both are one critical section
under `vcm_mutex`; `Freelite/Vcm/Sections.lean` takes them apart into the steps
between which other threads may run.

The counter is a 32-bit `int` and its increment wraps, as the arithmetic of
`Int32` does.
-/

namespace Freelite

open Lib

/-- The static variables of the virtual cluster manager. -/
@[ext]
structure Vcm where
  /-- The last vid handed out. -/
  vid : Int32
  /-- The nid every vid was handed out to. -/
  vidNidMap : UnorderedMap Int32 Int32

namespace Vcm

/-- The state at start-up. -/
def init : Vcm := ⟨0, .empty⟩

/-- The vid the next `get_new_vid` returns. -/
def nextVid (s : Vcm) : Int32 := s.vid + 1

/-- `get_new_vid`. -/
def getNewVid (nid : Int32) (s : Vcm) : Int32 × Vcm :=
  let vid := s.vid + 1
  (vid, { vid := vid, vidNidMap := s.vidNidMap.insert vid nid })

/-- `get_nid_by_vid`. -/
def getNidByVid (vid : Int32) (s : Vcm) : Int32 :=
  match s.vidNidMap.find vid with
  | none => -1
  | some nid => nid

/-- The `switch` of `server_accept_request`: the reply to a request and the state
after it.  On any other function code there is no reply. -/
def handle (msg : VcmMsg) (s : Vcm) : Option (VcmMsg × Vcm) :=
  if msg.funcCode = vidNid then
    some ({ msg with id := getNidByVid msg.id s }, s)
  else if msg.funcCode = nidVid then
    let (vid, s') := getNewVid msg.id s
    some ({ msg with id := vid }, s')
  else none

theorem getNidByVid_eq (vid : Int32) (s : Vcm) :
    getNidByVid vid s = (s.vidNidMap.find vid).getD (-1) := by
  unfold getNidByVid
  cases s.vidNidMap.find vid <;> rfl

@[simp] theorem getNewVid_fst (nid : Int32) (s : Vcm) : (getNewVid nid s).1 = s.nextVid := rfl

@[simp] theorem handle_vidNid (v : Int32) (s : Vcm) :
    handle ⟨vidNid, v⟩ s = some (⟨vidNid, getNidByVid v s⟩, s) := rfl

@[simp] theorem handle_nidVid (nid : Int32) (s : Vcm) :
    handle ⟨nidVid, nid⟩ s = some (⟨nidVid, s.nextVid⟩, (getNewVid nid s).2) := rfl

/-- A request with another function code is not answered. -/
theorem handle_of_unknown {msg : VcmMsg} (h₀ : msg.funcCode ≠ vidNid)
    (h₁ : msg.funcCode ≠ nidVid) (s : Vcm) : handle msg s = none := by
  simp [handle, h₀, h₁]

/-- A vid that resolves keeps resolving to the same nid. -/
theorem find_getNewVid_mono {s : Vcm} {v n : Int32} (h : s.vidNidMap.find v = some n)
    (nid : Int32) : (getNewVid nid s).2.vidNidMap.find v = some n :=
  s.vidNidMap.find_mono h _ _

end Vcm

end Freelite
