import Freelite.Router.Routing
import Freelite.Lib.CString

/-!
# The name a client connects under

`client/lib/rpc.c`, `rpc_conn`: in the container build the client reads its
container id from a file of the container, skipping the first eight characters of
it, and binds its socket to a path that consists of a fixed directory, that id and
the process id in at least five digits.
-/

namespace Freelite

open Lib

namespace Rpc

/-- `CLIENT_PATH`. -/
def clientPath : List UInt8 := bytes "/var/tmp/"

/-- `n` calls of `getc`: the characters read and the rest of the file, unless the
end of the file comes first. -/
def getcs : Nat → List UInt8 → Option (List UInt8 × List UInt8)
  | 0, file => some ([], file)
  | _ + 1, [] => none
  | n + 1, c :: file => (getcs n file).map fun p ↦ (c :: p.1, p.2)

/-- The container id `rpc_conn` reads from the contents of `CID_PATH`. -/
def readCid (file : List UInt8) : Option Cid :=
  (getcs 8 file).bind fun p ↦ (getcs 6 p.2).map Prod.fst

/-- The path `rpc_conn` binds its socket to: `sprintf` with `"%s%s%05d"`. -/
def sunPath (cid : Cid) (pid : Int32) : List UInt8 :=
  clientPath ++ cstr cid ++ zeroPadded 5 pid

theorem length_getcs {n : Nat} {file cs rest : List UInt8} (h : getcs n file = some (cs, rest)) :
    cs.length = n := by
  induction n generalizing file cs rest with
  | zero =>
      obtain ⟨rfl, rfl⟩ := Prod.mk_inj.mp (Option.some_inj.mp h)
      rfl
  | succ n ih =>
      cases file with
      | nil => contradiction
      | cons c file =>
          rw [getcs, Option.map_eq_some_iff] at h
          obtain ⟨⟨cs', rest'⟩, hcs, heq⟩ := h
          obtain ⟨rfl, rfl⟩ := Prod.mk_inj.mp heq
          rw [List.length_cons, ih hcs]

/-- A container id has six characters. -/
theorem length_readCid {file : List UInt8} {cid : Cid} (h : readCid file = some cid) :
    cid.length = 6 := by
  obtain ⟨⟨skipped, rest⟩, -, h⟩ := Option.bind_eq_some_iff.mp h
  obtain ⟨⟨cs, rest'⟩, hcs, rfl⟩ := Option.map_eq_some_iff.mp h
  exact length_getcs hcs

end Rpc

end Freelite
