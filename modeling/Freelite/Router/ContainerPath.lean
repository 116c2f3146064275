import Freelite.Router.Identity
import Freelite.Client.RpcConn

/-!
# The container id a session takes its client for

`router/test_router.cpp`, `server_accept_request`: in the container build a session
takes six characters of the path its peer is bound to as the container id.  It
starts at offset 8, where `/var/tmp/` has its last character, so what it takes is a
slash and the *first five* characters of the client's id (`serverCid_sunPath`).

Two clients of one router are therefore one container to `vcm_join` and
`vcm_get_node_id` when their ids agree in the first five characters.
-/

namespace Freelite

open Lib

/-- `client_path.substr(8, 6)`, with `client_path` read from `sun_path`. -/
def serverCid (path : List UInt8) : Option Cid := substr (cstr path) 8 6

/-- The id a session ends up with. -/
theorem serverCid_sunPath {cid : Cid} (hlen : cid.length = 6) (h0 : 0 ∉ cid) (pid : Int32) :
    serverCid (Rpc.sunPath cid pid) = some (0x2f :: cid.take 5) := by
  have hfront : 0 ∉ Rpc.clientPath ++ cid := by
    rw [List.mem_append]
    rintro (h | h)
    · revert h; decide
    · exact h0 h
  have hpath : cstr (Rpc.sunPath cid pid) =
      bytes "/var/tmp" ++ (0x2f :: (cid ++ cstr (zeroPadded 5 pid))) := by
    rw [Rpc.sunPath, cstr_of_notMem h0, cstr_append hfront, List.append_assoc]
    rfl
  have h8 : (bytes "/var/tmp").length = 8 := by decide
  rw [serverCid, hpath, substr, if_pos (by rw [List.length_append, h8]; omega),
    List.drop_left' h8, List.take_succ_cons, List.take_append_of_le_length (by omega)]

/-- The session has its client's id only if that consists of slashes. -/
theorem serverCid_sunPath_eq_iff {cid : Cid} (hlen : cid.length = 6) (h0 : 0 ∉ cid)
    (pid : Int32) : serverCid (Rpc.sunPath cid pid) = some cid ↔ cid = List.replicate 6 0x2f := by
  rw [serverCid_sunPath hlen h0, Option.some_inj]
  match cid, hlen with
  | [a, b, c, d, e, f], _ =>
      simp only [List.take_succ_cons, List.take_zero, List.cons.injEq, List.replicate, and_true]
      constructor
      · rintro ⟨rfl, rfl, rfl, rfl, rfl, rfl⟩
        exact ⟨rfl, rfl, rfl, rfl, rfl, rfl⟩
      · rintro ⟨rfl, rfl, rfl, rfl, rfl, rfl⟩
        exact ⟨rfl, rfl, rfl, rfl, rfl, rfl⟩

namespace Cluster

variable {R : Type*} [DecidableEq R]

/-- Router `r` takes clients with the session ids `k` and `k'` for one container:
once `k` has joined, a join for `k'` and `vcm_get_node_id` for `k'` return its vid. -/
def TreatedAlike (nid : R → Int32) (s : Cluster R) (r : R) (k k' : Cid) : Prop :=
  (step nid (step nid s (.vcmJoin r k)).2 (.vcmJoin r k')).1 = (step nid s (.vcmJoin r k)).1 ∧
  Routing.vcmGetNodeId k' ((step nid s (.vcmJoin r k)).2.routers r) =
    (step nid s (.vcmJoin r k)).1

/-- A router tells clients apart by their session ids. -/
theorem treatedAlike_iff {nid : R → Int32} {sock : R → Descriptor} {calls : List (Call R)}
    {r : R} {k k' : Cid}
    (hlt : (run nid sock (calls ++ [.vcmJoin r k, .vcmJoin r k'])).handedOut < 2 ^ 31) :
    TreatedAlike nid (run nid sock calls) r k k' ↔ k' = k := by
  have hlt' : (run nid sock (calls ++ [.vcmJoin r k])).handedOut < 2 ^ 31 := by
    have hle := handedOut_run_le nid sock (calls ++ [.vcmJoin r k])
      [.vcmJoin r k']
    rw [List.append_assoc] at hle
    exact lt_of_le_of_lt hle hlt
  rw [TreatedAlike, vcmJoin_eq_iff hlt, vcmGetNodeId_eq_iff hlt', and_self]

/-- **The container id through the path.**  For the id a client has read, the
session's id is the client's exactly when that is six slashes; and a router treats
two clients as one container exactly when their ids are equal, if and only if ids
that agree in the first five characters agree in the sixth. -/
theorem serverCid_eq_iff_and_treatedAlike_iff (nid : R → Int32) (sock : R → Descriptor)
    (calls : List (Call R)) (r : R) (file file' : List UInt8) (pid pid' : Int32) {cid cid' : Cid}
    {k k' : Cid} (hcid : Rpc.readCid file = some cid) (hcid' : Rpc.readCid file' = some cid')
    (h0 : 0 ∉ cid) (h0' : 0 ∉ cid') (hk : serverCid (Rpc.sunPath cid pid) = some k)
    (hk' : serverCid (Rpc.sunPath cid' pid') = some k')
    (hlt : (run nid sock (calls ++ [.vcmJoin r k, .vcmJoin r k'])).handedOut < 2 ^ 31) :
    (k = cid ↔ cid = List.replicate 6 0x2f) ∧
    ((TreatedAlike nid (run nid sock calls) r k k' ↔ cid = cid') ↔
      (cid.take 5 = cid'.take 5 → cid = cid')) := by
  have hlen := Rpc.length_readCid hcid
  have hlen' := Rpc.length_readCid hcid'
  have hiff := serverCid_sunPath_eq_iff hlen h0 pid
  rw [hk, Option.some_inj] at hiff
  rw [serverCid_sunPath hlen h0, Option.some_inj] at hk
  rw [serverCid_sunPath hlen' h0', Option.some_inj] at hk'
  refine ⟨hiff, ?_⟩
  have hkeys : k' = k ↔ cid.take 5 = cid'.take 5 := by
    rw [← hk, ← hk', List.cons.injEq]
    exact ⟨fun h ↦ h.2.symm, fun h ↦ ⟨rfl, h.symm⟩⟩
  rw [treatedAlike_iff hlt, hkeys]
  constructor
  · exact fun h ↦ h.mp
  · exact fun h ↦ ⟨h, fun he ↦ congrArg (List.take 5) he⟩

/-- Two containers whose ids differ only in the last character. -/
theorem serverCid_eq_iff_and_treatedAlike_iff_abcdef :
    (bytes "/abcde" = bytes "abcdef" ↔ bytes "abcdef" = List.replicate 6 0x2f) ∧
    ((TreatedAlike (fun _ : Unit ↦ 1) (run (fun _ ↦ 1) (fun _ ↦ ⟨3, by decide⟩) []) ()
        (bytes "/abcde") (bytes "/abcde") ↔ bytes "abcdef" = bytes "abcdeg") ↔
      ((bytes "abcdef").take 5 = (bytes "abcdeg").take 5 → bytes "abcdef" = bytes "abcdeg")) :=
  serverCid_eq_iff_and_treatedAlike_iff (fun _ : Unit ↦ 1) (fun _ ↦ ⟨3, by decide⟩) [] ()
    (bytes "/docker/abcdef") (bytes "/docker/abcdeg") 41 12345
    (by decide) (by decide) (by decide) (by decide) (by decide) (by decide) (by decide)

/-- The sessions of these two clients have one id, which is neither client's, and
the router gives both the same vid. -/
theorem serverCid_confuses_abcdef_abcdeg :
    Rpc.readCid (bytes "/docker/abcdef") = some (bytes "abcdef") ∧
    Rpc.readCid (bytes "/docker/abcdeg") = some (bytes "abcdeg") ∧
    serverCid (Rpc.sunPath (bytes "abcdef") 41) ≠ some (bytes "abcdef") ∧
    serverCid (Rpc.sunPath (bytes "abcdef") 41) = some (bytes "/abcde") ∧
    serverCid (Rpc.sunPath (bytes "abcdeg") 12345) = some (bytes "/abcde") ∧
    TreatedAlike (fun _ : Unit ↦ 1) (run (fun _ ↦ 1) (fun _ ↦ ⟨3, by decide⟩) []) ()
      (bytes "/abcde") (bytes "/abcde") ∧
    bytes "abcdef" ≠ bytes "abcdeg" := by
  refine ⟨by decide, by decide, by decide, by decide, by decide, ⟨by decide, by decide⟩, by decide⟩

end Cluster

end Freelite
