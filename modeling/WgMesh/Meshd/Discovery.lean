/-
This file models how `discoverPublicEndpoint` finds the port of the WireGuard
socket: it reads the third field of the first line of `wg show dump`, and takes
the mesh port if this gives nothing. Together with the reading of the peers, this
settles that the listing is read as it was printed.
-/

import WgMesh.Uapi.Dump

namespace WgMesh.Meshd

open Go Uapi

/-- The port in the first line of a listing. -/
def readPort (wgDump : Text) : Int :=
  match (trimSpace wgDump).splitOn 10 with
  | [] => 0
  | line :: _ =>
    match line.splitOn 9 with
    | _ :: _ :: port :: _ => parseInt (trimSpace port)
    | _ => 0

/-- The port that `discoverPublicEndpoint` binds, given what `ShowDump` returned. -/
def discoverPort (showDump : Option Text) (meshPort : Int) : Int :=
  let wgPort := match showDump with
    | some wgDump => readPort wgDump
    | none => 0
  if wgPort = 0 then meshPort else wgPort

/-- The port that was printed is read back. -/
theorem readPort_printDump (iface : Interface) (peers : List ListedPeer) :
    readPort (printDump iface peers) = iface.listenPort := by
  have fields : (printLine iface.fields).splitOn 9 = iface.fields.map Field.bytes :=
    splitOn_printLine (List.cons_ne_nil _ _)
  unfold readPort
  rw [splitOn_printDump]
  simp only [fields]
  show parseInt (trimSpace (decimalField iface.listenPort).bytes) = _
  rw [Field.trimSpace]
  exact parseInt_decimalField (iface.listenPort_le.trans_lt (by decide))

/-- A listing is read as it was printed: the peers, in order and with all their fields, and the
port of the interface. -/
theorem dump_read_back (iface : Interface) (peers : List ListedPeer) :
    listPeers (some (printDump iface peers)) = some (peers.map ListedPeer.info) ∧
      readPort (printDump iface peers) = iface.listenPort ∧
      ∀ meshPort : Int, discoverPort (some (printDump iface peers)) meshPort =
        if iface.listenPort = 0 then meshPort else iface.listenPort := by
  have port := readPort_printDump iface peers
  refine ⟨listPeers_printDump iface peers, port, fun meshPort => ?_⟩
  unfold discoverPort
  simp only [port, Nat.cast_eq_zero]

end WgMesh.Meshd
