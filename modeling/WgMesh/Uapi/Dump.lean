/-
This file models the listing `wg show dump` and how `ListPeers` reads it.

The listing has a line for the interface and a line for each peer, with fields
separated by tabs. A field is never empty and holds no white space, numbers are
printed in decimal, and a keepalive of zero is printed as `off`. `ListPeers`
splits the listing again and drops the errors of its number parsers, so `off` is
read as zero.
-/

import WgMesh.Go.Space
import WgMesh.Pieces.Split
import WgMesh.Uapi.Client

namespace WgMesh.Uapi

open Go

/-! ### Reading -/

/-- The body of the loop of `ListPeers`: a line with fewer than eight fields is skipped. -/
def parsePeer (line : Text) : Option PeerInfo :=
  match line.splitOn 9 with
  | publicKey :: presharedKey :: endpoint :: allowedIPs :: hs :: rx :: tx :: ka :: _ =>
    some {
      publicKey := publicKey
      presharedKey := presharedKey
      endpoint := endpoint
      allowedIPs := allowedIPs
      latestHandshake := parseInt hs
      transferRx := parseInt rx
      transferTx := parseInt tx
      persistentKeepalive := parseInt ka }
  | _ => none

/-- `ListPeers`, given what `ShowDump` returned, which is nothing when it failed. -/
def listPeers (showDump : Option Text) : Option (List PeerInfo) := do
  let dump ← showDump
  let lines := (trimSpace dump).splitOn 10
  if lines.length < 2 then return []
  else return (lines.drop 1).filterMap parsePeer

/-- The listing is cut at its line feeds, so no endpoint has one. -/
theorem oneLine_of_listPeers {showDump : Option Text} {peers : List PeerInfo}
    (listed : listPeers showDump = some peers) : ∀ peer ∈ peers, 10 ∉ peer.endpoint := by
  obtain ⟨dump, _, listed⟩ := Option.bind_eq_some_iff.mp listed
  intro peer member
  dsimp only at listed
  split at listed
  · cases listed
    cases member
  · cases listed
    obtain ⟨line, among, parsed⟩ := List.mem_filterMap.mp member
    have whole : 10 ∉ line := Pieces.not_mem_of_mem_splitOn (List.mem_of_mem_drop among)
    unfold parsePeer at parsed
    split at parsed
    · rename_i publicKey presharedKey endpoint allowedIPs hs rx tx ka rest fields
      have part : endpoint ∈ line.splitOn 9 := by
        rw [fields]
        simp
      cases parsed
      exact fun occurs => whole ((Pieces.sublist_of_mem_splitOn part).subset occurs)
    · cases parsed

/-! ### Printing -/

/-- A printed number. -/
def decimalField (number : Nat) : Field :=
  .ofVisible (decimal number) (decimal_ne_nil number) fun _ member =>
    ⟨UInt8.lt_of_lt_of_le (by decide) (isDigit_of_mem_decimal member).1,
      UInt8.lt_of_le_of_lt (isDigit_of_mem_decimal member).2 (by decide)⟩

/-- What stands for a keepalive of zero. -/
def offField : Field := .ofVisible (text "off") (by decide) (by decide +kernel)

/-- The interface of a listing. -/
structure Interface where
  privateKey : Field
  publicKey : Field
  listenPort : Nat
  listenPort_le : listenPort ≤ 65535
  fwmark : Field

/-- A peer of a listing. -/
structure ListedPeer where
  publicKey : Field
  presharedKey : Field
  endpoint : Field
  allowedIPs : Field
  latestHandshake : Nat
  transferRx : Nat
  transferTx : Nat
  persistentKeepalive : Nat
  latestHandshake_lt : latestHandshake < 2 ^ 63
  transferRx_lt : transferRx < 2 ^ 63
  transferTx_lt : transferTx < 2 ^ 63
  persistentKeepalive_le : persistentKeepalive ≤ 65535

/-- The peer as a value of the program. -/
def ListedPeer.info (peer : ListedPeer) : PeerInfo where
  publicKey := peer.publicKey.bytes
  presharedKey := peer.presharedKey.bytes
  endpoint := peer.endpoint.bytes
  allowedIPs := peer.allowedIPs.bytes
  latestHandshake := peer.latestHandshake
  transferRx := peer.transferRx
  transferTx := peer.transferTx
  persistentKeepalive := peer.persistentKeepalive

def Interface.fields (iface : Interface) : List Field :=
  [iface.privateKey, iface.publicKey, decimalField iface.listenPort, iface.fwmark]

def ListedPeer.fields (peer : ListedPeer) : List Field :=
  [peer.publicKey, peer.presharedKey, peer.endpoint, peer.allowedIPs,
    decimalField peer.latestHandshake, decimalField peer.transferRx,
    decimalField peer.transferTx,
    if peer.persistentKeepalive = 0 then offField else decimalField peer.persistentKeepalive]

/-- Fields separated by tabs. -/
def printLine (fields : List Field) : Text := [9].intercalate (fields.map Field.bytes)

/-- Lines, each with a newline after it. -/
def printLines (lines : List (List Field)) : Text :=
  lines.flatMap fun fields => printLine fields ++ [10]

/-- What `wg show dump` prints. -/
def printDump (iface : Interface) (peers : List ListedPeer) : Text :=
  printLines (iface.fields :: peers.map ListedPeer.fields)

/-! ### Lines and fields -/

theorem startsSolid_intercalate {byte : UInt8} (ascii : byte < 128) {pieces : List Text}
    (nonempty : pieces ≠ []) (solid : ∀ piece ∈ pieces, StartsSolid piece) :
    StartsSolid ([byte].intercalate pieces) := by
  obtain ⟨first, rest, rfl⟩ := List.exists_cons_of_ne_nil nonempty
  have starts := solid first List.mem_cons_self
  cases rest with
  | nil => rwa [List.intercalate_singleton]
  | cons second rest =>
    rw [List.intercalate_cons_cons, List.append_assoc]
    exact starts.append ascii _

theorem endsSolid_intercalate {byte : UInt8} (ascii : byte < 128) {pieces : List Text}
    (nonempty : pieces ≠ []) (solid : ∀ piece ∈ pieces, EndsSolid piece) :
    EndsSolid ([byte].intercalate pieces) := by
  induction pieces with
  | nil => exact absurd rfl nonempty
  | cons first rest inductionHypothesis =>
    obtain ⟨ends, others⟩ := List.forall_mem_cons.mp solid
    cases rest with
    | nil => rwa [List.intercalate_singleton]
    | cons second rest =>
      rw [List.intercalate_cons_cons, List.append_assoc]
      exact (inductionHypothesis (List.cons_ne_nil _ _) others).append ascii first

theorem printLines_eq {lines : List (List Field)} (nonempty : lines ≠ []) :
    printLines lines = [10].intercalate (lines.map printLine) ++ [10] := by
  induction lines with
  | nil => exact absurd rfl nonempty
  | cons first rest inductionHypothesis =>
    cases rest with
    | nil => simp [printLines]
    | cons second rest =>
      have others := inductionHypothesis (List.cons_ne_nil _ _)
      have more : (second :: rest).map printLine ≠ [] := List.cons_ne_nil _ _
      calc printLines (first :: second :: rest)
          = printLine first ++ [10] ++ printLines (second :: rest) := List.flatMap_cons
        _ = printLine first ++ [10] ++ [10].intercalate ((second :: rest).map printLine) ++
            [10] := by
          rw [others]
          exact (List.append_assoc _ _ _).symm
        _ = [10].intercalate ((first :: second :: rest).map printLine) ++ [10] :=
          congrArg (· ++ [10]) (List.intercalate_cons_of_ne_nil more).symm

theorem newline_not_mem_printLine (fields : List Field) : 10 ∉ printLine fields := by
  intro member
  rcases Pieces.mem_or_mem_of_mem_intercalate member with tab | ⟨piece, printed, inside⟩
  · exact absurd tab (by decide)
  · obtain ⟨field, _, rfl⟩ := List.mem_map.mp printed
    exact field.not_mem (by decide +kernel) inside

/-- A line comes apart into its fields. -/
theorem splitOn_printLine {fields : List Field} (nonempty : fields ≠ []) :
    (printLine fields).splitOn 9 = fields.map Field.bytes := by
  refine List.splitOn_intercalate 9 ?_ fun empty => nonempty (List.map_eq_nil_iff.mp empty)
  intro piece member
  obtain ⟨field, _, rfl⟩ := List.mem_map.mp member
  exact field.not_mem (by decide +kernel)

/-- Printed lines come apart again. -/
theorem splitOn_printLines {lines : List (List Field)} (nonempty : lines ≠ [])
    (filled : ∀ fields ∈ lines, fields ≠ []) :
    (trimSpace (printLines lines)).splitOn 10 = lines.map printLine := by
  have printed : lines.map printLine ≠ [] := fun empty => nonempty (List.map_eq_nil_iff.mp empty)
  have starts : StartsSolid ([10].intercalate (lines.map printLine)) := by
    refine startsSolid_intercalate (by decide) printed ?_
    intro line member
    obtain ⟨fields, fieldsMember, rfl⟩ := List.mem_map.mp member
    refine startsSolid_intercalate (by decide)
      (fun empty => filled fields fieldsMember (List.map_eq_nil_iff.mp empty)) ?_
    intro piece pieceMember
    obtain ⟨field, _, rfl⟩ := List.mem_map.mp pieceMember
    exact field.startsSolid
  have ends : EndsSolid ([10].intercalate (lines.map printLine)) := by
    refine endsSolid_intercalate (by decide) printed ?_
    intro line member
    obtain ⟨fields, fieldsMember, rfl⟩ := List.mem_map.mp member
    refine endsSolid_intercalate (by decide)
      (fun empty => filled fields fieldsMember (List.map_eq_nil_iff.mp empty)) ?_
    intro piece pieceMember
    obtain ⟨field, _, rfl⟩ := List.mem_map.mp pieceMember
    exact field.endsSolid
  rw [printLines_eq nonempty, trimSpace_newline (starts.append (by decide) []).not_at_start
    ends.not_at_end]
  refine List.splitOn_intercalate 10 ?_ printed
  intro line member
  obtain ⟨fields, _, rfl⟩ := List.mem_map.mp member
  exact newline_not_mem_printLine fields

/-! ### Reading what was printed -/

theorem parseInt_decimalField {number : Nat} (inRange : number < 2 ^ 63) :
    parseInt (decimalField number).bytes = number :=
  parseInt_decimal inRange

theorem parseInt_keepalive (peer : ListedPeer) :
    parseInt (if peer.persistentKeepalive = 0 then offField
      else decimalField peer.persistentKeepalive).bytes = peer.persistentKeepalive := by
  split
  · rename_i zero
    rw [zero]
    decide
  · exact parseInt_decimalField (peer.persistentKeepalive_le.trans_lt (by decide))

/-- A printed peer is read back. -/
theorem parsePeer_printLine (peer : ListedPeer) :
    parsePeer (printLine peer.fields) = some peer.info := by
  have fields : (printLine peer.fields).splitOn 9 = peer.fields.map Field.bytes :=
    splitOn_printLine (List.cons_ne_nil _ _)
  unfold parsePeer
  rw [fields]
  simp only [ListedPeer.fields, List.map_cons, List.map_nil, parseInt_keepalive,
    parseInt_decimalField peer.latestHandshake_lt, parseInt_decimalField peer.transferRx_lt,
    parseInt_decimalField peer.transferTx_lt]
  rfl

theorem filled_of_mem_dump {iface : Interface} {peers : List ListedPeer} :
    ∀ fields ∈ iface.fields :: peers.map ListedPeer.fields, fields ≠ [] := by
  refine List.forall_mem_cons.mpr ⟨List.cons_ne_nil _ _, fun fields member => ?_⟩
  obtain ⟨peer, _, rfl⟩ := List.mem_map.mp member
  exact List.cons_ne_nil _ _

/-- The lines of a listing. -/
theorem splitOn_printDump (iface : Interface) (peers : List ListedPeer) :
    (trimSpace (printDump iface peers)).splitOn 10 =
      printLine iface.fields :: peers.map fun peer => printLine peer.fields := by
  rw [printDump, splitOn_printLines (List.cons_ne_nil _ _) filled_of_mem_dump, List.map_cons,
    List.map_map]
  rfl

/-- `ListPeers` returns the peers that were printed. -/
theorem listPeers_printDump (iface : Interface) (peers : List ListedPeer) :
    listPeers (some (printDump iface peers)) = some (peers.map ListedPeer.info) := by
  have read : (peers.map fun peer => printLine peer.fields).filterMap parsePeer =
      peers.map ListedPeer.info := by
    rw [List.filterMap_map, ← List.filterMap_eq_map]
    exact congrArg (List.filterMap · peers) (funext parsePeer_printLine)
  unfold listPeers
  simp only [Option.bind_eq_bind, Option.bind_some, splitOn_printDump, List.length_cons,
    List.drop_succ_cons, List.drop_zero, read]
  split
  · -- With the interface's line alone there is no peer.
    rename_i alone
    have none : peers = [] := List.eq_nil_of_length_eq_zero (by simpa using alone)
    rw [none]
    rfl
  · rfl

end WgMesh.Uapi
