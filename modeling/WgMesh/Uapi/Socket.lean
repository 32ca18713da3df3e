/-
This file models `SetEndpointFast`, which configures a device through the UAPI
socket, and the language it writes.

The language is line based: a request is `key=value` lines up to the first empty
line. `SetEndpointFast` prints the endpoint it is given into a request as it is.
The request that a reader finds is the one that was meant exactly when the
endpoint has no line feed. The peers that are addressed are the one whose key was
decoded and all that further lines of the endpoint select.
-/

import WgMesh.Go.Base64
import WgMesh.Go.Hex
import WgMesh.Go.Space
import WgMesh.Uapi.Client

namespace WgMesh.Uapi

open Go

/-! ### What is written -/

/-- What a dial of one of the socket paths leads to. -/
inductive SocketOutcome where
  | unreachable
  | writeFails
  /-- The line read back, if one was. -/
  | answers (line : Option Text)
  deriving DecidableEq, Repr

/-- The sockets, and whether the `wg` binary succeeds. -/
structure Sockets where
  outcome : Text → SocketOutcome
  command : Bool

/-- What `SetEndpointFast` does to the outside. -/
inductive Configured where
  /-- A request was written to the socket at a path. -/
  | wrote (path request : Text)
  /-- The `wg` binary was run. -/
  | ran (args : List Text)
  deriving DecidableEq, Repr

/-- The paths of the UAPI socket. -/
def Client.socketPaths (client : Client) : List Text :=
  [text "/var/run/wireguard/" ++ client.iface ++ text ".sock",
    text "/run/wireguard/" ++ client.iface ++ text ".sock"]

/-- The key of a peer, if it decodes to the 32 bytes of one. -/
def decodeKey (publicKey : Text) : Option (List UInt8) :=
  (base64Decode publicKey).filter fun key => key.length = 32

/-- The request that `SetEndpointFast` prints. -/
def setRequest (key : List UInt8) (endpoint : Text) : Text :=
  text "set=1\npublic_key=" ++ hexEncode key ++ text "\nendpoint=" ++ endpoint ++ text "\n\n"

/-- The device accepted the request. -/
def SocketOutcome.accepted : SocketOutcome → Bool
  | .answers (some line) => trimSpace line = text "errno=0"
  | _ => false

/-- The loop over the paths. Only a path that cannot be dialed leads to the next one. -/
def Client.trySockets (client : Client) (sockets : Sockets) (publicKey endpoint : Text) :
    List Text → Bool × List Configured
  | [] => (sockets.command, [.ran (client.endpointArgs publicKey endpoint)])
  | path :: rest =>
    if sockets.outcome path = .unreachable then
      client.trySockets sockets publicKey endpoint rest
    else match decodeKey publicKey with
      | none => (sockets.command, [.ran (client.endpointArgs publicKey endpoint)])
      | some key =>
        if (sockets.outcome path).accepted then (true, [.wrote path (setRequest key endpoint)])
        else (sockets.command, [.wrote path (setRequest key endpoint),
          .ran (client.endpointArgs publicKey endpoint)])

/-- Whether `SetEndpointFast` succeeds, and what it does on the way. -/
def Client.setEndpointFast (client : Client) (sockets : Sockets) (publicKey endpoint : Text) :
    Bool × List Configured :=
  client.trySockets sockets publicKey endpoint client.socketPaths

/-! ### What is read -/

/-- The lines up to the first empty one, and what follows it. -/
def readLines (current : Text) : Text → Option (List Text × Text)
  | [] => none
  | byte :: rest =>
    if byte = 10 then
      if current = [] then some ([], rest)
      else (readLines [] rest).map fun (lines, after) => (current :: lines, after)
    else readLines (current ++ [byte]) rest

/-- A line cut at its first equals sign. -/
def cutLine (line : Text) : Option (Text × Text) :=
  if 61 ∈ line then
    some (line.takeWhile (· ≠ 61), (line.dropWhile (· ≠ 61)).drop 1)
  else none

def cutLines : List Text → Option (List (Text × Text))
  | [] => some []
  | line :: rest => do
    let pair ← cutLine line
    let pairs ← cutLines rest
    return pair :: pairs

/-- The first request in a text, as its keys and values, and what follows it. -/
def readRequest (s : Text) : Option (List (Text × Text) × Text) := do
  let (lines, after) ← readLines [] s
  let pairs ← cutLines lines
  return (pairs, after)

/-- A text is one request, which sets the endpoint of one peer. -/
def IsSetEndpoint (request : Text) (key : List UInt8) (endpoint : Text) : Prop :=
  readRequest request = some ([(text "set", text "1"), (text "public_key", hexEncode key),
    (text "endpoint", endpoint)], [])

/-- A line without a line feed is read as one line. -/
theorem readLines_line (current line rest : Text) (oneLine : 10 ∉ line)
    (nonempty : current ++ line ≠ []) :
    readLines current (line ++ 10 :: rest) =
      (readLines [] rest).map fun (lines, after) => ((current ++ line) :: lines, after) := by
  induction line generalizing current with
  | nil =>
    rw [List.append_nil] at nonempty ⊢
    rw [List.nil_append, readLines, if_pos rfl, if_neg nonempty]
  | cons byte others inductionHypothesis =>
    rw [List.mem_cons, not_or] at oneLine
    rw [List.cons_append, readLines, if_neg (Ne.symm oneLine.1),
      inductionHypothesis _ oneLine.2 (by simp), List.append_assoc, List.singleton_append]

/-- The lines that are read have no line feeds. -/
theorem not_mem_of_readLines {current s after : Text} {lines : List Text}
    (started : 10 ∉ current) (read : readLines current s = some (lines, after)) :
    ∀ line ∈ lines, 10 ∉ line := by
  induction s generalizing current lines with
  | nil => cases read
  | cons byte rest inductionHypothesis =>
    rw [readLines] at read
    split at read
    · split at read
      · cases read
        exact List.forall_mem_nil _
      · obtain ⟨⟨others, _⟩, readRest, equal⟩ := Option.map_eq_some_iff.mp read
        cases equal
        intro line member
        rcases List.mem_cons.mp member with rfl | inOthers
        · exact started
        · exact inductionHypothesis List.not_mem_nil readRest line inOthers
    · rename_i other
      refine inductionHypothesis ?_ read
      rw [List.mem_append, List.mem_singleton, not_or]
      exact ⟨started, Ne.symm other⟩

theorem not_mem_of_cutLine {line key value : Text} (oneLine : 10 ∉ line)
    (cut : cutLine line = some (key, value)) : 10 ∉ value := by
  unfold cutLine at cut
  split at cut
  · cases cut
    exact fun member =>
      oneLine ((List.dropWhile_sublist _).subset (List.mem_of_mem_drop member))
  · cases cut

theorem not_mem_of_cutLines {lines : List Text} {pairs : List (Text × Text)}
    (oneLine : ∀ line ∈ lines, 10 ∉ line) (cut : cutLines lines = some pairs) :
    ∀ pair ∈ pairs, 10 ∉ pair.2 := by
  induction lines generalizing pairs with
  | nil =>
    cases cut
    exact List.forall_mem_nil _
  | cons line rest inductionHypothesis =>
    obtain ⟨first, cutFirst, cut⟩ := Option.bind_eq_some_iff.mp cut
    obtain ⟨others, cutOthers, equal⟩ := Option.bind_eq_some_iff.mp cut
    cases equal
    intro pair member
    rcases List.mem_cons.mp member with rfl | inOthers
    · exact not_mem_of_cutLine (oneLine line List.mem_cons_self) cutFirst
    · exact inductionHypothesis (fun other listed => oneLine other (List.mem_cons_of_mem _ listed))
        cutOthers pair inOthers

/-- The values of a request that is read have no line feeds. -/
theorem not_mem_of_readRequest {s after : Text} {pairs : List (Text × Text)}
    (read : readRequest s = some (pairs, after)) : ∀ pair ∈ pairs, 10 ∉ pair.2 := by
  obtain ⟨⟨lines, _⟩, readAll, read⟩ := Option.bind_eq_some_iff.mp read
  obtain ⟨cuts, cut, equal⟩ := Option.bind_eq_some_iff.mp read
  cases equal
  exact not_mem_of_cutLines (not_mem_of_readLines List.not_mem_nil readAll) cut

theorem not_mem_hexEncode (key : List UInt8) : 10 ∉ hexEncode key := by
  intro member
  exact absurd (isLowerHex_of_mem_hexEncode _ _ member) (by decide)

/-- A line printed with a key that has no equals sign is cut where it was joined. -/
theorem cutLine_append (key value : Text) (plain : 61 ∉ key) :
    cutLine (key ++ 61 :: value) = some (key, value) := by
  have stops : ∀ byte ∈ key, decide (byte ≠ 61) = true := fun byte member =>
    decide_eq_true fun equal => plain (equal ▸ member)
  rw [cutLine, if_pos (by simp), List.takeWhile_append_of_pos stops,
    List.dropWhile_append_of_pos stops]
  simp

/-- What `SetEndpointFast` writes is the one request that was meant exactly when the endpoint
has no line feed. -/
theorem isSetEndpoint_setRequest (key : List UInt8) (endpoint : Text) :
    IsSetEndpoint (setRequest key endpoint) key endpoint ↔ 10 ∉ endpoint := by
  constructor
  · intro meant
    exact not_mem_of_readRequest meant (text "endpoint", endpoint) (by simp)
  · intro oneLine
    have printed : setRequest key endpoint =
        text "set=1" ++ 10 :: ((text "public_key=" ++ hexEncode key) ++
          10 :: ((text "endpoint=" ++ endpoint) ++ 10 :: [10])) := by
      simp [setRequest, text]
    have keyLine : 10 ∉ text "public_key=" ++ hexEncode key := by
      rw [List.mem_append, not_or]
      exact ⟨by decide, not_mem_hexEncode key⟩
    have endpointLine : 10 ∉ text "endpoint=" ++ endpoint := by
      rw [List.mem_append, not_or]
      exact ⟨by decide, oneLine⟩
    have lines : readLines [] (setRequest key endpoint) = some ([text "set=1",
        text "public_key=" ++ hexEncode key, text "endpoint=" ++ endpoint], []) := by
      rw [printed, readLines_line [] _ _ (by decide) (by decide),
        readLines_line [] _ _ keyLine (by simp [text]),
        readLines_line [] _ _ endpointLine (by simp [text])]
      rfl
    have keyCut : cutLine (text "public_key=" ++ hexEncode key) =
        some (text "public_key", hexEncode key) :=
      cutLine_append (text "public_key") (hexEncode key) (by decide)
    have endpointCut : cutLine (text "endpoint=" ++ endpoint) = some (text "endpoint", endpoint) :=
      cutLine_append (text "endpoint") endpoint (by decide)
    have setCut : cutLine (text "set=1") = some (text "set", text "1") := by decide
    rw [IsSetEndpoint, readRequest, lines]
    simp only [cutLines, setCut, keyCut, endpointCut, Option.bind_eq_bind, Option.bind_some,
      Option.pure_def]

/-! ### What can be written -/

/-- Whatever the sockets do, a text that is written is the request for the decoded key. -/
theorem Client.wrote_setRequest {client : Client} {sockets : Sockets}
    {publicKey endpoint path request : Text}
    (wrote : .wrote path request ∈ (client.setEndpointFast sockets publicKey endpoint).2) :
    ∃ key, decodeKey publicKey = some key ∧ request = setRequest key endpoint := by
  unfold Client.setEndpointFast at wrote
  generalize client.socketPaths = paths at wrote
  induction paths with
  | nil => simp [Client.trySockets] at wrote
  | cons first rest inductionHypothesis =>
    rw [Client.trySockets] at wrote
    split at wrote
    · exact inductionHypothesis wrote
    · split at wrote
      · simp at wrote
      · rename_i key decoded
        refine ⟨key, decoded, ?_⟩
        split at wrote <;> simp_all

/-- A device that answers on the first path gets the request. -/
theorem Client.wrote_of_answers (client : Client) {sockets : Sockets}
    (answers : ∀ path, sockets.outcome path ≠ .unreachable) {publicKey : Text}
    {key : List UInt8} (decoded : decodeKey publicKey = some key) (endpoint : Text) :
    ∃ path, .wrote path (setRequest key endpoint) ∈
      (client.setEndpointFast sockets publicKey endpoint).2 := by
  refine ⟨text "/var/run/wireguard/" ++ client.iface ++ text ".sock", ?_⟩
  rw [Client.setEndpointFast, Client.socketPaths, Client.trySockets, if_neg (answers _), decoded]
  simp only
  split <;> simp

/-! ### Whom a request addresses -/

/-- The public key of a peer. -/
structure PublicKey where
  bytes : List UInt8
  length : bytes.length = 32
  deriving DecidableEq

/-- The key as `wg` prints it. -/
def PublicKey.printed (key : PublicKey) : Text := base64Encode key.bytes

theorem PublicKey.printed_long (key : PublicKey) : 16 ≤ key.printed.length := by
  rw [PublicKey.printed, length_base64Encode, key.length]
  decide

theorem PublicKey.printed_ne_nil (key : PublicKey) : key.printed ≠ [] :=
  List.ne_nil_of_length_pos (lt_of_lt_of_le (by decide) key.printed_long)

theorem PublicKey.decodeKey_printed (key : PublicKey) : decodeKey key.printed = some key.bytes := by
  rw [decodeKey, PublicKey.printed, base64Decode_base64Encode, Option.filter_some,
    if_pos (decide_eq_true key.length)]

/-- A line of a request selects the peer with this key. -/
def Selects (key : PublicKey) (line : Text) : Prop :=
  line.take 11 = text "public_key=" ∧ (line.drop 11).length = 64 ∧
    hexDecode (line.drop 11) = key.bytes

instance (key : PublicKey) (line : Text) : Decidable (Selects key line) :=
  inferInstanceAs (Decidable (_ ∧ _))

/-- Some line of a text selects the peer. A reader goes on behind an empty line with the next
request, so all lines count. -/
def Addresses (written : Text) (key : PublicKey) : Prop :=
  ∃ line ∈ written.splitOn 10, Selects key line

theorem selects_key_line (key : PublicKey) {other : List UInt8} (long : other.length = 32) :
    Selects key (text "public_key=" ++ hexEncode other) ↔ other = key.bytes := by
  have name : (text "public_key=").length = 11 := by decide
  rw [Selects, ← name, List.take_left, List.drop_left, hexEncode_length, long, hexDecode_hexEncode]
  simp

theorem not_selects_endpoint_line (key : PublicKey) (rest : Text) :
    ¬ Selects key (text "endpoint=" ++ rest) := by
  rintro ⟨name, _⟩
  cases name

/-- A word without the separator only extends the first piece. -/
theorem splitOn_word_append {word : Text} (oneLine : 10 ∉ word) (rest : Text) :
    (word ++ rest).splitOn 10 = (rest.splitOn 10).modifyHead (word ++ ·) := by
  induction word with
  | nil =>
    rw [List.nil_append]
    cases rest.splitOn 10 <;> rfl
  | cons byte others inductionHypothesis =>
    obtain ⟨other, later⟩ := not_or.mp (List.mem_cons.not.mp oneLine)
    rw [List.cons_append, List.splitOn_cons_eq_if_modifyHead, if_neg (by simpa using Ne.symm other),
      inductionHypothesis later, List.modifyHead_modifyHead]
    rfl

/-- The lines of what `SetEndpointFast` prints. -/
theorem splitOn_setRequest (key : List UInt8) (endpoint : Text) :
    (setRequest key endpoint).splitOn 10 =
      [text "set=1", text "public_key=" ++ hexEncode key] ++
        (endpoint.splitOn 10).modifyHead (text "endpoint=" ++ ·) ++ [[], []] := by
  have printed : setRequest key endpoint =
      text "set=1" ++ 10 :: ((text "public_key=" ++ hexEncode key) ++
        10 :: ((text "endpoint=" ++ endpoint) ++ 10 :: ([] ++ 10 :: []))) := by
    simp [setRequest, text]
  have keyLine : 10 ∉ text "public_key=" ++ hexEncode key := by
    rw [List.mem_append, not_or]
    exact ⟨by decide, not_mem_hexEncode key⟩
  rw [printed, List.splitOn_append_cons_self_of_not_mem (by decide),
    List.splitOn_append_cons_self_of_not_mem keyLine, List.splitOn_append_cons_self,
    List.splitOn_append_cons_self, List.splitOn_nil, splitOn_word_append (by decide)]
  simp

/-- The peers that a request of `SetEndpointFast` addresses. -/
theorem addresses_setRequest (key : PublicKey) {other : List UInt8} (long : other.length = 32)
    (endpoint : Text) :
    Addresses (setRequest other endpoint) key ↔
      other = key.bytes ∨ ∃ line ∈ (endpoint.splitOn 10).tail, Selects key line := by
  obtain ⟨first, rest, lines⟩ := List.exists_cons_of_ne_nil (List.splitOn_ne_nil 10 endpoint)
  have opening : ¬ Selects key (text "set=1") := by
    rintro ⟨name, _⟩
    cases name
  have closing : ¬ Selects key [] := by
    rintro ⟨name, _⟩
    cases name
  rw [Addresses, splitOn_setRequest, lines]
  simp [selects_key_line key long, not_selects_endpoint_line, opening, closing, or_and_right,
    exists_or]

theorem length_of_decodeKey {publicKey : Text} {key : List UInt8}
    (decoded : decodeKey publicKey = some key) : key.length = 32 :=
  of_decide_eq_true (Option.filter_eq_some_iff.mp decoded).2

end WgMesh.Uapi
