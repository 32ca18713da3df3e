/-
This file models peer exchange: the messages, the entries a node has learnt, and
the three places that take in the entries of a message. The code of these places
is the same up to a log line, so they are one function of what the log line does.

Messages are handled concurrently, each entry under the mutex. A run is an
interleaving: messages arrive at any time, and at any time one of the handlers
that are still running takes its next entry. Whatever the order, the first entry
with an endpoint decides what is stored under a foreign key and connected to, and
nothing later changes it.
-/

import WgMesh.Go.Text
import WgMesh.Runs

namespace WgMesh.Pex

open Go

/-! ### The protocol -/

inductive MsgType where
  | pexRequest
  | pexResponse
  | ping
  | pong
  deriving DecidableEq, Repr

structure PeerEntry where
  publicKey : Text
  endpoints : List Text
  latencyMs : Int
  deriving DecidableEq, Repr

structure PexMessage where
  type : MsgType
  sender : Text
  entries : List PeerEntry
  seq : Nat
  deriving DecidableEq, Repr

/-- A node. Its connections are left out, and `connects` records the calls of its callback. -/
structure Protocol where
  publicKey : Text
  entries : AList fun _ : Text => PeerEntry
  seq : Nat
  connects : List (Text × Text)

/-- `NewProtocol`. -/
def Protocol.new (publicKey : Text) : Protocol where
  publicKey := publicKey
  entries := ∅
  seq := 0
  connects := []

/-- Keep an entry and connect to its peer. -/
def Protocol.store (protocol : Protocol) (entry : PeerEntry) (endpoint : Text) : Protocol :=
  { protocol with
    entries := protocol.entries.insert entry.publicKey entry
    connects := protocol.connects ++ [(entry.publicKey, endpoint)] }

/-- Take in an entry. A fault of the log line ends the process. -/
def Protocol.ingest (log : PeerEntry → Except Panic Unit) (protocol : Protocol)
    (entry : PeerEntry) : Except Panic Protocol :=
  if entry.publicKey = protocol.publicKey then return protocol
  else if entry.publicKey ∈ protocol.entries then return protocol
  else match entry.endpoints with
    | [] => return protocol
    | endpoint :: _ => do
      log entry
      return protocol.store entry endpoint

/-- Where the entries of a message are taken in. -/
inductive Path where
  /-- `handleRequest`. -/
  | request
  /-- `handleResponse`. -/
  | response
  /-- The branch of `sendMessage` that reads the reply. -/
  | reply
  deriving DecidableEq, Repr

/-- The log line of a path. -/
def Path.log : Path → PeerEntry → Except Panic Unit
  | .reply, entry => do
    let _ ← upTo entry.publicKey 16
    return ()
  | _, _ => return ()

/-- Take in a list of entries. -/
def Protocol.ingestAll (path : Path) (protocol : Protocol) (entries : List PeerEntry) :
    Except Panic Protocol :=
  entries.foldlM (Protocol.ingest path.log) protocol

/-- The answer to a request. -/
def Protocol.answer (protocol : Protocol) (knownPeers : List PeerEntry) : PexMessage where
  type := .pexResponse
  sender := protocol.publicKey
  entries := knownPeers
  seq := 0

/-- `handleRequest`: the node afterwards and the message it answers with, given what the callback
knows. -/
def Protocol.handleRequest (protocol : Protocol) (msg : PexMessage) (knownPeers : List PeerEntry) :
    Except Panic (Protocol × PexMessage) := do
  let next ← protocol.ingestAll .request msg.entries
  return (next, protocol.answer knownPeers)

/-- `handleResponse`. -/
def Protocol.handleResponse (protocol : Protocol) (msg : PexMessage) : Except Panic Protocol :=
  protocol.ingestAll .response msg.entries

/-- `sendMessage`, from the reply on. -/
def Protocol.receiveReply (protocol : Protocol) (resp : PexMessage) : Except Panic Protocol :=
  if resp.type = .pexResponse then protocol.ingestAll .reply resp.entries else return protocol

/-- The request of the next round of gossip. -/
def Protocol.request (protocol : Protocol) (knownPeers : List PeerEntry) : PexMessage where
  type := .pexRequest
  sender := protocol.publicKey
  entries := knownPeers
  seq := protocol.seq + 1

/-- `gossip`: the node afterwards and what it sends where, given what the callback knows. -/
def Protocol.gossip (protocol : Protocol) (knownPeers : List PeerEntry) :
    Protocol × List (Text × PexMessage) :=
  if knownPeers = [] then (protocol, [])
  else ({ protocol with seq := protocol.seq + 1 },
    knownPeers.flatMap fun peer => peer.endpoints.map (·, protocol.request knownPeers))

/-! ### One entry -/

/-- The entry is about another node, not known yet, and says where to find it. -/
def Protocol.Accepts (protocol : Protocol) (entry : PeerEntry) : Prop :=
  entry.publicKey ≠ protocol.publicKey ∧ entry.publicKey ∉ protocol.entries ∧ entry.endpoints ≠ []

theorem Protocol.lookup_store (protocol : Protocol) (entry : PeerEntry) (endpoint key : Text) :
    (protocol.store entry endpoint).entries.lookup key =
      if key = entry.publicKey then some entry else protocol.entries.lookup key := by
  split
  · rename_i same
    rw [same]
    exact AList.lookup_insert _
  · rename_i different
    exact AList.lookup_insert_ne different

theorem Protocol.mem_store {protocol : Protocol} {entry : PeerEntry} {endpoint key : Text} :
    key ∈ (protocol.store entry endpoint).entries ↔
      key = entry.publicKey ∨ key ∈ protocol.entries :=
  AList.mem_insert _

/-- An entry that is not accepted changes nothing, and one that is accepted is stored. -/
theorem Protocol.ingest_cases {log : PeerEntry → Except Panic Unit} {protocol next : Protocol}
    {entry : PeerEntry} (ingested : protocol.ingest log entry = .ok next) :
    ¬ protocol.Accepts entry ∧ next = protocol ∨
      ∃ endpoint, protocol.Accepts entry ∧ entry.endpoints.head? = some endpoint ∧
        next = protocol.store entry endpoint := by
  unfold Protocol.ingest at ingested
  split at ingested
  · rename_i own
    cases ingested
    exact .inl ⟨fun accepts => accepts.1 own, rfl⟩
  · rename_i foreign
    split at ingested
    · rename_i known
      cases ingested
      exact .inl ⟨fun accepts => accepts.2.1 known, rfl⟩
    · rename_i unknown
      split at ingested
      · rename_i nowhere
        cases ingested
        exact .inl ⟨fun accepts => accepts.2.2 nowhere, rfl⟩
      · rename_i endpoint others listed
        obtain ⟨_, _, stored⟩ := bind_eq_ok.mp ingested
        cases stored
        refine .inr ⟨endpoint, ⟨foreign, unknown, ?_⟩, ?_, rfl⟩
        · rw [listed]
          exact List.cons_ne_nil _ _
        · rw [listed]
          rfl

theorem Protocol.ingest_of_not_accepts (log : PeerEntry → Except Panic Unit) {protocol : Protocol}
    {entry : PeerEntry} (refused : ¬ protocol.Accepts entry) :
    protocol.ingest log entry = .ok protocol := by
  unfold Protocol.ingest
  split
  · rfl
  · rename_i foreign
    split
    · rfl
    · rename_i unknown
      split
      · rfl
      · rename_i listed
        refine absurd ⟨foreign, unknown, ?_⟩ refused
        rw [listed]
        exact List.cons_ne_nil _ _

/-! ### Interleavings -/

/-- A node with the handlers that are running on it, and the entries they have taken so far. -/
structure Handling where
  protocol : Protocol
  handlers : List (Path × List PeerEntry)
  processed : List PeerEntry

/-- A message starts to be handled, or a handler takes its next entry. -/
inductive Turn where
  | arrives (path : Path) (entries : List PeerEntry)
  | advances (handler : Nat)
  deriving DecidableEq, Repr

/-- One turn, whatever the log lines do. -/
def Handling.step (log : Path → PeerEntry → Except Panic Unit) (handling : Handling) :
    Turn → Option Handling
  | .arrives path entries =>
    some { handling with handlers := handling.handlers ++ [(path, entries)] }
  | .advances handler => do
    let (path, entries) ← handling.handlers[handler]?
    match entries with
    | [] => none
    | entry :: rest => do
      let next ← (handling.protocol.ingest (log path) entry).toOption
      return {
        protocol := next
        handlers := handling.handlers.set handler (path, rest)
        processed := handling.processed ++ [entry] }

/-- A node that has just started. -/
def Handling.start (publicKey : Text) : Handling where
  protocol := .new publicKey
  handlers := []
  processed := []

/-- What the entries and the connections of a node say about the entries it has processed. -/
structure Handling.Discovered (handling : Handling) (publicKey : Text) : Prop where
  self : handling.protocol.publicKey = publicKey
  foreign : publicKey ∉ handling.protocol.entries
  located : ∀ key entry, handling.protocol.entries.lookup key = some entry → entry.endpoints ≠ []
  once : (handling.protocol.connects.map Prod.fst).Nodup
  connected : ∀ key endpoint, (key, endpoint) ∈ handling.protocol.connects ↔
    ∃ entry, handling.protocol.entries.lookup key = some entry ∧
      entry.endpoints.head? = some endpoint
  keys : ∀ key, key ∈ handling.protocol.entries ↔
    key ≠ publicKey ∧ ∃ entry ∈ handling.processed, entry.publicKey = key ∧ entry.endpoints ≠ []

/-- The turns a run can take, with what the node makes of the entry. -/
theorem Handling.step_cases {log : Path → PeerEntry → Except Panic Unit}
    {handling next : Handling} {turn : Turn} (stepped : handling.step log turn = some next) :
    (next.protocol = handling.protocol ∧ next.processed = handling.processed) ∨
      ∃ path entry, handling.protocol.ingest (log path) entry = .ok next.protocol ∧
        next.processed = handling.processed ++ [entry] := by
  cases turn with
  | arrives path entries =>
    cases stepped
    exact .inl ⟨rfl, rfl⟩
  | advances handler =>
    obtain ⟨⟨path, entries⟩, _, taken⟩ := Option.bind_eq_some_iff.mp stepped
    cases entries with
    | nil => cases taken
    | cons entry rest =>
      obtain ⟨protocol, ingested, returned⟩ := Option.bind_eq_some_iff.mp taken
      cases returned
      exact .inr ⟨path, entry, toOption_eq_some ingested, rfl⟩

/-- The foreign keys that occurred in a processed entry with an endpoint, one entry later. -/
theorem exists_located_append {processed : List PeerEntry} {entry : PeerEntry} {key : Text} :
    (∃ other ∈ processed ++ [entry], other.publicKey = key ∧ other.endpoints ≠ []) ↔
      (∃ other ∈ processed, other.publicKey = key ∧ other.endpoints ≠ []) ∨
        (entry.publicKey = key ∧ entry.endpoints ≠ []) := by
  simp only [List.mem_append, List.mem_singleton, or_and_right, exists_or, exists_eq_left]

/-- A refused entry is about the node itself, about a known node, or without an endpoint. -/
theorem Handling.Discovered.of_refused {handling next : Handling} {publicKey : Text}
    {entry : PeerEntry} (discovered : handling.Discovered publicKey)
    (refused : ¬ handling.protocol.Accepts entry) (same : next.protocol = handling.protocol)
    (processed : next.processed = handling.processed ++ [entry]) :
    next.Discovered publicKey := by
  obtain ⟨self, foreign, located, once, connected, keys⟩ := discovered
  refine ⟨?_, ?_, ?_, ?_, ?_, fun key => ?_⟩
  all_goals rw [same]
  · exact self
  · exact foreign
  · exact located
  · exact once
  · exact connected
  · rw [keys key, processed, exists_located_append]
    refine and_congr_right fun other => (or_iff_left_of_imp ?_).symm
    rintro ⟨rfl, somewhere⟩
    have stored : entry.publicKey ∈ handling.protocol.entries := by
      by_contra unknown
      exact refused ⟨self.symm ▸ other, unknown, somewhere⟩
    exact ((keys _).mp stored).2

/-- A node has not connected to a peer that is not among its entries. -/
theorem Handling.Discovered.not_connected {handling : Handling} {publicKey key : Text}
    (discovered : handling.Discovered publicKey) (unknown : key ∉ handling.protocol.entries)
    (endpoint : Text) : (key, endpoint) ∉ handling.protocol.connects := by
  intro member
  obtain ⟨known, found, _⟩ := (discovered.connected _ _).mp member
  exact unknown (AList.lookup_isSome.mp (Option.isSome_iff_exists.mpr ⟨known, found⟩))

/-- The connections after an accepted entry are those of the entries after it. -/
theorem Handling.Discovered.connected_store {handling : Handling} {publicKey : Text}
    {entry : PeerEntry} {endpoint : Text} (discovered : handling.Discovered publicKey)
    (unknown : entry.publicKey ∉ handling.protocol.entries)
    (first : entry.endpoints.head? = some endpoint) (key target : Text) :
    (key, target) ∈ (handling.protocol.store entry endpoint).connects ↔
      ∃ stored, (handling.protocol.store entry endpoint).entries.lookup key = some stored ∧
        stored.endpoints.head? = some target := by
  rw [Protocol.lookup_store, Protocol.store, List.mem_append, List.mem_singleton, Prod.mk.injEq]
  by_cases same : key = entry.publicKey
  · subst same
    rw [if_pos rfl, or_iff_right (discovered.not_connected unknown target), and_iff_right rfl]
    constructor
    · rintro rfl
      exact ⟨entry, rfl, first⟩
    · rintro ⟨_, ⟨⟩, head⟩
      exact Option.some.inj (head.symm.trans first)
  · rw [if_neg same, discovered.connected, or_iff_left fun both => same both.1]

theorem Handling.Discovered.once_store {handling : Handling} {publicKey : Text}
    {entry : PeerEntry} (discovered : handling.Discovered publicKey)
    (unknown : entry.publicKey ∉ handling.protocol.entries) (endpoint : Text) :
    ((handling.protocol.store entry endpoint).connects.map Prod.fst).Nodup := by
  rw [Protocol.store, List.map_append, List.nodup_append]
  refine ⟨discovered.once, List.nodup_singleton _, ?_⟩
  rintro key before _ now rfl
  obtain ⟨⟨_, earlier⟩, among, rfl⟩ := List.mem_map.mp before
  rw [List.map_singleton, List.mem_singleton] at now
  cases now
  exact discovered.not_connected unknown earlier among

theorem Handling.Discovered.of_accepted {handling next : Handling} {publicKey : Text}
    {entry : PeerEntry} {endpoint : Text} (discovered : handling.Discovered publicKey)
    (accepts : handling.protocol.Accepts entry) (first : entry.endpoints.head? = some endpoint)
    (stored : next.protocol = handling.protocol.store entry endpoint)
    (processed : next.processed = handling.processed ++ [entry]) :
    next.Discovered publicKey := by
  obtain ⟨other, unknown, somewhere⟩ := accepts
  rw [discovered.self] at other
  refine ⟨?_, ?_, ?_, ?_, ?_, fun key => ?_⟩
  all_goals rw [stored]
  · exact discovered.self
  · rw [Protocol.mem_store, not_or]
    exact ⟨Ne.symm other, discovered.foreign⟩
  · intro key known
    rw [Protocol.lookup_store]
    split
    · rintro ⟨⟩
      exact somewhere
    · exact discovered.located key known
  · exact discovered.once_store unknown endpoint
  · exact discovered.connected_store unknown first
  · rw [Protocol.mem_store, discovered.keys, processed, exists_located_append]
    constructor
    · rintro (rfl | ⟨elsewhere, earlier⟩)
      · exact ⟨other, .inr ⟨rfl, somewhere⟩⟩
      · exact ⟨elsewhere, .inl earlier⟩
    · rintro ⟨elsewhere, earlier | ⟨rfl, _⟩⟩
      · exact .inr ⟨elsewhere, earlier⟩
      · exact .inl rfl

theorem Handling.Discovered.step {log : Path → PeerEntry → Except Panic Unit}
    {handling next : Handling} {turn : Turn} {publicKey : Text}
    (discovered : handling.Discovered publicKey) (stepped : handling.step log turn = some next) :
    next.Discovered publicKey := by
  rcases Handling.step_cases stepped with ⟨protocol, processed⟩ | ⟨path, entry, ingested, processed⟩
  · obtain ⟨self, foreign, located, once, connected, keys⟩ := discovered
    rw [← protocol] at self foreign located once connected keys
    rw [← processed] at keys
    exact ⟨self, foreign, located, once, connected, keys⟩
  · rcases Protocol.ingest_cases ingested with ⟨refused, same⟩ | ⟨endpoint, accepts, first, stored⟩
    · exact discovered.of_refused refused same processed
    · exact discovered.of_accepted accepts first stored processed

/-- A turn leaves the entries that are stored as they are. -/
theorem Handling.lookup_step {log : Path → PeerEntry → Except Panic Unit}
    {handling next : Handling} {turn : Turn} {key : Text} {entry : PeerEntry}
    (found : handling.protocol.entries.lookup key = some entry)
    (stepped : handling.step log turn = some next) :
    next.protocol.entries.lookup key = some entry := by
  rcases Handling.step_cases stepped with ⟨protocol, _⟩ | ⟨path, arrival, ingested, _⟩
  · rw [protocol]
    exact found
  · rcases Protocol.ingest_cases ingested with ⟨_, same⟩ | ⟨endpoint, accepts, _, stored⟩
    · rw [same]
      exact found
    · have different : key ≠ arrival.publicKey := by
        rintro rfl
        exact accepts.2.1 (AList.lookup_isSome.mp (Option.isSome_iff_exists.mpr ⟨entry, found⟩))
      rw [stored, Protocol.lookup_store, if_neg different]
      exact found

theorem Handling.discovered_start (publicKey : Text) :
    (Handling.start publicKey).Discovered publicKey where
  self := rfl
  foreign := AList.notMem_empty publicKey
  located := by
    rintro key entry ⟨⟩
  once := List.nodup_nil
  connected := by
    intro key endpoint
    refine iff_of_false List.not_mem_nil ?_
    rintro ⟨entry, ⟨⟩, _⟩
  keys := by
    intro key
    refine iff_of_false (AList.notMem_empty key) ?_
    rintro ⟨_, entry, ⟨⟩, _⟩

/-- In every interleaving, a node connects once to each foreign key that was told with an
endpoint, with the first endpoint of the entry it keeps for it, and keeps that entry. -/
theorem discovers_once (log : Path → PeerEntry → Except Panic Unit) (publicKey : Text)
    {turns : List Turn} {handling : Handling}
    (ran : Runs.run (Handling.step log) (Handling.start publicKey) turns = some handling) :
    handling.Discovered publicKey ∧
      ∀ later final, Runs.run (Handling.step log) handling later = some final →
        ∀ key entry, handling.protocol.entries.lookup key = some entry →
          final.protocol.entries.lookup key = some entry := by
  constructor
  · exact Runs.run_invariant (fun state => state.Discovered publicKey)
      (fun _ _ _ discovered stepped => discovered.step stepped)
      (Handling.discovered_start publicKey) ran
  · intro later final continued key entry found
    exact Runs.run_invariant (fun state => state.protocol.entries.lookup key = some entry)
      (fun _ _ _ found stepped => Handling.lookup_step found stepped) found continued

/-- Two handlers that tell one key with different endpoints, interleaved. -/
theorem discovers_once_interleaved :
    let first : PeerEntry := ⟨text "peer", [text "192.0.2.1:1"], 0⟩
    let second : PeerEntry := ⟨text "peer", [text "192.0.2.2:2"], 0⟩
    ∃ handling, Runs.run (Handling.step Path.log) (Handling.start (text "self"))
        [.arrives .request [first], .arrives .response [second], .advances 1, .advances 0] =
          some handling ∧
      handling.Discovered (text "self") ∧
      handling.protocol.connects = [(text "peer", text "192.0.2.2:2")] := by
  intro first second
  refine ⟨_, rfl, (@discovers_once Path.log (text "self") [.arrives .request [first],
    .arrives .response [second], .advances 1, .advances 0] _ rfl).1, by decide +kernel⟩

end WgMesh.Pex
