/-
This file models a network of PEX nodes with the connections between them, and
proves where the entries of a node come from.

A round of gossip starts a dial for every endpoint that the node's callback
returns. Whoever accepts a dial finds one request on the connection, takes in its
entries one after another, and writes back what its own callback returns; the
dialing end takes in the entries of that answer. Dials, messages, the taking in of
an entry and the answers are separate events, dials may fail and connections may
break, so a run is any interleaving of all of this, with any callbacks.

Entries are never passed on: what a node keeps was returned by the callback of a
node it had a connection with. And nothing but a round of gossip dials, so a
network in which no callback returns an endpoint stays as it is.
-/

import WgMesh.Pex.Protocol

namespace WgMesh.Pex

open Go

/-! ### The network -/

variable {Index : Type}

/-- Who the nodes are and where they listen. -/
structure Setup (Index : Type) where
  publicKey : Index → Text
  accepts : Index → Text → Bool

/-- A goroutine of `gossip` or `SendPing` that is about to dial. -/
structure Dial (Index : Type) where
  source : Index
  endpoint : Text
  msg : PexMessage

/-- A connection, which stays on record, with what is written on it and not decoded yet. -/
structure Conn (Index : Type) where
  source : Index
  destination : Index
  toDestination : List PexMessage
  toSource : List PexMessage
  /-- Whether `sendMessage` waits for the answer; `SendPing` does not. -/
  awaits : Bool

/-- A handler that has decoded a message and is taking in its entries. -/
structure Taking where
  conn : Nat
  path : Path
  remaining : List PeerEntry

/-- The end that takes in the entries, and the end that sent them. -/
def Taking.taker (taking : Taking) (conn : Conn Index) : Index :=
  if taking.path = .reply then conn.source else conn.destination

def Taking.teller (taking : Taking) (conn : Conn Index) : Index :=
  if taking.path = .reply then conn.destination else conn.source

structure Network (Index : Type) where
  nodes : Index → Protocol
  dials : List (Dial Index)
  conns : List (Conn Index)
  takings : List Taking
  /-- What the callbacks have returned so far. -/
  told : List (Index × List PeerEntry)

inductive Event (Index : Type) where
  /-- A round of gossip, with what the callback returns. -/
  | gossip (node : Index) (known : List PeerEntry)
  | sendPing (node : Index) (endpoint : Text)
  | dial (choice : Nat) (destination : Index)
  | dialFails (choice : Nat)
  /-- `handleConn` decodes a message. -/
  | serve (conn : Nat)
  /-- A handler takes in its next entry. -/
  | take (choice : Nat)
  /-- The handler of a request has taken in all the entries and answers. -/
  | answer (choice : Nat) (known : List PeerEntry)
  /-- `sendMessage` decodes an answer. -/
  | read (conn : Nat)
  | breaks (conn : Nat)

/-- `SendPing` and its answer. -/
def Protocol.ping (protocol : Protocol) : PexMessage where
  type := .ping
  sender := protocol.publicKey
  entries := []
  seq := 0

def Protocol.pong (protocol : Protocol) : PexMessage where
  type := .pong
  sender := protocol.publicKey
  entries := []
  seq := 0

section Steps

variable [DecidableEq Index]

def Setup.network (setup : Setup Index) : Network Index where
  nodes := fun node => .new (setup.publicKey node)
  dials := []
  conns := []
  takings := []
  told := []

/-- What `handleConn` starts or writes for a message. -/
def Network.handle (network : Network Index) (index : Nat) (conn : Conn Index)
    (msg : PexMessage) : Network Index :=
  match msg.type with
  | .pexRequest => { network with
      takings := network.takings ++ [⟨index, .request, msg.entries⟩] }
  | .pexResponse => { network with
      takings := network.takings ++ [⟨index, .response, msg.entries⟩] }
  | .ping => { network with
      conns := network.conns.set index { conn with
        toSource := conn.toSource ++ [(network.nodes conn.destination).pong] } }
  | .pong => network

/-- One event. A fault of a log line ends the process of the node. -/
def Network.step (setup : Setup Index) (network : Network Index) : Event Index →
    Option (Network Index)
  | .gossip node known =>
    let (next, sends) := (network.nodes node).gossip known
    some { network with
      nodes := Function.update network.nodes node next
      dials := network.dials ++ sends.map fun send => ⟨node, send.1, send.2⟩
      told := network.told ++ [(node, known)] }
  | .sendPing node endpoint => some { network with
      dials := network.dials ++ [⟨node, endpoint, (network.nodes node).ping⟩] }
  | .dial choice destination => do
    let dial ← network.dials[choice]?
    if setup.accepts destination dial.endpoint then
      return { network with
        dials := network.dials.eraseIdx choice
        conns := network.conns ++ [{
          source := dial.source
          destination := destination
          toDestination := [dial.msg]
          toSource := []
          awaits := dial.msg.type = .pexRequest }] }
    else none
  | .dialFails choice => some { network with dials := network.dials.eraseIdx choice }
  | .serve index => do
    let conn ← network.conns[index]?
    match conn.toDestination with
    | [] => none
    | msg :: rest =>
      let decoded := { conn with toDestination := rest }
      return Network.handle { network with conns := network.conns.set index decoded }
        index decoded msg
  | .take choice => do
    let taking ← network.takings[choice]?
    let conn ← network.conns[taking.conn]?
    match taking.remaining with
    | [] => none
    | entry :: rest => do
      let next ← ((network.nodes (taking.taker conn)).ingest taking.path.log entry).toOption
      return { network with
        nodes := Function.update network.nodes (taking.taker conn) next
        takings := network.takings.set choice { taking with remaining := rest } }
  | .answer choice known => do
    let taking ← network.takings[choice]?
    let conn ← network.conns[taking.conn]?
    if taking.path = .request ∧ taking.remaining = [] then
      return { network with
        conns := network.conns.set taking.conn { conn with
          toSource := conn.toSource ++ [(network.nodes conn.destination).answer known] }
        takings := network.takings.eraseIdx choice
        told := network.told ++ [(conn.destination, known)] }
    else none
  | .read index => do
    let conn ← network.conns[index]?
    if conn.awaits then
      match conn.toSource with
      | [] => none
      | msg :: rest => return { network with
          conns := network.conns.set index { conn with toSource := rest, awaits := false }
          takings := network.takings ++
            if msg.type = .pexResponse then [⟨index, .reply, msg.entries⟩] else [] }
    else none
  | .breaks index => do
    let conn ← network.conns[index]?
    return { network with
      conns := network.conns.set index { conn with toDestination := [], toSource := [] } }

/-- The network after a run of events. -/
def Network.run (setup : Setup Index) (network : Network Index) (events : List (Event Index)) :
    Option (Network Index) :=
  Runs.run (Network.step setup) network events

end Steps

/-! ### What the entries of a node should be -/

/-- The callback of a node has returned an entry. -/
def Network.Told (network : Network Index) (teller : Index) (entry : PeerEntry) : Prop :=
  ∃ known, (teller, known) ∈ network.told ∧ entry ∈ known

/-- Two nodes have had a connection, whoever dialed. -/
def Network.Met (network : Network Index) (first second : Index) : Prop :=
  ∃ conn ∈ network.conns, (conn.source = first ∧ conn.destination = second) ∨
    (conn.source = second ∧ conn.destination = first)

/-- An entry that a node keeps under a key, first-hand. -/
structure Network.Firsthand (setup : Setup Index) (network : Network Index) (node : Index)
    (key : Text) (entry : PeerEntry) : Prop where
  named : entry.publicKey = key
  foreign : key ≠ setup.publicKey node
  located : entry.endpoints ≠ []
  told : ∃ teller, network.Met node teller ∧ network.Told teller entry

/-! ### What only grows -/

/-- Nothing that was told is forgotten, and connections keep their ends. -/
structure Network.Grows (network next : Network Index) : Prop where
  told : ∀ telling ∈ network.told, telling ∈ next.told
  conns : ∀ (index : Nat) (conn : Conn Index), network.conns[index]? = some conn →
    ∃ later : Conn Index, next.conns[index]? = some later ∧ later.source = conn.source ∧
      later.destination = conn.destination

variable {setup : Setup Index} {network next : Network Index}

theorem Network.Told.mono (grows : network.Grows next) {teller : Index} {entry : PeerEntry}
    (told : network.Told teller entry) : next.Told teller entry := by
  obtain ⟨known, telling, member⟩ := told
  exact ⟨known, grows.told _ telling, member⟩

theorem Network.Met.mono (grows : network.Grows next) {first second : Index}
    (met : network.Met first second) : next.Met first second := by
  obtain ⟨conn, member, ends⟩ := met
  obtain ⟨index, found⟩ := List.mem_iff_getElem?.mp member
  obtain ⟨later, kept, source, destination⟩ := grows.conns index conn found
  refine ⟨later, List.mem_of_getElem? kept, ?_⟩
  rw [source, destination]
  exact ends

theorem Network.Firsthand.mono (grows : network.Grows next) {node : Index} {key : Text}
    {entry : PeerEntry} (firsthand : network.Firsthand setup node key entry) :
    next.Firsthand setup node key entry :=
  { firsthand with
    told := by
      obtain ⟨teller, met, told⟩ := firsthand.told
      exact ⟨teller, met.mono grows, told.mono grows⟩ }

/-- A connection is written on or read from. -/
theorem Network.grows_set {index : Nat} {conn later : Conn Index}
    (found : network.conns[index]? = some conn) (source : later.source = conn.source)
    (destination : later.destination = conn.destination)
    (told : ∀ telling ∈ network.told, telling ∈ next.told)
    (conns : next.conns = network.conns.set index later) : network.Grows next where
  told := told
  conns := by
    intro other old held
    rw [conns, List.getElem?_set]
    by_cases same : index = other
    · subst same
      obtain rfl : conn = old := Option.some.inj (found.symm.trans held)
      obtain ⟨inRange, _⟩ := List.getElem?_eq_some_iff.mp found
      rw [if_pos rfl, if_pos inRange]
      exact ⟨later, rfl, source, destination⟩
    · rw [if_neg same]
      exact ⟨old, held, rfl, rfl⟩

theorem Network.grows_of_eq (told : ∀ telling ∈ network.told, telling ∈ next.told)
    (conns : next.conns = network.conns) : network.Grows next where
  told := told
  conns := fun _ conn found => ⟨conn, conns ▸ found, rfl, rfl⟩

/-! ### The invariant -/

/-- What is written on a connection was told by the end that wrote it. -/
structure Conn.Sound (network : Network Index) (conn : Conn Index) : Prop where
  requests : ∀ msg ∈ conn.toDestination, ∀ entry ∈ msg.entries, network.Told conn.source entry
  answers : ∀ msg ∈ conn.toSource, ∀ entry ∈ msg.entries, network.Told conn.destination entry

/-- A handler has its entries from the other end of a connection. -/
def Taking.Sound (network : Network Index) (taking : Taking) : Prop :=
  ∃ conn, network.conns[taking.conn]? = some conn ∧
    ∀ entry ∈ taking.remaining, network.Told (taking.teller conn) entry

structure Network.Sound (setup : Setup Index) (network : Network Index) : Prop where
  publicKey : ∀ node, (network.nodes node).publicKey = setup.publicKey node
  entries : ∀ node key entry, (network.nodes node).entries.lookup key = some entry →
    network.Firsthand setup node key entry
  connects : ∀ node, ∀ connect ∈ (network.nodes node).connects, ∃ entry,
    (network.nodes node).entries.lookup connect.1 = some entry ∧
      entry.endpoints.head? = some connect.2
  dials : ∀ dial ∈ network.dials, ∀ entry ∈ dial.msg.entries, network.Told dial.source entry
  conns : ∀ conn ∈ network.conns, conn.Sound network
  takings : ∀ taking ∈ network.takings, taking.Sound network

theorem Conn.Sound.mono (grows : network.Grows next) {conn : Conn Index}
    (sound : conn.Sound network) : conn.Sound next where
  requests msg member entry listed := (sound.requests msg member entry listed).mono grows
  answers msg member entry listed := (sound.answers msg member entry listed).mono grows

theorem Taking.Sound.mono (grows : network.Grows next) {taking : Taking}
    (sound : taking.Sound network) : taking.Sound next := by
  obtain ⟨conn, found, told⟩ := sound
  obtain ⟨later, kept, source, destination⟩ := grows.conns _ conn found
  refine ⟨later, kept, fun entry member => ?_⟩
  have same : taking.teller later = taking.teller conn := by
    rw [Taking.teller, Taking.teller, source, destination]
  rw [same]
  exact (told entry member).mono grows

/-- An event that changes no node: what it adds has to be sound. -/
theorem Network.Sound.of_grows (sound : network.Sound setup) (grows : network.Grows next)
    (nodes : ∀ node, (next.nodes node).publicKey = (network.nodes node).publicKey ∧
      (next.nodes node).entries = (network.nodes node).entries ∧
      (next.nodes node).connects = (network.nodes node).connects)
    (dials : ∀ dial ∈ next.dials, dial ∈ network.dials ∨
      ∀ entry ∈ dial.msg.entries, next.Told dial.source entry)
    (conns : ∀ conn ∈ next.conns, conn ∈ network.conns ∨ conn.Sound next)
    (takings : ∀ taking ∈ next.takings, taking ∈ network.takings ∨ taking.Sound next) :
    next.Sound setup where
  publicKey node := (nodes node).1.trans (sound.publicKey node)
  entries := by
    intro node key entry found
    rw [(nodes node).2.1] at found
    exact (sound.entries node key entry found).mono grows
  connects := by
    intro node connect called
    rw [(nodes node).2.2] at called
    rw [(nodes node).2.1]
    exact sound.connects node connect called
  dials := by
    intro dial member entry listed
    rcases dials dial member with old | new
    · exact (sound.dials dial old entry listed).mono grows
    · exact new entry listed
  conns := by
    intro conn member
    rcases conns conn member with old | new
    · exact (sound.conns conn old).mono grows
    · exact new
  takings := by
    intro taking member
    rcases takings taking member with old | new
    · exact (sound.takings taking old).mono grows
    · exact new

/-- A connection whose written messages are replaced by sound ones. -/
theorem Network.Sound.set (sound : network.Sound setup) {index : Nat} {conn later : Conn Index}
    (found : network.conns[index]? = some conn)
    (conns : next.conns = network.conns.set index later) (source : later.source = conn.source)
    (destination : later.destination = conn.destination)
    (told : ∀ telling ∈ network.told, telling ∈ next.told)
    (nodes : next.nodes = network.nodes) (dials : next.dials = network.dials)
    (kept : later.Sound next)
    (takings : ∀ taking ∈ next.takings, taking ∈ network.takings ∨ taking.Sound next) :
    next.Sound setup := by
  refine sound.of_grows (Network.grows_set found source destination told conns)
    (fun node => by rw [nodes]; exact ⟨rfl, rfl, rfl⟩) (fun dial member => Or.inl (dials ▸ member))
    (fun other member => ?_) takings
  rw [conns] at member
  rcases List.mem_or_eq_of_mem_set member with old | rfl
  · exact Or.inl old
  · exact Or.inr kept

theorem Network.Sound.handle (sound : network.Sound setup) {index : Nat} {conn : Conn Index}
    (found : network.conns[index]? = some conn) {msg : PexMessage}
    (told : ∀ entry ∈ msg.entries, network.Told conn.source entry) :
    (network.handle index conn msg).Sound setup := by
  have starts : ∀ path : Path, path ≠ .reply → Network.Sound setup { network with
      takings := network.takings ++ [⟨index, path, msg.entries⟩] } := by
    intro path here
    refine sound.of_grows (Network.grows_of_eq (fun _ => id) rfl) (fun _ => ⟨rfl, rfl, rfl⟩)
      (fun _ => Or.inl) (fun _ => Or.inl) (fun taking member => ?_)
    refine (List.mem_append.mp member).imp_right fun new => ?_
    obtain rfl := List.mem_singleton.mp new
    refine ⟨conn, found, ?_⟩
    rw [Taking.teller, if_neg here]
    exact told
  unfold Network.handle
  split
  · exact starts .request (by decide)
  · exact starts .response (by decide)
  · have old := sound.conns conn (List.mem_of_getElem? found)
    refine sound.set found rfl rfl rfl (fun _ => id) rfl rfl ⟨old.requests, ?_⟩ (fun _ => Or.inl)
    intro written member entry listed
    rcases List.mem_append.mp member with before | pong
    · exact old.answers written before entry listed
    · obtain rfl := List.mem_singleton.mp pong
      cases listed
  · exact sound

/-- The two ends of the connection of a handler have met. -/
theorem Taking.met {taking : Taking} {conn : Conn Index}
    (found : network.conns[taking.conn]? = some conn) :
    network.Met (taking.taker conn) (taking.teller conn) := by
  refine ⟨conn, List.mem_of_getElem? found, ?_⟩
  unfold Taking.taker Taking.teller
  split
  · exact Or.inl ⟨rfl, rfl⟩
  · exact Or.inr ⟨rfl, rfl⟩

/-! ### Every event keeps the invariant -/

section Steps

variable [DecidableEq Index]

/-- A round of gossip sends what the callback returned, and changes no entry. -/
theorem Protocol.of_gossip (protocol : Protocol) (known : List PeerEntry) :
    (protocol.gossip known).1.publicKey = protocol.publicKey ∧
      (protocol.gossip known).1.entries = protocol.entries ∧
      (protocol.gossip known).1.connects = protocol.connects ∧
      ∀ send ∈ (protocol.gossip known).2, send.2.entries = known := by
  unfold Protocol.gossip
  split
  · exact ⟨rfl, rfl, rfl, List.forall_mem_nil _⟩
  · refine ⟨rfl, rfl, rfl, fun send member => ?_⟩
    obtain ⟨peer, _, listed⟩ := List.mem_flatMap.mp member
    obtain ⟨endpoint, _, rfl⟩ := List.mem_map.mp listed
    rfl

theorem Network.Sound.gossip (sound : network.Sound setup) {node : Index}
    {known : List PeerEntry} (stepped : network.step setup (.gossip node known) = some next) :
    next.Sound setup := by
  obtain ⟨publicKey, entries, connects, sends⟩ := (network.nodes node).of_gossip known
  cases stepped
  refine sound.of_grows (Network.grows_of_eq (fun _ => List.mem_append_left _) rfl)
    (fun other => ?_) (fun dial member => ?_) (fun _ => Or.inl) (fun _ => Or.inl)
  · by_cases same : other = node
    · subst same
      simp only [Function.update_self]
      exact ⟨publicKey, entries, connects⟩
    · simp [Function.update_of_ne same]
  · refine (List.mem_append.mp member).imp_right fun new => ?_
    obtain ⟨send, sent, rfl⟩ := List.mem_map.mp new
    intro entry listed
    refine ⟨known, List.mem_append_right _ List.mem_cons_self, ?_⟩
    rw [← sends send sent]
    exact listed

theorem Network.Sound.sendPing (sound : network.Sound setup) {node : Index} {endpoint : Text}
    (stepped : network.step setup (.sendPing node endpoint) = some next) :
    next.Sound setup := by
  cases stepped
  refine sound.of_grows (Network.grows_of_eq (fun _ => id) rfl) (fun _ => ⟨rfl, rfl, rfl⟩)
    (fun dial member => ?_) (fun _ => Or.inl) (fun _ => Or.inl)
  refine (List.mem_append.mp member).imp_right fun new => ?_
  obtain rfl := List.mem_singleton.mp new
  exact List.forall_mem_nil _

theorem Network.Sound.dial (sound : network.Sound setup) {choice : Nat} {destination : Index}
    (stepped : network.step setup (.dial choice destination) = some next) :
    next.Sound setup := by
  obtain ⟨dial, chosen, stepped⟩ := Option.bind_eq_some_iff.mp stepped
  obtain ⟨_, stepped⟩ := Option.ite_none_right_eq_some.mp stepped
  cases stepped
  have grows : network.Grows { network with
      dials := network.dials.eraseIdx choice
      conns := network.conns ++ [{
        source := dial.source
        destination := destination
        toDestination := [dial.msg]
        toSource := []
        awaits := dial.msg.type = .pexRequest }] } :=
    ⟨fun _ => id, fun index conn found =>
      ⟨conn, (List.getElem?_append_left (List.getElem?_eq_some_iff.mp found).1).trans found,
        rfl, rfl⟩⟩
  refine sound.of_grows grows (fun _ => ⟨rfl, rfl, rfl⟩)
    (fun other member => Or.inl (List.mem_of_mem_eraseIdx member)) (fun conn member => ?_)
    (fun _ => Or.inl)
  refine (List.mem_append.mp member).imp_right fun new => ?_
  obtain rfl := List.mem_singleton.mp new
  refine ⟨fun msg written entry listed => ?_, List.forall_mem_nil _⟩
  obtain rfl := List.mem_singleton.mp written
  exact (sound.dials dial (List.mem_of_getElem? chosen) entry listed).mono grows

theorem Network.Sound.serve (sound : network.Sound setup) {index : Nat}
    (stepped : network.step setup (.serve index) = some next) : next.Sound setup := by
  obtain ⟨conn, found, stepped⟩ := Option.bind_eq_some_iff.mp stepped
  have old := sound.conns conn (List.mem_of_getElem? found)
  split at stepped
  · cases stepped
  · rename_i msg rest written
    cases stepped
    obtain ⟨inRange, _⟩ := List.getElem?_eq_some_iff.mp found
    have told := old.requests
    rw [written] at told
    obtain ⟨first, others⟩ := List.forall_mem_cons.mp told
    refine Network.Sound.handle ?_ ?_ first
    · exact sound.set found rfl rfl rfl (fun _ => id) rfl rfl ⟨others, old.answers⟩
        (fun _ => Or.inl)
    · exact List.getElem?_set_self inRange

/-- An entry that was told by a node that has been met can be taken in. -/
theorem Network.Sound.ingest (sound : network.Sound setup) {node teller : Index}
    (met : network.Met node teller) {entry : PeerEntry} (told : network.Told teller entry)
    {log : PeerEntry → Except Panic Unit} {taken : Protocol}
    (ingested : (network.nodes node).ingest log entry = .ok taken) :
    Network.Sound setup { network with nodes := Function.update network.nodes node taken } := by
  rcases Protocol.ingest_cases ingested with ⟨_, rfl⟩ | ⟨endpoint, accepts, first, rfl⟩
  · rw [Function.update_eq_self]
    exact sound
  · have grows : network.Grows { network with
        nodes := Function.update network.nodes node
          ((network.nodes node).store entry endpoint) } :=
      Network.grows_of_eq (fun _ => id) rfl
    have stored : Network.Firsthand setup { network with
        nodes := Function.update network.nodes node
          ((network.nodes node).store entry endpoint) } node entry.publicKey entry :=
      ⟨rfl, sound.publicKey node ▸ accepts.1, accepts.2.2, teller, met, told⟩
    constructor
    · intro other
      by_cases same : other = node
      · subst same
        simp only [Function.update_self]
        exact sound.publicKey other
      · simp only [Function.update_of_ne same]
        exact sound.publicKey other
    · intro other key kept found
      by_cases same : other = node
      · subst same
        simp only [Function.update_self, Protocol.lookup_store] at found
        split at found
        · rename_i own
          cases found
          exact own ▸ stored
        · exact (sound.entries other key kept found).mono grows
      · simp only [Function.update_of_ne same] at found
        exact (sound.entries other key kept found).mono grows
    · intro other connect called
      by_cases same : other = node
      · subst same
        simp only [Function.update_self, Protocol.lookup_store] at called ⊢
        rcases List.mem_append.mp called with before | new
        · -- An older call is for a key that was kept then, and the new key was not.
          obtain ⟨older, found, head⟩ := sound.connects other connect before
          refine ⟨older, ?_, head⟩
          rw [if_neg, found]
          intro own
          exact accepts.2.1 (own ▸ AList.lookup_isSome.mp (by rw [found]; rfl))
        · obtain rfl := List.mem_singleton.mp new
          exact ⟨entry, if_pos rfl, first⟩
      · simp only [Function.update_of_ne same] at called ⊢
        exact sound.connects other connect called
    · exact sound.dials
    · exact fun conn member => (sound.conns conn member).mono grows
    · exact sound.takings

theorem Network.Sound.take (sound : network.Sound setup) {choice : Nat}
    (stepped : network.step setup (.take choice) = some next) : next.Sound setup := by
  obtain ⟨taking, chosen, stepped⟩ := Option.bind_eq_some_iff.mp stepped
  obtain ⟨conn, found, stepped⟩ := Option.bind_eq_some_iff.mp stepped
  split at stepped
  · cases stepped
  · rename_i entry rest remaining
    obtain ⟨taken, ingested, stepped⟩ := Option.bind_eq_some_iff.mp stepped
    cases stepped
    obtain ⟨_, same, told⟩ := sound.takings taking (List.mem_of_getElem? chosen)
    obtain rfl := Option.some.inj (found.symm.trans same)
    rw [remaining] at told
    obtain ⟨first, others⟩ := List.forall_mem_cons.mp told
    have advanced : Network.Sound setup { network with
        takings := network.takings.set choice { taking with remaining := rest } } := by
      refine sound.of_grows (Network.grows_of_eq (fun _ => id) rfl) (fun _ => ⟨rfl, rfl, rfl⟩)
        (fun _ => Or.inl) (fun _ => Or.inl) (fun other member => ?_)
      refine (List.mem_or_eq_of_mem_set member).imp_right ?_
      rintro rfl
      exact ⟨conn, found, others⟩
    exact advanced.ingest (Taking.met found) first (toOption_eq_some ingested)

theorem Network.Sound.answer (sound : network.Sound setup) {choice : Nat}
    {known : List PeerEntry} (stepped : network.step setup (.answer choice known) = some next) :
    next.Sound setup := by
  obtain ⟨taking, chosen, stepped⟩ := Option.bind_eq_some_iff.mp stepped
  obtain ⟨conn, found, stepped⟩ := Option.bind_eq_some_iff.mp stepped
  obtain ⟨_, stepped⟩ := Option.ite_none_right_eq_some.mp stepped
  cases stepped
  have old := sound.conns conn (List.mem_of_getElem? found)
  refine sound.set found rfl rfl rfl (fun _ => List.mem_append_left _) rfl rfl ⟨?_, ?_⟩
    (fun other member => Or.inl (List.mem_of_mem_eraseIdx member))
  · intro msg written entry listed
    obtain ⟨told, telling, member⟩ := old.requests msg written entry listed
    exact ⟨told, List.mem_append_left _ telling, member⟩
  · intro msg written entry listed
    rcases List.mem_append.mp written with before | new
    · obtain ⟨told, telling, member⟩ := old.answers msg before entry listed
      exact ⟨told, List.mem_append_left _ telling, member⟩
    · obtain rfl := List.mem_singleton.mp new
      exact ⟨known, List.mem_append_right _ List.mem_cons_self, listed⟩

theorem Network.Sound.read (sound : network.Sound setup) {index : Nat}
    (stepped : network.step setup (.read index) = some next) : next.Sound setup := by
  obtain ⟨conn, found, stepped⟩ := Option.bind_eq_some_iff.mp stepped
  obtain ⟨_, stepped⟩ := Option.ite_none_right_eq_some.mp stepped
  have old := sound.conns conn (List.mem_of_getElem? found)
  split at stepped
  · cases stepped
  · rename_i msg rest written
    cases stepped
    obtain ⟨inRange, _⟩ := List.getElem?_eq_some_iff.mp found
    have told := old.answers
    rw [written] at told
    obtain ⟨first, others⟩ := List.forall_mem_cons.mp told
    refine sound.set found rfl rfl rfl (fun _ => id) rfl rfl ⟨old.requests, others⟩
      (fun taking member => ?_)
    refine (List.mem_append.mp member).imp_right fun new => ?_
    split at new
    · obtain rfl := List.mem_singleton.mp new
      exact ⟨_, List.getElem?_set_self inRange, first⟩
    · cases new

theorem Network.Sound.breaks (sound : network.Sound setup) {index : Nat}
    (stepped : network.step setup (.breaks index) = some next) : next.Sound setup := by
  obtain ⟨conn, found, stepped⟩ := Option.bind_eq_some_iff.mp stepped
  cases stepped
  exact sound.set found rfl rfl rfl (fun _ => id) rfl rfl
    ⟨List.forall_mem_nil _, List.forall_mem_nil _⟩ (fun _ => Or.inl)

theorem Network.Sound.step (sound : network.Sound setup) {event : Event Index}
    (stepped : network.step setup event = some next) : next.Sound setup := by
  cases event with
  | gossip node known => exact sound.gossip stepped
  | sendPing node endpoint => exact sound.sendPing stepped
  | dial choice destination => exact sound.dial stepped
  | dialFails choice =>
    cases stepped
    exact sound.of_grows (Network.grows_of_eq (fun _ => id) rfl) (fun _ => ⟨rfl, rfl, rfl⟩)
      (fun dial member => Or.inl (List.mem_of_mem_eraseIdx member)) (fun _ => Or.inl)
      (fun _ => Or.inl)
  | serve conn => exact sound.serve stepped
  | take choice => exact sound.take stepped
  | answer choice known => exact sound.answer stepped
  | read conn => exact sound.read stepped
  | breaks conn => exact sound.breaks stepped

omit [DecidableEq Index] in
theorem Setup.sound_network (setup : Setup Index) : setup.network.Sound setup where
  publicKey _ := rfl
  entries := by
    rintro node key entry ⟨⟩
  connects _ := List.forall_mem_nil _
  dials := List.forall_mem_nil _
  conns := List.forall_mem_nil _
  takings := List.forall_mem_nil _

theorem Network.sound_of_run {events : List (Event Index)}
    (ran : setup.network.run setup events = some network) : network.Sound setup :=
  Runs.run_invariant (Network.Sound setup) (fun _ _ _ sound stepped => sound.step stepped)
    setup.sound_network ran

/-- In every run, what a node keeps and connects to was returned by the callback of a node that
it had a connection with. -/
theorem entries_told_firsthand {events : List (Event Index)}
    (ran : setup.network.run setup events = some network) (node : Index) :
    (∀ key entry, (network.nodes node).entries.lookup key = some entry →
      network.Firsthand setup node key entry) ∧
    ∀ connect ∈ (network.nodes node).connects, ∃ entry,
      network.Firsthand setup node connect.1 entry ∧ entry.endpoints.head? = some connect.2 := by
  have sound := Network.sound_of_run ran
  refine ⟨sound.entries node, fun connect called => ?_⟩
  obtain ⟨entry, found, first⟩ := sound.connects node connect called
  exact ⟨entry, sound.entries node _ entry found, first⟩

/-- Two nodes, of which the second listens at an address that the first is told of. -/
def twoNodes : Setup Bool where
  publicKey := fun node => if node then text "bob" else text "alice"
  accepts := fun node endpoint => node && endpoint = text "192.0.2.2:51821"

/-- What the first is told: the second, and a third node. -/
def aliceKnows : List PeerEntry :=
  [⟨text "bob", [text "192.0.2.2:51821"], 0⟩, ⟨text "carol", [text "192.0.2.3:51821"], 0⟩]

/-- The second node learns of the third in one round. -/
def aliceTells : List (Event Bool) :=
  [.gossip false aliceKnows, .dial 0 true, .serve 0, .take 0, .take 0]

theorem entries_told_firsthand_alice : ∃ network,
    twoNodes.network.run twoNodes aliceTells = some network ∧
      network.Firsthand twoNodes true (text "carol")
        ⟨text "carol", [text "192.0.2.3:51821"], 0⟩ := by
  have learns : ((twoNodes.network.run twoNodes aliceTells).map fun network =>
      (network.nodes true).entries.lookup (text "carol")) =
        some (some ⟨text "carol", [text "192.0.2.3:51821"], 0⟩) := by
    decide +kernel
  obtain ⟨network, ran, found⟩ := Option.map_eq_some_iff.mp learns
  exact ⟨network, ran, (entries_told_firsthand ran true).1 _ _ found⟩

/-! ### Who dials -/

/-- The number of dials that an event starts. -/
def Event.dialed : Event Index → Nat
  | .gossip _ known => (known.flatMap PeerEntry.endpoints).length
  | .sendPing _ _ => 1
  | _ => 0

theorem Protocol.length_gossip (protocol : Protocol) (known : List PeerEntry) :
    (protocol.gossip known).2.length = (known.flatMap PeerEntry.endpoints).length := by
  unfold Protocol.gossip
  split
  · rename_i empty
    rw [empty]
    rfl
  · simp [List.length_flatMap]

omit [DecidableEq Index] in
theorem Network.length_handle (network : Network Index) (index : Nat) (conn : Conn Index)
    (msg : PexMessage) :
    (network.handle index conn msg).conns.length = network.conns.length ∧
      (network.handle index conn msg).dials = network.dials := by
  unfold Network.handle
  split
  · exact ⟨rfl, rfl⟩
  · exact ⟨rfl, rfl⟩
  · exact ⟨List.length_set, rfl⟩
  · exact ⟨rfl, rfl⟩

/-- Only the rounds of gossip and the pings dial. -/
theorem Network.dialed_of_step {event : Event Index}
    (stepped : network.step setup event = some next) :
    next.conns.length + next.dials.length ≤
      network.conns.length + network.dials.length + event.dialed := by
  cases event with
  | gossip node known =>
    cases stepped
    change network.conns.length + (network.dials ++
      ((network.nodes node).gossip known).2.map fun send => Dial.mk node send.1 send.2).length ≤ _
    rw [List.length_append, List.length_map, Protocol.length_gossip, Event.dialed]
    omega
  | sendPing node endpoint =>
    cases stepped
    simp only [List.length_append, List.length_singleton, Event.dialed]
    omega
  | dial choice destination =>
    obtain ⟨dial, chosen, stepped⟩ := Option.bind_eq_some_iff.mp stepped
    obtain ⟨_, stepped⟩ := Option.ite_none_right_eq_some.mp stepped
    cases stepped
    obtain ⟨inRange, _⟩ := List.getElem?_eq_some_iff.mp chosen
    simp only [List.length_append, List.length_singleton, List.length_eraseIdx_of_lt inRange]
    omega
  | dialFails choice =>
    cases stepped
    exact Nat.add_le_add_left (List.length_eraseIdx_le _ _) _
  | serve index =>
    obtain ⟨conn, found, stepped⟩ := Option.bind_eq_some_iff.mp stepped
    split at stepped
    · cases stepped
    · cases stepped
      obtain ⟨conns, dials⟩ := Network.length_handle _ index _ _
      rw [conns, dials, List.length_set]
      exact Nat.le_refl _
  | take choice =>
    obtain ⟨taking, chosen, stepped⟩ := Option.bind_eq_some_iff.mp stepped
    obtain ⟨conn, found, stepped⟩ := Option.bind_eq_some_iff.mp stepped
    split at stepped
    · cases stepped
    · obtain ⟨taken, _, stepped⟩ := Option.bind_eq_some_iff.mp stepped
      cases stepped
      exact Nat.le_refl _
  | answer choice known =>
    obtain ⟨taking, chosen, stepped⟩ := Option.bind_eq_some_iff.mp stepped
    obtain ⟨conn, found, stepped⟩ := Option.bind_eq_some_iff.mp stepped
    obtain ⟨_, stepped⟩ := Option.ite_none_right_eq_some.mp stepped
    cases stepped
    rw [List.length_set]
    exact Nat.le_refl _
  | read index =>
    obtain ⟨conn, found, stepped⟩ := Option.bind_eq_some_iff.mp stepped
    obtain ⟨_, stepped⟩ := Option.ite_none_right_eq_some.mp stepped
    split at stepped
    · cases stepped
    · cases stepped
      rw [List.length_set]
      exact Nat.le_refl _
  | breaks index =>
    obtain ⟨conn, found, stepped⟩ := Option.bind_eq_some_iff.mp stepped
    cases stepped
    rw [List.length_set]
    exact Nat.le_refl _

/-- No more connections are opened than the callbacks have returned endpoints to rounds of
gossip, and pings were sent. -/
theorem Network.dialed_of_run {events : List (Event Index)}
    (ran : network.run setup events = some next) :
    next.conns.length + next.dials.length ≤
      network.conns.length + network.dials.length + (events.map Event.dialed).sum := by
  induction events generalizing network with
  | nil =>
    cases ran
    exact Nat.le_refl _
  | cons event rest inductionHypothesis =>
    obtain ⟨middle, stepped, ran⟩ := Runs.run_cons.mp ran
    have first := Network.dialed_of_step stepped
    have others := inductionHypothesis ran
    rw [List.map_cons, List.sum_cons]
    omega

end Steps

end WgMesh.Pex
