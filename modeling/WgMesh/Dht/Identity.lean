/-
This file proves that identities stay bound to public keys in a network whose
nodes all run this code. Seeds, registrations and answers only carry contacts
whose identity is the one derived from their key, and an update of a stored
contact changes neither. Since no table holds an identity twice, or its own, no
table holds a public key twice or its own, and no node is told of itself.
-/

import WgMesh.Dht.Dialing

namespace WgMesh.Dht

open Go

variable {Index : Type} [DecidableEq Index]

/-! ### Callbacks -/

/-- The contacts among the effects of a handler that the callback is called with. -/
def discoveredContacts (effects : List Effect) : List Contact :=
  effects.filterMap fun effect => match effect with
    | .discovered contact => some contact
    | _ => none

/-- The node whose callback an event calls, and the contacts it is called with. -/
def Network.callbacks (network : Network Index) : Event Index → Option (Index × List Contact)
  | .serve choice remoteAddr observed => do
    let request ← network.requests[choice]?
    let (_, effects) ← ((network.nodes request.destination).handleFindNode remoteAddr observed
      request.msg).toOption
    return (request.destination, discoveredContacts effects)
  | .receive choice => do
    let response ← network.responses[choice]?
    let contact ← response.contacts.head?
    let (_, effects) ← ((network.nodes response.destination).handleListed contact).toOption
    return (response.destination, discoveredContacts effects)
  | _ => none

/-- `handleFindNode` calls the callback with the sender only, and not if it is the node itself. -/
theorem Node.discovered_handleFindNode {node next : Node} {remoteAddr observed : Text}
    {msg : DhtMessage} {effects : List Effect} {contact : Contact}
    (handled : node.handleFindNode remoteAddr observed msg = .ok (next, effects))
    (called : contact ∈ discoveredContacts effects) : contact.publicKey ≠ node.publicKey := by
  obtain ⟨table, _, handled⟩ := bind_eq_ok.mp handled
  obtain ⟨announced, announces, handled⟩ := bind_eq_ok.mp handled
  obtain ⟨closest, _, handled⟩ := bind_eq_ok.mp handled
  cases handled
  rw [Node.eq_of_announce announces] at called
  split at called
  · rename_i foreign
    cases List.mem_singleton.mp called
    exact foreign.2.2
  · cases called

/-- `handleFindNodeResp` calls the callback with a listed contact only, and not if its identity
is the node's own. -/
theorem Node.discovered_handleListed {node next : Node} {listed contact : Contact}
    {effects : List Effect} (handled : node.handleListed listed = .ok (next, effects))
    (called : contact ∈ discoveredContacts effects) :
    contact = listed ∧ listed.id ≠ node.table.selfID := by
  rw [(Node.of_handleListed handled).2] at called
  split at called
  · rename_i foreign
    refine ⟨?_, foreign⟩
    split at called
    · exact List.mem_singleton.mp called
    · cases called
  · cases called

/-! ### Bound identities -/

/-- The identity of a contact is the one of its public key. -/
def Contact.Bound (contact : Contact) : Prop := contact.id = nodeID contact.publicKey

/-- Every identity in the network is bound to a public key. -/
structure Network.Bound (setup : Setup Index) (network : Network Index) : Prop where
  placed : network.WellPlaced
  publicKeys : ∀ node, (network.nodes node).publicKey = setup.publicKey node
  selfIDs : ∀ node, (network.nodes node).table.selfID = nodeID (setup.publicKey node)
  requests : ∀ request ∈ network.requests, request.msg.senderID = nodeID request.msg.publicKey
  tables : ∀ node, ∀ contact ∈ (network.nodes node).table.knownPeers, contact.Bound
  responses : ∀ response ∈ network.responses, ∀ contact ∈ response.contacts, contact.Bound

omit [DecidableEq Index] in
theorem Setup.bound_start (setup : Setup Index) : setup.start.Bound setup where
  placed := setup.wellPlaced_start
  publicKeys := fun _ => rfl
  selfIDs := fun _ => rfl
  requests := List.forall_mem_nil _
  tables := by
    intro node contact member
    rw [setup.knownPeers_start node] at member
    cases member
  responses := List.forall_mem_nil _

omit [DecidableEq Index] in
/-- The contact an event inserts is bound. -/
theorem Network.Bound.inserts {setup : Setup Index} {network : Network Index}
    (bound : network.Bound setup) {event : Event Index} {owner : Index} {contact : Contact}
    (passed : network.inserts setup event = some (owner, contact)) : contact.Bound := by
  cases Network.inserts_of_eq passed with
  | seed chosen => rfl
  | registration asked => exact bound.requests _ (List.mem_of_getElem? asked)
  | listed answered first =>
    exact bound.responses _ (List.mem_of_getElem? answered) contact (List.mem_of_mem_head? first)

theorem Network.Bound.tables_moves {setup : Setup Index} {network next : Network Index}
    (bound : network.Bound setup) {event : Event Index} (moved : network.Moves setup event next)
    (node : Index) : ∀ contact ∈ (next.nodes node).table.knownPeers, contact.Bound := by
  intro contact member
  rcases moved.table node with ⟨same, _⟩ | ⟨latest, passed, inserted⟩
  · rw [same] at member
    exact bound.tables node contact member
  · rw [inserted] at member
    rcases (bound.placed node).mem_place.mp member with
      ⟨old, _⟩ | ⟨old, oldMember, _, rfl⟩ | ⟨_, rfl⟩
    · exact bound.tables node contact old
    · exact bound.tables node old oldMember
    · exact bound.inserts passed

theorem Network.Bound.moves {setup : Setup Index} {network next : Network Index}
    (bound : network.Bound setup) {event : Event Index}
    (moved : network.Moves setup event next) : next.Bound setup where
  placed := bound.placed.moves moved
  publicKeys := fun node => (moved.flags node).publicKey.trans (bound.publicKeys node)
  selfIDs := fun node => (moved.flags node).selfID.trans (bound.selfIDs node)
  tables := bound.tables_moves moved
  requests := by
    intro request member
    rcases moved.request_cases member with old | ⟨source, sent⟩
    · exact bound.requests request old
    · rw [sent]
      exact (bound.selfIDs source).trans (congrArg nodeID (bound.publicKeys source).symm)
  responses := by
    intro response member contact listed
    rcases moved.response_cases member listed with ⟨old, among, same⟩ | ⟨node, known⟩
    · exact bound.responses old among contact same
    · exact bound.tables_moves moved node contact known

theorem Network.bound_run {setup : Setup Index} {events : List (Event Index)}
    {network : Network Index} (ran : setup.start.run setup events = some network) :
    network.Bound setup :=
  Runs.run_invariant (Network.Bound setup)
    (fun _ _ _ bound stepped => bound.moves (Network.moves_of_step stepped)) setup.bound_start ran

/-! ### What follows for public keys -/

theorem Table.WellPlaced.ne_selfID {table : Table} (placed : table.WellPlaced) {contact : Contact}
    (member : contact ∈ table.knownPeers) : contact.id ≠ table.selfID := by
  obtain ⟨bucket, stored⟩ := mem_knownPeers.mp member
  exact Table.ne_selfID_of_own (placed.own bucket contact stored)

omit [DecidableEq Index] in
/-- A bound contact whose identity is not a node's own does not carry its key. -/
theorem Network.Bound.ne_publicKey {setup : Setup Index} {network : Network Index}
    (bound : network.Bound setup) {node : Index} {contact : Contact} (self : contact.Bound)
    (foreign : contact.id ≠ (network.nodes node).table.selfID) :
    contact.publicKey ≠ setup.publicKey node := by
  intro same
  rw [self, same, bound.selfIDs node] at foreign
  exact foreign rfl

omit [DecidableEq Index] in
theorem Network.Bound.nodup_publicKeys {setup : Setup Index} {network : Network Index}
    (bound : network.Bound setup) (node : Index) :
    ((network.nodes node).table.knownPeers.map Contact.publicKey).Nodup := by
  have derived : (network.nodes node).table.knownPeers.map Contact.id =
      ((network.nodes node).table.knownPeers.map Contact.publicKey).map nodeID := by
    rw [List.map_map]
    exact List.map_congr_left fun contact member => bound.tables node contact member
  have distinct := Table.nodup_ids_of_own (bound.placed node).own (bound.placed node).distinct
  rw [derived] at distinct
  exact distinct.of_map

omit [DecidableEq Index] in
/-- No callback is called with the key of its own node. -/
theorem Network.Bound.callbacks {setup : Setup Index} {network : Network Index}
    (bound : network.Bound setup) {event : Event Index} {node : Index} {contacts : List Contact}
    (called : network.callbacks event = some (node, contacts)) :
    ∀ contact ∈ contacts, contact.publicKey ≠ setup.publicKey node := by
  intro contact member
  cases event with
  | serve choice remoteAddr observed =>
    obtain ⟨request, _, called⟩ := Option.bind_eq_some_iff.mp called
    obtain ⟨⟨next, effects⟩, handled, called⟩ := Option.bind_eq_some_iff.mp called
    cases called
    rw [← bound.publicKeys]
    exact Node.discovered_handleFindNode (toOption_eq_some handled) member
  | receive choice =>
    obtain ⟨response, answered, called⟩ := Option.bind_eq_some_iff.mp called
    obtain ⟨listed, head, called⟩ := Option.bind_eq_some_iff.mp called
    obtain ⟨⟨next, effects⟩, handled, called⟩ := Option.bind_eq_some_iff.mp called
    cases called
    obtain ⟨rfl, foreign⟩ := Node.discovered_handleListed (toOption_eq_some handled) member
    exact bound.ne_publicKey (bound.responses response (List.mem_of_getElem? answered) contact
      (List.mem_of_mem_head? head)) foreign
  | bootstrap node choice => cases called
  | refresh node => cases called
  | dial choice destination => cases called
  | dialFails choice => cases called
  | setPublicEndpoint node endpoint => cases called
  | loseRequest choice => cases called
  | loseResponse choice => cases called

/-- In every run, identities are bound to public keys in all tables and messages; no table holds
a key twice or its own node, and no node is told of itself. -/
theorem identities_bound {setup : Setup Index} {events : List (Event Index)}
    {network : Network Index} (ran : setup.start.run setup events = some network) :
    (∀ node, ∀ contact ∈ (network.nodes node).table.knownPeers, contact.Bound) ∧
    (∀ request ∈ network.requests, request.msg.senderID = nodeID request.msg.publicKey) ∧
    (∀ response ∈ network.responses, ∀ contact ∈ response.contacts, contact.Bound) ∧
    (∀ node, ((network.nodes node).table.knownPeers.map Contact.publicKey).Nodup) ∧
    (∀ node, ∀ contact ∈ (network.nodes node).table.knownPeers,
      contact.id ≠ (network.nodes node).table.selfID ∧
        contact.publicKey ≠ setup.publicKey node) ∧
    ∀ event node contacts, network.callbacks event = some (node, contacts) →
      ∀ contact ∈ contacts, contact.publicKey ≠ setup.publicKey node := by
  have bound := Network.bound_run ran
  refine ⟨bound.tables, bound.requests, bound.responses, bound.nodup_publicKeys, ?_, ?_⟩
  · intro node contact member
    have foreign := (bound.placed node).ne_selfID member
    exact ⟨foreign, bound.ne_publicKey (bound.tables node contact member) foreign⟩
  · intro event node contacts called
    exact bound.callbacks called

/-- The second hub's registration is the only entry of the first hub's table and bound. -/
theorem identities_bound_hubs :
    ∃ network, twoHubs.start.run twoHubs hubsBootstrap = some network ∧
      (network.nodes 0).table.knownPeers.map Contact.publicKey =
        [text "second-hub-public-key"] ∧
      ∀ contact ∈ (network.nodes 0).table.knownPeers, contact.Bound := by
  have keys : (twoHubs.start.run twoHubs hubsBootstrap).map (fun network =>
      (network.nodes 0).table.knownPeers.map Contact.publicKey) =
        some [text "second-hub-public-key"] := by
    decide +kernel
  obtain ⟨network, ran, known⟩ := Option.map_eq_some_iff.mp keys
  exact ⟨network, ran, known, (identities_bound ran).1 0⟩

end WgMesh.Dht
