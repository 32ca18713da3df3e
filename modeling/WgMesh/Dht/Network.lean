/-
This file models a network of DHT nodes: `Bootstrap`, `Refresh`, the requests
and responses in flight between the nodes, and the order in which all of this
happens, which nobody controls.

A request is taken to reach `handleFindNode` and a response `handleFindNodeResp`;
what one connection makes of the two is the subject of `Connection`. The contacts
of a response are handled one after another, each insert a step of its own, since
other goroutines of the node may insert in between.

First-hand registrations, second-hand contacts and seeds are all written by the
one `insert`, and an event passes at most one contact to one table. What any
event does to the tables follows from that one fact.
-/

import WgMesh.Dht.Entries
import WgMesh.Dht.Node
import WgMesh.Runs

namespace WgMesh.Dht

open Go

/-! ### What a node does on its own -/

/-- The identity that `Bootstrap` logs, sliced under a length guard. -/
def logSeed (seed : Contact) : Except Panic Text :=
  if 8 ≤ seed.id.length then upTo seed.id 8 else return seed.id

/-- One round of the loop of `Bootstrap`, before it dials the seed. -/
def Node.bootstrapSeed (node : Node) (seed : Contact) : Except Panic Node := do
  let _ ← logSeed seed
  let table ← node.table.insert seed
  return { node with
    table := table
    seedContact := if node.seedContact.publicKey = [] then seed else node.seedContact }

/-- The contacts that `Refresh` dials. -/
def Node.refreshContacts (node : Node) : List Contact :=
  node.table.knownPeers.filter fun contact =>
    ¬ (contact.publicKey = [] ∨ contact.publicKey = node.publicKey)

/-- The address that `findNode` dials for a contact. -/
def Contact.findNodeAddress (contact : Contact) : Text := contact.endpoint

/-- The messages among the effects of a handler. -/
def writtenMessages (effects : List Effect) : List DhtMessage :=
  effects.filterMap fun effect => match effect with
    | .wrote message => some message
    | _ => none

/-- Handlers change the table and never who the node is. -/
structure Node.SameFlags (next node : Node) : Prop where
  selfID : next.table.selfID = node.table.selfID
  publicKey : next.publicKey = node.publicKey
  wgEndpoint : next.wgEndpoint = node.wgEndpoint
  listenPort : next.listenPort = node.listenPort

theorem Node.sameFlags_place (node : Node) (contact : Contact) :
    Node.SameFlags { node with table := node.table.place contact } node :=
  ⟨Table.place_selfID _ _, rfl, rfl, rfl⟩

theorem Node.of_bootstrapSeed {node next : Node} {seed : Contact}
    (done : node.bootstrapSeed seed = .ok next) :
    next.table = node.table.place seed ∧ next.SameFlags node := by
  obtain ⟨_, _, done⟩ := bind_eq_ok.mp done
  obtain ⟨table, inserted, done⟩ := bind_eq_ok.mp done
  obtain rfl := Table.eq_place_of_insert inserted
  cases done
  exact ⟨rfl, Table.place_selfID _ _, rfl, rfl, rfl⟩

theorem Node.writtenMessages_announce {node : Node} {msg : DhtMessage} {contact : Contact}
    {announced : List Effect} (called : node.announce msg contact = .ok announced) :
    writtenMessages announced = [] := by
  rw [Node.eq_of_announce called]
  split <;> rfl

/-- `handleFindNode` places the sender and answers with contacts of the new table. -/
theorem Node.of_handleFindNode {node next : Node} {remoteAddr observed : Text} {msg : DhtMessage}
    {effects : List Effect}
    (handled : node.handleFindNode remoteAddr observed msg = .ok (next, effects)) :
    next = { node with table := node.table.place (registration remoteAddr observed msg) } ∧
      ∃ closest, (∀ contact ∈ closest, contact ∈ next.table.knownPeers) ∧
        writtenMessages effects = [node.findNodeResp closest] := by
  obtain ⟨table, inserted, handled⟩ := bind_eq_ok.mp handled
  obtain ⟨announced, called, handled⟩ := bind_eq_ok.mp handled
  obtain ⟨closest, found, handled⟩ := bind_eq_ok.mp handled
  obtain rfl := Table.eq_place_of_insert inserted
  cases handled
  refine ⟨rfl, closest, fun contact => Table.mem_knownPeers_of_closest found, ?_⟩
  have silent := Node.writtenMessages_announce called
  unfold writtenMessages at silent ⊢
  rw [List.cons_append, List.filterMap_cons_none rfl, List.filterMap_append, silent]
  rfl

/-- The table's own identity is never placed. -/
theorem Table.place_own (table : Table) {contact : Contact} (own : contact.id = table.selfID) :
    table.place contact = table := by
  unfold Table.place
  rw [dif_neg]
  rw [own, prefixLength_self table.selfForm]
  exact lt_irrefl _

theorem Node.announces_place (node : Node) (placed contact : Contact) :
    Node.Announces { node with table := node.table.place placed } contact ↔
      node.Announces contact := by
  simp only [Node.Announces, Table.place_selfID]

/-- Handling a listed contact places it, and calls the callback if the contact is another node
with a key. -/
theorem Node.of_handleListed {node next : Node} {contact : Contact} {effects : List Effect}
    (handled : node.handleListed contact = .ok (next, effects)) :
    next = { node with table := node.table.place contact } ∧
      effects = if contact.id ≠ node.table.selfID then .inserted contact ::
        (if node.onPeerDiscovered ∧ contact.publicKey ≠ [] then [.discovered contact] else [])
      else [] := by
  unfold Node.handleListed at handled
  split at handled
  · rename_i foreign
    obtain ⟨table, inserted, handled⟩ := bind_eq_ok.mp handled
    obtain ⟨_, _, handled⟩ := bind_eq_ok.mp handled
    obtain ⟨announced, called, handled⟩ := bind_eq_ok.mp handled
    obtain rfl := Table.eq_place_of_insert inserted
    cases handled
    rw [if_pos foreign]
    refine ⟨rfl, congrArg _ ?_⟩
    unfold Node.announceListed at called
    split at called
    · rename_i keyed
      rw [if_pos keyed, eq_of_callDiscovered called]
    · rename_i silent
      cases called
      rw [if_neg silent]
  · rename_i own
    cases handled
    rw [if_neg own, Table.place_own _ (not_not.mp own)]
    exact ⟨rfl, rfl⟩

/-- The loop of `handleFindNodeResp` places all the contacts. -/
theorem Node.of_handleContacts {node last : Node} {contacts : List Contact}
    {effects : List Effect} (handled : node.handleContacts contacts = .ok (last, effects)) :
    last = { node with table := contacts.foldl Table.place node.table } := by
  induction contacts generalizing node effects with
  | nil =>
    cases handled
    rfl
  | cons contact rest inductionHypothesis =>
    obtain ⟨⟨_, _⟩, listed, handled⟩ := bind_eq_ok.mp handled
    obtain ⟨⟨_, _⟩, others, handled⟩ := bind_eq_ok.mp handled
    cases handled
    obtain ⟨rfl, _⟩ := Node.of_handleListed listed
    rw [inductionHypothesis others, List.foldl_cons]

/-- The contacts that a message lists for its reader. -/
def listedContacts (msg : DhtMessage) : List Contact :=
  if msg.type = .findNodeResp then msg.contacts else []

/-- A reader places the contacts that are listed for it. -/
theorem Node.of_readResponse {node next : Node} {msg : DhtMessage} {effects : List Effect}
    (handled : node.readResponse msg = .ok (next, effects)) :
    next = { node with table := (listedContacts msg).foldl Table.place node.table } := by
  unfold Node.readResponse at handled
  unfold listedContacts
  split at handled
  · rename_i response
    rw [if_pos response]
    exact Node.of_handleContacts handled
  · rename_i plan
    rw [if_neg (by rw [plan]; exact MsgType.noConfusion)]
    cases handled
    rfl
  · rename_i other _
    rw [if_neg other]
    cases handled
    rfl

/-! ### The network -/

/-- A seed on the command line, `publickey@ip:port`. -/
structure Seed where
  publicKey : Text
  endpoint : Text
  deriving DecidableEq, Repr

/-- The contact `main` makes of a seed. -/
def Seed.contact (seed : Seed) : Contact := .known seed.publicKey seed.endpoint

/-- How the nodes are started, and where their listeners can be reached. -/
structure Setup (Index : Type) where
  publicKey : Index → Text
  listenPort : Index → Nat
  wgEndpoint : Index → Text
  seeds : Index → List Seed
  /-- A TCP dial of this address can reach the listener of this node. -/
  accepts : Index → Text → Bool

/-- A registration and query in flight. -/
structure Request (Index : Type) where
  source : Index
  destination : Index
  msg : DhtMessage

/-- What is left of a response: the contacts its reader has not handled yet. -/
structure Response (Index : Type) where
  destination : Index
  contacts : List Contact

structure Network (Index : Type) where
  nodes : Index → Node
  /-- The contacts that a running `Bootstrap` or `Refresh` is going to dial. -/
  pending : List (Index × Contact)
  requests : List (Request Index)
  responses : List (Response Index)

/-- What happens next. Choices are positions in the lists of the network. -/
inductive Event (Index : Type) where
  | bootstrap (node : Index) (choice : Nat)
  | refresh (node : Index)
  | dial (choice : Nat) (destination : Index)
  | dialFails (choice : Nat)
  | serve (choice : Nat) (remoteAddr observed : Text)
  | receive (choice : Nat)
  | setPublicEndpoint (node : Index) (endpoint : Text)
  | loseRequest (choice : Nat)
  | loseResponse (choice : Nat)

variable {Index : Type} [DecidableEq Index]

/-- The network before anything has happened. -/
def Setup.start (setup : Setup Index) : Network Index where
  nodes := fun node =>
    Node.new (setup.publicKey node) (setup.listenPort node) (setup.wgEndpoint node)
  pending := []
  requests := []
  responses := []

/-- One event. A fault ends the process of the node it happens to, and a dial needs a listener
at the contact's endpoint. -/
def Network.step (setup : Setup Index) (network : Network Index) : Event Index →
    Option (Network Index)
  | .bootstrap node choice => do
    let seed ← (setup.seeds node)[choice]?
    let next ← ((network.nodes node).bootstrapSeed seed.contact).toOption
    return { network with
      nodes := Function.update network.nodes node next
      pending := network.pending ++ [(node, seed.contact)] }
  | .refresh node => some { network with
      pending := network.pending ++ (network.nodes node).refreshContacts.map (node, ·) }
  | .dial choice destination => do
    let (source, contact) ← network.pending[choice]?
    if setup.accepts destination contact.findNodeAddress then
      return { network with
        pending := network.pending.eraseIdx choice
        requests := network.requests ++ [{
          source := source
          destination := destination
          msg := (network.nodes source).findNodeRequest (network.nodes source).table.selfID }] }
    else none
  | .dialFails choice => some { network with pending := network.pending.eraseIdx choice }
  | .serve choice remoteAddr observed => do
    let request ← network.requests[choice]?
    let (next, effects) ← ((network.nodes request.destination).handleFindNode remoteAddr observed
      request.msg).toOption
    return { network with
      nodes := Function.update network.nodes request.destination next
      requests := network.requests.eraseIdx choice
      responses := network.responses ++ (writtenMessages effects).map fun resp =>
        { destination := request.source, contacts := resp.contacts } }
  | .receive choice => do
    let response ← network.responses[choice]?
    match response.contacts with
    | [] => none
    | contact :: rest => do
      let (next, _) ← ((network.nodes response.destination).handleListed contact).toOption
      return { network with
        nodes := Function.update network.nodes response.destination next
        responses := network.responses.set choice { response with contacts := rest } }
  | .setPublicEndpoint node endpoint => some { network with
      nodes := Function.update network.nodes node
        { network.nodes node with publicEndpoint := endpoint } }
  | .loseRequest choice => some { network with requests := network.requests.eraseIdx choice }
  | .loseResponse choice => some { network with responses := network.responses.eraseIdx choice }

/-- The network after a run of events. -/
def Network.run (setup : Setup Index) (network : Network Index) (events : List (Event Index)) :
    Option (Network Index) :=
  Runs.run (Network.step setup) network events

/-- The contact an event passes to a table, and whose table it is. -/
def Network.inserts (setup : Setup Index) (network : Network Index) :
    Event Index → Option (Index × Contact)
  | .bootstrap node choice => (setup.seeds node)[choice]?.map fun seed => (node, seed.contact)
  | .serve choice remoteAddr observed => network.requests[choice]?.map fun request =>
      (request.destination, registration remoteAddr observed request.msg)
  | .receive choice => do
    let response ← network.responses[choice]?
    let contact ← response.contacts.head?
    return (response.destination, contact)
  | _ => none

/-- Where the contact that an event inserts comes from. -/
inductive Network.Inserts (setup : Setup Index) (network : Network Index) :
    Event Index → Index → Contact → Prop
  | seed {node : Index} {choice : Nat} {seed : Seed}
      (chosen : (setup.seeds node)[choice]? = some seed) :
      Inserts setup network (.bootstrap node choice) node seed.contact
  | registration {choice : Nat} {remoteAddr observed : Text} {request : Request Index}
      (asked : network.requests[choice]? = some request) :
      Inserts setup network (.serve choice remoteAddr observed) request.destination
        (registration remoteAddr observed request.msg)
  | listed {choice : Nat} {response : Response Index} {contact : Contact}
      (answered : network.responses[choice]? = some response)
      (first : response.contacts.head? = some contact) :
      Inserts setup network (.receive choice) response.destination contact

omit [DecidableEq Index] in
theorem Network.inserts_of_eq {setup : Setup Index} {network : Network Index}
    {event : Event Index} {owner : Index} {contact : Contact}
    (passed : network.inserts setup event = some (owner, contact)) :
    network.Inserts setup event owner contact := by
  cases event with
  | bootstrap node choice =>
    obtain ⟨seed, chosen, equal⟩ := Option.map_eq_some_iff.mp passed
    cases equal
    exact .seed chosen
  | serve choice remoteAddr observed =>
    obtain ⟨request, asked, equal⟩ := Option.map_eq_some_iff.mp passed
    cases equal
    exact .registration asked
  | receive choice =>
    obtain ⟨response, answered, passed⟩ := Option.bind_eq_some_iff.mp passed
    obtain ⟨first, head, equal⟩ := Option.bind_eq_some_iff.mp passed
    cases equal
    exact .listed answered head
  | refresh node => cases passed
  | dial choice destination => cases passed
  | dialFails choice => cases passed
  | setPublicEndpoint node endpoint => cases passed
  | loseRequest choice => cases passed
  | loseResponse choice => cases passed

omit [DecidableEq Index] in
theorem Setup.knownPeers_start (setup : Setup Index) (node : Index) :
    (setup.start.nodes node).table.knownPeers = [] :=
  knownPeers_new (setup.publicKey node)

/-! ### What an event does -/

/-- The networks an event can lead to, with what its guards tell. -/
inductive Network.Moves (setup : Setup Index) (network : Network Index) :
    Event Index → Network Index → Prop
  | bootstraps {node : Index} {choice : Nat} {seed : Seed} {next : Node}
      (chosen : (setup.seeds node)[choice]? = some seed)
      (placed : next.table = (network.nodes node).table.place seed.contact)
      (flags : next.SameFlags (network.nodes node)) :
      Moves setup network (.bootstrap node choice) { network with
        nodes := Function.update network.nodes node next
        pending := network.pending ++ [(node, seed.contact)] }
  | refreshes (node : Index) : Moves setup network (.refresh node) { network with
        pending := network.pending ++ (network.nodes node).refreshContacts.map (node, ·) }
  | dials {choice : Nat} {source destination : Index} {contact : Contact}
      (waiting : network.pending[choice]? = some (source, contact)) :
      Moves setup network (.dial choice destination) { network with
        pending := network.pending.eraseIdx choice
        requests := network.requests ++ [{
          source := source
          destination := destination
          msg := (network.nodes source).findNodeRequest
            (network.nodes source).table.selfID }] }
  | dialFails (choice : Nat) : Moves setup network (.dialFails choice)
      { network with pending := network.pending.eraseIdx choice }
  | serves {choice : Nat} {remoteAddr observed : Text} {request : Request Index} {next : Node}
      {closest : List Contact} (asked : network.requests[choice]? = some request)
      (placed : next.table = (network.nodes request.destination).table.place
        (registration remoteAddr observed request.msg))
      (flags : next.SameFlags (network.nodes request.destination))
      (known : ∀ contact ∈ closest, contact ∈ next.table.knownPeers) :
      Moves setup network (.serve choice remoteAddr observed) { network with
        nodes := Function.update network.nodes request.destination next
        requests := network.requests.eraseIdx choice
        responses := network.responses ++
          [{ destination := request.source, contacts := closest }] }
  | receives {choice : Nat} {destination : Index} {contact : Contact} {rest : List Contact}
      {next : Node} (answered : network.responses[choice]? = some ⟨destination, contact :: rest⟩)
      (placed : next.table = (network.nodes destination).table.place contact)
      (flags : next.SameFlags (network.nodes destination)) :
      Moves setup network (.receive choice) { network with
        nodes := Function.update network.nodes destination next
        responses := network.responses.set choice ⟨destination, rest⟩ }
  | publishes (node : Index) (endpoint : Text) :
      Moves setup network (.setPublicEndpoint node endpoint) { network with
        nodes := Function.update network.nodes node
          { network.nodes node with publicEndpoint := endpoint } }
  | losesRequest (choice : Nat) : Moves setup network (.loseRequest choice)
      { network with requests := network.requests.eraseIdx choice }
  | losesResponse (choice : Nat) : Moves setup network (.loseResponse choice)
      { network with responses := network.responses.eraseIdx choice }

theorem Network.moves_of_step {setup : Setup Index} {network next : Network Index}
    {event : Event Index} (stepped : network.step setup event = some next) :
    network.Moves setup event next := by
  cases event with
  | bootstrap node choice =>
    obtain ⟨seed, chosen, stepped⟩ := Option.bind_eq_some_iff.mp stepped
    obtain ⟨booted, done, stepped⟩ := Option.bind_eq_some_iff.mp stepped
    obtain ⟨placed, flags⟩ := Node.of_bootstrapSeed (toOption_eq_some done)
    cases stepped
    exact .bootstraps chosen placed flags
  | refresh node =>
    cases stepped
    exact .refreshes node
  | dial choice destination =>
    obtain ⟨⟨source, contact⟩, waiting, stepped⟩ := Option.bind_eq_some_iff.mp stepped
    obtain ⟨_, stepped⟩ := Option.ite_none_right_eq_some.mp stepped
    cases stepped
    exact .dials waiting
  | dialFails choice =>
    cases stepped
    exact .dialFails choice
  | serve choice remoteAddr observed =>
    obtain ⟨request, asked, stepped⟩ := Option.bind_eq_some_iff.mp stepped
    obtain ⟨⟨served, effects⟩, handled, stepped⟩ := Option.bind_eq_some_iff.mp stepped
    obtain ⟨rfl, closest, known, written⟩ := Node.of_handleFindNode (toOption_eq_some handled)
    simp only [written] at stepped
    cases stepped
    exact .serves asked rfl (Node.sameFlags_place _ _) known
  | receive choice =>
    obtain ⟨⟨destination, contacts⟩, answered, stepped⟩ := Option.bind_eq_some_iff.mp stepped
    cases contacts with
    | nil => cases stepped
    | cons contact rest =>
      obtain ⟨⟨received, effects⟩, handled, stepped⟩ := Option.bind_eq_some_iff.mp stepped
      obtain ⟨rfl, _⟩ := Node.of_handleListed (toOption_eq_some handled)
      cases stepped
      exact .receives answered rfl (Node.sameFlags_place _ _)
  | setPublicEndpoint node endpoint =>
    cases stepped
    exact .publishes node endpoint
  | loseRequest choice =>
    cases stepped
    exact .losesRequest choice
  | loseResponse choice =>
    cases stepped
    exact .losesResponse choice

/-- An event places the contact it inserts, and changes no other table. -/
theorem Network.Moves.table {setup : Setup Index} {network next : Network Index}
    {event : Event Index} (moved : network.Moves setup event next) (node : Index) :
    (next.nodes node).table = (network.nodes node).table ∧
        (∀ contact, network.inserts setup event ≠ some (node, contact)) ∨
      ∃ contact, network.inserts setup event = some (node, contact) ∧
        (next.nodes node).table = (network.nodes node).table.place contact := by
  have updated : ∀ {owner : Index} {changed : Node} {contact : Contact},
      changed.table = (network.nodes owner).table.place contact →
      network.inserts setup event = some (owner, contact) →
      (Function.update network.nodes owner changed node).table = (network.nodes node).table ∧
          (∀ contact, network.inserts setup event ≠ some (node, contact)) ∨
        ∃ contact, network.inserts setup event = some (node, contact) ∧
          (Function.update network.nodes owner changed node).table =
            (network.nodes node).table.place contact := by
    intro owner changed contact placed inserted
    rw [inserted]
    by_cases same : node = owner
    · subst same
      rw [Function.update_self]
      exact Or.inr ⟨contact, rfl, placed⟩
    · rw [Function.update_of_ne same]
      refine Or.inl ⟨rfl, fun other equal => same ?_⟩
      cases equal
      rfl
  have untouched : network.inserts setup event = none →
      ∀ contact, network.inserts setup event ≠ some (node, contact) := by
    intro nothing contact
    rw [nothing]
    exact (Option.some_ne_none _).symm
  cases moved with
  | bootstraps chosen placed flags =>
    exact updated placed (by simp only [Network.inserts, chosen, Option.map_some])
  | serves asked placed flags known =>
    exact updated placed (by simp only [Network.inserts, asked, Option.map_some])
  | receives answered placed flags =>
    exact updated placed (by simp [Network.inserts, answered])
  | publishes owner endpoint =>
    refine Or.inl ⟨?_, untouched rfl⟩
    show (Function.update network.nodes owner _ node).table = _
    by_cases same : node = owner
    · subst same
      rw [Function.update_self]
    · rw [Function.update_of_ne same]
  | refreshes owner => exact Or.inl ⟨rfl, untouched rfl⟩
  | dials waiting => exact Or.inl ⟨rfl, untouched rfl⟩
  | dialFails choice => exact Or.inl ⟨rfl, untouched rfl⟩
  | losesRequest choice => exact Or.inl ⟨rfl, untouched rfl⟩
  | losesResponse choice => exact Or.inl ⟨rfl, untouched rfl⟩

/-- Events do not change who the nodes are. -/
theorem Network.Moves.flags {setup : Setup Index} {network next : Network Index}
    {event : Event Index} (moved : network.Moves setup event next) (node : Index) :
    (next.nodes node).SameFlags (network.nodes node) := by
  have updated : ∀ {owner : Index} {changed : Node}, changed.SameFlags (network.nodes owner) →
      (Function.update network.nodes owner changed node).SameFlags (network.nodes node) := by
    intro owner changed flags
    by_cases same : node = owner
    · subst same
      rw [Function.update_self]
      exact flags
    · rw [Function.update_of_ne same]
      exact ⟨rfl, rfl, rfl, rfl⟩
  cases moved with
  | bootstraps chosen placed flags => exact updated flags
  | serves asked placed flags known => exact updated flags
  | receives answered placed flags => exact updated flags
  | publishes owner endpoint => exact updated ⟨rfl, rfl, rfl, rfl⟩
  | refreshes owner => exact ⟨rfl, rfl, rfl, rfl⟩
  | dials waiting => exact ⟨rfl, rfl, rfl, rfl⟩
  | dialFails choice => exact ⟨rfl, rfl, rfl, rfl⟩
  | losesRequest choice => exact ⟨rfl, rfl, rfl, rfl⟩
  | losesResponse choice => exact ⟨rfl, rfl, rfl, rfl⟩

/-- A request in flight was in flight before, or has just been built by a node. -/
theorem Network.Moves.request_cases {setup : Setup Index} {network next : Network Index}
    {event : Event Index} (moved : network.Moves setup event next) {request : Request Index}
    (member : request ∈ next.requests) :
    request ∈ network.requests ∨ ∃ source, request.msg =
      (network.nodes source).findNodeRequest (network.nodes source).table.selfID := by
  cases moved with
  | @dials choice source destination contact waiting =>
    rcases List.mem_append.mp member with old | new
    · exact Or.inl old
    · rw [List.mem_singleton.mp new]
      exact Or.inr ⟨source, rfl⟩
  | serves asked placed flags known => exact Or.inl (List.mem_of_mem_eraseIdx member)
  | losesRequest choice => exact Or.inl (List.mem_of_mem_eraseIdx member)
  | bootstraps chosen placed flags => exact Or.inl member
  | refreshes node => exact Or.inl member
  | dialFails choice => exact Or.inl member
  | receives answered placed flags => exact Or.inl member
  | publishes node endpoint => exact Or.inl member
  | losesResponse choice => exact Or.inl member

/-- A contact of a response in flight was in flight before, or is in the table of the node that
has just answered. -/
theorem Network.Moves.response_cases {setup : Setup Index} {network next : Network Index}
    {event : Event Index} (moved : network.Moves setup event next) {response : Response Index}
    (member : response ∈ next.responses) {contact : Contact}
    (listed : contact ∈ response.contacts) :
    (∃ old ∈ network.responses, contact ∈ old.contacts) ∨
      ∃ node, contact ∈ (next.nodes node).table.knownPeers := by
  cases moved with
  | @serves choice remoteAddr observed request served closest asked placed flags known =>
    rcases List.mem_append.mp member with old | new
    · exact Or.inl ⟨response, old, listed⟩
    · rw [List.mem_singleton.mp new] at listed
      refine Or.inr ⟨request.destination, ?_⟩
      simp only [Function.update_self]
      exact known contact listed
  | @receives choice destination first rest received answered placed flags =>
    rcases List.mem_or_eq_of_mem_set member with old | rfl
    · exact Or.inl ⟨response, old, listed⟩
    · exact Or.inl ⟨_, List.mem_of_getElem? answered, List.mem_cons_of_mem _ listed⟩
  | losesResponse choice => exact Or.inl ⟨response, List.mem_of_mem_eraseIdx member, listed⟩
  | bootstraps chosen placed flags => exact Or.inl ⟨response, member, listed⟩
  | refreshes node => exact Or.inl ⟨response, member, listed⟩
  | dials waiting => exact Or.inl ⟨response, member, listed⟩
  | dialFails choice => exact Or.inl ⟨response, member, listed⟩
  | publishes node endpoint => exact Or.inl ⟨response, member, listed⟩
  | losesRequest choice => exact Or.inl ⟨response, member, listed⟩

/-- All tables of a network are well placed. -/
def Network.WellPlaced (network : Network Index) : Prop :=
  ∀ node, (network.nodes node).table.WellPlaced

omit [DecidableEq Index] in
theorem Setup.wellPlaced_start (setup : Setup Index) : setup.start.WellPlaced :=
  fun node => Table.wellPlaced_new (setup.publicKey node)

theorem Network.WellPlaced.moves {setup : Setup Index} {network next : Network Index}
    {event : Event Index} (placed : network.WellPlaced) (moved : network.Moves setup event next) :
    next.WellPlaced := by
  intro node
  rcases moved.table node with ⟨same, _⟩ | ⟨contact, _, inserted⟩
  · rw [same]
    exact placed node
  · rw [inserted]
    exact (placed node).place contact

theorem Network.wellPlaced_run {setup : Setup Index} {events : List (Event Index)}
    {network : Network Index} (ran : setup.start.run setup events = some network) :
    network.WellPlaced :=
  Runs.run_invariant Network.WellPlaced
    (fun _ _ _ placed stepped => placed.moves (Network.moves_of_step stepped))
    setup.wellPlaced_start ran

/-- The endpoints a node has for an identity. -/
def Network.endpoints (network : Network Index) (owner : Index) (id : Text) : List Text :=
  ((network.nodes owner).table.knownPeers.filter fun contact => contact.id = id).map
    Contact.endpoint

omit [DecidableEq Index] in
theorem Network.mem_endpoints {network : Network Index} {owner : Index} {id endpoint : Text} :
    endpoint ∈ network.endpoints owner id ↔
      ∃ contact ∈ (network.nodes owner).table.knownPeers,
        contact.id = id ∧ contact.endpoint = endpoint := by
  simp [Network.endpoints, and_assoc]

end WgMesh.Dht
