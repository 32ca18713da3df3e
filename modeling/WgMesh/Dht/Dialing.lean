/-
This file settles which addresses `Refresh` dials.

The one `Endpoint` of a contact is written with a DHT address for a seed and with
a WireGuard endpoint for a registration, and `findNode` dials it in either case.
Responses copy what the tables hold. So the tables hold nothing but seed
addresses as long as no registration is stored, and the first registration that
is stored ends it.
-/

import WgMesh.Dht.Registration

namespace WgMesh.Dht

open Go

variable {Index : Type} [DecidableEq Index]

/-! ### Kinds of addresses -/

/-- An address under which some node was given the owner of an identity as a seed. -/
def Setup.SeedAddress (setup : Setup Index) (id address : Text) : Prop :=
  ∃ node, ∃ seed ∈ setup.seeds node, nodeID seed.publicKey = id ∧ seed.endpoint = address

/-- A control address that the owner of an identity can advertise. -/
def Setup.ControlAddress (setup : Setup Index) (id address : Text) : Prop :=
  ∃ node publicEndpoint, nodeID (setup.publicKey node) = id ∧
    address = Node.advertisedControl { setup.start.nodes node with
      publicEndpoint := publicEndpoint }

/-- The WireGuard endpoint of the owner of an identity. -/
def Setup.WgAddress (setup : Setup Index) (id address : Text) : Prop :=
  ∃ node, nodeID (setup.publicKey node) = id ∧ setup.wgEndpoint node = address

/-- Every node advertises a WireGuard endpoint, and it is not one of its DHT addresses. -/
structure Setup.Separate (setup : Setup Index) : Prop where
  advertises : ∀ node, setup.wgEndpoint node ≠ []
  distinct : ∀ id address, setup.SeedAddress id address → ¬ setup.WgAddress id address

/-- Every address that `Refresh` dials is a DHT address of its contact and not its WireGuard
endpoint. -/
def Network.DialsDht (setup : Setup Index) (network : Network Index) : Prop :=
  ∀ node, ∀ contact ∈ (network.nodes node).table.knownPeers,
    (setup.SeedAddress contact.id contact.findNodeAddress ∨
      setup.ControlAddress contact.id contact.findNodeAddress) ∧
    ¬ setup.WgAddress contact.id contact.findNodeAddress

/-- If the event serves a registration, the table has no place for it. -/
def Network.Refuses (network : Network Index) : Event Index → Prop
  | .serve choice _ _ => ∀ request, network.requests[choice]? = some request →
      ¬ (network.nodes request.destination).table.Stores request.msg.senderID
  | _ => True

/-- Nothing but seed addresses is stored or on its way to be. -/
structure Network.OnlySeeds (setup : Setup Index) (network : Network Index) : Prop where
  placed : network.WellPlaced
  selfIDs : ∀ node, (network.nodes node).table.selfID = nodeID (setup.publicKey node)
  wgEndpoints : ∀ node, (network.nodes node).wgEndpoint = setup.wgEndpoint node
  requests : ∀ request ∈ network.requests,
    setup.WgAddress request.msg.senderID request.msg.wgEndpoint
  tables : ∀ node, ∀ contact ∈ (network.nodes node).table.knownPeers,
    setup.SeedAddress contact.id contact.endpoint
  responses : ∀ response ∈ network.responses, ∀ contact ∈ response.contacts,
    setup.SeedAddress contact.id contact.endpoint

omit [DecidableEq Index] in
theorem Setup.onlySeeds_start (setup : Setup Index) : setup.start.OnlySeeds setup where
  placed := setup.wellPlaced_start
  selfIDs := fun _ => rfl
  wgEndpoints := fun _ => rfl
  requests := List.forall_mem_nil _
  tables := by
    intro node contact member
    rw [setup.knownPeers_start node] at member
    cases member
  responses := List.forall_mem_nil _

omit [DecidableEq Index] in
theorem Network.OnlySeeds.dialsDht {setup : Setup Index} {network : Network Index}
    (only : network.OnlySeeds setup) (separate : setup.Separate) : network.DialsDht setup :=
  fun node contact member =>
    ⟨Or.inl (only.tables node contact member),
      separate.distinct _ _ (only.tables node contact member)⟩

omit [DecidableEq Index] in
/-- The contact an event inserts has a seed address, or its table has no place for it. -/
theorem Network.OnlySeeds.inserts {setup : Setup Index} {network : Network Index}
    (only : network.OnlySeeds setup) {event : Event Index} (refuses : network.Refuses event)
    {owner : Index} {contact : Contact}
    (passed : network.inserts setup event = some (owner, contact)) :
    setup.SeedAddress contact.id contact.endpoint ∨
      ¬ (network.nodes owner).table.Stores contact.id := by
  cases Network.inserts_of_eq passed with
  | seed chosen => exact Or.inl ⟨_, _, List.mem_of_getElem? chosen, rfl, rfl⟩
  | registration asked => exact Or.inr (refuses _ asked)
  | listed answered first =>
    exact Or.inl (only.responses _ (List.mem_of_getElem? answered) contact
      (List.mem_of_mem_head? first))

theorem Network.OnlySeeds.tables_moves {setup : Setup Index} {network next : Network Index}
    (only : network.OnlySeeds setup) {event : Event Index} (refuses : network.Refuses event)
    (moved : network.Moves setup event next) (node : Index) :
    ∀ contact ∈ (next.nodes node).table.knownPeers,
      setup.SeedAddress contact.id contact.endpoint := by
  intro contact member
  rcases moved.table node with ⟨same, _⟩ | ⟨latest, passed, inserted⟩
  · rw [same] at member
    exact only.tables node contact member
  · have allowed := only.inserts refuses passed
    rw [inserted] at member
    rcases (only.placed node).mem_place.mp member with
      ⟨old, _⟩ | ⟨old, oldMember, equal, rfl⟩ | ⟨admitted, rfl⟩
    · exact only.tables node contact old
    · rw [Contact.refresh_id, equal]
      exact allowed.resolve_right fun refused =>
        refused (Or.inl (equal ▸ List.mem_map_of_mem oldMember))
    · exact allowed.resolve_right fun refused => refused (Or.inr admitted)

/-- While no registration is stored, there are only seed addresses. -/
theorem Network.OnlySeeds.moves {setup : Setup Index} {network next : Network Index}
    (only : network.OnlySeeds setup) {event : Event Index} (refuses : network.Refuses event)
    (moved : network.Moves setup event next) : next.OnlySeeds setup where
  placed := only.placed.moves moved
  selfIDs := fun node => (moved.flags node).selfID.trans (only.selfIDs node)
  wgEndpoints := fun node => (moved.flags node).wgEndpoint.trans (only.wgEndpoints node)
  tables := only.tables_moves refuses moved
  requests := by
    intro request member
    rcases moved.request_cases member with old | ⟨source, sent⟩
    · exact only.requests request old
    · rw [sent]
      exact ⟨source, (only.selfIDs source).symm, (only.wgEndpoints source).symm⟩
  responses := by
    intro response member contact listed
    rcases moved.response_cases member listed with ⟨old, among, same⟩ | ⟨node, known⟩
    · exact only.responses old among contact same
    · exact only.tables_moves refuses moved node contact known

/-- A stored registration puts a WireGuard endpoint where a dialed address belongs. -/
theorem Network.OnlySeeds.not_dialsDht {setup : Setup Index} {network next : Network Index}
    (only : network.OnlySeeds setup) (separate : setup.Separate) {event : Event Index}
    (stored : ¬ network.Refuses event) (moved : network.Moves setup event next) :
    ¬ next.DialsDht setup := by
  cases event with
  | serve choice remoteAddr observed =>
    simp only [Network.Refuses] at stored
    push Not at stored
    obtain ⟨request, asked, stores⟩ := stored
    have passed : network.inserts setup (.serve choice remoteAddr observed) =
        some (request.destination, registration remoteAddr observed request.msg) := by
      simp only [Network.inserts, asked, Option.map_some]
    obtain ⟨owner, ownerID, ownerEndpoint⟩ :=
      only.requests request (List.mem_of_getElem? asked)
    have advertised : (registration remoteAddr observed request.msg).endpoint =
        request.msg.wgEndpoint :=
      if_neg (ownerEndpoint ▸ separate.advertises owner)
    have present : request.msg.senderID ∈ (next.nodes request.destination).table.ids := by
      rcases moved.table request.destination with ⟨_, nothing⟩ | ⟨contact, inserts, inserted⟩
      · exact absurd passed (nothing _)
      · rw [passed] at inserts
        cases inserts
        rw [inserted]
        exact Table.mem_ids_place.mpr (stores.imp_right fun admitted => ⟨rfl, admitted⟩)
    rcases moved.holds_or_refused only.placed passed with ⟨_, holds⟩ | ⟨absent, _⟩
    · obtain ⟨contact, member, sameID⟩ := List.mem_map.mp present
      intro dials
      refine (dials request.destination contact member).2 ⟨owner, ownerID.trans sameID.symm, ?_⟩
      rw [Contact.findNodeAddress, holds.entry contact member sameID, advertised, ownerEndpoint]
    · exact absurd present absent
  | bootstrap node choice => exact absurd trivial stored
  | refresh node => exact absurd trivial stored
  | dial choice destination => exact absurd trivial stored
  | dialFails choice => exact absurd trivial stored
  | receive choice => exact absurd trivial stored
  | setPublicEndpoint node endpoint => exact absurd trivial stored
  | loseRequest choice => exact absurd trivial stored
  | loseResponse choice => exact absurd trivial stored

/-- In every run of a network whose nodes advertise WireGuard endpoints that are not DHT
addresses, the addresses `Refresh` dials are DHT addresses throughout exactly when no table
ever stores a registration. -/
theorem dialsDht_iff_no_registration (setup : Setup Index) (separate : setup.Separate)
    (events : List (Event Index)) (enabled : (setup.start.run setup events).isSome) :
    Runs.Always (Network.step setup) (Network.DialsDht setup) setup.start events ↔
      Runs.Along (Network.step setup) Network.Refuses setup.start events := by
  refine Runs.always_iff_along (Network.OnlySeeds setup)
    (fun network only => only.dialsDht separate) ?_ ?_ setup.onlySeeds_start enabled
  · intro network event next only refuses stepped
    exact only.moves refuses (Network.moves_of_step stepped)
  · intro network event next only stored stepped
    exact only.not_dialsDht separate stored (Network.moves_of_step stepped)

/-- Two hubs that are each other's seed. -/
def twoHubs : Setup (Fin 2) where
  publicKey := ![text "first-hub-public-key", text "second-hub-public-key"]
  listenPort := fun _ => 51821
  wgEndpoint := ![text "203.0.113.1:51820", text "203.0.113.2:51820"]
  seeds := ![[⟨text "second-hub-public-key", text "203.0.113.2:51821"⟩],
    [⟨text "first-hub-public-key", text "203.0.113.1:51821"⟩]]
  accepts := fun node address =>
    decide (address = ![text "203.0.113.1:51821", text "203.0.113.2:51821"] node)

/-- Both hubs bootstrap, and the second registers with the first. -/
def hubsBootstrap : List (Event (Fin 2)) :=
  [.bootstrap 0 0, .dialFails 0, .bootstrap 1 0, .dial 0 0,
    .serve 0 (text "203.0.113.2:40000") []]

theorem twoHubs_separate : twoHubs.Separate := by
  refine ⟨by decide, ?_⟩
  rintro id address ⟨node, seed, listed, seedID, rfl⟩ ⟨owner, _, equal⟩
  revert equal
  fin_cases node <;> fin_cases owner <;>
    · simp only [twoHubs] at listed
      cases List.mem_singleton.mp listed
      decide

/-- Until the registration is served, only DHT addresses are dialed. -/
theorem dialsDht_iff_no_registration_bootstraps :
    Runs.Always (Network.step twoHubs) (Network.DialsDht twoHubs) twoHubs.start
      [.bootstrap 0 0, .dialFails 0, .bootstrap 1 0, .dial 0 0] :=
  (dialsDht_iff_no_registration twoHubs twoHubs_separate _ (by decide +kernel)).mpr
    ⟨trivial, fun _ _ => ⟨trivial, fun _ _ => ⟨trivial, fun _ _ => ⟨trivial, fun _ _ => trivial⟩⟩⟩⟩

/-- The second hub's registration replaces, in the first hub's table, the seed address that can
be dialed by the second hub's WireGuard endpoint. -/
theorem seedAddress_replaced :
    (twoHubs.start.run twoHubs (hubsBootstrap.take 4)).map
        (fun network => network.endpoints 0 (nodeID (text "second-hub-public-key"))) =
      some [text "203.0.113.2:51821"] ∧
    ∃ network, twoHubs.start.run twoHubs hubsBootstrap = some network ∧
      ¬ network.DialsDht twoHubs := by
  refine ⟨by decide +kernel, ?_⟩
  have replaced : (twoHubs.start.run twoHubs hubsBootstrap).map
      (fun network => network.endpoints 0 (nodeID (text "second-hub-public-key"))) =
      some [twoHubs.wgEndpoint 1] := by
    decide +kernel
  obtain ⟨network, ran, endpoints⟩ := Option.map_eq_some_iff.mp replaced
  refine ⟨network, ran, fun dials => ?_⟩
  obtain ⟨contact, member, sameID, wg⟩ :=
    Network.mem_endpoints.mp (endpoints ▸ List.mem_singleton_self (twoHubs.wgEndpoint 1))
  exact (dials 0 contact member).2 ⟨1, sameID.symm, wg.symm⟩

end WgMesh.Dht
