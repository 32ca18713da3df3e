/-
This file settles whether a registration is overtaken by older news.

A node that has handled a peer's registration has an entry for the peer with the
registered endpoint, or no room for the peer at all. From then on every contact
with the peer's identity that is passed to its table replaces the endpoint,
whoever sent it and however old it is: a delayed registration, a seed, or a
contact that another node listed from its own table. The registration is kept
throughout a run exactly when all of them carry its endpoint.
-/

import WgMesh.Dht.Network

namespace WgMesh.Dht

open Go

variable {Index : Type} [DecidableEq Index]

/-! ### Registrations and older news -/

/-- A node's entry for an identity, if it has one, has an endpoint. -/
def Network.EntryHas (owner : Index) (id endpoint : Text) (network : Network Index) : Prop :=
  ∀ contact ∈ (network.nodes owner).table.knownPeers, contact.id = id →
    contact.endpoint = endpoint

/-- If the event passes a contact with an identity to a node's table, the contact has an
endpoint. -/
def Network.Agrees (setup : Setup Index) (owner : Index) (id endpoint : Text)
    (network : Network Index) (event : Event Index) : Prop :=
  ∀ contact, network.inserts setup event = some (owner, contact) → contact.id = id →
    contact.endpoint = endpoint

instance (setup : Setup Index) (owner : Index) (id endpoint : Text) (network : Network Index)
    (event : Event Index) : Decidable (network.Agrees setup owner id endpoint event) :=
  match passed : network.inserts setup event with
  | none => isTrue fun _ other => by
      rw [passed] at other
      cases other
  | some (node, contact) =>
    decidable_of_iff (node = owner → contact.id = id → contact.endpoint = endpoint) (by
      unfold Network.Agrees
      rw [passed]
      constructor
      · rintro agrees _ ⟨⟩
        exact agrees rfl
      · rintro agrees rfl
        exact agrees contact rfl)

/-- The node has an entry for the identity, and it has the endpoint. -/
structure Network.Holds (owner : Index) (id endpoint : Text) (network : Network Index) :
    Prop where
  placed : network.WellPlaced
  present : id ∈ (network.nodes owner).table.ids
  entry : network.EntryHas owner id endpoint

theorem Network.Holds.agrees {setup : Setup Index} {owner : Index} {id endpoint : Text}
    {network next : Network Index} {event : Event Index}
    (holds : network.Holds owner id endpoint)
    (agrees : network.Agrees setup owner id endpoint event)
    (moved : network.Moves setup event next) : next.Holds owner id endpoint := by
  refine ⟨holds.placed.moves moved, ?_, ?_⟩
  · rcases moved.table owner with ⟨same, _⟩ | ⟨latest, _, inserted⟩
    · rw [same]
      exact holds.present
    · rw [inserted]
      exact Table.mem_ids_place.mpr (Or.inl holds.present)
  · intro contact member sameID
    rcases moved.table owner with ⟨same, _⟩ | ⟨latest, passed, inserted⟩
    · rw [same] at member
      exact holds.entry contact member sameID
    · rw [inserted] at member
      rcases (holds.placed owner).mem_place.mp member with
        ⟨old, _⟩ | ⟨old, _, equal, rfl⟩ | ⟨_, rfl⟩
      · exact holds.entry contact old sameID
      · exact agrees latest passed (equal.symm.trans sameID)
      · exact agrees contact passed sameID

/-- A contact with the identity and another endpoint replaces the entry. -/
theorem Network.Holds.disagrees {setup : Setup Index} {owner : Index} {id endpoint : Text}
    {network next : Network Index} {event : Event Index}
    (holds : network.Holds owner id endpoint)
    (disagrees : ¬ network.Agrees setup owner id endpoint event)
    (moved : network.Moves setup event next) : ¬ next.EntryHas owner id endpoint := by
  unfold Network.Agrees at disagrees
  push Not at disagrees
  obtain ⟨latest, passed, sameID, different⟩ := disagrees
  obtain ⟨old, member, oldID⟩ := List.mem_map.mp holds.present
  rcases moved.table owner with ⟨_, nothing⟩ | ⟨contact, inserts, inserted⟩
  · exact absurd passed (nothing latest)
  · rw [passed] at inserts
    cases inserts
    intro entry
    refine different (entry (old.refresh latest) ?_ oldID)
    rw [inserted]
    exact (holds.placed owner).mem_place.mpr
      (Or.inr (Or.inl ⟨old, member, oldID.trans sameID.symm, rfl⟩))

/-- An identity that a table does not keep never gets an entry. -/
theorem Network.not_stores_moves {setup : Setup Index} {network next : Network Index}
    {event : Event Index} {owner : Index} {id : Text}
    (refused : ¬ (network.nodes owner).table.Stores id)
    (moved : network.Moves setup event next) : ¬ (next.nodes owner).table.Stores id := by
  rcases moved.table owner with ⟨same, _⟩ | ⟨contact, _, inserted⟩
  · rw [same]
    exact refused
  · rw [inserted]
    exact fun stores => refused (Table.stores_of_place stores)

omit [DecidableEq Index] in
theorem Network.entryHas_of_not_stores {network : Network Index} {owner : Index} {id : Text}
    (refused : ¬ (network.nodes owner).table.Stores id) (endpoint : Text) :
    network.EntryHas owner id endpoint := by
  intro contact member sameID
  exact absurd (Or.inl (sameID ▸ List.mem_map_of_mem member)) refused

/-- After an identity was refused, its entry is absent throughout every run. -/
theorem Network.always_of_not_stores {setup : Setup Index} {network : Network Index}
    {owner : Index} {id : Text} (refused : ¬ (network.nodes owner).table.Stores id)
    (endpoint : Text) (events : List (Event Index)) :
    Runs.Always (Network.step setup) (Network.EntryHas owner id endpoint) network events := by
  induction events generalizing network with
  | nil => exact Network.entryHas_of_not_stores refused endpoint
  | cons event rest inductionHypothesis =>
    refine ⟨Network.entryHas_of_not_stores refused endpoint, fun next stepped => ?_⟩
    exact inductionHypothesis
      (Network.not_stores_moves refused (Network.moves_of_step stepped))

/-- What a table holds right after it was passed a contact: the entry, or no room for it. -/
theorem Network.Moves.holds_or_refused {setup : Setup Index} {network next : Network Index}
    {event : Event Index} (placed : network.WellPlaced) (moved : network.Moves setup event next)
    {owner : Index} {latest : Contact}
    (passed : network.inserts setup event = some (owner, latest)) :
    (latest.id ∈ (next.nodes owner).table.ids ∧ next.Holds owner latest.id latest.endpoint) ∨
      (latest.id ∉ (next.nodes owner).table.ids ∧
        ¬ (next.nodes owner).table.Stores latest.id) := by
  rcases moved.table owner with ⟨_, nothing⟩ | ⟨contact, inserts, inserted⟩
  · exact absurd passed (nothing latest)
  · rw [passed] at inserts
    cases inserts
    by_cases present : latest.id ∈ (next.nodes owner).table.ids
    · refine Or.inl ⟨present, placed.moves moved, present, fun contact member sameID => ?_⟩
      rw [inserted] at member
      rcases (placed owner).mem_place.mp member with ⟨_, other⟩ | ⟨old, _, _, rfl⟩ | ⟨_, rfl⟩
      · exact absurd sameID other
      · rfl
      · rfl
    · refine Or.inr ⟨present, fun stores => present ?_⟩
      rw [inserted] at stores ⊢
      exact Table.mem_ids_place.mpr
        ((Table.stores_of_place stores).imp_right fun admitted => ⟨rfl, admitted⟩)

/-- After a node has handled a registration, its entry for the peer keeps the registered
endpoint throughout a run exactly when there is no entry at all, or every contact with the
peer's identity that the run passes to the node's table carries that endpoint. -/
theorem registration_kept_iff (setup : Setup Index) (before : List (Event Index))
    (network served : Network Index) (ran : setup.start.run setup before = some network)
    (choice : Nat) (remoteAddr observed : Text) (owner : Index) (latest : Contact)
    (registers : network.inserts setup (.serve choice remoteAddr observed) = some (owner, latest))
    (stepped : network.step setup (.serve choice remoteAddr observed) = some served)
    (after : List (Event Index)) (enabled : (served.run setup after).isSome) :
    Runs.Always (Network.step setup) (Network.EntryHas owner latest.id latest.endpoint)
        served after ↔
      latest.id ∉ (served.nodes owner).table.ids ∨
        Runs.Along (Network.step setup) (Network.Agrees setup owner latest.id latest.endpoint)
          served after := by
  rcases (Network.moves_of_step stepped).holds_or_refused (Network.wellPlaced_run ran) registers
    with ⟨present, holds⟩ | ⟨absent, refused⟩
  · rw [or_iff_right (not_not.mpr present)]
    refine Runs.always_iff_along (Network.Holds owner latest.id latest.endpoint)
      (fun network holds => holds.entry) ?_ ?_ holds enabled
    · intro network event next holds agrees stepped
      exact holds.agrees agrees (Network.moves_of_step stepped)
    · intro network event next holds disagrees stepped
      exact holds.disagrees disagrees (Network.moves_of_step stepped)
  · exact iff_of_true (Network.always_of_not_stores refused _ after) (Or.inl absent)

/-- A hub, a third node that is the hub's seed, and a peer without a WireGuard endpoint of its
own, started with both as seeds and with the hub's tunnel address as fallback. -/
def relayMesh : Setup (Fin 3) where
  publicKey := ![text "hub-wireguard-public-key", text "third-wireguard-public-key",
    text "peer-wireguard-public-key"]
  listenPort := fun _ => 51821
  wgEndpoint := ![text "203.0.113.1:51820", text "203.0.113.2:51820", []]
  seeds := ![[⟨text "third-wireguard-public-key", text "203.0.113.2:51821"⟩], [],
    [⟨text "hub-wireguard-public-key", text "203.0.113.1:51821"⟩,
      ⟨text "third-wireguard-public-key", text "203.0.113.2:51821"⟩,
      ⟨text "hub-wireguard-public-key", text "10.200.200.1:51821"⟩]]
  accepts := fun node address => decide (address ∈
    ![[text "203.0.113.1:51821", text "10.200.200.1:51821"], [text "203.0.113.2:51821"], []] node)

/-- The peer starts and registers with the hub and, from some address, with the third node, and
its second registration with the hub is on its way. -/
def peerStartsAt (third : Text) : List (Event (Fin 3)) :=
  [.bootstrap 0 0, .dialFails 0,
    .bootstrap 2 0, .dial 0 0, .serve 0 (text "198.51.100.7:40000") [],
    .bootstrap 2 1, .dial 0 1, .serve 0 third [],
    .bootstrap 2 2, .dial 0 0]

/-- The first two registrations of the peer come from one address. -/
def peerStarts : List (Event (Fin 3)) := peerStartsAt (text "198.51.100.7:40000")

/-- The hub refreshes: it asks the third node, and handles the two contacts of the answer. -/
def hubRefreshes : List (Event (Fin 3)) :=
  [.refresh 0, .dial 0 1, .serve 0 (text "203.0.113.1:40001") [], .receive 3, .receive 3]

/-- The third node knows the peer under the address of its second registration with the hub. So
the answer to a refresh of the hub passes that address once more, and the entry keeps it. -/
theorem registration_kept_iff_refresh :
    ∃ network served,
      relayMesh.start.run relayMesh (peerStartsAt (text "10.200.200.3:40002")) = some network ∧
      network.step relayMesh (.serve 0 (text "10.200.200.3:40002") []) = some served ∧
      (served.run relayMesh hubRefreshes).isSome ∧
      Runs.Always (Network.step relayMesh)
        (Network.EntryHas 0 (nodeID (text "peer-wireguard-public-key"))
          (text "10.200.200.3:40002")) served hubRefreshes := by
  have evaluated : (relayMesh.start.run relayMesh
      (peerStartsAt (text "10.200.200.3:40002"))).map (fun network =>
        (network.inserts relayMesh (.serve 0 (text "10.200.200.3:40002") []),
          (network.step relayMesh (.serve 0 (text "10.200.200.3:40002") [])).map fun served =>
            decide ((served.run relayMesh hubRefreshes).isSome ∧
              Runs.Along (Network.step relayMesh) (Network.Agrees relayMesh 0
                (nodeID (text "peer-wireguard-public-key")) (text "10.200.200.3:40002"))
                served hubRefreshes))) =
      some (some (0, .known (text "peer-wireguard-public-key") (text "10.200.200.3:40002")),
        some true) := by
    decide +kernel
  obtain ⟨network, ran, facts⟩ := Option.map_eq_some_iff.mp evaluated
  obtain ⟨registers, followed⟩ := Prod.mk.inj facts
  obtain ⟨served, stepped, followed⟩ := Option.map_eq_some_iff.mp followed
  obtain ⟨enabled, along⟩ := of_decide_eq_true followed
  exact ⟨network, served, ran, stepped, enabled, (registration_kept_iff relayMesh _ network served
    ran 0 _ _ 0 _ registers stepped hubRefreshes enabled).mpr (Or.inr along)⟩

/-- The hub has handled a registration of the peer from its second address; its refresh then
asks the third node, whose answer puts the first address back. -/
theorem registration_regresses :
    (relayMesh.start.run relayMesh
        (peerStarts ++ [.serve 0 (text "10.200.200.3:40002") []])).map
        (fun network => network.endpoints 0 (nodeID (text "peer-wireguard-public-key"))) =
      some [text "10.200.200.3:40002"] ∧
    (relayMesh.start.run relayMesh
        (peerStarts ++ [.serve 0 (text "10.200.200.3:40002") []] ++ hubRefreshes)).map
        (fun network => network.endpoints 0 (nodeID (text "peer-wireguard-public-key"))) =
      some [text "198.51.100.7:40000"] := by
  decide +kernel

end WgMesh.Dht
