/-
This file says what a table knows about a peer after any sequence of inserts, and
settles which control address a punch plan is sent to.

A contact of the table is what the inserts with its identity were merged to, in
order: an identity that found no room once never finds any, so the first of these
inserts is the one that stored the contact. The endpoint is that of the last one,
the public endpoint is the last that was not empty, and the rest is that of the
first one. The rest includes the control address. So a plan reaches the address
that a peer registered last exactly when the contact that came in first for the
peer, by a request of its own, as a seed or in a response, had this address.
-/

import WgMesh.Dht.Crash

namespace WgMesh.Dht

open Go

/-! ### What the inserts of a peer are merged to -/

/-- The inserts with an identity. -/
def insertsOf (id : Text) (inserted : List Contact) : List Contact :=
  inserted.filter fun contact => decide (contact.id = id)

/-- The last text that is not empty. -/
def lastNonempty (texts : List Text) : Text := (texts.filter (· ≠ [])).getLast?.getD []

/-- What a contact of a table is, given the inserts so far. -/
structure MergedFrom (inserted : List Contact) (contact : Contact) : Prop where
  endpoint : (insertsOf contact.id inserted).getLast?.map Contact.endpoint = some contact.endpoint
  publicEndpoint : contact.publicEndpoint =
    lastNonempty ((insertsOf contact.id inserted).map Contact.publicEndpoint)
  publicKey : (insertsOf contact.id inserted).head?.map Contact.publicKey = some contact.publicKey
  controlEndpoint : (insertsOf contact.id inserted).head?.map Contact.controlEndpoint =
    some contact.controlEndpoint

theorem lastNonempty_append (texts : List Text) (last : Text) :
    lastNonempty (texts ++ [last]) = if last ≠ [] then last else lastNonempty texts := by
  unfold lastNonempty
  by_cases empty : last = []
  · simp [empty]
  · simp [empty]

/-- A first insert and the later ones, field by field. -/
theorem foldl_refresh (first : Contact) (later : List Contact) :
    (first :: later).getLast?.map Contact.endpoint =
        some (later.foldl Contact.refresh first).endpoint ∧
      (later.foldl Contact.refresh first).publicEndpoint =
        lastNonempty ((first :: later).map Contact.publicEndpoint) ∧
      (later.foldl Contact.refresh first).publicKey = first.publicKey ∧
      (later.foldl Contact.refresh first).controlEndpoint = first.controlEndpoint := by
  induction later using List.reverseRecOn with
  | nil =>
    refine ⟨rfl, ?_, rfl, rfl⟩
    by_cases empty : first.publicEndpoint = []
    · simp [lastNonempty, empty]
    · simp [lastNonempty, empty]
  | append_singleton earlier last inductionHypothesis =>
    obtain ⟨_, publicEndpoint, publicKey, controlEndpoint⟩ := inductionHypothesis
    rw [List.foldl_append, List.foldl_cons, List.foldl_nil, ← List.cons_append,
      List.map_append, List.map_singleton, lastNonempty_append, ← publicEndpoint,
      List.getLast?_concat]
    exact ⟨rfl, rfl, publicKey, controlEndpoint⟩

/-- What a table holds after a sequence of inserts. -/
theorem mergedFrom_of_mem {publicKey : Text} {contacts : List Contact} {contact : Contact}
    (member : contact ∈ (contacts.foldl Table.place (Table.new publicKey)).knownPeers) :
    MergedFrom contacts contact := by
  obtain ⟨bucket, held⟩ := mem_knownPeers.mp member
  have own := ((Table.wellPlaced_new publicKey).foldl_place contacts).own bucket contact held
  rw [Table.foldl_place_buckets] at held
  rw [Table.foldl_place_selfID] at own
  obtain ⟨first, later, history, merged⟩ := FirstCome.history_of_mem Contact.refresh_id held
  have all : insertsOf contact.id contacts = first :: later := by
    rw [← history, List.filter_filter]
    refine List.filter_congr fun insert _ => ?_
    by_cases same : insert.id = contact.id
    · simp [same, own]
    · simp [same]
  obtain ⟨endpoint, publicEndpoint, firstKey, firstControl⟩ := foldl_refresh first later
  rw [← merged] at endpoint publicEndpoint firstKey firstControl
  refine ⟨?_, ?_, ?_, ?_⟩
  all_goals rw [all]
  · exact endpoint
  · exact publicEndpoint
  · rw [firstKey]
    rfl
  · rw [firstControl]
    rfl

/-- An insert leaves the contacts with other identities where they are. -/
theorem Table.getElem?_place (table : Table) {latest stored : Contact}
    (other : stored.id ≠ latest.id) (bucket : Fin kBuckets) (position : Nat) :
    ((table.place latest).buckets bucket)[position]? = some stored ↔
      (table.buckets bucket)[position]? = some stored := by
  rw [Table.place_buckets]
  split
  · exact FirstCome.getElem?_put Contact.refresh_id other position
  · rfl

/-- After a sequence of inserts, a contact has the endpoint of the last insert with its identity,
the last public endpoint that was not empty, and the key of the first. Each insert leaves the
contacts with other identities as they are and where they are. -/
theorem insertAll_merges (publicKey : Text) (contacts : List Contact)
    (form : ∀ contact ∈ contacts, IsNodeID contact.id) :
    ∃ table, (Table.new publicKey).insertAll contacts = .ok table ∧
      (∀ contact ∈ table.knownPeers,
        (insertsOf contact.id contacts).getLast?.map Contact.endpoint = some contact.endpoint ∧
        contact.publicEndpoint =
          lastNonempty ((insertsOf contact.id contacts).map Contact.publicEndpoint) ∧
        (insertsOf contact.id contacts).head?.map Contact.publicKey = some contact.publicKey) ∧
      ∀ earlier latest later, contacts = earlier ++ latest :: later →
        ∃ before after, (Table.new publicKey).insertAll earlier = .ok before ∧
          before.insert latest = .ok after ∧ after.insertAll later = .ok table ∧
          ∀ bucket (position : Nat) (stored : Contact), stored.id ≠ latest.id →
            ((after.buckets bucket)[position]? = some stored ↔
              (before.buckets bucket)[position]? = some stored) := by
  have long := fun contact member => (form contact member).longID
  refine ⟨_, Table.insertAll_eq _ contacts long, ?_, ?_⟩
  · intro contact member
    have merged := mergedFrom_of_mem member
    exact ⟨merged.endpoint, merged.publicEndpoint, merged.publicKey⟩
  · rintro earlier latest later rfl
    have split := List.forall_mem_append.mp long
    obtain ⟨latestLong, laterLong⟩ := List.forall_mem_cons.mp split.2
    refine ⟨_, _, Table.insertAll_eq _ earlier split.1, Table.insert_eq _ latest latestLong, ?_, ?_⟩
    · rw [Table.insertAll_eq _ later laterLong, List.foldl_append, List.foldl_cons]
    · exact fun bucket position stored other => Table.getElem?_place _ other bucket position

/-- A peer that first registers with a public endpoint, and then from another network without. -/
def roamingInserts : List Contact :=
  [{ Contact.known (text "lisa") (text "192.168.30.2:62784") with
      publicEndpoint := text "203.0.113.5:62784" },
    .known (text "toby") (text "192.168.30.3:62784"),
    .known (text "lisa") (text "10.0.0.7:62784")]

theorem insertAll_merges_roaming :
    ∃ table, (Table.new (text "hub")).insertAll roamingInserts = .ok table ∧
      ∀ contact ∈ table.knownPeers, contact.id = nodeID (text "lisa") →
        contact.endpoint = text "10.0.0.7:62784" ∧
          contact.publicEndpoint = text "203.0.113.5:62784" ∧
          contact.publicKey = text "lisa" := by
  have form : ∀ contact ∈ roamingInserts, IsNodeID contact.id := by
    intro contact member
    simp only [roamingInserts, List.mem_cons, List.mem_nil_iff, or_false] at member
    rcases member with rfl | rfl | rfl
    all_goals exact isNodeID_nodeID _
  obtain ⟨table, inserted, merged, _⟩ := insertAll_merges (text "hub") roamingInserts form
  refine ⟨table, inserted, fun contact member same => ?_⟩
  obtain ⟨endpoint, publicEndpoint, publicKey⟩ := merged contact member
  rw [same] at endpoint publicEndpoint publicKey
  have lisa : insertsOf (nodeID (text "lisa")) roamingInserts =
      [{ Contact.known (text "lisa") (text "192.168.30.2:62784") with
          publicEndpoint := text "203.0.113.5:62784" },
        .known (text "lisa") (text "10.0.0.7:62784")] := by
    decide +kernel
  rw [lisa] at endpoint publicEndpoint publicKey
  exact ⟨(Option.some.inj endpoint).symm, publicEndpoint, (Option.some.inj publicKey).symm⟩

/-! ### Punch plans -/

/-- What happens to a node from its start on. -/
inductive Intake where
  /-- A message is served or read, or a plan is sent. -/
  | handles (operation : Operation)
  /-- The reader of `findNode` is at one contact of a response, between other goroutines. -/
  | listed (contact : Contact)
  /-- `Bootstrap` is given a seed. -/
  | seed (contact : Contact)

/-- A fault ends the process. -/
def Node.intake (node : Node) : Intake → Option Node
  | .handles operation => (node.apply operation).toOption
  | .listed contact => do
    let (next, _) ← (node.handleListed contact).toOption
    return next
  | .seed contact => (node.bootstrapSeed contact).toOption

/-- The contacts that come in, in order. -/
def Intake.inserts : Intake → List Contact
  | .handles operation => operation.inserts
  | .listed contact => [contact]
  | .seed contact => [contact]

/-- The control address that a peer registers by a request. -/
def Intake.registers (id : Text) : Intake → Option Text
  | .handles (.serve _ _ _ msg) =>
    if msg.type = .findNode ∧ msg.senderID = id then some msg.controlEndpoint else none
  | _ => none

/-- The last control address, not empty, that a peer has registered. -/
def latestControl (id : Text) (intakes : List Intake) : Text :=
  lastNonempty (intakes.filterMap (Intake.registers id))

/-- If a peer has registered a control address, its contact has the one that it registered last,
and a plan that is not sent on a stored connection is sent there. -/
def Node.PlansReach (node : Node) (intakes : List Intake) (contact : Contact) : Prop :=
  latestControl contact.id intakes ≠ [] →
    contact.controlEndpoint = latestControl contact.id intakes ∧
      ∀ args route, node.controlConns.lookup contact.publicKey = none →
        node.sendPunchPlan contact args = .ok route →
        ∃ plan, route = .dial (latestControl contact.id intakes) plan

/-- Without a stored connection, a plan is sent to the control address of the contact. -/
theorem Node.dial_of_sendPunchPlan {node : Node} {contact : Contact} {args : PunchArgs}
    {route : PunchRoute} (unstored : node.controlConns.lookup contact.publicKey = none)
    (sent : node.sendPunchPlan contact args = .ok route) (known : contact.controlEndpoint ≠ []) :
    ∃ plan, route = .dial contact.controlEndpoint plan := by
  cases Node.sends_of_sendPunchPlan sent with
  | control conn stored =>
    rw [unstored] at stored
    cases stored
  | dial address _ chosen _ =>
    rw [chosen, if_neg known]
    exact ⟨_, rfl⟩
  | emptyEndpoint _ noControl _ => exact absurd noControl known

theorem Node.table_of_intake {node next : Node} {intake : Intake}
    (taken : node.intake intake = some next) :
    next.table = intake.inserts.foldl Table.place node.table := by
  cases intake with
  | handles operation =>
    obtain ⟨_, rfl⟩ := Node.of_apply (toOption_eq_some taken)
    rfl
  | listed contact =>
    obtain ⟨⟨_, _⟩, handled, ⟨⟩⟩ := Option.bind_eq_some_iff.mp taken
    rw [(Node.of_handleListed (toOption_eq_some handled)).1]
    rfl
  | seed contact => exact (Node.of_bootstrapSeed (toOption_eq_some taken)).1

/-- A node's table holds what has come in, in order. -/
theorem Node.table_of_intakes {node last : Node} {intakes : List Intake}
    (ran : Runs.run Node.intake node intakes = some last) :
    last.table = (intakes.flatMap Intake.inserts).foldl Table.place node.table := by
  induction intakes generalizing node with
  | nil =>
    cases ran
    rfl
  | cons intake rest inductionHypothesis =>
    obtain ⟨next, taken, continued⟩ := Runs.run_cons.mp ran
    rw [inductionHypothesis continued, Node.table_of_intake taken, List.flatMap_cons,
      List.foldl_append]

/-- Whatever a new node has been sent, a peer's contact has the control address that the peer
registered last, and punch plans are sent there, exactly when this is also the address of the
contact that came in first for the peer: by a request of its own, as a seed or in a response. -/
theorem plansReach_iff (publicKey wgEndpoint : Text) (listenPort : Nat) (intakes : List Intake)
    (last : Node)
    (ran : Runs.run Node.intake (Node.new publicKey listenPort wgEndpoint) intakes = some last)
    (contact : Contact) (member : contact ∈ last.table.knownPeers) :
    last.PlansReach intakes contact ↔
      (latestControl contact.id intakes ≠ [] →
        (insertsOf contact.id (intakes.flatMap Intake.inserts)).head?.map
          Contact.controlEndpoint = some (latestControl contact.id intakes)) := by
  rw [Node.table_of_intakes ran] at member
  have first := (mergedFrom_of_mem member).controlEndpoint
  rw [first, Option.some_inj]
  constructor
  · intro reach registered
    exact (reach registered).1
  · intro same registered
    have equal := same registered
    refine ⟨equal, fun args route unstored sent => ?_⟩
    rw [← equal] at registered ⊢
    exact Node.dial_of_sendPunchPlan unstored sent registered

/-- A request of a peer that registers a control address. -/
def peerRequest (controlEndpoint : Text) : Intake :=
  .handles (.serve 0 (text "203.0.113.5:40312") []
    { type := .findNode
      senderID := nodeID (text "peer-wireguard-public-key-0123456789")
      targetID := nodeID (text "peer-wireguard-public-key-0123456789")
      publicKey := text "peer-wireguard-public-key-0123456789"
      wgEndpoint := text "203.0.113.5:51820"
      controlEndpoint := controlEndpoint })

/-- The contact of the peer after its first request. -/
def registeredPeer (controlEndpoint : Text) : Contact :=
  { Contact.known (text "peer-wireguard-public-key-0123456789") (text "203.0.113.5:51820") with
    controlEndpoint := controlEndpoint }

/-- A hub that has handled two requests of the peer. -/
def twiceRegistered (first second : Text) : Option Node :=
  Runs.run Node.intake (Node.new (text "hub-wireguard-public-key") 7946 [])
    [peerRequest first, peerRequest second]

theorem plansReach_iff_steady :
    ∃ last, twiceRegistered (text "203.0.113.5:7946") (text "203.0.113.5:7946") = some last ∧
      last.table.knownPeers ≠ [] ∧ ∀ contact ∈ last.table.knownPeers,
        latestControl contact.id [peerRequest (text "203.0.113.5:7946"),
            peerRequest (text "203.0.113.5:7946")] = text "203.0.113.5:7946" ∧
          last.PlansReach [peerRequest (text "203.0.113.5:7946"),
            peerRequest (text "203.0.113.5:7946")] contact := by
  have evaluated : (twiceRegistered (text "203.0.113.5:7946") (text "203.0.113.5:7946")).map
      (fun last => last.table.knownPeers.map Contact.id) =
        some [nodeID (text "peer-wireguard-public-key-0123456789")] := by
    decide +kernel
  obtain ⟨last, ran, ids⟩ := Option.map_eq_some_iff.mp evaluated
  refine ⟨last, ran, fun empty => ?_, fun contact member => ?_⟩
  · rw [empty] at ids
    cases ids
  · have id := List.mem_singleton.mp (ids ▸ List.mem_map_of_mem member)
    refine ⟨?_, (plansReach_iff _ _ _ _ last ran contact member).mpr fun _ => ?_⟩
    · rw [id]
      decide +kernel
    · rw [id]
      decide +kernel

/-- A peer that learns its control address only after its first request. The plans go to its
WireGuard endpoint. -/
theorem plans_miss_late_control :
    ∃ last contact, twiceRegistered [] (text "203.0.113.5:7946") = some last ∧
      contact ∈ last.table.knownPeers ∧
      latestControl contact.id [peerRequest [], peerRequest (text "203.0.113.5:7946")] =
        text "203.0.113.5:7946" ∧
      (∀ args, ∃ plan, last.sendPunchPlan contact args =
        .ok (.dial (text "203.0.113.5:51820") plan)) ∧
      ¬ last.PlansReach [peerRequest [], peerRequest (text "203.0.113.5:7946")] contact := by
  have evaluated : (twiceRegistered [] (text "203.0.113.5:7946")).map
      (fun last => (last.table.knownPeers, last.controlConns.keys)) =
        some ([registeredPeer []], []) := by
    decide +kernel
  obtain ⟨last, ran, facts⟩ := Option.map_eq_some_iff.mp evaluated
  obtain ⟨peers, keys⟩ := Prod.mk.inj facts
  have latest : latestControl (registeredPeer []).id [peerRequest [],
      peerRequest (text "203.0.113.5:7946")] = text "203.0.113.5:7946" := by
    decide +kernel
  refine ⟨last, registeredPeer [], ran, ?_, latest, fun args => ?_, ?_⟩
  · rw [peers]
    exact List.mem_singleton_self _
  · have unstored : last.controlConns.lookup (registeredPeer []).publicKey = none := by
      rw [AList.lookup_eq_none, AList.mem_keys, keys]
      exact List.not_mem_nil
    simp only [Node.sendPunchPlan, unstored, keys]
    exact ⟨_, rfl⟩
  · intro reach
    have same := (reach (by rw [latest]; decide)).1
    rw [latest] at same
    cases same

end WgMesh.Dht
