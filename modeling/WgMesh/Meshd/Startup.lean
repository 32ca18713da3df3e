/-
This file models how `main` brings a daemon up, from its flags to the point where
it waits for a signal, and settles when it gets there.

The start can end in three other ways: the process exits with a status, a slice
of a log line is out of range, or the PEX protocol is started although it could
not listen. The last is announced as not fatal, but `Start` reads a field of a
protocol that is not there. While the seeds are dialed one after another, the
readers of the earlier ones already handle what those seeds send, so the messages
that are read between two dials belong to the start.

With the tunnel address of the hub among the flags, the hub is dialed a second
time, under that address. The table keeps one contact for it, with the address
of the later insert, and so the refreshes dial the tunnel until a message names
the hub with another address.

With `--sync-punch` the scheduler of the hub runs beside all of this. It is
modelled by itself, in `Schedule`, and the start here is one without it.
-/

import WgMesh.Meshd.Announcement
import WgMesh.Meshd.Seeds

namespace WgMesh.Meshd

open Go Pieces Dht Uapi

/-! ### The start -/

/-- What the start meets. -/
structure Launch where
  /-- Whether the port of the mesh is free. -/
  pexListens : Bool
  discovery : Discovery
  /-- The port the DHT node gets, if it gets one. -/
  dhtListens : Option Nat
  /-- Whether `SetPeer` succeeds for a seed, after the seeds before it. -/
  accepts : List PeerConfig → PeerConfig → Bool
  /-- What the readers decode after a dial and before the next, by the number of the dial. -/
  answers : Nat → List DhtMessage

/-- What the start leaves running. -/
structure Daemon where
  announcer : Announcer
  seeding : Seeding
  /-- Whether the handshake monitor was started. -/
  monitored : Bool

inductive Ending where
  /-- `os.Exit(1)`. -/
  | exited
  /-- The protocol that is started is `nil`. -/
  | nilProtocol
  | running (daemon : Daemon)

/-- A reader handles a message. -/
def hear (node : Node) (msg : DhtMessage) : Except Panic Node := node.apply (.read msg)

/-- `Bootstrap`, with what is heard after each dial. -/
def bootstrap (answers : Nat → List DhtMessage) :
    Nat → Node → List Contact → Except Panic Node
  | _, node, [] => return node
  | dials, node, seed :: rest => do
    let inserted ← node.bootstrapSeed seed
    let heard ← (answers dials).foldlM hear inserted
    bootstrap answers (dials + 1) heard rest

/-- The hub under its tunnel address, with the port of the first seed. -/
def tunnelSeed (hubIntraIP : Text) (seeding : Seeding) : Option Contact :=
  if hubIntraIP ≠ [] ∧ seeding.vpsHubPubKey ≠ [] then do
    let seed ← seeding.seeds.head?
    let (_, seedDhtPort) ← splitHostPort seed.endpoint
    if seedDhtPort ≠ [] then
      return seedContact seeding.vpsHubPubKey (joinHostPort hubIntraIP seedDhtPort)
    else none
  else none

/-- The contacts that are dialed. -/
def dialedSeeds (flags : Flags) (seeding : Seeding) : List Contact :=
  seeding.seeds ++ (tunnelSeed flags.hubIntraIP seeding).toList

/-- `main` after the dials: both protocols are started, and the monitor if it has a relay. -/
def startProtocols (flags : Flags) (launch : Launch) (announcer : Announcer) (seeding : Seeding) :
    Except Panic Ending := do
  if launch.pexListens then
    let monitored := decide (flags.relayAddr ≠ [] ∧ seeding.vpsHubPubKey ≠ [])
    if monitored then
      let _ ← upTo seeding.vpsHubPubKey 16
    return .running ⟨announcer, seeding, monitored⟩
  else return .nilProtocol

/-- `main` without `--sync-punch`, up to the wait for a signal. -/
def startUp (rounds : Nat) (flags : Flags) (launch : Launch) : Loop Ending := do
  if flags.publicKey = [] then return .exited
  else
    let _ ← upTo flags.publicKey 16
    let announcer ← announce flags (launch.dhtListens.getD 0) launch.discovery
    if launch.dhtListens = none then return .exited
    else
      let seeding ← parseSeeds launch.accepts flags.vpsAddr rounds flags.seedPeers
      let node ← bootstrap launch.answers 0 announcer.node
        (dialedSeeds flags seeding)
      startProtocols flags launch { announcer with node := node } seeding

/-! ### Computations that might not end -/

theorem loop_bind_eq_pure {First Second : Type} {computation : Loop First}
    {next : First → Loop Second} {value : Second} :
    computation >>= next = pure value ↔
      ∃ first, computation = pure first ∧ next first = pure value := by
  constructor
  · intro ended
    rcases (computation : Except Panic (Option First)) with fault | (_ | first)
    · cases ended
    · cases ended
    · exact ⟨first, rfl, ended⟩
  · rintro ⟨first, rfl, ended⟩
    exact ended

theorem loop_lift_eq_pure {Value : Type} {computation : Except Panic Value} {value : Value} :
    (liftM computation : Loop Value) = pure value ↔ computation = .ok value := by
  rcases computation with fault | result
  · exact iff_of_false (fun ended => by cases ended) (fun ended => by cases ended)
  · constructor
    · intro ended
      cases ended
      rfl
    · rintro ⟨⟩
      rfl

theorem loop_pure_injective {Value : Type} {first second : Value}
    (same : (pure first : Loop Value) = pure second) : first = second := by
  cases same
  rfl

/-! ### The seeds -/

section Seeds

variable {accepts : List PeerConfig → PeerConfig → Bool} {vpsAddr : Text} {rounds : Nat}

/-- The loop over the items only gets past a seed that can be logged. -/
theorem Seeding.long_of_item {seeding next : Seeding} {item : Text}
    (enough : (strip item).length < rounds)
    (done : seeding.item accepts vpsAddr rounds (strip item) = pure next) {pair : Text × Text}
    (given : seedOf item = some pair) : 16 ≤ pair.1.length := by
  have solid : ¬ isBlank 64 := by decide
  have single : item.count 64 = 1 := by
    by_contra other
    exact absurd given (by rw [seedOf, if_neg fun parts => other parts.1]; simp)
  obtain ⟨left, right, rfl, leftPlain, rightPlain⟩ := exists_sides single
  have leftSide : 64 ∉ left.dropWhile isBlank :=
    fun member => leftPlain ((List.dropWhile_suffix _).subset member)
  have rightSide : 64 ∉ right.rdropWhile isBlank :=
    fun member => rightPlain ((List.rdropWhile_prefix _ _).subset member)
  have pieces : split rounds (strip (left ++ 64 :: right)) (text "@") =
      pure [left.dropWhile isBlank, right.rdropWhile isBlank] := by
    rw [show text "@" = [64] from rfl, split_singleton _ 64 enough, strip_append_cons solid,
      List.splitOn_append_cons_self_of_not_mem leftSide, List.splitOn_eq_singleton rightSide]
  rw [seedOf_sides leftPlain rightPlain] at given
  obtain ⟨filled, same⟩ := Option.ite_none_right_eq_some.mp given
  rw [Seeding.item, pieces, pure_bind] at done
  simp only [stringsTrim_eq, strip_dropWhile, strip_rdropWhile, liftM_ok, pure_bind,
    if_pos filled] at done
  obtain ⟨_, logged, _⟩ := bind_eq_ok.mp (loop_lift_eq_pure.mp done)
  rw [← Option.some.inj same]
  exact (returns_upTo _ _).mp ⟨_, logged⟩

theorem Seeding.long_of_foldlM {items : List Text} {seeding last : Seeding}
    (enough : ∀ item ∈ items, (strip item).length < rounds)
    (done : ((items.map strip).filter (· ≠ [])).foldlM (Seeding.item accepts vpsAddr rounds)
      seeding = pure last) :
    ∀ item ∈ items, ∀ pair, seedOf item = some pair → 16 ≤ pair.1.length := by
  induction items generalizing seeding with
  | nil => exact List.forall_mem_nil _
  | cons item rest inductionHypothesis =>
    obtain ⟨first, others⟩ := List.forall_mem_cons.mp enough
    rw [List.map_cons, List.filter_cons] at done
    by_cases empty : strip item = []
    · rw [if_neg (by simp [empty])] at done
      refine List.forall_mem_cons.mpr ⟨fun pair given => ?_, inductionHypothesis others done⟩
      rw [seedOf_of_strip_eq_nil empty] at given
      cases given
    · rw [if_pos (by simp [empty]), List.foldlM_cons] at done
      obtain ⟨next, added, done⟩ := loop_bind_eq_pure.mp done
      exact List.forall_mem_cons.mpr
        ⟨fun pair => Seeding.long_of_item first added, inductionHypothesis others done⟩

end Seeds

/-- The seeds that the flags give. -/
def Flags.seeding (flags : Flags) : Seeding :=
  Seeding.added flags.vpsAddr ((flags.seedPeers.splitOn 44).filterMap seedOf)

/-- Every seed has a key that can be logged. -/
def Flags.LongSeeds (flags : Flags) : Prop :=
  ∀ item ∈ flags.seedPeers.splitOn 44, ∀ pair, seedOf item = some pair → 16 ≤ pair.1.length

theorem parseSeeds_eq_pure {flags : Flags} {accepts : List PeerConfig → PeerConfig → Bool}
    {rounds : Nat} (enough : flags.seedPeers.length < rounds) {seeding : Seeding} :
    parseSeeds accepts flags.vpsAddr rounds flags.seedPeers = pure seeding ↔
      flags.LongSeeds ∧ seeding = flags.seeding := by
  have joined : (text ",").intercalate (flags.seedPeers.splitOn 44) = flags.seedPeers :=
    List.intercalate_splitOn 44
  have plain : ∀ item ∈ flags.seedPeers.splitOn 44, 44 ∉ item := by
    obtain ⟨pieces, _, split, _⟩ := exists_split (List.cons_ne_nil 44 []) flags.seedPeers
    rw [← split.eq_splitOn]
    exact split.not_mem
  have parsed : flags.LongSeeds →
      parseSeeds accepts flags.vpsAddr rounds flags.seedPeers = pure flags.seeding := by
    intro long
    have exactly := parsesTo_filterMap flags.vpsAddr plain long accepts rounds
    rw [joined] at exactly
    exact exactly enough
  constructor
  · intro done
    have long : flags.LongSeeds := by
      unfold parseSeeds at done
      split at done
      · rw [show text "," = [44] from rfl, splitAndTrim_singleton _ 44 enough, pure_bind] at done
        refine Seeding.long_of_foldlM (fun item member => ?_) done
        have shorter := (sublist_intercalate (text ",") member).length_le
        rw [joined] at shorter
        have stripped : (strip item).length ≤ item.length :=
          ((List.rdropWhile_prefix _ _).length_le).trans (List.dropWhile_suffix _).length_le
        exact (stripped.trans shorter).trans_lt enough
      · rename_i empty
        intro item member pair given
        rw [not_not.mp empty] at member
        cases List.mem_singleton.mp member
        cases given
    exact ⟨long, loop_pure_injective (done.symm.trans (parsed long))⟩
  · rintro ⟨long, rfl⟩
    exact parsed long

/-! ### What is heard -/

/-- A message that a reader survives: every listed identity can be placed, and every key that is
announced can be logged. -/
def Mild (selfID : Text) (msg : DhtMessage) : Prop :=
  msg.type = .findNodeResp → ∀ contact ∈ msg.contacts,
    LongID contact.id ∧
      (contact.id ≠ selfID → contact.publicKey ≠ [] → 16 ≤ contact.publicKey.length)

/-- A message heard places the contacts it lists. -/
theorem of_hear {node next : Node} {msg : DhtMessage} (heard : hear node msg = .ok next) :
    next = { node with table := (listedContacts msg).foldl Table.place node.table } := by
  obtain ⟨⟨read, effects⟩, handled, heard⟩ := bind_eq_ok.mp heard
  cases heard
  exact Node.of_readResponse handled

theorem returns_hear {node : Node} (msg : DhtMessage) (calls : node.onPeerDiscovered = true) :
    Returns (hear node msg) ↔ Mild node.table.selfID msg := by
  refine (node.returns_apply (.read msg)).trans ?_
  constructor
  · intro harmless response contact member
    obtain ⟨long, logged⟩ := harmless response contact member
    exact ⟨long, fun foreign keyed => logged ⟨foreign, calls, keyed⟩⟩
  · intro mild response contact member
    obtain ⟨long, logged⟩ := mild response contact member
    exact ⟨long, fun announced => logged announced.1 announced.2.2⟩

/-- Messages heard one after another. -/
theorem of_foldlM_hear {messages : List DhtMessage}
    {node last : Node} (heard : messages.foldlM hear node = .ok last) :
    last = { node with
      table := (messages.flatMap listedContacts).foldl Table.place node.table } := by
  induction messages generalizing node with
  | nil =>
    cases heard
    rfl
  | cons msg rest inductionHypothesis =>
    rw [List.foldlM_cons] at heard
    obtain ⟨next, first, heard⟩ := bind_eq_ok.mp heard
    obtain rfl := of_hear first
    rw [inductionHypothesis heard, List.flatMap_cons, List.foldl_append]

theorem returns_foldlM_hear {messages : List DhtMessage}
    {node : Node} (calls : node.onPeerDiscovered = true) :
    Returns (messages.foldlM hear node) ↔
      ∀ msg ∈ messages, Mild node.table.selfID msg := by
  induction messages generalizing node with
  | nil => exact iff_of_true (returns_pure _) (List.forall_mem_nil _)
  | cons msg rest inductionHypothesis =>
    rw [List.foldlM_cons, List.forall_mem_cons, ← returns_hear msg calls, returns_bind]
    constructor
    · rintro ⟨next, first, heard⟩
      have selfID : next.table.selfID = node.table.selfID := by
        rw [of_hear first, Table.foldl_place_selfID]
      have others := (inductionHypothesis (by rw [of_hear first]; exact calls)).mp heard
      exact ⟨⟨next, first⟩, selfID ▸ others⟩
    · rintro ⟨⟨next, first⟩, others⟩
      have selfID : next.table.selfID = node.table.selfID := by
        rw [of_hear first, Table.foldl_place_selfID]
      refine ⟨next, first, (inductionHypothesis (by rw [of_hear first]; exact calls)).mpr ?_⟩
      exact selfID.symm ▸ others

/-! ### What the dials leave -/

/-- A seed as the flags give it. -/
structure IsSeed (seed : Contact) : Prop where
  form : IsNodeID seed.id
  keyed : seed.publicKey ≠ []

/-- A node that has been given a seed. -/
def seeded (node : Node) (seed : Contact) : Node := { node with
  table := node.table.place seed
  seedContact := if node.seedContact.publicKey = [] then seed else node.seedContact }

theorem bootstrapSeed_eq (node : Node) {seed : Contact} (form : IsNodeID seed.id) :
    node.bootstrapSeed seed = .ok (seeded node seed) := by
  obtain ⟨logged, log⟩ : Returns (logSeed seed) := by
    unfold logSeed
    split
    · rename_i long
      exact (returns_upTo _ _).mpr long
    · exact returns_pure _
  rw [Node.bootstrapSeed, log, Table.insert_eq _ _ form.longID]
  rfl

section Dials

variable {answers : Nat → List DhtMessage} {dials : Nat}
  {seeds : List Contact} {node last : Node}

theorem bootstrap_cons {seed : Contact} (form : IsNodeID seed.id) (rest : List Contact) :
    bootstrap answers dials node (seed :: rest) =
      (answers dials).foldlM hear (seeded node seed) >>= fun heard =>
        bootstrap answers (dials + 1) heard rest := by
  rw [bootstrap, bootstrapSeed_eq node form]
  rfl

/-- The inserts of `Bootstrap` and of the readers, in their order. -/
def insertsFrom (answers : Nat → List DhtMessage) : Nat → List Contact → List Contact
  | _, [] => []
  | dials, seed :: rest =>
    seed :: ((answers dials).flatMap listedContacts ++ insertsFrom answers (dials + 1) rest)

/-- The first seed of all stays the one that is reported to. -/
theorem of_bootstrap (known : ∀ seed ∈ seeds, IsSeed seed)
    (done : bootstrap answers dials node seeds = .ok last) :
    last = { node with
      table := (insertsFrom answers dials seeds).foldl Table.place node.table
      seedContact := if node.seedContact.publicKey = [] then seeds.head?.getD node.seedContact
        else node.seedContact } := by
  induction seeds generalizing dials node with
  | nil =>
    cases done
    simp [insertsFrom]
  | cons seed rest inductionHypothesis =>
    obtain ⟨first, others⟩ := List.forall_mem_cons.mp known
    rw [bootstrap_cons first.form] at done
    obtain ⟨heard, hears, done⟩ := bind_eq_ok.mp done
    obtain rfl := of_foldlM_hear hears
    rw [inductionHypothesis others done, insertsFrom, List.foldl_cons, List.foldl_append]
    by_cases unset : node.seedContact.publicKey = []
    · simp [seeded, unset, first.keyed]
    · simp [seeded, unset]

/-- The dials come to their end exactly if every message that is heard after one of them is
survived. -/
theorem returns_bootstrap (known : ∀ seed ∈ seeds, IsSeed seed)
    (calls : node.onPeerDiscovered = true) :
    Returns (bootstrap answers dials node seeds) ↔
      ∀ dial < seeds.length, ∀ msg ∈ answers (dials + dial), Mild node.table.selfID msg := by
  induction seeds generalizing dials node with
  | nil => exact iff_of_true (returns_pure _) fun dial none => absurd none (Nat.not_lt_zero dial)
  | cons seed rest inductionHypothesis =>
    obtain ⟨first, others⟩ := List.forall_mem_cons.mp known
    have selfID : (seeded node seed).table.selfID = node.table.selfID := Table.place_selfID _ _
    have heardFirst : Returns ((answers dials).foldlM hear (seeded node seed)) ↔
        ∀ msg ∈ answers dials, Mild node.table.selfID msg := by
      rw [← selfID]
      exact returns_foldlM_hear calls
    have remaining : ∀ heard, (answers dials).foldlM hear (seeded node seed) =
        .ok heard → (Returns (bootstrap answers (dials + 1) heard rest) ↔
          ∀ dial < rest.length, ∀ msg ∈ answers (dials + (dial + 1)),
            Mild node.table.selfID msg) := by
      intro heard hears
      have same : heard.table.selfID = node.table.selfID := by
        rw [of_foldlM_hear hears, Table.foldl_place_selfID, selfID]
      have called : heard.onPeerDiscovered = true := by
        rw [of_foldlM_hear hears]
        exact calls
      have further := @inductionHypothesis (dials + 1) heard others called
      simp only [same, Nat.add_right_comm dials 1] at further
      exact further
    rw [bootstrap_cons first.form, List.length_cons, Nat.forall_lt_succ_left, returns_bind]
    change _ ↔ (∀ msg ∈ answers dials, Mild node.table.selfID msg) ∧ _
    rw [← heardFirst]
    constructor
    · rintro ⟨heard, hears, done⟩
      exact ⟨⟨heard, hears⟩, (remaining heard hears).mp done⟩
    · rintro ⟨⟨heard, hears⟩, mild⟩
      exact ⟨heard, hears, (remaining heard hears).mpr mild⟩

end Dials

/-! ### How the start ends -/

variable {flags : Flags} {launch : Launch} {rounds : Nat}

theorem returns_announce (flags : Flags) (listenPort : Nat) (discovery : Discovery) :
    Returns (announce flags listenPort discovery) ↔
      (flags.wgEndpoint = [] → Returns (discoverPublicEndpoint flags.meshPort discovery)) := by
  have first : Returns (announce flags listenPort discovery) ↔
      Returns (firstDiscovery flags discovery) := by
    unfold announce
    rw [returns_bind]
    exact ⟨fun ⟨found, discovered, _⟩ => ⟨found, discovered⟩,
      fun ⟨found, discovered⟩ => ⟨found, discovered, returns_pure _⟩⟩
  rw [first, firstDiscovery]
  split
  · rename_i unset
    exact ⟨fun returned _ => returned, fun returned => returned unset⟩
  · rename_i set
    exact iff_of_true (returns_pure _) fun unset => absurd unset set

/-- The node has not been told of anyone yet. -/
theorem of_announce {listenPort : Nat} {discovery : Discovery} {announcer : Announcer}
    (started : announce flags listenPort discovery = .ok announcer) :
    announcer.node.table = Table.new flags.publicKey ∧
      announcer.node.publicKey = flags.publicKey ∧
      announcer.node.onPeerDiscovered = true ∧ announcer.node.seedContact = Contact.zero := by
  obtain ⟨found, _, started⟩ := bind_eq_ok.mp started
  cases started
  dsimp only
  split_ifs
  all_goals exact ⟨rfl, rfl, rfl, rfl⟩

theorem isSeed_of_mem_seeds {seed : Contact} (member : seed ∈ flags.seeding.seeds) :
    IsSeed seed := by
  obtain ⟨pair, given, rfl⟩ := List.mem_map.mp member
  obtain ⟨item, _, parsed⟩ := List.mem_filterMap.mp given
  exact ⟨isNodeID_nodeID _, fst_ne_nil_of_seedOf parsed⟩

theorem isSeed_of_mem_dialedSeeds (flags : Flags) :
    ∀ seed ∈ dialedSeeds flags flags.seeding, IsSeed seed := by
  intro seed member
  rcases List.mem_append.mp member with given | tunnel
  · exact isSeed_of_mem_seeds given
  · have found := Option.mem_toList.mp tunnel
    unfold tunnelSeed at found
    obtain ⟨named, found⟩ := Option.ite_none_right_eq_some.mp found
    obtain ⟨first, _, found⟩ := Option.bind_eq_some_iff.mp found
    obtain ⟨_, _, found⟩ := Option.bind_eq_some_iff.mp found
    obtain ⟨_, found⟩ := Option.ite_none_right_eq_some.mp found
    cases found
    exact ⟨isNodeID_nodeID _, named.2⟩

/-- The key of the hub is the first of the seeds' keys. -/
theorem Flags.LongSeeds.hub (long : flags.LongSeeds) (named : flags.seeding.vpsHubPubKey ≠ []) :
    16 ≤ flags.seeding.vpsHubPubKey.length := by
  cases pairs : (flags.seedPeers.splitOn 44).filterMap seedOf with
  | nil => exact absurd (by simp [Flags.seeding, Seeding.added, pairs]) named
  | cons first rest =>
    have hub : flags.seeding.vpsHubPubKey = first.1 := by
      simp [Flags.seeding, Seeding.added, pairs]
    have given : first ∈ (flags.seedPeers.splitOn 44).filterMap seedOf := by
      rw [pairs]
      exact List.mem_cons_self
    obtain ⟨item, member, parsed⟩ := List.mem_filterMap.mp given
    rw [hub]
    exact long item member first parsed

/-- How the start ends once the seeds are dialed. -/
def Launch.ending (launch : Launch) (flags : Flags) (announcer : Announcer) : Ending :=
  if launch.pexListens then
    .running ⟨announcer, flags.seeding,
      decide (flags.relayAddr ≠ [] ∧ flags.seeding.vpsHubPubKey ≠ [])⟩
  else .nilProtocol

theorem startProtocols_eq (long : flags.LongSeeds) (announcer : Announcer) :
    startProtocols flags launch announcer flags.seeding = .ok (launch.ending flags announcer) := by
  unfold startProtocols Launch.ending
  by_cases listens : launch.pexListens = true
  · rw [if_pos listens, if_pos listens]
    dsimp only
    split
    · rename_i monitored
      have named := (of_decide_eq_true monitored).2
      have logged : upTo flags.seeding.vpsHubPubKey 16 = .ok _ := if_pos (long.hub named)
      rw [logged]
      rfl
    · rfl
  · rw [if_neg listens, if_neg listens]
    rfl

/-- The start, step by step. -/
theorem startUp_eq_pure (enough : flags.seedPeers.length < rounds) {ending : Ending} :
    startUp rounds flags launch = pure ending ↔
      (flags.publicKey = [] ∧ ending = .exited) ∨
      (16 ≤ flags.publicKey.length ∧ ∃ announcer,
        announce flags (launch.dhtListens.getD 0) launch.discovery = .ok announcer ∧
          ((launch.dhtListens = none ∧ ending = .exited) ∨
            (launch.dhtListens ≠ none ∧ flags.LongSeeds ∧ ∃ node,
              bootstrap launch.answers 0 announcer.node
                  (dialedSeeds flags flags.seeding) = .ok node ∧
                ending = launch.ending flags { announcer with node := node }))) := by
  constructor
  · intro ended
    unfold startUp at ended
    split at ended
    · rename_i empty
      exact Or.inl ⟨empty, (loop_pure_injective ended).symm⟩
    · obtain ⟨_, logged, ended⟩ := loop_bind_eq_pure.mp ended
      obtain ⟨announcer, announced, ended⟩ := loop_bind_eq_pure.mp ended
      refine Or.inr ⟨(returns_upTo _ _).mp ⟨_, loop_lift_eq_pure.mp logged⟩, announcer,
        loop_lift_eq_pure.mp announced, ?_⟩
      split at ended
      · rename_i unbound
        exact Or.inl ⟨unbound, (loop_pure_injective ended).symm⟩
      · rename_i bound
        obtain ⟨seeding, parsed, ended⟩ := loop_bind_eq_pure.mp ended
        obtain ⟨long, rfl⟩ := (parseSeeds_eq_pure enough).mp parsed
        obtain ⟨node, dialed, ended⟩ := loop_bind_eq_pure.mp ended
        rw [startProtocols_eq long] at ended
        exact Or.inr ⟨bound, long, node, loop_lift_eq_pure.mp dialed,
          (loop_pure_injective ended).symm⟩
  · rintro (⟨empty, rfl⟩ | ⟨key, announcer, announced, ending⟩)
    · rw [startUp, if_pos empty]
    · have keyed : flags.publicKey ≠ [] := by
        intro empty
        rw [empty] at key
        exact absurd key (by decide)
      have logged : upTo flags.publicKey 16 = .ok _ := if_pos key
      rw [startUp, if_neg keyed, logged, announced]
      rcases ending with ⟨unbound, rfl⟩ | ⟨bound, long, node, dialed, rfl⟩
      · simp only [liftM_ok, pure_bind, if_pos unbound]
      · have parsed : parseSeeds launch.accepts flags.vpsAddr rounds flags.seedPeers =
            pure flags.seeding := (parseSeeds_eq_pure enough).mpr ⟨long, rfl⟩
        simp only [liftM_ok, pure_bind, if_neg bound, parsed, dialed, startProtocols_eq long]

/-- What a start needs besides the port of the mesh. -/
structure Ready (flags : Flags) (launch : Launch) : Prop where
  key : 16 ≤ flags.publicKey.length
  discovery : flags.wgEndpoint = [] →
    Returns (discoverPublicEndpoint flags.meshPort launch.discovery)
  listens : launch.dhtListens ≠ none
  seeds : flags.LongSeeds
  answers : ∀ dial < (dialedSeeds flags flags.seeding).length, ∀ msg ∈ launch.answers dial,
    Mild (nodeID flags.publicKey) msg

/-- A start is ready exactly if it gets through its dials. -/
theorem ready_iff : Ready flags launch ↔
    16 ≤ flags.publicKey.length ∧ ∃ announcer,
      announce flags (launch.dhtListens.getD 0) launch.discovery = .ok announcer ∧
        launch.dhtListens ≠ none ∧ flags.LongSeeds ∧
        Returns (bootstrap launch.answers 0 announcer.node
          (dialedSeeds flags flags.seeding)) := by
  have dials : ∀ announcer,
      announce flags (launch.dhtListens.getD 0) launch.discovery = .ok announcer →
      (Returns (bootstrap launch.answers 0 announcer.node
          (dialedSeeds flags flags.seeding)) ↔
        ∀ dial < (dialedSeeds flags flags.seeding).length, ∀ msg ∈ launch.answers dial,
          Mild (nodeID flags.publicKey) msg) := by
    intro announcer announced
    obtain ⟨table, _, calls, _⟩ := of_announce announced
    rw [returns_bootstrap (isSeed_of_mem_dialedSeeds flags) calls, table]
    simp only [Nat.zero_add]
    rfl
  constructor
  · intro ready
    obtain ⟨announcer, announced⟩ := (returns_announce flags _ _).mpr ready.discovery
    exact ⟨ready.key, announcer, announced, ready.listens, ready.seeds,
      (dials announcer announced).mpr ready.answers⟩
  · rintro ⟨key, announcer, announced, listens, seeds, dialed⟩
    exact ⟨key, (returns_announce flags _ _).mp ⟨_, announced⟩, listens, seeds,
      (dials announcer announced).mp dialed⟩

theorem ready_of_startUp (enough : flags.seedPeers.length < rounds) {ending : Ending}
    (ended : startUp rounds flags launch = pure ending) (stays : ending ≠ .exited) :
    Ready flags launch ∧ ∃ announcer, ending = launch.ending flags announcer := by
  rcases (startUp_eq_pure enough).mp ended with
    ⟨_, exits⟩ | ⟨key, announcer, announced, ⟨_, exits⟩ | ⟨listens, long, node, dialed, same⟩⟩
  · exact absurd exits stays
  · exact absurd exits stays
  · exact ⟨ready_iff.mpr ⟨key, announcer, announced, listens, long, node, dialed⟩, _, same⟩

theorem startUp_of_ready (enough : flags.seedPeers.length < rounds) (ready : Ready flags launch) :
    ∃ announcer, startUp rounds flags launch = pure (launch.ending flags announcer) := by
  obtain ⟨key, announcer, announced, listens, long, node, dialed⟩ := ready_iff.mp ready
  exact ⟨{ announcer with node := node }, (startUp_eq_pure enough).mpr
    (Or.inr ⟨key, announcer, announced, Or.inr ⟨listens, long, node, dialed, rfl⟩⟩)⟩

/-- When a daemon comes up. It runs exactly if its own key and the keys of its seeds can be
logged, no response faults its parsers, the seeds list nothing that cannot be placed or logged,
and both of its ports are free. With the port of the mesh taken it does all the rest and then
faults, and it exits only for want of a key or of the port of the DHT. -/
theorem startUp_runs_iff (flags : Flags) (launch : Launch)
    (enough : flags.seedPeers.length < rounds) :
    ((∃ daemon, startUp rounds flags launch = pure (.running daemon)) ↔
      Ready flags launch ∧ launch.pexListens = true) ∧
    (startUp rounds flags launch = pure .nilProtocol ↔
      Ready flags launch ∧ launch.pexListens = false) ∧
    (startUp rounds flags launch = pure .exited ↔ flags.publicKey = [] ∨
      (16 ≤ flags.publicKey.length ∧ launch.dhtListens = none ∧
        (flags.wgEndpoint = [] →
          Returns (discoverPublicEndpoint flags.meshPort launch.discovery)))) := by
  refine ⟨⟨?_, ?_⟩, ⟨?_, ?_⟩, ⟨?_, ?_⟩⟩
  · rintro ⟨daemon, ended⟩
    obtain ⟨ready, announcer, same⟩ := ready_of_startUp enough ended Ending.noConfusion
    refine ⟨ready, ?_⟩
    by_contra silent
    rw [Launch.ending, if_neg silent] at same
    cases same
  · rintro ⟨ready, listens⟩
    obtain ⟨announcer, ended⟩ := startUp_of_ready enough ready
    rw [Launch.ending, if_pos listens] at ended
    exact ⟨_, ended⟩
  · intro ended
    obtain ⟨ready, announcer, same⟩ := ready_of_startUp enough ended Ending.noConfusion
    refine ⟨ready, Bool.eq_false_iff.mpr fun listens => ?_⟩
    rw [Launch.ending, if_pos listens] at same
    cases same
  · rintro ⟨ready, silent⟩
    obtain ⟨announcer, ended⟩ := startUp_of_ready enough ready
    rw [Launch.ending, if_neg (Bool.eq_false_iff.mp silent)] at ended
    exact ended
  · intro ended
    rcases (startUp_eq_pure enough).mp ended with
      ⟨empty, _⟩ | ⟨key, announcer, announced, ⟨unbound, _⟩ | ⟨_, _, node, _, same⟩⟩
    · exact Or.inl empty
    · exact Or.inr ⟨key, unbound, (returns_announce flags _ _).mp ⟨_, announced⟩⟩
    · unfold Launch.ending at same
      split at same
      · cases same
      · cases same
  · rintro (empty | ⟨key, unbound, discovered⟩)
    · exact (startUp_eq_pure enough).mpr (Or.inl ⟨empty, rfl⟩)
    · obtain ⟨announcer, announced⟩ :=
        (returns_announce flags (launch.dhtListens.getD 0) _).mpr discovered
      exact (startUp_eq_pure enough).mpr
        (Or.inr ⟨key, announcer, announced, Or.inl ⟨unbound, rfl⟩⟩)

/-- A daemon with a hub that it can also reach through the tunnel. -/
def tunnelFlags : Flags := { leafFlags with
  seedPeers := text "hubAhubAhubAhubA@198.51.100.1:51822"
  hubIntraIP := text "10.200.200.1" }

theorem seedOf_tunnelFlags : (tunnelFlags.seedPeers.splitOn 44).filterMap seedOf =
    [(text "hubAhubAhubAhubA", text "198.51.100.1:51822")] := by
  decide +kernel

/-- A start in which nothing answers. -/
def quietLaunch (pexListens : Bool) : Launch where
  pexListens := pexListens
  discovery := ⟨none, none, none⟩
  dhtListens := some 51822
  accepts := fun _ _ => true
  answers := fun _ => []

theorem ready_quietLaunch (pexListens : Bool) : Ready tunnelFlags (quietLaunch pexListens) where
  key := by decide +kernel
  discovery := fun _ => ⟨_, rfl⟩
  listens := Option.some_ne_none _
  seeds := by
    intro item member pair given
    have parsed := List.mem_filterMap.mpr ⟨item, member, given⟩
    rw [seedOf_tunnelFlags, List.mem_singleton] at parsed
    rw [parsed]
    decide
  answers := fun _ _ => List.forall_mem_nil _

/-- With the port of the mesh taken, the daemon does not come up. -/
theorem startUp_runs_iff_taken :
    Ready tunnelFlags (quietLaunch false) ∧
      startUp 36 tunnelFlags (quietLaunch false) = pure .nilProtocol :=
  ⟨ready_quietLaunch false,
    ((startUp_runs_iff tunnelFlags (quietLaunch false) (by decide +kernel)).2.1).mpr
      ⟨ready_quietLaunch false, rfl⟩⟩

/-! ### The tunnel address -/

/-- An identity that a table holds stays in it. -/
theorem mem_ids_foldl_place {table : Table} {contacts : List Contact} {id : Text}
    (held : id ∈ table.ids) : id ∈ (contacts.foldl Table.place table).ids := by
  induction contacts generalizing table with
  | nil => exact held
  | cons contact rest inductionHypothesis =>
    exact inductionHypothesis (Table.mem_ids_place.mpr (Or.inl held))

/-- The inserts of one more dial. -/
theorem insertsFrom_concat (answers : Nat → List DhtMessage) (dials : Nat) (seeds : List Contact)
    (seed : Contact) :
    insertsFrom answers dials (seeds ++ [seed]) = insertsFrom answers dials seeds ++
      seed :: (answers (dials + seeds.length)).flatMap listedContacts := by
  induction seeds generalizing dials with
  | nil => simp [insertsFrom]
  | cons first rest inductionHypothesis =>
    rw [List.cons_append, insertsFrom, inductionHypothesis, insertsFrom, List.length_cons,
      Nat.add_right_comm, Nat.add_assoc dials]
    simp

/-- A contact that is inserted before all others, and later once more, is kept with the key of
the first insert and the endpoint of the last, which is that later one or one after it. -/
theorem entry_of_inserts {publicKey : Text} {inserted : List Contact}
    {hub latest : Contact} {between after : List Contact}
    (order : inserted = hub :: between ++ latest :: after) (form : IsNodeID hub.id)
    (foreign : nodeID publicKey ≠ hub.id) (same : latest.id = hub.id) :
    (∃ contact ∈ (inserted.foldl Table.place (Table.new publicKey)).knownPeers,
      contact.id = hub.id) ∧
    ∀ contact ∈ (inserted.foldl Table.place (Table.new publicKey)).knownPeers,
      contact.id = hub.id → contact.publicKey = hub.publicKey ∧
        contact.endpoint = ((insertsOf hub.id after).getLast?.getD latest).endpoint := by
  have held : hub.id ∈ (inserted.foldl Table.place (Table.new publicKey)).ids := by
    rw [order, List.cons_append, List.foldl_cons]
    exact mem_ids_foldl_place
      (Table.mem_ids_place.mpr (Or.inr ⟨rfl, Table.admits_new form foreign⟩))
  have own : insertsOf hub.id inserted =
      (hub :: insertsOf hub.id between) ++ latest :: insertsOf hub.id after := by
    rw [order, insertsOf, List.cons_append, List.filter_cons_of_pos (by simp),
      List.filter_append, List.filter_cons_of_pos (by simp [same])]
    rfl
  refine ⟨?_, fun contact member id => ?_⟩
  · obtain ⟨contact, member, id⟩ := List.mem_map.mp held
    exact ⟨contact, member, id⟩
  · have merged := mergedFrom_of_mem member
    have publicKey := merged.publicKey
    have endpoint := merged.endpoint
    rw [id, own] at publicKey endpoint
    rw [List.getLast?_append_cons, List.getLast?_cons] at endpoint
    exact ⟨(Option.some.inj publicKey).symm, (Option.some.inj endpoint).symm⟩

/-- The first seed is the hub. -/
theorem hub_of_head {hub : Contact} (first : flags.seeding.seeds.head? = some hub) :
    IsSeed hub ∧ hub.id = nodeID hub.publicKey ∧ flags.seeding.vpsHubPubKey = hub.publicKey := by
  have seed := isSeed_of_mem_seeds (List.mem_of_mem_head? first)
  obtain ⟨pair, parsed, rfl⟩ := Option.map_eq_some_iff.mp (List.head?_map.symm.trans first)
  refine ⟨seed, rfl, ?_⟩
  simp [Flags.seeding, Seeding.added, parsed, seedContact]

/-- The contacts that are dialed, when the tunnel address can be used. -/
theorem dialedSeeds_of_tunnel {hub : Contact} (first : flags.seeding.seeds.head? = some hub)
    {host port : Text} (address : splitHostPort hub.endpoint = some (host, port))
    (numbered : port ≠ []) (tunnel : flags.hubIntraIP ≠ []) :
    dialedSeeds flags flags.seeding = flags.seeding.seeds ++
      [seedContact hub.publicKey (joinHostPort flags.hubIntraIP port)] := by
  obtain ⟨seed, _, hubKey⟩ := hub_of_head first
  have named : flags.hubIntraIP ≠ [] ∧ flags.seeding.vpsHubPubKey ≠ [] :=
    ⟨tunnel, hubKey ▸ seed.keyed⟩
  have found : tunnelSeed flags.hubIntraIP flags.seeding =
      some (seedContact hub.publicKey (joinHostPort flags.hubIntraIP port)) := by
    rw [tunnelSeed, if_pos named, first, hubKey]
    change (splitHostPort hub.endpoint >>= _) = _
    rw [address]
    exact if_pos numbered
  rw [dialedSeeds, found]
  rfl

/-- The node of a daemon that has come up. -/
theorem node_of_startUp (enough : flags.seedPeers.length < rounds) {daemon : Daemon}
    (started : startUp rounds flags launch = pure (.running daemon)) :
    daemon.announcer.node.publicKey = flags.publicKey ∧
      daemon.announcer.node.table =
        (insertsFrom launch.answers 0 (dialedSeeds flags flags.seeding)).foldl Table.place
          (Table.new flags.publicKey) ∧
      daemon.announcer.node.seedContact =
        (dialedSeeds flags flags.seeding).head?.getD Contact.zero := by
  rcases (startUp_eq_pure enough).mp started with
    ⟨_, exits⟩ | ⟨_, announcer, announced, ⟨_, exits⟩ | ⟨_, _, node, dialed, same⟩⟩
  · cases exits
  · cases exits
  · unfold Launch.ending at same
    split at same
    · cases same
      obtain ⟨table, publicKey, _, unset⟩ := of_announce announced
      rw [of_bootstrap (isSeed_of_mem_dialedSeeds flags) dialed]
      refine ⟨publicKey, by rw [table], ?_⟩
      rw [unset]
      rfl
    · cases same

/-- The contacts that are passed to the table when this happens. -/
def Occurrence.inserts : Occurrence → List Contact
  | .refresh _ => []
  | .operate operation => operation.inserts
  | .bootstrap seed => [seed]

/-- A daemon after something has happened to it: contacts were placed, and it is still the same
node, which reports to the same seed. -/
structure Announcer.Placed (announcer next : Announcer) (contacts : List Contact) : Prop where
  table : next.node.table = contacts.foldl Table.place announcer.node.table
  publicKey : next.node.publicKey = announcer.node.publicKey
  seedContact : announcer.node.seedContact.publicKey ≠ [] →
    next.node.seedContact = announcer.node.seedContact

theorem Announcer.placed_refresh {announcer next : Announcer} {discovery : Discovery}
    (refreshed : announcer.refresh flags discovery = .ok next) :
    announcer.Placed next [] := by
  unfold Announcer.refresh at refreshed
  split at refreshed
  · obtain ⟨⟨found, _⟩, _, refreshed⟩ := bind_eq_ok.mp refreshed
    dsimp only at refreshed
    split at refreshed
    · cases refreshed
      exact ⟨rfl, rfl, fun _ => rfl⟩
    · cases refreshed
      exact ⟨rfl, rfl, fun _ => rfl⟩
  · cases refreshed
    exact ⟨rfl, rfl, fun _ => rfl⟩

theorem Announcer.placed_step {announcer next : Announcer} {occurrence : Occurrence}
    (stepped : announcer.step flags occurrence = .ok next) :
    announcer.Placed next occurrence.inserts := by
  cases occurrence with
  | refresh discovery => exact Announcer.placed_refresh stepped
  | operate operation =>
    obtain ⟨node, applied, stepped⟩ := bind_eq_ok.mp stepped
    cases stepped
    obtain ⟨_, rfl⟩ := Node.of_apply applied
    exact ⟨rfl, rfl, fun _ => rfl⟩
  | bootstrap seed =>
    obtain ⟨node, given, stepped⟩ := bind_eq_ok.mp stepped
    cases stepped
    obtain ⟨_, _, given⟩ := bind_eq_ok.mp given
    obtain ⟨table, inserted, given⟩ := bind_eq_ok.mp given
    cases given
    exact ⟨Table.eq_place_of_insert inserted, rfl, fun keyed => if_neg keyed⟩

theorem Announcer.placed_run {announcer last : Announcer} {occurrences : List Occurrence}
    (ran : occurrences.foldlM (Announcer.step flags) announcer = .ok last) :
    announcer.Placed last (occurrences.flatMap Occurrence.inserts) := by
  induction occurrences generalizing announcer with
  | nil =>
    cases ran
    exact ⟨rfl, rfl, fun _ => rfl⟩
  | cons occurrence rest inductionHypothesis =>
    rw [List.foldlM_cons] at ran
    obtain ⟨next, stepped, ran⟩ := bind_eq_ok.mp ran
    have first := Announcer.placed_step stepped
    have later := inductionHypothesis ran
    refine ⟨?_, later.publicKey.trans first.publicKey, fun keyed => ?_⟩
    · rw [later.table, first.table, List.flatMap_cons, List.foldl_append]
    · have same := first.seedContact keyed
      exact (later.seedContact (same ▸ keyed)).trans same

/-- The contacts that a daemon hears of between its last dial and now. -/
def heardSince (flags : Flags) (launch : Launch) (occurrences : List Occurrence) : List Contact :=
  (launch.answers flags.seeding.seeds.length).flatMap listedContacts ++
    occurrences.flatMap Occurrence.inserts

/-- The tunnel address of the hub takes the place of the address it was given with. Whatever
happens to a daemon that has come up, it has a contact for the hub, and a refresh dials the hub
through the tunnel, unless contacts with the identity of the hub were heard of since: then it
dials the endpoint of the last of these. What the daemon reports about its peers goes to the
address that was given. -/
theorem tunnel_replaces_seed (enough : flags.seedPeers.length < rounds) {daemon : Daemon}
    (started : startUp rounds flags launch = pure (.running daemon)) {hub : Contact}
    (first : flags.seeding.seeds.head? = some hub) {host port : Text}
    (address : splitHostPort hub.endpoint = some (host, port)) (numbered : port ≠ [])
    (tunnel : flags.hubIntraIP ≠ []) (foreign : nodeID flags.publicKey ≠ hub.id)
    (occurrences : List Occurrence) {last : Announcer}
    (ran : occurrences.foldlM (Announcer.step flags) daemon.announcer = .ok last) :
    (∃ contact ∈ last.node.refreshContacts, contact.id = hub.id) ∧
    (∀ contact ∈ last.node.refreshContacts, contact.id = hub.id → contact.findNodeAddress =
      match (insertsOf hub.id (heardSince flags launch occurrences)).getLast? with
      | none => joinHostPort flags.hubIntraIP port
      | some heard => heard.endpoint) ∧
    ∀ peerPubKey state endpoint,
      (last.node.sendState peerPubKey state endpoint).map Prod.fst = some hub.endpoint := by
  obtain ⟨seed, derived, hubKey⟩ := hub_of_head first
  obtain ⟨publicKey, table, reported⟩ := node_of_startUp enough started
  have placed := Announcer.placed_run ran
  have dialed := dialedSeeds_of_tunnel first address numbered tunnel
  obtain ⟨rest, seeds⟩ := List.head?_eq_some_iff.mp first
  have order : insertsFrom launch.answers 0 (dialedSeeds flags flags.seeding) ++
        occurrences.flatMap Occurrence.inserts =
      hub :: ((launch.answers 0).flatMap listedContacts ++ insertsFrom launch.answers 1 rest) ++
        seedContact hub.publicKey (joinHostPort flags.hubIntraIP port) ::
          heardSince flags launch occurrences := by
    rw [dialed, insertsFrom_concat, Nat.zero_add, heardSince, List.append_assoc, List.cons_append,
      seeds, insertsFrom]
  obtain ⟨⟨contact, known, id⟩, kept⟩ := entry_of_inserts order seed.form foreign derived.symm
  rw [List.foldl_append, ← table, ← placed.table] at known kept
  refine ⟨⟨contact, List.mem_filter.mpr ⟨known, decide_eq_true ?_⟩, id⟩, ?_, ?_⟩
  · rw [(kept contact known id).1, placed.publicKey, publicKey]
    rintro (empty | own)
    · exact seed.keyed empty
    · exact foreign (by rw [derived, own])
  · intro contact refreshed id
    rw [Contact.findNodeAddress, (kept contact (List.mem_filter.mp refreshed).1 id).2]
    cases (insertsOf hub.id (heardSince flags launch occurrences)).getLast? with
    | none => rfl
    | some heard => rfl
  · intro peerPubKey state endpoint
    have hubFirst : daemon.announcer.node.seedContact = hub := by
      rw [reported, dialed, seeds]
      rfl
    have stillHub : last.node.seedContact = hub :=
      (placed.seedContact (hubFirst ▸ seed.keyed)).trans hubFirst
    rw [Node.sendState, stillHub, if_neg seed.keyed]
    rfl

/-- After a response with no contacts the hub is still dialed through the tunnel. -/
theorem tunnel_replaces_seed_quiet : ∃ daemon last,
    startUp 36 tunnelFlags (quietLaunch true) = pure (.running daemon) ∧
      [Occurrence.operate (.read { type := .findNodeResp })].foldlM (Announcer.step tunnelFlags)
        daemon.announcer = .ok last ∧
      ∃ contact ∈ last.node.refreshContacts,
        contact.findNodeAddress = text "10.200.200.1:51822" := by
  have enough : tunnelFlags.seedPeers.length < 36 := by decide +kernel
  obtain ⟨announcer, started⟩ := startUp_of_ready enough (ready_quietLaunch true)
  have first : tunnelFlags.seeding.seeds.head? =
      some (seedContact (text "hubAhubAhubAhubA") (text "198.51.100.1:51822")) := by
    rw [Flags.seeding, seedOf_tunnelFlags]
    rfl
  have address : splitHostPort (text "198.51.100.1:51822") =
      some (text "198.51.100.1", text "51822") := by decide +kernel
  have ran : [Occurrence.operate (.read { type := .findNodeResp })].foldlM
      (Announcer.step tunnelFlags) announcer = .ok announcer := rfl
  obtain ⟨⟨contact, refreshed, id⟩, tunnelled, _⟩ := tunnel_replaces_seed enough started first
    address (by decide) (by decide +kernel) (by decide +kernel) _ ran
  refine ⟨_, announcer, started, ran, contact, refreshed, (tunnelled contact refreshed id).trans ?_⟩
  decide +kernel

end WgMesh.Meshd
