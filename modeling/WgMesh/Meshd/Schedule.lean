/-
This file models the hub's schedule of synchronized punches and shows which plans
a tick issues.

At every tick the hub goes through the peers it knows in two nested loops over
the positions `i < j`, passing over those it cannot use at either level. For the
other pairs it reads the clock once and calls `SendPunchPlan` twice, with the
roles of the two peers swapped. Between any two of these steps other goroutines
may change the hub, so the clock and the hub of each pair are inputs.

The tick returns exactly when every prefix it logs exists, and then the plans are
symmetric and complete.
-/

import WgMesh.Dht.Crash
import WgMesh.Go.Address
import WgMesh.Meshd.Punch
import WgMesh.Pieces.Pairs

namespace WgMesh.Meshd

open Go Dht

/-- What a pair of peers meets when its turn comes. -/
structure Moment where
  /-- The reading of the clock. -/
  now : Int
  /-- The hub when the plan for the first peer is sent. -/
  hubA : Node
  /-- The hub when the plan for the second peer is sent. -/
  hubB : Node

/-- A call of `SendPunchPlan`. -/
structure Issued where
  contact : Contact
  args : PunchArgs
  route : PunchRoute
  deriving DecidableEq, Repr

/-- A tick: what `KnownPeers` returns, and the moment of each pair of positions. -/
structure Tick where
  peers : List Contact
  moments : Nat → Nat → Moment

/-- The loops pass over a peer. -/
def Skipped (selfPK : Text) (peer : Contact) : Prop :=
  peer.publicKey = [] ∨ peer.publicKey = selfPK ∨ peer.publicEndpoint = []

instance (selfPK : Text) (peer : Contact) : Decidable (Skipped selfPK peer) :=
  inferInstanceAs (Decidable (_ ∨ _))

/-- The body of the inner loop, for two peers that are not passed over. -/
def punchPair (window lead : Int) (moment : Moment) (a b : Contact) :
    Except Panic (List Issued) := do
  let start := moment.now + lead
  let shortA ← upTo a.publicKey 8
  let shortB ← upTo b.publicKey 8
  let id := itoa (start / 1000000) ++ text "-" ++ shortA ++ text "-" ++ shortB
  let portsA := [b.publicEndpoint]
  let portsB := [a.publicEndpoint]
  let argsA : PunchArgs := ⟨b.publicKey, b.publicEndpoint, id, start, window, portsA⟩
  let argsB : PunchArgs := ⟨a.publicKey, a.publicEndpoint, id, start, window, portsB⟩
  let routeA ← moment.hubA.sendPunchPlan a argsA
  let routeB ← moment.hubB.sendPunchPlan b argsB
  -- The warning and the success message both log these two prefixes.
  let _ ← upTo a.publicKey 16
  let _ ← upTo b.publicKey 16
  return [⟨a, argsA, routeA⟩, ⟨b, argsB, routeB⟩]

/-- The inner loop, from position `j` on. -/
def punchRow (selfPK : Text) (window lead : Int) (moments : Nat → Moment) (a : Contact) :
    (j : Nat) → List Contact → Except Panic (List Issued)
  | _, [] => return []
  | j, b :: rest =>
    if Skipped selfPK b then punchRow selfPK window lead moments a (j + 1) rest
    else do
      let issued ← punchPair window lead (moments j) a b
      let more ← punchRow selfPK window lead moments a (j + 1) rest
      return issued ++ more

/-- The outer loop, from position `i` on. -/
def punchRows (selfPK : Text) (window lead : Int) (moments : Nat → Nat → Moment) :
    (i : Nat) → List Contact → Except Panic (List Issued)
  | _, [] => return []
  | i, a :: rest =>
    if Skipped selfPK a then punchRows selfPK window lead moments (i + 1) rest
    else do
      let row ← punchRow selfPK window lead (moments i) a (i + 1) rest
      let more ← punchRows selfPK window lead moments (i + 1) rest
      return row ++ more

/-- The window of the schedule, by default 500 ms. -/
def hubWindow (window : Int) : Int := if window ≤ 0 then 500 * millisecond else window

/-- The lead of the schedule, by default 750 ms. -/
def hubLead (lead : Int) : Int := if lead ≤ 0 then 750 * millisecond else lead

/-- The plans issued at each of the ticks so far. -/
def scheduleHubPunch (selfPK : Text) (window lead : Int) (ticks : List Tick) :
    Except Panic (List (List Issued)) :=
  ticks.mapM fun tick =>
    punchRows selfPK (hubWindow window) (hubLead lead) tick.moments 0 tick.peers

/-! ### The specification -/

/-- The plan to punch towards a peer, with that peer's public endpoint as its only candidate. -/
def planTowards (target : Contact) (punchID : Text) (start window : Int) : PunchArgs where
  targetPublicKey := target.publicKey
  targetEndpoint := target.publicEndpoint
  punchID := punchID
  start := start
  window := window
  ports := [target.publicEndpoint]

/-- A message holds a plan. -/
structure Holds (args : PunchArgs) (message : DhtMessage) : Prop where
  type : message.type = .punchPlan
  target : message.targetPublicKey = args.targetPublicKey
  endpoint : message.wgEndpoint = args.targetEndpoint
  punchID : message.punchID = args.punchID
  start : message.punchStartUnix = args.start / 1000000
  window : message.punchWindowMs = args.window.tdiv 1000000
  ports : message.punchPorts = args.ports

/-- How a plan leaves the hub. Over a stored connection and over a fresh one it is the same
message, and the peer's callback does not drop it. There is no message only if the hub has no
address of the peer. -/
inductive Issued.Leaves (plan : Issued) : Prop
  | control (conn : ConnId) (message : DhtMessage) (route : plan.route = .control conn message)
    (holds : Holds plan.args message) (heeded : ¬ Ignored plan.contact.publicKey message)
  | dial (address : Text) (message : DhtMessage) (route : plan.route = .dial address message)
    (known : address ≠ []) (holds : Holds plan.args message)
    (heeded : ¬ Ignored plan.contact.publicKey message)
  | unknown (route : plan.route = .emptyEndpoint)
    (unknown : plan.contact.controlEndpoint = [] ∧ plan.contact.endpoint = [])

/-- Who a plan is sent to, and whom it targets. -/
def Issued.keys (plan : Issued) : Text × Text := (plan.contact.publicKey, plan.args.targetPublicKey)

/-- The plans sent to one peer that target another. -/
def plansBetween (recipient target : Contact) (issued : List Issued) : List Issued :=
  issued.filter fun plan => plan.keys = (recipient.publicKey, target.publicKey)

/-- The plans of a tick are symmetric and complete. -/
structure PunchSchedule (selfPK : Text) (window : Int) (peers : List Contact)
    (issued : List Issued) : Prop where
  /-- Two peers that are not passed over get one plan each, with the roles swapped and all else
  shared. -/
  complete : ∀ a ∈ peers, ∀ b ∈ peers, a ≠ b → ¬ Skipped selfPK a → ¬ Skipped selfPK b →
    ∃ punchID start routeA routeB,
      plansBetween a b issued = [⟨a, planTowards b punchID start window, routeA⟩] ∧
      plansBetween b a issued = [⟨b, planTowards a punchID start window, routeB⟩]
  /-- There are no other plans. -/
  only : ∀ plan ∈ issued, ∃ a ∈ peers, ∃ b ∈ peers, a ≠ b ∧ ¬ Skipped selfPK a ∧
    ¬ Skipped selfPK b ∧ plan.contact = a ∧ plan.args.targetPublicKey = b.publicKey
  /-- No plan targets the peer it is sent to, or the hub. -/
  notOwn : ∀ plan ∈ issued,
    plan.args.targetPublicKey ≠ plan.contact.publicKey ∧ plan.args.targetPublicKey ≠ selfPK
  leaves : ∀ plan ∈ issued, plan.Leaves

/-- The keys are long enough for what `SendPunchPlan` logs. -/
def CanLog (hub : Node) (contact : Contact) : Prop :=
  contact.publicKey ∈ hub.controlConns ∨
    (32 ≤ contact.publicKey.length ∧ ∀ key ∈ hub.controlConns.keys, 16 ≤ key.length)

/-- The keys are long enough for all that is logged about a pair. -/
structure LongEnough (moment : Moment) (a b : Contact) : Prop where
  first : 16 ≤ a.publicKey.length
  second : 16 ≤ b.publicKey.length
  toFirst : CanLog moment.hubA a
  toSecond : CanLog moment.hubB b

/-- The peers that are not passed over, with their positions. -/
def entries (selfPK : Text) (start : Nat) (peers : List Contact) : List (Contact × Nat) :=
  (peers.zipIdx start).filter fun entry => ¬ Skipped selfPK entry.1

/-- The keys are long enough for all that is logged during a tick. -/
def Tick.LongEnough (selfPK : Text) (tick : Tick) : Prop :=
  ∀ pair ∈ Pieces.pairs (entries selfPK 0 tick.peers),
    Meshd.LongEnough (tick.moments pair.1.2 pair.2.2) pair.1.1 pair.2.1

/-! ### The loops visit the pairs -/

variable {selfPK : Text} {window lead : Int}

theorem entries_cons_of_skipped {peer : Contact} (skipped : Skipped selfPK peer) (start : Nat)
    (rest : List Contact) :
    entries selfPK start (peer :: rest) = entries selfPK (start + 1) rest := by
  rw [entries, List.zipIdx_cons, List.filter_cons_of_neg (by simpa using skipped)]
  rfl

theorem entries_cons_of_usable {peer : Contact} (usable : ¬ Skipped selfPK peer) (start : Nat)
    (rest : List Contact) :
    entries selfPK start (peer :: rest) = (peer, start) :: entries selfPK (start + 1) rest := by
  rw [entries, List.zipIdx_cons, List.filter_cons_of_pos (by simpa using usable)]
  rfl

theorem punchRow_eq (moments : Nat → Moment) (a : Contact) (j : Nat) (peers : List Contact) :
    punchRow selfPK window lead moments a j peers =
      List.flatten <$> (entries selfPK j peers).mapM fun entry =>
        punchPair window lead (moments entry.2) a entry.1 := by
  induction peers generalizing j with
  | nil => rfl
  | cons b rest inductionHypothesis =>
    rw [punchRow]
    split
    · rename_i skipped
      rw [entries_cons_of_skipped skipped, inductionHypothesis]
    · rename_i usable
      rw [entries_cons_of_usable usable, inductionHypothesis, List.mapM_cons]
      simp only [map_eq_pure_bind, bind_assoc, pure_bind, List.flatten_cons]

/-- The two nested loops handle each pair of peers that are not passed over once, in order. -/
theorem punchRows_eq (moments : Nat → Nat → Moment) (i : Nat) (peers : List Contact) :
    punchRows selfPK window lead moments i peers =
      List.flatten <$> (Pieces.pairs (entries selfPK i peers)).mapM fun pair =>
        punchPair window lead (moments pair.1.2 pair.2.2) pair.1.1 pair.2.1 := by
  induction peers generalizing i with
  | nil => rfl
  | cons a rest inductionHypothesis =>
    rw [punchRows]
    split
    · rename_i skipped
      rw [entries_cons_of_skipped skipped, inductionHypothesis]
    · rename_i usable
      rw [entries_cons_of_usable usable, inductionHypothesis, punchRow_eq, Pieces.pairs,
        List.mapM_append, List.mapM_map]
      simp only [map_eq_pure_bind, bind_assoc, pure_bind, List.flatten_append]
      rfl

/-! ### The plans of one pair -/

theorem returns_punchPair (moment : Moment) (a b : Contact) :
    Returns (punchPair window lead moment a b) ↔ LongEnough moment a b := by
  constructor
  · rintro ⟨issued, returned⟩
    obtain ⟨shortA, _, returned⟩ := bind_eq_ok.mp returned
    obtain ⟨shortB, _, returned⟩ := bind_eq_ok.mp returned
    obtain ⟨routeA, sentA, returned⟩ := bind_eq_ok.mp returned
    obtain ⟨routeB, sentB, returned⟩ := bind_eq_ok.mp returned
    obtain ⟨loggedA, cutA, returned⟩ := bind_eq_ok.mp returned
    obtain ⟨loggedB, cutB, _⟩ := bind_eq_ok.mp returned
    exact
      { first := (returns_upTo _ _).mp ⟨_, cutA⟩
        second := (returns_upTo _ _).mp ⟨_, cutB⟩
        toFirst := (moment.hubA.returns_sendPunchPlan a _).mp ⟨_, sentA⟩
        toSecond := (moment.hubB.returns_sendPunchPlan b _).mp ⟨_, sentB⟩ }
  · rintro ⟨first, second, toFirst, toSecond⟩
    obtain ⟨shortA, cutA⟩ := (returns_upTo a.publicKey 8).mpr (by omega)
    obtain ⟨shortB, cutB⟩ := (returns_upTo b.publicKey 8).mpr (by omega)
    refine returns_bind.mpr ⟨shortA, cutA, returns_bind.mpr ⟨shortB, cutB, ?_⟩⟩
    obtain ⟨routeA, sentA⟩ := (moment.hubA.returns_sendPunchPlan a _).mpr toFirst
    obtain ⟨routeB, sentB⟩ := (moment.hubB.returns_sendPunchPlan b _).mpr toSecond
    refine returns_bind.mpr ⟨routeA, sentA, returns_bind.mpr ⟨routeB, sentB, ?_⟩⟩
    rw [returns_bind_const, returns_bind_const, returns_upTo, returns_upTo]
    exact ⟨first, second, returns_pure _⟩

/-- What the inner loop has done for a pair. -/
structure PairPlans (window : Int) (a b : Contact) (issued : List Issued) : Prop where
  plans : ∃ punchID start routeA routeB,
    issued = [⟨a, planTowards b punchID start window, routeA⟩,
      ⟨b, planTowards a punchID start window, routeB⟩]
  sent : ∀ plan ∈ issued, ∃ hub : Node, hub.sendPunchPlan plan.contact plan.args = .ok plan.route

theorem pairPlans_of_punchPair {moment : Moment} {a b : Contact} {issued : List Issued}
    (returned : punchPair window lead moment a b = .ok issued) :
    PairPlans window a b issued := by
  obtain ⟨shortA, _, returned⟩ := bind_eq_ok.mp returned
  obtain ⟨shortB, _, returned⟩ := bind_eq_ok.mp returned
  obtain ⟨routeA, sentA, returned⟩ := bind_eq_ok.mp returned
  obtain ⟨routeB, sentB, returned⟩ := bind_eq_ok.mp returned
  obtain ⟨_, _, returned⟩ := bind_eq_ok.mp returned
  obtain ⟨_, _, returned⟩ := bind_eq_ok.mp returned
  cases returned
  refine ⟨⟨_, _, routeA, routeB, rfl⟩, fun plan member => ?_⟩
  rcases List.mem_pair.mp member with rfl | rfl
  · exact ⟨moment.hubA, sentA⟩
  · exact ⟨moment.hubB, sentB⟩

theorem PairPlans.of_mem {a b : Contact} {issued : List Issued}
    (pair : PairPlans window a b issued) {plan : Issued} (member : plan ∈ issued) :
    ∃ punchID start, (plan.contact = a ∧ plan.args = planTowards b punchID start window) ∨
      (plan.contact = b ∧ plan.args = planTowards a punchID start window) := by
  obtain ⟨punchID, start, routeA, routeB, rfl⟩ := pair.plans
  refine ⟨punchID, start, ?_⟩
  rcases List.mem_pair.mp member with rfl | rfl
  · exact .inl ⟨rfl, rfl⟩
  · exact .inr ⟨rfl, rfl⟩

theorem holds_planMessage (hub : Node) (args : PunchArgs) : Holds args (hub.planMessage args) :=
  ⟨rfl, rfl, rfl, rfl, rfl, rfl, rfl⟩

/-- `SendPunchPlan` puts the same plan into its message on both of its ways. -/
theorem Issued.leaves_of_sent {plan : Issued} {hub : Node}
    (sent : hub.sendPunchPlan plan.contact plan.args = .ok plan.route)
    (heeded : ∀ message, Holds plan.args message → ¬ Ignored plan.contact.publicKey message) :
    plan.Leaves := by
  have holds := holds_planMessage hub plan.args
  generalize taken : plan.route = route at sent
  cases Node.sends_of_sendPunchPlan sent with
  | control conn _ => exact .control conn _ taken holds (heeded _ holds)
  | dial address _ _ known => exact .dial address _ taken known holds (heeded _ holds)
  | emptyEndpoint _ noControl noEndpoint => exact .unknown taken ⟨noControl, noEndpoint⟩

/-! ### The plans of one tick -/

theorem mem_entries {peers : List Contact} {entry : Contact × Nat}
    (member : entry ∈ entries selfPK 0 peers) : entry.1 ∈ peers ∧ ¬ Skipped selfPK entry.1 := by
  obtain ⟨listed, usable⟩ := List.mem_filter.mp member
  refine ⟨?_, of_decide_eq_true usable⟩
  have mapped := List.mem_map_of_mem (f := Prod.fst) listed
  rwa [List.zipIdx_map_fst] at mapped

theorem exists_mem_entries {peers : List Contact} {peer : Contact} (member : peer ∈ peers)
    (usable : ¬ Skipped selfPK peer) : ∃ position, (peer, position) ∈ entries selfPK 0 peers := by
  rw [← List.zipIdx_map_fst 0 peers] at member
  obtain ⟨⟨_, position⟩, listed, rfl⟩ := List.mem_map.mp member
  exact ⟨position, List.mem_filter.mpr ⟨listed, decide_eq_true usable⟩⟩

theorem nodup_entries {peers : List Contact} (distinct : (peers.map Contact.publicKey).Nodup) :
    ((entries selfPK 0 peers).map fun entry => entry.1.publicKey).Nodup := by
  have keys : (peers.zipIdx 0).map (fun entry => entry.1.publicKey) =
      peers.map Contact.publicKey := by
    conv_rhs => rw [← List.zipIdx_map_fst 0 peers, List.map_map]
    rfl
  rw [← keys] at distinct
  exact distinct.sublist (List.filter_sublist.map _)

/-- The plans of a tick, pair by pair. -/
structure TickPlans (selfPK : Text) (window : Int) (peers : List Contact) (issued : List Issued)
    (plans : (Contact × Nat) × (Contact × Nat) → List Issued) : Prop where
  each : ∀ pair ∈ Pieces.pairs (entries selfPK 0 peers),
    PairPlans window pair.1.1 pair.2.1 (plans pair)
  together : issued = (Pieces.pairs (entries selfPK 0 peers)).flatMap plans

theorem tickPlans_of_punchRows {moments : Nat → Nat → Moment} {peers : List Contact}
    {issued : List Issued} (returned : punchRows selfPK window lead moments 0 peers = .ok issued) :
    ∃ plans, TickPlans selfPK window peers issued plans := by
  rw [punchRows_eq, map_eq_pure_bind] at returned
  obtain ⟨pieces, handled, flattened⟩ := bind_eq_ok.mp returned
  obtain ⟨plans, each, rfl⟩ := exists_of_mapM_eq_ok handled
  cases flattened
  exact ⟨plans, fun pair member => pairPlans_of_punchPair (each pair member),
    List.flatMap_def.symm⟩

section

variable {peers : List Contact} {issued : List Issued}
  {plans : (Contact × Nat) × (Contact × Nat) → List Issued}
  (tick : TickPlans selfPK window peers issued plans)

include tick

theorem TickPlans.keys :
    issued.map Issued.keys =
      Pieces.bothWays ((entries selfPK 0 peers).map fun entry => entry.1.publicKey) := by
  rw [tick.together, List.map_flatMap, Pieces.bothWays_map, Pieces.bothWays, List.map_flatMap]
  refine List.flatMap_congr fun pair member => ?_
  obtain ⟨punchID, start, routeA, routeB, equal⟩ := (tick.each pair member).plans
  rw [equal]
  rfl

theorem TickPlans.of_mem {plan : Issued} (member : plan ∈ issued) :
    ∃ pair ∈ Pieces.pairs (entries selfPK 0 peers), plan ∈ plans pair := by
  rw [tick.together] at member
  exact List.mem_flatMap.mp member

/-- Of two peers that are not passed over, each is sent a plan towards the other. -/
theorem TickPlans.exists_plans {a b : Contact} (aListed : a ∈ peers) (bListed : b ∈ peers)
    (different : a ≠ b) (aUsable : ¬ Skipped selfPK a) (bUsable : ¬ Skipped selfPK b) :
    ∃ punchID start routeA routeB,
      ⟨a, planTowards b punchID start window, routeA⟩ ∈ issued ∧
      ⟨b, planTowards a punchID start window, routeB⟩ ∈ issued := by
  obtain ⟨i, aEntry⟩ := exists_mem_entries aListed aUsable
  obtain ⟨j, bEntry⟩ := exists_mem_entries bListed bUsable
  have apart : (a, i) ≠ (b, j) := fun same => different (congrArg Prod.fst same)
  rw [tick.together]
  rcases Pieces.mem_pairs_or_mem_pairs aEntry bEntry apart with listed | listed
  · obtain ⟨punchID, start, routeA, routeB, equal⟩ := (tick.each _ listed).plans
    refine ⟨punchID, start, routeA, routeB, ?_, ?_⟩
    · exact List.mem_flatMap.mpr ⟨_, listed, equal ▸ List.mem_cons_self⟩
    · exact List.mem_flatMap.mpr ⟨_, listed, equal ▸ List.mem_cons_of_mem _ List.mem_cons_self⟩
  · obtain ⟨punchID, start, routeB, routeA, equal⟩ := (tick.each _ listed).plans
    refine ⟨punchID, start, routeA, routeB, ?_, ?_⟩
    · exact List.mem_flatMap.mpr ⟨_, listed, equal ▸ List.mem_cons_of_mem _ List.mem_cons_self⟩
    · exact List.mem_flatMap.mpr ⟨_, listed, equal ▸ List.mem_cons_self⟩

/-- A plan is sent to one of two such peers and punches towards the other. -/
theorem TickPlans.exists_target (distinct : (peers.map Contact.publicKey).Nodup) {plan : Issued}
    (member : plan ∈ issued) :
    plan.contact ∈ peers ∧ ¬ Skipped selfPK plan.contact ∧
      ∃ target ∈ peers, ¬ Skipped selfPK target ∧ target.publicKey ≠ plan.contact.publicKey ∧
        ∃ punchID start, plan.args = planTowards target punchID start window := by
  obtain ⟨pair, listed, planned⟩ := tick.of_mem member
  obtain ⟨firstEntry, secondEntry⟩ := Pieces.mem_of_mem_pairs listed
  obtain ⟨firstListed, firstUsable⟩ := mem_entries firstEntry
  obtain ⟨secondListed, secondUsable⟩ := mem_entries secondEntry
  have different : pair.1.1.publicKey ≠ pair.2.1.publicKey := by
    have keys := List.mem_map_of_mem (f := Prod.map (fun entry : Contact × Nat =>
      entry.1.publicKey) fun entry => entry.1.publicKey) listed
    rw [← Pieces.pairs_map] at keys
    exact Pieces.ne_of_mem_pairs (nodup_entries distinct) keys
  obtain ⟨punchID, start, ⟨recipient, args⟩ | ⟨recipient, args⟩⟩ :=
    (tick.each pair listed).of_mem planned
  · rw [recipient]
    exact ⟨firstListed, firstUsable, pair.2.1, secondListed, secondUsable, different.symm,
      punchID, start, args⟩
  · rw [recipient]
    exact ⟨secondListed, secondUsable, pair.1.1, firstListed, firstUsable, different,
      punchID, start, args⟩

theorem TickPlans.plansBetween_eq (distinct : (peers.map Contact.publicKey).Nodup)
    {recipient target : Contact} {punchID : Text} {start : Int} {route : PunchRoute}
    (member : ⟨recipient, planTowards target punchID start window, route⟩ ∈ issued) :
    plansBetween recipient target issued =
      [⟨recipient, planTowards target punchID start window, route⟩] := by
  have nodup : (issued.map Issued.keys).Nodup := by
    rw [tick.keys]
    exact Pieces.nodup_bothWays (nodup_entries distinct)
  exact Pieces.filter_key_eq_singleton nodup member

theorem TickPlans.leaves (distinct : (peers.map Contact.publicKey).Nodup) {plan : Issued}
    (member : plan ∈ issued) : plan.Leaves := by
  obtain ⟨pair, listed, planned⟩ := tick.of_mem member
  obtain ⟨hub, sent⟩ := (tick.each pair listed).sent plan planned
  refine plan.leaves_of_sent sent fun message holds => ?_
  obtain ⟨_, _, target, _, usable, different, punchID, start, args⟩ :=
    tick.exists_target distinct member
  rw [Ignored, holds.target, holds.ports, args]
  rintro (noKey | own | noPorts)
  · exact usable (.inl noKey)
  · exact different own
  · exact absurd noPorts (List.cons_ne_nil _ _)

theorem TickPlans.punchSchedule (distinct : (peers.map Contact.publicKey).Nodup) :
    PunchSchedule selfPK window peers issued where
  complete a aListed b bListed different aUsable bUsable := by
    obtain ⟨punchID, start, routeA, routeB, toA, toB⟩ :=
      tick.exists_plans aListed bListed different aUsable bUsable
    exact ⟨punchID, start, routeA, routeB, tick.plansBetween_eq distinct toA,
      tick.plansBetween_eq distinct toB⟩
  only plan member := by
    obtain ⟨listed, usable, target, targetListed, targetUsable, different, _, _, args⟩ :=
      tick.exists_target distinct member
    refine ⟨plan.contact, listed, target, targetListed, ?_, usable, targetUsable, rfl, ?_⟩
    · exact fun same => different (congrArg Contact.publicKey same.symm)
    · rw [args]
      rfl
  notOwn plan member := by
    obtain ⟨_, _, target, _, usable, different, _, _, args⟩ := tick.exists_target distinct member
    rw [args]
    exact ⟨different, fun hub => usable (.inr (.inl hub))⟩
  leaves _ member := tick.leaves distinct member

end

theorem returns_punchRows (moments : Nat → Nat → Moment) (peers : List Contact) :
    Returns (punchRows selfPK window lead moments 0 peers) ↔
      Tick.LongEnough selfPK ⟨peers, moments⟩ := by
  rw [punchRows_eq, map_eq_pure_bind, returns_bind, Tick.LongEnough]
  have each : (∀ pair ∈ Pieces.pairs (entries selfPK 0 peers), LongEnough
      (moments pair.1.2 pair.2.2) pair.1.1 pair.2.1) ↔
      Returns ((Pieces.pairs (entries selfPK 0 peers)).mapM fun pair =>
        punchPair window lead (moments pair.1.2 pair.2.2) pair.1.1 pair.2.1) := by
    rw [returns_mapM]
    exact forall₂_congr fun pair _ => (returns_punchPair _ _ _).symm
  refine Iff.trans ?_ each.symm
  exact ⟨fun ⟨pieces, handled, _⟩ => ⟨pieces, handled⟩,
    fun ⟨pieces, handled⟩ => ⟨pieces, handled, returns_pure _⟩⟩

/-! ### All ticks -/

/-- At all its ticks the hub issues a symmetric and complete schedule of punches, as long as the
public keys it knows are distinct. The ticks return exactly when the keys are long enough for the
prefixes that are logged. -/
theorem scheduleHubPunch_symmetric (selfPK : Text) (window lead : Int) (ticks : List Tick)
    (distinct : ∀ tick ∈ ticks, (tick.peers.map Contact.publicKey).Nodup) :
    (Returns (scheduleHubPunch selfPK window lead ticks) ↔
      ∀ tick ∈ ticks, tick.LongEnough selfPK) ∧
    ∀ issued, scheduleHubPunch selfPK window lead ticks = .ok issued →
      ∃ plans : Tick → List Issued, issued = ticks.map plans ∧
        ∀ tick ∈ ticks, PunchSchedule selfPK (hubWindow window) tick.peers (plans tick) := by
  refine ⟨?_, fun issued returned => ?_⟩
  · rw [scheduleHubPunch, returns_mapM]
    exact forall₂_congr fun tick _ => returns_punchRows tick.moments tick.peers
  · obtain ⟨plans, each, equal⟩ := exists_of_mapM_eq_ok returned
    refine ⟨plans, equal, fun tick member => ?_⟩
    obtain ⟨parts, tickPlans⟩ := tickPlans_of_punchRows (each tick member)
    exact tickPlans.punchSchedule (distinct tick member)

/-- A tick at a hub that knows itself and three peers, one of them without a public endpoint. -/
def fourPeers (hubKey : Text) : Tick where
  peers :=
    [⟨text "hub", hubKey, [], text "192.0.2.1:51820", []⟩,
      ⟨text "first", text "first-wireguard-public-key-0123456789", text "203.0.113.5:51820",
        text "203.0.113.5:4001", text "203.0.113.5:7946"⟩,
      ⟨text "silent", text "silent-wireguard-public-key-012345678", text "203.0.113.6:51820",
        [], text "203.0.113.6:7946"⟩,
      ⟨text "second", text "second-wireguard-public-key-012345678", text "203.0.113.7:51820",
        text "203.0.113.7:4002", []⟩]
  moments := fun _ _ => ⟨0, Node.new hubKey 7946 [], Node.new hubKey 7946 []⟩

/-- The pair of usable peers gets its two plans. -/
theorem scheduleHubPunch_symmetric_four :
    ∃ issued, scheduleHubPunch (text "hub-key") 0 0 [fourPeers (text "hub-key")] = .ok [issued] ∧
      issued.length = 2 ∧
      PunchSchedule (text "hub-key") (500 * millisecond) (fourPeers (text "hub-key")).peers
        issued := by
  have evaluated : (scheduleHubPunch (text "hub-key") 0 0
      [fourPeers (text "hub-key")]).toOption.map (List.map List.length) = some [2] := by
    decide +kernel
  have distinct : ∀ tick ∈ [fourPeers (text "hub-key")],
      (tick.peers.map Contact.publicKey).Nodup := by
    decide +kernel
  obtain ⟨all, returned, lengths⟩ := Option.map_eq_some_iff.mp evaluated
  have ran := toOption_eq_some returned
  obtain ⟨plans, rfl, schedule⟩ :=
    (scheduleHubPunch_symmetric (text "hub-key") 0 0 _ distinct).2 all ran
  exact ⟨plans (fourPeers (text "hub-key")), ran, List.head_eq_of_cons_eq lengths,
    schedule _ (List.mem_singleton_self _)⟩

end WgMesh.Meshd
