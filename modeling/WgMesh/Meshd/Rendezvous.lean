/-
This file follows a punch from a tick of the hub to the two peers, and asks
whether there ever is one.

The plans of a pair carry the same start, each with the other peer's public
endpoint as its only candidate. Two daemons that get them in time, and whose
clocks agree, each set this endpoint once, at or just after the start, and so
within a few delays of each other. A daemon that cannot list its peers at the
start drops the plan.

The hub only pairs peers that it knows with a public endpoint. A table gets public
endpoints from answers and requests of the DHT, and in a network of these daemons
no request is ever answered. So at no tick is there a pair.
-/

import WgMesh.Dht.Provenance
import WgMesh.Meshd.Executor
import WgMesh.Meshd.Schedule

namespace WgMesh.Meshd

open Go Uapi Dht

/-! ### Two daemons and their plans -/

/-- A daemon when a plan reaches it. Its calls are late by no more than a bound. -/
structure Station (late : Int) where
  World : Type
  env : Env World
  clock : World → Int
  session : Session Call World
  clocked : env.Clocked clock
  uncancelled : env.Uncancelled
  prompt : env.Prompt clock late

/-- When the plan reaches the daemon. -/
def Station.arrival {late : Int} (station : Station late) : Int :=
  station.clock station.session.world

/-- The daemon carries out the plan with a single command, at this time: it sets the public
endpoint of the target. -/
def Station.PunchesAt {late : Int} (station : Station late) (selfKey : Text) (plan : DhtMessage)
    (target : Contact) (time : Int) : Prop :=
  ∃ enough calls attempt, (∀ rounds, enough ≤ rounds →
      punchPlanCallback station.env rounds selfKey plan station.session =
        .ok ((), station.session.after station.env.answer calls)) ∧
    calls.filter Call.isCommand =
      [.setEndpointFast .punch target.publicKey target.publicEndpoint] ∧
    station.env.attempts station.clock Call.isCommand station.session.world calls = [attempt] ∧
    attempt.began = time

/-- The daemon gives the plan up without a command, since it could not list its peers. -/
def Station.GivesUp {late : Int} (station : Station late) (selfKey : Text) (plan : DhtMessage) :
    Prop :=
  ∃ enough earlier, (∀ rounds, enough ≤ rounds →
      punchPlanCallback station.env rounds selfKey plan station.session =
        .ok ((), station.session.after station.env.answer (earlier ++ [.listPeers]))) ∧
    (∀ call ∈ earlier, call.isCommand = false) ∧
    (station.env.answer .listPeers (replay station.env.answer station.session.world earlier)).1 =
      none

/-- The daemon punches within five delays of the start of the plan, or has no listing then. -/
def Station.Follows {late : Int} (station : Station late) (selfKey : Text) (plan : DhtMessage)
    (target : Contact) : Prop :=
  (∃ time, station.PunchesAt selfKey plan target time ∧
    plan.punchStartUnix * millisecond ≤ time ∧
    time ≤ plan.punchStartUnix * millisecond + 5 * late) ∨ station.GivesUp selfKey plan

theorem length_attempts {World : Type} (env : Env World) (clock : World → Int) (world : World)
    (calls : List Call) :
    (env.attempts clock Call.isCommand world calls).length =
      (calls.filter Call.isCommand).length := by
  induction calls generalizing world with
  | nil => rfl
  | cons call rest inductionHypothesis =>
    rw [Env.attempts, List.length_append, inductionHypothesis, List.filter_cons]
    split
    · exact Nat.add_comm _ _
    · exact Nat.zero_add _

theorem Station.late_nonneg {late : Int} (station : Station late) : 0 ≤ late := by
  have forward := station.clocked.forward .now station.session.world
  have prompt : _ ≤ _ + 0 + late := station.prompt .now station.session.world
  linarith

/-- A single candidate is tried unless there is no listing. -/
theorem Executed.single {World : Type} {env : Env World} {clock : World → Int} {plan : DhtMessage}
    {world : World} {calls : List Call} {tried : List Text}
    (executed : Executed env clock plan world calls tried) {endpoint : Text}
    (ports : plan.punchPorts = [endpoint]) :
    tried = [endpoint] ∨ tried = [] ∧ ∃ earlier, calls = earlier ++ [.listPeers] ∧
      (env.answer .listPeers (replay env.answer world earlier)).1 = none := by
  rcases executed.complete with all | ⟨earlier, same, stops⟩
  · exact Or.inl (all.trans ports)
  · have beginning := ports ▸ executed.beginning
    rcases List.prefix_cons_iff.mp beginning with rfl | ⟨rest, rfl, none⟩
    · generalize listing : (env.answer .listPeers _).1 = listed at stops
      cases stops with
      | unlisted => exact Or.inr ⟨rfl, earlier, same, listing⟩
      | handshake last _ _ => cases last
    · rw [List.prefix_nil.mp none]
      exact Or.inl rfl

/-- A daemon that gets a plan with one candidate in time sets it once, just after the start,
unless it has no listing then. -/
theorem Station.follows {late : Int} (station : Station late) {selfKey : Text}
    {plan : DhtMessage} {target : Contact} (heeded : ¬ Ignored selfKey plan)
    (key : plan.targetPublicKey = target.publicKey)
    (ports : plan.punchPorts = [target.publicEndpoint])
    (inTime : station.arrival ≤ plan.punchStartUnix * millisecond) :
    station.Follows selfKey plan target := by
  obtain ⟨enough, calls, tried, executed, settled⟩ :=
    executed_runPunchPlan station.clocked station.uncancelled plan station.session
  have returned : ∀ rounds, enough ≤ rounds →
      punchPlanCallback station.env rounds selfKey plan station.session =
        .ok ((), station.session.after station.env.answer calls) := by
    intro rounds many
    rw [punchPlanCallback, if_neg heeded]
    exact settled rounds many
  have commands := executed.commands
  rcases executed.single ports with rfl | ⟨rfl, earlier, rfl, failed⟩
  · rw [List.map_singleton, key] at commands
    have one := length_attempts station.env station.clock station.session.world calls
    rw [commands, List.length_singleton] at one
    obtain ⟨attempt, only⟩ := List.length_eq_one_iff.mp one
    have early := executed.notEarly attempt (only ▸ List.mem_singleton_self attempt)
    have prompt := executed.prompt late station.prompt attempt [] only
    have nonneg := station.late_nonneg
    have first : station.clock station.session.world ≤
        plan.punchStartUnix * millisecond + 2 * late := by
      unfold Station.arrival at inTime
      linarith
    rw [max_eq_right first] at prompt
    exact Or.inl ⟨attempt.began, ⟨enough, calls, attempt, returned, commands, only, rfl⟩, early,
      prompt.trans (by linarith)⟩
  · have silent := List.filter_eq_nil_iff.mp commands
    refine Or.inr ⟨enough, earlier, returned, fun call member => ?_, failed⟩
    exact Bool.eq_false_of_not_eq_true (silent call (List.mem_append_left _ member))

/-! ### The plans of a pair -/

variable {selfPK : Text} {window lead : Int}

/-- Of two plans of a tick that target each other's recipient, each is the other with the roles
swapped. -/
theorem TickPlans.counterpart {peers : List Contact} {issued : List Issued}
    {plans : (Contact × Nat) × (Contact × Nat) → List Issued}
    (tick : TickPlans selfPK window peers issued plans)
    (distinct : (peers.map Contact.publicKey).Nodup) {first second : Issued}
    (firstIssued : first ∈ issued) (secondIssued : second ∈ issued)
    (swapped : second.keys = first.keys.swap) :
    ∃ punchID start, first.args = planTowards second.contact punchID start window ∧
      second.args = planTowards first.contact punchID start window := by
  have nodup : (issued.map Issued.keys).Nodup := by
    rw [tick.keys]
    exact Pieces.nodup_bothWays (nodup_entries distinct)
  have same : ∀ other ∈ issued, other.keys = first.keys.swap → second = other :=
    fun other member keys => List.inj_on_of_nodup_map nodup secondIssued member
      (swapped.trans keys.symm)
  obtain ⟨pair, listed, planned⟩ := tick.of_mem firstIssued
  obtain ⟨punchID, start, routeA, routeB, equal⟩ := (tick.each pair listed).plans
  have issuedToo : ∀ plan ∈ plans pair, plan ∈ issued := by
    intro plan member
    rw [tick.together]
    exact List.mem_flatMap.mpr ⟨pair, listed, member⟩
  rw [equal] at planned issuedToo
  refine ⟨punchID, start, ?_⟩
  rcases List.mem_pair.mp planned with rfl | rfl
  · obtain rfl := same _ (issuedToo _ (List.mem_pair.mpr (Or.inr rfl))) rfl
    exact ⟨rfl, rfl⟩
  · obtain rfl := same _ (issuedToo _ (List.mem_pair.mpr (Or.inl rfl))) rfl
    exact ⟨rfl, rfl⟩

/-- The message of a route, if there is one. -/
def routeMessage : PunchRoute → Option DhtMessage
  | .control _ message => some message
  | .dial _ message => some message
  | .emptyEndpoint => none

/-- The message holds the plan, and the recipient does not drop it. -/
theorem TickPlans.holds_heeded {peers : List Contact} {issued : List Issued}
    {plans : (Contact × Nat) × (Contact × Nat) → List Issued}
    (tick : TickPlans selfPK window peers issued plans)
    (distinct : (peers.map Contact.publicKey).Nodup) {plan : Issued} (member : plan ∈ issued)
    {message : DhtMessage} (sent : routeMessage plan.route = some message) :
    Holds plan.args message ∧ ¬ Ignored plan.contact.publicKey message := by
  cases tick.leaves distinct member with
  | control conn carried route holds heeded =>
    rw [route] at sent
    cases sent
    exact ⟨holds, heeded⟩
  | dial address carried route known holds heeded =>
    rw [route] at sent
    cases sent
    exact ⟨holds, heeded⟩
  | unknown route _ =>
    rw [route] at sent
    cases sent

/-- Two plans of a tick that target each other's recipient make the two daemons punch together:
each of them, if it gets its message in time, issues a single command, which sets the public
endpoint of the other one, between the common start and five delays after it. A daemon whose
listing fails at the start issues none. -/
theorem counterparts_punch_together (selfPK : Text) (window lead : Int) (tick : Tick)
    (issued : List Issued)
    (returned : punchRows selfPK window lead tick.moments 0 tick.peers = .ok issued)
    (distinct : (tick.peers.map Contact.publicKey).Nodup) (planA planB : Issued)
    (issuedA : planA ∈ issued) (issuedB : planB ∈ issued)
    (swapped : planB.keys = planA.keys.swap) (messageA messageB : DhtMessage)
    (sentA : routeMessage planA.route = some messageA)
    (sentB : routeMessage planB.route = some messageB) (late : Int)
    (stationA stationB : Station late)
    (inTimeA : stationA.arrival ≤ messageA.punchStartUnix * millisecond)
    (inTimeB : stationB.arrival ≤ messageB.punchStartUnix * millisecond) :
    messageA.punchStartUnix = messageB.punchStartUnix ∧
      stationA.Follows planA.contact.publicKey messageA planB.contact ∧
      stationB.Follows planB.contact.publicKey messageB planA.contact := by
  obtain ⟨plans, tickPlans⟩ := tickPlans_of_punchRows returned
  obtain ⟨holdsA, heededA⟩ := tickPlans.holds_heeded distinct issuedA sentA
  obtain ⟨holdsB, heededB⟩ := tickPlans.holds_heeded distinct issuedB sentB
  obtain ⟨punchID, start, argsA, argsB⟩ :=
    tickPlans.counterpart distinct issuedA issuedB swapped
  rw [argsA] at holdsA
  rw [argsB] at holdsB
  exact ⟨holdsA.start.trans holdsB.start.symm,
    stationA.follows heededA holdsA.target holdsA.ports inTimeA,
    stationB.follows heededB holdsB.target holdsB.ports inTimeB⟩

/-- A daemon whose commands take a nanosecond. -/
def timerStation : Station 1 where
  World := Int
  env := timerEnv
  clock := id
  session := ⟨0, []⟩
  clocked := timerEnv_clocked
  uncancelled := timerEnv_uncancelled
  prompt := by
    intro call clock
    have later : clock ≤ clock + 0 + 1 := by omega
    cases call with
    | sleep duration => exact Int.le_add_of_nonneg_right (by decide)
    | setPeer site config => exact le_of_eq (congrArg (· + 1) (add_zero clock).symm)
    | setEndpointFast site publicKey endpoint =>
      exact le_of_eq (congrArg (· + 1) (add_zero clock).symm)
    | now => exact later
    | done => exact later
    | listPeers => exact later

theorem timerStation_follows {selfKey : Text} {plan : DhtMessage} {target : Contact}
    (follows : timerStation.Follows selfKey plan target) :
    ∃ time, timerStation.PunchesAt selfKey plan target time ∧
      plan.punchStartUnix * millisecond ≤ time ∧
      time ≤ plan.punchStartUnix * millisecond + 5 := by
  rcases follows with punches | ⟨_, _, _, _, failed⟩
  · exact punches
  · cases failed

/-- The two usable peers of a hub punch together, 750 ms after the tick. -/
theorem counterparts_punch_together_four :
    ∃ planA planB messageA messageB,
      punchRows (text "hub-key") (hubWindow 0) (hubLead 0) (fourPeers (text "hub-key")).moments 0
        (fourPeers (text "hub-key")).peers = .ok [planA, planB] ∧
      messageA.punchStartUnix = 750 ∧ messageB.punchStartUnix = 750 ∧
      ∃ timeA timeB,
        timerStation.PunchesAt planA.contact.publicKey messageA planB.contact timeA ∧
        timerStation.PunchesAt planB.contact.publicKey messageB planA.contact timeB ∧
        750 * millisecond ≤ min timeA timeB ∧
        max timeA timeB ≤ 750 * millisecond + 5 := by
  have evaluated : (punchRows (text "hub-key") (hubWindow 0) (hubLead 0)
      (fourPeers (text "hub-key")).moments 0 (fourPeers (text "hub-key")).peers).toOption.map
        (fun issued => (issued.map Issued.keys, issued.map fun plan =>
          (routeMessage plan.route).map DhtMessage.punchStartUnix)) =
      some ([(text "first-wireguard-public-key-0123456789",
          text "second-wireguard-public-key-012345678"),
        (text "second-wireguard-public-key-012345678",
          text "first-wireguard-public-key-0123456789")], [some 750, some 750]) := by
    decide +kernel
  obtain ⟨issued, returned, facts⟩ := Option.map_eq_some_iff.mp evaluated
  have ran := toOption_eq_some returned
  obtain ⟨keys, starts⟩ := Prod.mk.inj facts
  have two : issued.length = 2 := by
    rw [← List.length_map Issued.keys, keys]
    rfl
  obtain ⟨planA, planB, rfl⟩ := List.length_eq_two.mp two
  simp only [List.map_cons, List.map_nil, List.cons.injEq, and_true] at keys starts
  obtain ⟨messageA, sentA, startA⟩ := Option.map_eq_some_iff.mp starts.1
  obtain ⟨messageB, sentB, startB⟩ := Option.map_eq_some_iff.mp starts.2
  obtain ⟨_, followsA, followsB⟩ := counterparts_punch_together (text "hub-key") (hubWindow 0)
    (hubLead 0) (fourPeers (text "hub-key")) [planA, planB] ran (by decide +kernel) planA planB
    List.mem_cons_self (List.mem_cons_of_mem _ List.mem_cons_self)
    (by rw [keys.1, keys.2]; rfl) messageA messageB sentA sentB 1 timerStation timerStation
    (startA ▸ by decide) (startB ▸ by decide)
  obtain ⟨timeA, punchesA, earlyA, promptA⟩ := timerStation_follows followsA
  obtain ⟨timeB, punchesB, earlyB, promptB⟩ := timerStation_follows followsB
  rw [startA] at earlyA promptA
  rw [startB] at earlyB promptB
  exact ⟨planA, planB, messageA, messageB, ran, startA, startB, timeA, timeB, punchesA, punchesB,
    le_min earlyA earlyB, max_le promptA promptB⟩

/-! ### The hub of a network of these daemons -/

/-- A tick that goes through the peers a hub knows at some time of some run of the network. -/
def Tick.Occurs {Index : Type} [DecidableEq Index] (setup : Setup Index) (hub : Index)
    (tick : Tick) : Prop :=
  ∃ events fabric, setup.fabric.run setup events = some fabric ∧
    tick.peers = (fabric.nodes hub).table.knownPeers

theorem punchRows_of_skipped {moments : Nat → Nat → Moment} {peers : List Contact}
    (skipped : ∀ peer ∈ peers, Skipped selfPK peer) :
    punchRows selfPK window lead moments 0 peers = .ok [] := by
  have none : entries selfPK 0 peers = [] := by
    refine List.eq_nil_iff_forall_not_mem.mpr fun entry member => ?_
    obtain ⟨listed, usable⟩ := mem_entries member
    exact usable (skipped entry.1 listed)
  rw [punchRows_eq, none]
  rfl

/-- In a network of nodes that all run this code, no hub ever issues a plan, whatever happens
between its ticks. -/
theorem hubs_never_punch {Index : Type} [DecidableEq Index] (setup : Setup Index) (hub : Index)
    (selfPK : Text) (window lead : Int) (ticks : List Tick)
    (occur : ∀ tick ∈ ticks, tick.Occurs setup hub) :
    scheduleHubPunch selfPK window lead ticks = .ok (ticks.map fun _ => []) := by
  rw [scheduleHubPunch]
  induction ticks with
  | nil => rfl
  | cons tick rest inductionHypothesis =>
    obtain ⟨events, fabric, ran, known⟩ := occur tick List.mem_cons_self
    have skipped : ∀ peer ∈ tick.peers, Skipped selfPK peer := by
      intro peer member
      obtain ⟨first, _, latest, _, _, rfl⟩ :=
        (Fabric.sound_run ran).tables hub peer (known ▸ member)
      exact Or.inr (Or.inr rfl)
    rw [List.mapM_cons, punchRows_of_skipped skipped,
      inductionHypothesis fun other member => occur other (List.mem_cons_of_mem _ member)]
    rfl

/-- The second hub, which knows the first one, at two ticks after it has joined. -/
theorem hubs_never_punch_joined :
    ∃ fabric : Fabric (Fin 2), twoHubs.fabric.run twoHubs (joins 0 1) = some fabric ∧
      (fabric.nodes 1).table.knownPeers ≠ [] ∧
      ∀ moments, scheduleHubPunch (text "second-hub-public-key") 0 0
          [⟨(fabric.nodes 1).table.knownPeers, moments⟩,
            ⟨(fabric.nodes 1).table.knownPeers, moments⟩] = .ok [[], []] := by
  have knows : (twoHubs.fabric.run twoHubs (joins 0 1)).map
      (fun fabric => decide ((fabric.nodes 1).table.knownPeers ≠ [])) = some true := by
    decide +kernel
  obtain ⟨fabric, ran, known⟩ := Option.map_eq_some_iff.mp knows
  refine ⟨fabric, ran, of_decide_eq_true known, fun moments => ?_⟩
  have occurs : Tick.Occurs twoHubs 1 ⟨(fabric.nodes 1).table.knownPeers, moments⟩ :=
    ⟨joins 0 1, fabric, ran, rfl⟩
  exact hubs_never_punch twoHubs 1 (text "second-hub-public-key") 0 0 [_, _]
    (List.forall_mem_cons.mpr ⟨occurs, List.forall_mem_singleton.mpr occurs⟩)

end WgMesh.Meshd
