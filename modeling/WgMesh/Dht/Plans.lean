/-
This file counts punch plans. A plan that was sent is on its way on one dial or
one connection until a callback is given it or it is lost, so no plan is given
out more often than it was sent, and it is given to a node it was meant for.
-/

import WgMesh.Dht.Provenance

namespace WgMesh.Dht

open Go

variable {Index : Type}

/-! ### No plan is given out twice -/

/-- Rewriting one of several lists changes how often an element occurs in all of them by what
it changes in the one. -/
theorem count_flatMap_set {Item Value : Type} [DecidableEq Value] (lists : Item → List Value)
    (value : Value) {items : List Item} {position : Nat} {old : Item} (new : Item)
    (found : items[position]? = some old) :
    ((items.set position new).flatMap lists).count value + (lists old).count value =
      (items.flatMap lists).count value + (lists new).count value := by
  induction items generalizing position with
  | nil => cases found
  | cons item rest inductionHypothesis =>
    cases position with
    | zero =>
      cases found
      rw [List.set_cons_zero, List.flatMap_cons, List.flatMap_cons, List.count_append,
        List.count_append]
      omega
    | succ position =>
      have moved := inductionHypothesis found
      rw [List.set_cons_succ, List.flatMap_cons, List.flatMap_cons, List.count_append,
        List.count_append]
      omega

theorem count_flatMap_eraseIdx {Item Value : Type} [DecidableEq Value]
    (lists : Item → List Value) (value : Value) {items : List Item} {position : Nat} {old : Item}
    (found : items[position]? = some old) :
    ((items.eraseIdx position).flatMap lists).count value + (lists old).count value =
      (items.flatMap lists).count value := by
  obtain ⟨inRange, rfl⟩ := List.getElem?_eq_some_iff.mp found
  have moved := (List.getElem_cons_eraseIdx_perm inRange).flatMap_right lists
  rw [← moved.count_eq, List.flatMap_cons, List.count_append, Nat.add_comm]

/-- The plan that a dial is for. -/
def Purpose.plans : Purpose → List DhtMessage
  | .plan msg => [msg]
  | _ => []

/-- The messages of a connection that one of its ends can still take in, and the plan that is
still to be written on it. -/
def Channel.ahead (channel : Channel Index) : List DhtMessage :=
  (if channel.dialer = .dialed then channel.purpose.plans else []) ++
    ((if channel.handler = .decoding then values channel.toDestination else []) ++
      values channel.toSource)

/-- How often a plan is still on its way. -/
def Fabric.underway (fabric : Fabric Index) (plan : DhtMessage) : Nat :=
  (fabric.dials.flatMap fun dial => dial.purpose.plans).count plan +
    (fabric.channels.flatMap Channel.ahead).count plan

/-- A plan was given out and is on its way no more often than it was sent. -/
def Fabric.Tallies (fabric : Fabric Index) : Prop :=
  ∀ plan : DhtMessage, plan.type = .punchPlan →
    (fabric.delivered.map Prod.snd).count plan + fabric.underway plan ≤
      (fabric.sent.map Sending.plan).count plan

theorem count_eq_zero_of_type {plan msg : DhtMessage} (punches : plan.type = .punchPlan)
    (other : msg.type ≠ .punchPlan) : [msg].count plan = 0 :=
  List.count_eq_zero.mpr fun member => other (List.mem_singleton.mp member ▸ punches)

/-- Decoding takes one message off. -/
theorem count_values_of_decode {received known : List GobType}
    {items rest : List (GobItem GobType DhtMessage)} {msg : DhtMessage}
    (decoded : decode received items = .message msg known rest) (plan : DhtMessage) :
    (values items).count plan = [msg].count plan + (values rest).count plan := by
  rw [values_of_decode decoded, ← List.count_append]
  rfl

section Tally

variable {setup : Setup Index} {fabric : Fabric Index}

theorem Fabric.underway_set {conn : ConnId} {channel : Channel Index}
    (found : fabric.channels[conn]? = some channel) (next : Channel Index) (plan : DhtMessage) :
    Fabric.underway { fabric with channels := fabric.channels.set conn next } plan +
        channel.ahead.count plan = fabric.underway plan + next.ahead.count plan := by
  have moved := count_flatMap_set Channel.ahead plan next found
  simp only [Fabric.underway]
  omega

/-- A connection is rewritten and no plan is added. -/
theorem Fabric.Tallies.set (tallies : fabric.Tallies) {conn : ConnId}
    {channel next : Channel Index} (found : fabric.channels[conn]? = some channel)
    (fewer : ∀ plan : DhtMessage, plan.type = .punchPlan →
      next.ahead.count plan ≤ channel.ahead.count plan) :
    Fabric.Tallies { fabric with channels := fabric.channels.set conn next } := by
  intro plan punches
  have before := tallies plan punches
  have moved := fabric.underway_set found next plan
  have less := fewer plan punches
  simp only at before moved ⊢
  omega

theorem Channel.count_ahead (channel : Channel Index) (plan : DhtMessage) :
    channel.ahead.count plan =
      (if channel.dialer = .dialed then channel.purpose.plans else []).count plan +
        ((if channel.handler = .decoding then values channel.toDestination else []).count plan +
          (values channel.toSource).count plan) := by
  rw [Channel.ahead, List.count_append, List.count_append]

/-- The first message of a connection is a plan only if it was dialed for it. -/
theorem Channel.Sound.count_opening {channel : Channel Index} {sent : List (Sending Index)}
    (kept : channel.Sound setup sent) {plan : DhtMessage} (punches : plan.type = .punchPlan)
    (node : Node) :
    [channel.purpose.opening node].count plan = channel.purpose.plans.count plan := by
  have purpose := kept.purpose
  cases dialed : channel.purpose with
  | reader kind => exact count_eq_zero_of_type punches MsgType.noConfusion
  | report msg =>
    rw [dialed] at purpose
    refine count_eq_zero_of_type punches ?_
    rw [Purpose.opening, show msg.type = .reportState from purpose]
    exact MsgType.noConfusion
  | plan msg => rfl

theorem Purpose.opened_ne (purpose : Purpose) : purpose.opened ≠ .dialed := by
  cases purpose with
  | reader kind => cases kind <;> exact Dialer.noConfusion
  | report msg => exact Dialer.noConfusion
  | plan msg => exact Dialer.noConfusion

/-- A message goes from the end of a connection to the callback of a node. -/
theorem Fabric.Tallies.deliver (tallies : fabric.Tallies) {conn : ConnId}
    {channel next : Channel Index} {msg : DhtMessage} {plans : List DhtMessage}
    (found : fabric.channels[conn]? = some channel) (node : Index) (given : plans.Sublist [msg])
    (taken : ∀ plan : DhtMessage, plan.type = .punchPlan →
      next.ahead.count plan + [msg].count plan ≤ channel.ahead.count plan) :
    Fabric.Tallies { fabric with
      channels := fabric.channels.set conn next
      delivered := fabric.delivered ++ plans.map (node, ·) } := by
  intro plan punches
  have before := tallies plan punches
  have moved := fabric.underway_set found next plan
  have less := taken plan punches
  have once := given.count_le plan
  have same : (plans.map (node, ·)).map Prod.snd = plans := by
    rw [List.map_map]
    exact List.map_id plans
  rw [List.map_append, same, List.count_append]
  simp only [Fabric.underway] at before moved ⊢
  omega

/-- Dials are added that are for no plan. -/
theorem Fabric.Tallies.start (tallies : fabric.Tallies) {started : List (Dial Index)}
    (planless : ∀ dial ∈ started, dial.purpose.plans = []) :
    Fabric.Tallies { fabric with dials := fabric.dials ++ started } := by
  intro plan punches
  have before := tallies plan punches
  have none : (started.flatMap fun dial => dial.purpose.plans) = [] :=
    List.flatMap_eq_nil_iff.mpr planless
  simp only [Fabric.underway, List.flatMap_append, none, List.append_nil] at before ⊢
  exact before

/-- A call of `SendPunchPlan` is recorded with the plan that it puts on its way. -/
theorem Fabric.Tallies.record {next : Fabric Index} (tallies : fabric.Tallies)
    {sending : Sending Index} (delivered : next.delivered = fabric.delivered)
    (sent : next.sent = fabric.sent ++ [sending])
    (underway : ∀ plan, next.underway plan = fabric.underway plan + [sending.plan].count plan) :
    next.Tallies := by
  intro plan punches
  have before := tallies plan punches
  rw [delivered, sent, underway, List.map_append, List.count_append, List.map_singleton]
  omega

theorem Fabric.Tallies.moves [DecidableEq Index] (tallies : fabric.Tallies)
    (sound : fabric.Sound setup) {next : Fabric Index} (moved : fabric.Moves setup next) :
    next.Tallies := by
  cases moved with
  | bootstraps kind listed done => exact tallies.start (List.forall_mem_singleton.mpr rfl)
  | refreshes node contacts kind =>
    refine tallies.start fun dial member => ?_
    obtain ⟨contact, _, rfl⟩ := List.mem_map.mp member
    rfl
  | publishes node endpoint => exact tallies
  | @connects choice destination dial waiting accepts =>
    intro plan punches
    have before := tallies plan punches
    have moved := count_flatMap_eraseIdx (fun dial => dial.purpose.plans) plan waiting
    have same : (dial.accepted destination).ahead.count plan = dial.purpose.plans.count plan := by
      rw [Channel.count_ahead]
      rfl
    simp only [Fabric.underway, List.flatMap_append, List.flatMap_singleton, List.count_append,
      same] at before ⊢
    omega
  | gives choice =>
    intro plan punches
    have before := tallies plan punches
    have fewer := ((List.eraseIdx_sublist fabric.dials choice).flatMap
      fun dial => dial.purpose.plans).count_le plan
    simp only [Fabric.underway] at before ⊢
    omega
  | @opens conn channel found ready =>
    refine tallies.set found fun plan punches => ?_
    have opening := (sound.channel found).count_opening punches (fabric.nodes channel.source)
    simp only [Channel.count_ahead, values_append, encodeMessage, values_encodeFirst, ready,
      if_neg channel.purpose.opened_ne, if_true, List.count_nil]
    split
    · rw [List.count_append]
      omega
    · omega
  | @asks conn channel targetID found ready purpose =>
    refine tallies.set found fun plan punches => ?_
    have request : [(fabric.nodes channel.source).findNodeRequest targetID].count plan = 0 :=
      count_eq_zero_of_type punches MsgType.noConfusion
    simp only [Channel.count_ahead, values_append, encodeMessage, values_encodeFirst, ready,
      reduceCtorEq, if_false]
    split
    · rw [List.count_append]
      omega
    · exact le_rfl
  | @aborts conn channel msg written found short =>
    refine tallies.set found fun plan punches => ?_
    simp only [Channel.count_ahead, values_append, encodeMessage,
      values_take_encodeFirst gobTypes msg short, List.append_nil, reduceCtorEq, if_false,
      List.count_nil]
    omega
  | @releases conn channel found =>
    refine tallies.set found fun plan punches => ?_
    simp only [Channel.count_ahead, reduceCtorEq, if_false, List.count_nil]
    omega
  | @serves conn channel _ _ msg received rest after effects _ found ready decoded dispatched =>
    have receives := sound.receives found ready decoded dispatched
    have given : (punchedPlans effects).Sublist [msg] := by
      rcases receives.punches with none | ⟨_, one⟩
      · exact none ▸ List.nil_sublist _
      · exact one ▸ List.Sublist.refl _
    refine tallies.deliver found channel.destination given fun plan punches => ?_
    have messages := count_values_of_decode decoded plan
    simp only [Channel.count_ahead, receives.unanswered, List.append_nil, ready,
      if_neg receives.finished, if_true, List.count_nil]
    omega
  | @reads conn channel kind msg received known rest after effects found decoded handled =>
    obtain ⟨sending, listed, same, _⟩ := (sound.channel found).plans msg
      (values_of_decode decoded ▸ List.mem_cons_self)
    obtain ⟨_, rfl⟩ := Node.of_readAs (same ▸ sound.sent sending listed) handled
    have given : (punchedPlans (if (fabric.nodes channel.source).onPunchPlan then
        [.punched msg] else [])).Sublist [msg] := by
      split
      · exact List.Sublist.refl _
      · exact List.nil_sublist _
    refine tallies.deliver found channel.source given fun plan punches => ?_
    have messages := count_values_of_decode decoded plan
    simp only [Channel.count_ahead, reduceCtorEq, if_false, List.count_nil]
    omega
  | @closes conn channel found =>
    refine tallies.set found fun plan punches => ?_
    simp only [Channel.count_ahead, reduceCtorEq, if_false, List.count_nil]
    omega
  | calls started called =>
    rw [sound.callbacks] at called
    cases called
  | @sends conn channel node contact args found stored =>
    refine tallies.record rfl rfl fun plan => ?_
    have moved := fabric.underway_set found { channel with
      toSource := channel.toSource ++ encodeMessage ((fabric.nodes node).planMessage args) } plan
    simp only [Channel.count_ahead, values_append, encodeMessage, values_encodeFirst,
      List.count_append, Fabric.underway] at moved ⊢
    omega
  | @redirects node contact args =>
    refine tallies.record rfl rfl fun plan => ?_
    simp only [Fabric.underway, List.flatMap_append, List.flatMap_singleton, List.count_append,
      Purpose.plans]
    omega
  | @cuts conn channel plan written found short =>
    refine tallies.set found fun other punches => ?_
    simp only [Channel.count_ahead, values_append, encodeMessage,
      values_take_encodeFirst gobTypes plan short, List.append_nil]
    exact le_rfl
  | stays => exact tallies

end Tally

theorem Fabric.tallies_run [DecidableEq Index] {setup : Setup Index}
    {events : List (FabricEvent Index)} {fabric : Fabric Index}
    (ran : setup.fabric.run setup events = some fabric) : fabric.Sound setup ∧ fabric.Tallies := by
  refine Runs.run_invariant (fun fabric => fabric.Sound setup ∧ fabric.Tallies) ?_
    ⟨setup.sound_fabric, fun _ _ => le_rfl⟩ ran
  rintro fabric event next ⟨sound, tallies⟩ stepped
  have moved := Fabric.moves_of_step stepped
  exact ⟨sound.moves moved, tallies.moves sound moved⟩

/-- Whatever happens, a plan that a node's callback was given had been sent to a contact with
that node's key, or to an address of that node, and no plan was given out more often than it
was sent. -/
theorem plans_reach_addressees [DecidableEq Index] (setup : Setup Index)
    (events : List (FabricEvent Index)) (fabric : Fabric Index)
    (ran : setup.fabric.run setup events = some fabric) :
    (∀ entry ∈ fabric.delivered, ∃ sending ∈ fabric.sent, sending.plan = entry.2 ∧
      sending.MeantFor setup entry.1) ∧
    (fabric.delivered.map Prod.snd).Subperm (fabric.sent.map Sending.plan) := by
  obtain ⟨sound, tallies⟩ := Fabric.tallies_run ran
  refine ⟨sound.delivered, List.subperm_iff_count.mpr fun plan => ?_⟩
  by_cases punches : plan.type = .punchPlan
  · have bounded := tallies plan punches
    omega
  · rw [List.count_eq_zero.mpr]
    · exact Nat.zero_le _
    · intro member
      obtain ⟨entry, given, rfl⟩ := List.mem_map.mp member
      obtain ⟨sending, known, same, _⟩ := sound.delivered entry given
      exact punches (same ▸ sound.sent sending known)

/-- The hub sends a node that has joined a plan over the stored connection. -/
def joinsAndPunches {Index : Type} (hub node : Index) (publicKey : Text) :
    List (FabricEvent Index) :=
  joins hub node ++
    [.sendPlan hub (.known publicKey [])
      { targetPublicKey := text "other"
        targetEndpoint := text "203.0.113.5:51820"
        punchID := text "first"
        start := 0
        window := 0
        ports := [text "203.0.113.5:51820"] },
    .read 0]

theorem plans_reach_addressees_one :
    ∃ events fabric, twoHubs.fabric.run twoHubs events = some fabric ∧
      fabric.delivered.map (fun entry => (entry.1, entry.2.punchID)) = [(1, text "first")] ∧
      (∀ entry ∈ fabric.delivered, ∃ sending ∈ fabric.sent, sending.plan = entry.2 ∧
        sending.MeantFor twoHubs entry.1) ∧
      (fabric.delivered.map Prod.snd).Subperm (fabric.sent.map Sending.plan) := by
  have given : (twoHubs.fabric.run twoHubs
      (joinsAndPunches 0 1 (text "second-hub-public-key"))).map (fun fabric =>
        fabric.delivered.map fun entry => (entry.1, entry.2.punchID)) =
          some [(1, text "first")] := by
    decide +kernel
  obtain ⟨fabric, ran, one⟩ := Option.map_eq_some_iff.mp given
  exact ⟨_, fabric, ran, one, plans_reach_addressees twoHubs _ fabric ran⟩

end WgMesh.Dht
