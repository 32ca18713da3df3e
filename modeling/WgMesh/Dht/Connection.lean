/-
This file models one TCP connection between two nodes, from the dial to the
last punch plan, with both of its ends as they are written.

The dialing peer greets the hub, in `findNode` sends its request as a second
message, and leaves a reader on the connection. The hub's `handleConn` decodes
one message and dispatches it; on a greeting it stores the connection and waits
for the stop channel or the 24 h timer. `SendPunchPlan` writes every plan with an
encoder of its own. The steps of the two ends and of the rest of the hub
interleave in any order.

Two facts follow. A request that follows a greeting is never read, so no
registration over `findNode` is served. And the peer's reader, which keeps one
decoder for the connection, fails on the second plan, so the plans whose sending
succeeded are delivered exactly when there is at most one of them.
-/

import WgMesh.Dht.Node
import WgMesh.Go.Gob
import WgMesh.Runs

namespace WgMesh.Dht

open Go

/-- The types a DHT message is made of, in the order an encoder defines them. -/
inductive GobType where
  | dhtMessage
  | contactSlice
  | contact
  | stringSlice
  deriving DecidableEq, Repr

def gobTypes : List GobType := [.dhtMessage, .contactSlice, .contact, .stringSlice]

theorem gobTypes_nodup : gobTypes.Nodup := by decide

/-- The items of DHT messages on a connection. -/
abbrev Stream := List (GobItem GobType DhtMessage)

/-- `gob.NewEncoder(conn).Encode(msg)`. -/
def encodeMessage (msg : DhtMessage) : Stream := encodeFirst gobTypes msg

/-- Which function dialed. -/
inductive DialKind where
  | findNode (targetID : Text)
  | openControl
  deriving DecidableEq, Repr

/-- The dialing end. -/
inductive Dialer where
  | dialed
  | greeted
  /-- A write failed and the connection was closed before a reader was started. -/
  | aborted
  /-- The reader is running; its decoder knows some types. -/
  | reading (received : List GobType)
  /-- The reader met a decoding error and closed the connection. -/
  | closed
  deriving DecidableEq, Repr

/-- The accepting end. -/
inductive Handler where
  | decoding
  | parked
  | returned
  deriving DecidableEq, Repr

/-- The accepting end once it has dispatched its message. -/
def AfterDispatch.handler : AfterDispatch → Handler
  | .parked => .parked
  | .returned => .returned

/-- One connection and its two nodes. -/
structure Link where
  peer : Node
  hub : Node
  dialer : Dialer
  handler : Handler
  toHub : Stream
  toPeer : Stream
  /-- The effects of the hub's handler on this connection. -/
  served : List Effect
  /-- A write of the hub has failed. -/
  broken : Bool
  /-- The plans for which `SendPunchPlan` returned nil through this connection, in order. -/
  accepted : List DhtMessage
  /-- The plans the peer's callback was called with, in order. -/
  delivered : List DhtMessage

/-- A connection that has been dialed and accepted. -/
def Link.start (peer hub : Node) : Link where
  peer := peer
  hub := hub
  dialer := .dialed
  handler := .decoding
  toHub := []
  toPeer := []
  served := []
  broken := false
  accepted := []
  delivered := []

/-- Who moves, and what the environment decides. -/
inductive LinkStep where
  | writeHello
  | writeRequest
  | writeFails
  | serve (remoteAddr observed : Text)
  /-- The stop channel is closed or the timer fires. -/
  | expire
  /-- Other goroutines of the hub change its state. -/
  | elsewhere (hub : Node)
  | sendPlan (contact : Contact) (args : PunchArgs)
  /-- A plan whose write fails after some items. -/
  | sendPlanFails (contact : Contact) (args : PunchArgs) (written : Nat)
  | read

/-- The plans among the effects of a reader. -/
def punchedPlans (effects : List Effect) : List DhtMessage :=
  effects.filterMap fun effect => match effect with
    | .punched plan => some plan
    | _ => none

/-- The items the handler's replies put on the connection, each with an encoder of its own. -/
def replyItems (effects : List Effect) : Stream :=
  effects.flatMap fun effect => match effect with
    | .wrote msg => encodeMessage msg
    | _ => []

/-- The reader of `OpenControl`, which only looks for punch plans. -/
def Node.readControl (node : Node) (msg : DhtMessage) : Except Panic (Node × List Effect) :=
  if msg.type = .punchPlan ∧ node.onPunchPlan then return (node, [.punched msg])
  else return (node, [])

/-- The reader goroutine that a dial leaves behind. -/
def Node.readAs (node : Node) : DialKind → DhtMessage → Except Panic (Node × List Effect)
  | .findNode _, msg => node.readResponse msg
  | .openControl, msg => node.readControl msg

/-- One step of a connection. A fault ends the process of the node that moves. -/
def Link.step (kind : DialKind) (conn : ConnId) (link : Link) : LinkStep → Option Link
  | .writeHello =>
    if link.dialer = .dialed then
      some { link with
        toHub := link.toHub ++ encodeMessage link.peer.controlHello
        dialer := match kind with
          | .findNode _ => .greeted
          | .openControl => .reading [] }
    else none
  | .writeRequest =>
    match kind, link.dialer with
    | .findNode targetID, .greeted =>
      some { link with
        toHub := link.toHub ++ encodeMessage (link.peer.findNodeRequest targetID)
        dialer := .reading [] }
    | _, _ => none
  | .writeFails =>
    if link.dialer = .dialed ∨ link.dialer = .greeted then some { link with dialer := .aborted }
    else none
  | .serve remoteAddr observed =>
    if link.handler = .decoding then
      match decode [] link.toHub with
      | .waiting => none
      | .failed => some { link with handler := .returned }
      | .message msg _ rest =>
        match link.hub.dispatch conn remoteAddr observed msg with
        | .error _ => none
        | .ok (hub, effects, after) =>
          some { link with
            hub := hub
            toHub := rest
            toPeer := link.toPeer ++ replyItems effects
            served := link.served ++ effects
            handler := after.handler }
    else none
  | .expire => if link.handler = .parked then some { link with handler := .returned } else none
  | .elsewhere hub => some { link with hub := hub }
  | .sendPlan contact args =>
    match link.hub.sendPunchPlan contact args with
    | .ok (.control stored plan) =>
      if stored = conn ∧ link.broken = false then
        some { link with
          toPeer := link.toPeer ++ encodeMessage plan
          accepted := link.accepted ++ [plan] }
      else none
    | _ => none
  | .sendPlanFails contact args written =>
    match link.hub.sendPunchPlan contact args with
    | .ok (.control stored plan) =>
      if stored = conn ∧ link.broken = false ∧ written ≤ gobTypes.length then
        some { link with
          toPeer := link.toPeer ++ (encodeMessage plan).take written
          broken := true }
      else none
    | _ => none
  | .read =>
    match link.dialer with
    | .reading received =>
      match decode received link.toPeer with
      | .waiting => none
      | .failed => some { link with dialer := .closed }
      | .message msg known rest =>
        match link.peer.readAs kind msg with
        | .error _ => none
        | .ok (peer, effects) =>
          some { link with
            peer := peer
            toPeer := rest
            dialer := .reading known
            delivered := link.delivered ++ punchedPlans effects }
    | _ => none

/-- The connection after a run of steps. -/
def Link.run (kind : DialKind) (conn : ConnId) (link : Link) (steps : List LinkStep) :
    Option Link :=
  Runs.run (Link.step kind conn) link steps

/-- The hub's handler can take no step but wait for the stop channel or its timer. -/
def Link.HandlerIdle (link : Link) : Prop :=
  link.handler ≠ .decoding ∨ decode [] link.toHub = .waiting

/-- The peer's reader has read what it can: it waits for more, or has closed. -/
def Link.Drained (link : Link) : Prop :=
  match link.dialer with
  | .reading received => decode received link.toPeer = .waiting
  | .closed => True
  | _ => False

/-! ### What a step does -/

/-- The plan `SendPunchPlan` writes on a stored connection is marked as one. -/
theorem Node.type_of_sendPunchPlan {node : Node} {contact : Contact} {args : PunchArgs}
    {conn : ConnId} {plan : DhtMessage}
    (sent : node.sendPunchPlan contact args = .ok (.control conn plan)) :
    plan.type = .punchPlan := by
  cases Node.sends_of_sendPunchPlan sent with
  | control _ _ => rfl

/-- The states a step can lead to, with what its guards tell. -/
inductive Link.Moves (kind : DialKind) (conn : ConnId) (link : Link) : Link → Prop
  | greets (ready : link.dialer = .dialed) : Moves kind conn link
      { link with
        toHub := link.toHub ++ encodeMessage link.peer.controlHello
        dialer := match kind with
          | .findNode _ => .greeted
          | .openControl => .reading [] }
  | asks (targetID : Text) (ready : link.dialer = .greeted) : Moves kind conn link
      { link with
        toHub := link.toHub ++ encodeMessage (link.peer.findNodeRequest targetID)
        dialer := .reading [] }
  | aborts (writing : link.dialer = .dialed ∨ link.dialer = .greeted) : Moves kind conn link
      { link with dialer := .aborted }
  | rejects (ready : link.handler = .decoding) (rejected : decode [] link.toHub = .failed) :
      Moves kind conn link { link with handler := .returned }
  | serves {remoteAddr observed : Text} {msg : DhtMessage} {received : List GobType}
      {rest : Stream} {hub : Node} {effects : List Effect} {after : AfterDispatch}
      (ready : link.handler = .decoding)
      (decoded : decode [] link.toHub = .message msg received rest)
      (dispatched : link.hub.dispatch conn remoteAddr observed msg = .ok (hub, effects, after)) :
      Moves kind conn link
        { link with
          hub := hub
          toHub := rest
          toPeer := link.toPeer ++ replyItems effects
          served := link.served ++ effects
          handler := after.handler }
  | expires (ready : link.handler = .parked) : Moves kind conn link
      { link with handler := .returned }
  | elsewhere (hub : Node) : Moves kind conn link { link with hub := hub }
  | sends {plan : DhtMessage} (punches : plan.type = .punchPlan) (intact : link.broken = false) :
      Moves kind conn link
        { link with
          toPeer := link.toPeer ++ encodeMessage plan
          accepted := link.accepted ++ [plan] }
  | cuts (plan : DhtMessage) {written : Nat} (intact : link.broken = false)
      (short : written ≤ gobTypes.length) : Moves kind conn link
        { link with
          toPeer := link.toPeer ++ (encodeMessage plan).take written
          broken := true }
  | closes {received : List GobType} (ready : link.dialer = .reading received)
      (rejected : decode received link.toPeer = .failed) :
      Moves kind conn link { link with dialer := .closed }
  | reads {received known : List GobType} {msg : DhtMessage} {rest : Stream} {peer : Node}
      {effects : List Effect} (ready : link.dialer = .reading received)
      (decoded : decode received link.toPeer = .message msg known rest)
      (handled : link.peer.readAs kind msg = .ok (peer, effects)) : Moves kind conn link
        { link with
          peer := peer
          toPeer := rest
          dialer := .reading known
          delivered := link.delivered ++ punchedPlans effects }

theorem Link.moves_of_step {kind : DialKind} {conn : ConnId} {link next : Link} {label : LinkStep}
    (stepped : link.step kind conn label = some next) : link.Moves kind conn next := by
  cases label with
  | writeHello =>
    obtain ⟨ready, ⟨⟩⟩ := Option.ite_none_right_eq_some.mp stepped
    exact .greets ready
  | writeRequest =>
    simp only [Link.step] at stepped
    split at stepped
    · rename_i targetID ready
      cases stepped
      exact .asks targetID ready
    · cases stepped
  | writeFails =>
    obtain ⟨writing, ⟨⟩⟩ := Option.ite_none_right_eq_some.mp stepped
    exact .aborts writing
  | serve remoteAddr observed =>
    obtain ⟨ready, stepped⟩ := Option.ite_none_right_eq_some.mp stepped
    split at stepped
    · cases stepped
    · rename_i rejected
      cases stepped
      exact .rejects ready rejected
    · rename_i decoded
      split at stepped
      · cases stepped
      · rename_i dispatched
        cases stepped
        exact .serves ready decoded dispatched
  | expire =>
    obtain ⟨ready, ⟨⟩⟩ := Option.ite_none_right_eq_some.mp stepped
    exact .expires ready
  | elsewhere hub =>
    cases stepped
    exact .elsewhere hub
  | sendPlan contact args =>
    simp only [Link.step] at stepped
    split at stepped
    · rename_i sent
      obtain ⟨guards, ⟨⟩⟩ := Option.ite_none_right_eq_some.mp stepped
      exact .sends (Node.type_of_sendPunchPlan sent) guards.2
    · cases stepped
  | sendPlanFails contact args written =>
    simp only [Link.step] at stepped
    split at stepped
    · obtain ⟨guards, ⟨⟩⟩ := Option.ite_none_right_eq_some.mp stepped
      exact .cuts _ guards.2.1 guards.2.2
    · cases stepped
  | read =>
    simp only [Link.step] at stepped
    split at stepped
    · rename_i ready
      split at stepped
      · cases stepped
      · rename_i rejected
        cases stepped
        exact .closes ready rejected
      · rename_i decoded
        split at stepped
        · cases stepped
        · rename_i handled
          cases stepped
          exact .reads ready decoded handled
    · cases stepped

/-! ### The first message is a greeting -/

/-- What the hub's handler has met or will meet first is a greeting. -/
def Link.GreetingFirst (link : Link) : Prop :=
  match link.handler with
  | .decoding => link.served = [] ∧
      ((link.toHub = [] ∧ (link.dialer = .dialed ∨ link.dialer = .aborted)) ∨
        ∃ hello rest, hello.type = .controlHello ∧ link.toHub = encodeMessage hello ++ rest)
  | _ => ∀ effect ∈ link.served, ∃ key, effect = .storedControl key

theorem Link.greetingFirst_start (peer hub : Node) : (Link.start peer hub).GreetingFirst :=
  ⟨rfl, Or.inl ⟨rfl, Or.inl rfl⟩⟩

/-- The hub after it has handled a greeting with this key. -/
def Node.storing (hub : Node) (publicKey : Text) (conn : ConnId) : Node :=
  if publicKey ≠ [] then { hub with controlConns := hub.controlConns.insert publicKey conn }
  else hub

/-- A greeting stores the connection, if it has a key, and parks the handler. -/
theorem Node.dispatch_greeting_eq (node : Node) (conn : ConnId) (remoteAddr observed : Text)
    {hello : DhtMessage} (greeting : hello.type = .controlHello) :
    node.dispatch conn remoteAddr observed hello = .ok (node.storing hello.publicKey conn,
      if hello.publicKey ≠ [] then [.storedControl hello.publicKey] else [], .parked) := by
  unfold Node.dispatch Node.storing
  rw [greeting]
  by_cases named : hello.publicKey ≠ []
  · simp only [if_pos named]
    rfl
  · simp only [if_neg named]
    rfl

theorem Node.dispatch_greeting (node : Node) (conn : ConnId) (remoteAddr observed : Text)
    {hello : DhtMessage} (greeting : hello.type = .controlHello) :
    ∃ hub effects, node.dispatch conn remoteAddr observed hello = .ok (hub, effects, .parked) ∧
      ∀ effect ∈ effects, ∃ key, effect = .storedControl key := by
  refine ⟨_, _, node.dispatch_greeting_eq conn remoteAddr observed greeting, ?_⟩
  intro effect member
  split at member
  · exact ⟨hello.publicKey, List.mem_singleton.mp member⟩
  · cases member

theorem decode_encodeMessage (msg : DhtMessage) (rest : Stream) :
    decode [] (encodeMessage msg ++ rest) = .message msg gobTypes.reverse rest :=
  decode_encodeFirst gobTypes gobTypes_nodup msg rest

/-- Under `GreetingFirst` the message a decoding handler takes in is a greeting. -/
theorem Link.GreetingFirst.decoded {link : Link} (first : link.GreetingFirst)
    (ready : link.handler = .decoding) :
    link.served = [] ∧ (decode [] link.toHub = .waiting ∨ ∃ hello rest,
      hello.type = .controlHello ∧
        decode [] link.toHub = .message hello gobTypes.reverse rest) := by
  simp only [Link.GreetingFirst, ready] at first
  refine ⟨first.1, first.2.imp (fun empty => ?_) ?_⟩
  · rw [empty.1]
    rfl
  · rintro ⟨hello, rest, greeting, items⟩
    exact ⟨hello, rest, greeting, by rw [items, decode_encodeMessage]⟩

/-- Under `GreetingFirst` the hub's handler does nothing but store the connection. -/
theorem Link.GreetingFirst.dispatched {link : Link} (first : link.GreetingFirst)
    (ready : link.handler = .decoding) {msg : DhtMessage} {received : List GobType}
    {rest : Stream} (decoded : decode [] link.toHub = .message msg received rest)
    {conn : ConnId} {remoteAddr observed : Text} {hub : Node} {effects : List Effect}
    {after : AfterDispatch}
    (dispatched : link.hub.dispatch conn remoteAddr observed msg = .ok (hub, effects, after)) :
    after = .parked ∧ ∀ effect ∈ effects, ∃ key, effect = .storedControl key := by
  rcases (first.decoded ready).2 with waiting | ⟨hello, others, greeting, read⟩
  · rw [decoded] at waiting
    cases waiting
  · rw [decoded] at read
    cases read
    obtain ⟨_, _, stored, stores⟩ :=
      link.hub.dispatch_greeting conn remoteAddr observed greeting
    rw [dispatched] at stored
    cases stored
    exact ⟨rfl, stores⟩

/-- A dialer that has come to its reader has written its greeting. -/
theorem Link.GreetingFirst.of_reading {link : Link} (first : link.GreetingFirst)
    {received : List GobType} (ready : link.dialer = .reading received) (peer : Node)
    (toPeer : Stream) (dialer : Dialer) (delivered : List DhtMessage) :
    Link.GreetingFirst { link with
      peer := peer
      toPeer := toPeer
      dialer := dialer
      delivered := delivered } := by
  unfold Link.GreetingFirst at first ⊢
  simp only
  split at first
  · refine ⟨first.1, Or.inr (first.2.resolve_left fun empty => ?_)⟩
    rw [ready] at empty
    exact absurd empty.2 (by simp)
  · exact first

/-- Every step keeps a greeting first. -/
theorem Link.GreetingFirst.moves {kind : DialKind} {conn : ConnId} {link next : Link}
    (first : link.GreetingFirst) (moved : link.Moves kind conn next) : next.GreetingFirst := by
  have whole := first
  unfold Link.GreetingFirst at first ⊢
  cases moved with
  | greets ready =>
    simp only
    split at first
    · refine ⟨first.1, Or.inr ?_⟩
      rcases first.2 with ⟨empty, _⟩ | ⟨hello, rest, greeting, items⟩
      · exact ⟨link.peer.controlHello, [], rfl, by rw [empty, List.append_nil]; rfl⟩
      · exact ⟨hello, rest ++ _, greeting, by rw [items, List.append_assoc]⟩
    · exact first
  | asks targetID ready =>
    simp only
    split at first
    · refine ⟨first.1, Or.inr ?_⟩
      rcases first.2 with ⟨_, early⟩ | ⟨hello, rest, greeting, items⟩
      · rw [ready] at early
        exact absurd early (by decide)
      · exact ⟨hello, rest ++ _, greeting, by rw [items, List.append_assoc]⟩
    · exact first
  | aborts writing =>
    simp only
    split at first
    · exact ⟨first.1, first.2.imp_left fun empty => ⟨empty.1, Or.inr trivial⟩⟩
    · exact first
  | rejects ready rejected =>
    simp only [(whole.decoded ready).1]
    exact List.forall_mem_nil _
  | serves ready decoded dispatched =>
    obtain ⟨rfl, stores⟩ := whole.dispatched ready decoded dispatched
    simp only [(whole.decoded ready).1]
    exact stores
  | expires ready =>
    simp only [ready] at first
    exact first
  | elsewhere hub => exact first
  | sends punches intact => exact first
  | cuts plan intact short => exact first
  | closes ready rejected => exact whole.of_reading ready _ _ _ _
  | reads ready decoded handled => exact whole.of_reading ready _ _ _ _

/-- In every run, a greeting is the first message the hub meets. -/
theorem Link.greetingFirst_run {kind : DialKind} {conn : ConnId} {peer hub : Node}
    {steps : List LinkStep} {link : Link}
    (ran : (Link.start peer hub).run kind conn steps = some link) : link.GreetingFirst :=
  Runs.run_invariant Link.GreetingFirst
    (fun _ _ _ first stepped => first.moves (Link.moves_of_step stepped))
    (Link.greetingFirst_start peer hub) ran

/-- In every run, the handler of an accepted connection only stores it. -/
theorem Link.served_stores {kind : DialKind} {conn : ConnId} {peer hub : Node}
    {steps : List LinkStep} {link : Link}
    (ran : (Link.start peer hub).run kind conn steps = some link) :
    ∀ effect ∈ link.served, ∃ key, effect = .storedControl key := by
  have first := Link.greetingFirst_run ran
  unfold Link.GreetingFirst at first
  split at first
  · rw [first.1]
    exact List.forall_mem_nil _
  · exact first

/-! ### Registrations are not served -/

/-- The hub has stored the connection under the peer's key and has executed `handleFindNode`
on the peer's request, in some state of its table. -/
def Link.Served (link : Link) (peer : Node) (targetID : Text) : Prop :=
  .storedControl peer.publicKey ∈ link.served ∧
    ∃ (hub next : Node) (remoteAddr observed : Text) (effects : List Effect),
      hub.handleFindNode remoteAddr observed (peer.findNodeRequest targetID) =
        .ok (next, effects) ∧ effects <:+: link.served

/-- `handleFindNode` passes the sender to the table. -/
theorem Node.inserted_of_handleFindNode {node next : Node} {remoteAddr observed : Text}
    {msg : DhtMessage} {effects : List Effect}
    (handled : node.handleFindNode remoteAddr observed msg = .ok (next, effects)) :
    .inserted (registration remoteAddr observed msg) ∈ effects := by
  obtain ⟨_, _, handled⟩ := bind_eq_ok.mp handled
  obtain ⟨_, _, handled⟩ := bind_eq_ok.mp handled
  obtain ⟨_, _, handled⟩ := bind_eq_ok.mp handled
  cases handled
  exact List.mem_cons_self

/-- No run serves a registration. -/
theorem Link.not_served {kind : DialKind} {conn : ConnId} {peer hub : Node}
    {steps : List LinkStep} {link : Link}
    (ran : (Link.start peer hub).run kind conn steps = some link) (targetID : Text) :
    ¬ link.Served peer targetID := by
  rintro ⟨_, _, _, _, _, effects, handled, executed⟩
  obtain ⟨key, stored⟩ := Link.served_stores ran _
    (executed.subset (Node.inserted_of_handleFindNode handled))
  cases stored

/-- The peer writes its two messages and the hub serves the connection. -/
theorem Link.run_registration (conn : ConnId) (peer hub : Node) (targetID : Text)
    (remoteAddr observed : Text) :
    ∃ link, (Link.start peer hub).run (.findNode targetID) conn
        [.writeHello, .writeRequest, .serve remoteAddr observed] = some link ∧
      link.HandlerIdle := by
  obtain ⟨next, effects, dispatched, _⟩ :=
    hub.dispatch_greeting conn remoteAddr observed (show peer.controlHello.type = _ from rfl)
  let written : Link := { Link.start peer hub with
    toHub := encodeMessage peer.controlHello ++ encodeMessage (peer.findNodeRequest targetID)
    dialer := .reading [] }
  have parked : written.step (.findNode targetID) conn (.serve remoteAddr observed) =
      some { written with
        hub := next
        toHub := encodeMessage (peer.findNodeRequest targetID)
        toPeer := replyItems effects
        served := effects
        handler := .parked } := by
    simp only [Link.step, written, Link.start, decode_encodeMessage, dispatched]
    rfl
  exact ⟨_, Runs.run_cons.mpr ⟨_, rfl, Runs.run_cons.mpr ⟨written, rfl, Runs.run_cons.mpr
    ⟨_, parked, rfl⟩⟩⟩, Or.inl Handler.noConfusion⟩

/-- A peer that runs `findNode` is never registered: its two messages can always be written and
the handler of the connection run until it waits, and in no run that does so has the handler
executed `handleFindNode` on the request. -/
theorem findNode_never_registers (conn : ConnId) (peer hub : Node) (targetID : Text) :
    (∃ steps link, (Link.start peer hub).run (.findNode targetID) conn steps = some link ∧
      .writeRequest ∈ steps ∧ link.HandlerIdle) ∧
    ∀ steps link, (Link.start peer hub).run (.findNode targetID) conn steps = some link →
      .writeRequest ∈ steps → link.HandlerIdle → ¬ link.Served peer targetID := by
  constructor
  · obtain ⟨link, ran, idle⟩ := Link.run_registration conn peer hub targetID [] []
    exact ⟨_, link, ran, by simp, idle⟩
  · intro steps link ran _ _
    exact Link.not_served ran targetID

/-- A new peer registers with a new hub: the two messages are written, the handler waits, and
the hub has not executed `handleFindNode`. -/
theorem findNode_newPeer_not_registered :
    ∃ link, (Link.start (Node.new (text "peer") 51822 (text "198.51.100.7:51820"))
        (Node.new (text "hub") 51822 [])).run (.findNode (nodeID (text "peer"))) 0
        [.writeHello, .writeRequest, .serve (text "198.51.100.7:40000") []] = some link ∧
      link.HandlerIdle ∧
      ¬ link.Served (Node.new (text "peer") 51822 (text "198.51.100.7:51820"))
        (nodeID (text "peer")) := by
  obtain ⟨link, ran, idle⟩ := Link.run_registration 0
    (Node.new (text "peer") 51822 (text "198.51.100.7:51820")) (Node.new (text "hub") 51822 [])
    (nodeID (text "peer")) (text "198.51.100.7:40000") []
  exact ⟨link, ran, idle, Link.not_served ran _⟩

/-! ### Punch plans -/

/-- What a failed write of the hub left on the connection: nothing while no write has failed,
else the beginning of a plan. -/
def CutShort (broken : Bool) (cut : Stream) : Prop :=
  (broken = false → cut = []) ∧
    ∃ (plan : DhtMessage) (written : Nat), written ≤ gobTypes.length ∧
      cut = (encodeMessage plan).take written

theorem CutShort.nil (broken : Bool) : CutShort broken [] :=
  ⟨fun _ => rfl, { type := .punchPlan }, 0, Nat.zero_le _, rfl⟩

/-- How far the peer's reader is with the plans whose sending succeeded. -/
structure Link.PlansInOrder (link : Link) (unread : List DhtMessage) (cut : Stream) : Prop where
  callback : link.peer.onPunchPlan = true
  punches : ∀ plan ∈ link.accepted, plan.type = .punchPlan
  split : link.accepted = link.delivered ++ unread
  cutShort : CutShort link.broken cut
  /-- Until the reader closes the connection it holds the unread plans. -/
  items : link.dialer ≠ .closed → link.toPeer = unread.flatMap encodeMessage ++ cut
  /-- The decoder knows the types exactly when a plan has been delivered. -/
  reader : match link.dialer with
    | .reading received => (received = [] ∧ link.delivered = []) ∨
        (received = gobTypes.reverse ∧ link.delivered.length = 1)
    | .closed => link.delivered.length = 1
    | _ => link.delivered = []

theorem Link.plansInOrder_start {peer : Node} (hub : Node) (callback : peer.onPunchPlan = true) :
    (Link.start peer hub).PlansInOrder [] [] where
  callback := callback
  punches := List.forall_mem_nil _
  split := rfl
  cutShort := CutShort.nil false
  items := fun _ => rfl
  reader := rfl

/-- Both readers hand a plan to the callback. -/
theorem Node.readAs_plan {node : Node} (callback : node.onPunchPlan = true) {plan : DhtMessage}
    (punches : plan.type = .punchPlan) (kind : DialKind) :
    node.readAs kind plan = .ok (node, [.punched plan]) := by
  cases kind with
  | findNode targetID =>
    show node.readResponse plan = _
    rw [Node.readResponse, punches]
    simp only [callback, if_true]
    rfl
  | openControl =>
    show node.readControl plan = _
    rw [Node.readControl, if_pos ⟨punches, callback⟩]
    rfl

/-- A new decoder takes in the first unread plan, and waits when there is none. -/
theorem decode_unread (unread : List DhtMessage) {broken : Bool} {cut : Stream}
    (cutShort : CutShort broken cut) :
    decode [] (unread.flatMap encodeMessage ++ cut) = match unread with
      | [] => .waiting
      | plan :: rest => .message plan gobTypes.reverse (rest.flatMap encodeMessage ++ cut) := by
  cases unread with
  | nil =>
    obtain ⟨_, plan, written, short, rfl⟩ := cutShort
    exact decode_take_encodeFirst gobTypes gobTypes_nodup plan written short
  | cons _ rest => rw [List.flatMap_cons, List.append_assoc, decode_encodeMessage]

/-- The decoder that has taken in one plan fails on the next, and never gets a message. -/
theorem decode_unread_again (unread : List DhtMessage) {broken : Bool} {cut : Stream}
    (cutShort : CutShort broken cut) :
    decode gobTypes.reverse (unread.flatMap encodeMessage ++ cut) = .failed ∨
      (unread = [] ∧ decode gobTypes.reverse (unread.flatMap encodeMessage ++ cut) = .waiting) := by
  have known : GobType.dhtMessage ∈ gobTypes.reverse := by decide
  cases unread with
  | nil =>
    obtain ⟨_, plan, written, _, rfl⟩ := cutShort
    rw [List.flatMap_nil, List.nil_append, encodeMessage, gobTypes,
      decode_take_encodeFirst_known (by decide)]
    split
    · exact Or.inr ⟨rfl, rfl⟩
    · exact Or.inl rfl
  | cons plan rest =>
    rw [List.flatMap_cons, List.append_assoc]
    exact Or.inl (decode_encodeFirst_known known plan _)

theorem replyItems_of_stores {effects : List Effect}
    (stores : ∀ effect ∈ effects, ∃ key, effect = .storedControl key) :
    replyItems effects = [] := by
  rw [replyItems, List.flatMap_eq_nil_iff]
  intro effect member
  obtain ⟨key, rfl⟩ := stores effect member
  rfl

/-- One step of the peer's reader, on the plans in order. -/
theorem Link.PlansInOrder.reads {kind : DialKind} {link : Link} {unread : List DhtMessage}
    {cut : Stream} (order : link.PlansInOrder unread cut) {received known : List GobType}
    {msg : DhtMessage} {rest : Stream} {peer : Node} {effects : List Effect}
    (ready : link.dialer = .reading received)
    (decoded : decode received link.toPeer = .message msg known rest)
    (handled : link.peer.readAs kind msg = .ok (peer, effects)) :
    ∃ others, unread = msg :: others ∧ peer = link.peer ∧ effects = [.punched msg] ∧
      link.delivered = [] ∧ known = gobTypes.reverse ∧
      rest = others.flatMap encodeMessage ++ cut := by
  have reader := order.reader
  simp only [ready] at reader
  rw [order.items (by rw [ready]; exact Dialer.noConfusion)] at decoded
  rcases reader with ⟨rfl, nothing⟩ | ⟨rfl, _⟩
  · rw [decode_unread unread order.cutShort] at decoded
    cases unread with
    | nil => cases decoded
    | cons _ others =>
      cases decoded
      have punches : msg.type = .punchPlan :=
        order.punches msg (by rw [order.split, nothing]; exact List.mem_cons_self)
      rw [Node.readAs_plan order.callback punches kind] at handled
      cases handled
      exact ⟨others, rfl, rfl, rfl, nothing, rfl, rfl⟩
  · rcases decode_unread_again unread order.cutShort with failed | ⟨_, waiting⟩
    · rw [failed] at decoded
      cases decoded
    · rw [waiting] at decoded
      cases decoded

/-- Every step keeps the plans in order. -/
theorem Link.PlansInOrder.moves {kind : DialKind} {conn : ConnId} {link next : Link}
    {unread : List DhtMessage} {cut : Stream} (order : link.PlansInOrder unread cut)
    (first : link.GreetingFirst) (moved : link.Moves kind conn next) :
    ∃ unread cut, next.PlansInOrder unread cut := by
  have reader := order.reader
  cases moved with
  | greets ready =>
    simp only [ready] at reader
    refine ⟨unread, cut, { order with items := fun _ => order.items ?_, reader := ?_ }⟩
    · rw [ready]
      exact Dialer.noConfusion
    · cases kind with
      | findNode targetID => exact reader
      | openControl => exact Or.inl ⟨rfl, reader⟩
  | asks targetID ready =>
    simp only [ready] at reader
    refine ⟨unread, cut, { order with items := fun _ => order.items ?_,
                                      reader := Or.inl ⟨rfl, reader⟩ }⟩
    rw [ready]
    exact Dialer.noConfusion
  | aborts writing =>
    have nothing : link.delivered = [] := by
      rcases writing with ready | ready
      all_goals
        simp only [ready] at reader
        exact reader
    refine ⟨unread, cut, { order with items := fun _ => order.items ?_, reader := nothing }⟩
    rcases writing with ready | ready
    all_goals
      rw [ready]
      exact Dialer.noConfusion
  | rejects ready rejected => exact ⟨unread, cut, { order with }⟩
  | serves ready decoded dispatched =>
    refine ⟨unread, cut, { order with items := fun stillOpen => ?_ }⟩
    rw [replyItems_of_stores (first.dispatched ready decoded dispatched).2, List.append_nil]
    exact order.items stillOpen
  | expires ready => exact ⟨unread, cut, { order with }⟩
  | elsewhere hub => exact ⟨unread, cut, { order with }⟩
  | @sends plan punches intact =>
    have whole : cut = [] := order.cutShort.1 intact
    refine ⟨unread ++ [plan], [], { order with
      punches := ?_, split := ?_, cutShort := CutShort.nil _, items := fun stillOpen => ?_ }⟩
    · intro other member
      rcases List.mem_append.mp member with old | new
      · exact order.punches other old
      · rw [List.mem_singleton.mp new]
        exact punches
    · rw [← List.append_assoc, ← order.split]
    · rw [order.items stillOpen, whole, List.append_nil, List.append_nil, List.flatMap_append,
        List.flatMap_singleton]
  | @cuts plan written intact short =>
    have whole : cut = [] := order.cutShort.1 intact
    refine ⟨unread, (encodeMessage plan).take written, { order with
      cutShort := ⟨Bool.noConfusion, plan, written, short, rfl⟩, items := fun stillOpen => ?_ }⟩
    rw [order.items stillOpen, whole, List.append_nil]
  | @closes received ready rejected =>
    rw [order.items (by rw [ready]; exact Dialer.noConfusion)] at rejected
    simp only [ready] at reader
    rcases reader with ⟨rfl, nothing⟩ | ⟨_, delivered⟩
    · rw [decode_unread unread order.cutShort] at rejected
      cases unread <;> cases rejected
    · exact ⟨unread, cut, { order with items := fun still => absurd rfl still,
                                       reader := delivered }⟩
  | reads ready decoded handled =>
    obtain ⟨others, rfl, rfl, rfl, nothing, rfl, rfl⟩ := order.reads ready decoded handled
    have split := order.split
    rw [nothing] at split
    refine ⟨others, cut, { order with
      split := ?_, items := fun _ => rfl, reader := Or.inr ⟨rfl, ?_⟩ }⟩
    · rw [nothing]
      exact split
    · rw [nothing]
      rfl

/-- In every run, the peer reads the plans in order. -/
theorem Link.plansInOrder_run {kind : DialKind} {conn : ConnId} {peer hub : Node}
    (callback : peer.onPunchPlan = true) {steps : List LinkStep} {link : Link}
    (ran : (Link.start peer hub).run kind conn steps = some link) :
    ∃ unread cut, link.PlansInOrder unread cut := by
  have both : link.GreetingFirst ∧ ∃ unread cut, link.PlansInOrder unread cut := by
    refine Runs.run_invariant
      (fun link : Link => link.GreetingFirst ∧ ∃ unread cut, link.PlansInOrder unread cut)
      ?_ ⟨Link.greetingFirst_start peer hub, [], [], Link.plansInOrder_start hub callback⟩ ran
    rintro state label next ⟨first, unread, cut, order⟩ stepped
    have moved := Link.moves_of_step stepped
    exact ⟨first.moves moved, order.moves first moved⟩
  exact both.2

/-- The plans whose sending succeeded are delivered, each once and in order, exactly when there
is at most one of them. -/
theorem plans_delivered_iff (kind : DialKind) (conn : ConnId) (peer hub : Node)
    (callback : peer.onPunchPlan = true) (steps : List LinkStep) (link : Link)
    (ran : (Link.start peer hub).run kind conn steps = some link) (drained : link.Drained) :
    link.delivered = link.accepted ↔ link.accepted.length ≤ 1 := by
  obtain ⟨unread, cut, order⟩ := Link.plansInOrder_run callback ran
  have reader := order.reader
  have exhausted : (link.delivered = [] ∧ unread = []) ∨ link.delivered.length = 1 := by
    cases dialer : link.dialer with
    | reading received =>
      simp only [Link.Drained, dialer] at drained
      rw [order.items (by rw [dialer]; exact Dialer.noConfusion)] at drained
      simp only [dialer] at reader
      rcases reader with ⟨rfl, nothing⟩ | ⟨_, one⟩
      · rw [decode_unread unread order.cutShort] at drained
        cases unread with
        | nil => exact Or.inl ⟨nothing, rfl⟩
        | cons plan rest => cases drained
      · exact Or.inr one
    | closed =>
      simp only [dialer] at reader
      exact Or.inr reader
    | dialed => simp only [Link.Drained, dialer] at drained
    | greeted => simp only [Link.Drained, dialer] at drained
    | aborted => simp only [Link.Drained, dialer] at drained
  rw [order.split]
  rcases exhausted with ⟨nothing, rfl⟩ | one
  · rw [nothing]
    exact iff_of_true rfl (Nat.zero_le 1)
  · rw [List.length_append, one, List.self_eq_append_right, ← List.length_eq_zero_iff]
    omega

/-- A hub stores a peer's connection and sends it plans, and the peer reads as often. -/
def plansRun (ids : List Text) : List LinkStep :=
  [.writeHello, .serve (text "198.51.100.7:40000") []] ++
    ids.map (fun id => .sendPlan { Contact.zero with publicKey := text "peer" }
      { targetPublicKey := text "other"
        targetEndpoint := text "203.0.113.5:51820"
        punchID := id
        start := 0
        window := 0
        ports := [] }) ++
    ids.map fun _ => .read

/-- One plan is delivered. -/
theorem plans_delivered_iff_one :
    ∃ link, (Link.start (Node.new (text "peer") 51822 []) (Node.new (text "hub") 51822 [])).run
        .openControl 0 (plansRun [text "first"]) = some link ∧
      link.accepted.map DhtMessage.punchID = [text "first"] ∧ link.Drained ∧
      link.delivered = link.accepted := by
  refine ⟨_, rfl, rfl, rfl, ?_⟩
  exact (plans_delivered_iff .openControl 0 (Node.new (text "peer") 51822 [])
    (Node.new (text "hub") 51822 []) rfl (plansRun [text "first"]) _ rfl rfl).mpr (Nat.le_refl 1)

/-- Two plans, both of whose sends succeed over the stored connection: the reader closes the
connection on the second and the callback is called with the first only. -/
theorem plans_second_lost :
    ((Link.start (Node.new (text "peer") 51822 []) (Node.new (text "hub") 51822 [])).run
      .openControl 0 (plansRun [text "first", text "second"])).map (fun link =>
        (link.dialer, link.accepted.map DhtMessage.punchID,
          link.delivered.map DhtMessage.punchID)) =
      some (.closed, [text "first", text "second"], [text "first"]) := by
  decide +kernel

end WgMesh.Dht
