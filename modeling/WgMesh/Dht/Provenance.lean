/-
This file follows every message of a network to where it came from.

No function writes a request as the first message of a connection, and
`handleConn` decodes no second one. So no registration is served and no answer is
written: the accepting end of a connection only ever writes punch plans, the
tables change by `Bootstrap` alone, and the callback for discovered peers is never
called. The connections a node has stored were dialed by the nodes whose keys they
are stored under, so a plan goes to the node it is meant for.
-/

import WgMesh.Dht.Fabric

namespace WgMesh.Dht

open Go

variable {Index : Type}

/-! ### Where tables, streams and plans come from -/

/-- A contact of the command line. Two seeds may name one identity: the entry then keeps the
first, with the address of another. -/
def Setup.Seeded (setup : Setup Index) (node : Index) (contact : Contact) : Prop :=
  ∃ first ∈ setup.seeds node, ∃ latest ∈ setup.seeds node,
    nodeID latest.publicKey = nodeID first.publicKey ∧
      contact = { first.contact with endpoint := latest.endpoint }

/-- A call that was meant for a node: it named the node's key, or dialed one of its addresses. -/
def Sending.MeantFor (setup : Setup Index) (node : Index) (sending : Sending Index) : Prop :=
  sending.contact.publicKey = setup.publicKey node ∨
    setup.accepts node sending.contact.controlAddress

/-- What a connection of this purpose may be dialed with, where its address reaches. -/
def Purpose.Sound (sent : List (Sending Index)) (Reaches : Text → Prop) : Purpose → Prop
  | .reader _ => True
  | .report msg => msg.type = .reportState
  | .plan msg => ∃ sending ∈ sent, sending.plan = msg ∧ Reaches sending.contact.controlAddress

/-- What the dialing end writes. -/
def Purpose.Writes (setup : Setup Index) (source : Index) (msg : DhtMessage) : Purpose → Prop
  | .reader _ =>
    (msg.type = .controlHello ∧ msg.publicKey = setup.publicKey source) ∨ msg.type = .findNode
  | .report message => msg = message
  | .plan message => msg = message

/-- The invariant of a connection. -/
structure Channel.Sound (setup : Setup Index) (sent : List (Sending Index))
    (channel : Channel Index) : Prop where
  purpose : channel.purpose.Sound sent fun address => setup.accepts channel.destination address
  written : ∀ msg ∈ values channel.toDestination,
    channel.purpose.Writes setup channel.source msg
  /-- The first message of a connection is no request. -/
  first : channel.handler = .decoding → ∀ msg, (values channel.toDestination).head? = some msg →
    msg.type ≠ .findNode
  /-- A request is written behind a greeting. -/
  greeted : channel.handler = .decoding → channel.dialer = .greeted →
    values channel.toDestination ≠ []
  /-- The accepting end writes plans for the dialing node, and nothing else. -/
  plans : ∀ msg ∈ values channel.toSource, ∃ sending ∈ sent, sending.plan = msg ∧
    sending.contact.publicKey = setup.publicKey channel.source

/-- The invariant of the network. -/
structure Fabric.Sound (setup : Setup Index) (fabric : Fabric Index) : Prop where
  publicKeys : ∀ node, (fabric.nodes node).publicKey = setup.publicKey node
  placed : ∀ node, (fabric.nodes node).table.WellPlaced
  tables : ∀ node, ∀ contact ∈ (fabric.nodes node).table.knownPeers, setup.Seeded node contact
  dials : ∀ dial ∈ fabric.dials, dial.purpose.Sound fabric.sent (· = dial.address)
  channels : ∀ channel ∈ fabric.channels, channel.Sound setup fabric.sent
  /-- A stored connection was dialed by the node whose key it is stored under. -/
  controls : ∀ node key conn, (fabric.nodes node).controlConns.lookup key = some conn →
    ∃ channel, fabric.channels[conn]? = some channel ∧ channel.destination = node ∧
      setup.publicKey channel.source = key
  callbacks : fabric.callbacks = []
  sent : ∀ sending ∈ fabric.sent, sending.plan.type = .punchPlan
  delivered : ∀ entry ∈ fabric.delivered, ∃ sending ∈ fabric.sent,
    sending.plan = entry.2 ∧ sending.MeantFor setup entry.1

theorem Setup.sound_fabric (setup : Setup Index) : setup.fabric.Sound setup where
  publicKeys := fun _ => rfl
  placed := fun node => Table.wellPlaced_new (setup.publicKey node)
  tables := by
    intro node contact member
    rw [show (setup.fabric.nodes node).table.knownPeers = [] from
      knownPeers_new (setup.publicKey node)] at member
    cases member
  dials := List.forall_mem_nil _
  channels := List.forall_mem_nil _
  controls := by
    intro node key conn stored
    cases stored
  callbacks := rfl
  sent := List.forall_mem_nil _
  delivered := List.forall_mem_nil _

theorem Purpose.Sound.mono {sent more : List (Sending Index)} {Reaches : Text → Prop}
    {purpose : Purpose} (sound : purpose.Sound sent Reaches) :
    purpose.Sound (sent ++ more) Reaches := by
  cases purpose with
  | reader kind => trivial
  | report msg => exact sound
  | plan msg =>
    obtain ⟨sending, member, same, reaches⟩ := sound
    exact ⟨sending, List.mem_append_left _ member, same, reaches⟩

theorem Purpose.Sound.imp {sent : List (Sending Index)} {Reaches Accepts : Text → Prop}
    {purpose : Purpose} (sound : purpose.Sound sent Reaches)
    (weaker : ∀ address, Reaches address → Accepts address) : purpose.Sound sent Accepts := by
  cases purpose with
  | reader kind => trivial
  | report msg => exact sound
  | plan msg =>
    obtain ⟨sending, member, same, reaches⟩ := sound
    exact ⟨sending, member, same, weaker _ reaches⟩

theorem Channel.Sound.mono {setup : Setup Index} {sent more : List (Sending Index)}
    {channel : Channel Index} (sound : channel.Sound setup sent) :
    channel.Sound setup (sent ++ more) :=
  { sound with
    purpose := sound.purpose.mono
    plans := by
      intro msg member
      obtain ⟨sending, known, same⟩ := sound.plans msg member
      exact ⟨sending, List.mem_append_left _ known, same⟩ }

/-- What `handleConn` does with a message that is no query. -/
structure Node.Receives (node : Node) (conn : ConnId) (msg : DhtMessage) (next : Node)
    (effects : List Effect) (after : AfterDispatch) : Prop where
  table : next.table = node.table
  publicKey : next.publicKey = node.publicKey
  unannounced : discoveredContacts effects = []
  unanswered : replyItems effects = []
  finished : after.handler ≠ .decoding
  stores : ∀ key stored, next.controlConns.lookup key = some stored →
    node.controlConns.lookup key = some stored ∨
      (msg.type = .controlHello ∧ key = msg.publicKey ∧ stored = conn)
  punches : punchedPlans effects = [] ∨ (msg.type = .punchPlan ∧ punchedPlans effects = [msg])

theorem Node.receives_greeting (node : Node) (conn : ConnId) {hello : DhtMessage}
    (greeting : hello.type = .controlHello) :
    node.Receives conn hello (node.storing hello.publicKey conn)
      (if hello.publicKey ≠ [] then [.storedControl hello.publicKey] else []) .parked := by
  unfold Node.storing
  by_cases named : hello.publicKey ≠ []
  · rw [if_pos named, if_pos named]
    refine ⟨rfl, rfl, rfl, rfl, by decide, fun key stored found => ?_, Or.inl rfl⟩
    by_cases same : key = hello.publicKey
    · subst same
      rw [AList.lookup_insert] at found
      exact Or.inr ⟨greeting, rfl, (Option.some.inj found).symm⟩
    · rw [AList.lookup_insert_ne same] at found
      exact Or.inl found
  · rw [if_neg named, if_neg named]
    exact ⟨rfl, rfl, rfl, rfl, by decide, fun _ _ => Or.inl, Or.inl rfl⟩

/-- Greetings, reports and plans change no table and are not answered. -/
theorem Node.receives_of_dispatch {node next : Node} {conn : ConnId} {remoteAddr observed : Text}
    {msg : DhtMessage} {effects : List Effect} {after : AfterDispatch}
    (kinds : msg.type = .controlHello ∨ msg.type = .reportState ∨ msg.type = .punchPlan)
    (dispatched : node.dispatch conn remoteAddr observed msg = .ok (next, effects, after)) :
    node.Receives conn msg next effects after := by
  rcases kinds with hello | report | plan
  · rw [node.dispatch_greeting_eq conn remoteAddr observed hello] at dispatched
    cases dispatched
    exact node.receives_greeting conn hello
  · unfold Node.dispatch at dispatched
    rw [report] at dispatched
    obtain ⟨_, _, dispatched⟩ := bind_eq_ok.mp dispatched
    cases dispatched
    exact ⟨rfl, rfl, rfl, rfl, by decide, fun _ _ => Or.inl, Or.inl rfl⟩
  · unfold Node.dispatch at dispatched
    rw [plan] at dispatched
    by_cases callback : node.onPunchPlan
    · rw [if_pos callback] at dispatched
      cases dispatched
      exact ⟨rfl, rfl, rfl, rfl, by decide, fun _ _ => Or.inl, Or.inr ⟨plan, rfl⟩⟩
    · rw [if_neg callback] at dispatched
      cases dispatched
      exact ⟨rfl, rfl, rfl, rfl, by decide, fun _ _ => Or.inl, Or.inl rfl⟩

/-- A reader that gets a plan gives it to the callback. -/
theorem Node.of_readAs {node next : Node} {kind : DialKind} {msg : DhtMessage}
    {effects : List Effect} (plan : msg.type = .punchPlan)
    (handled : node.readAs kind msg = .ok (next, effects)) :
    next = node ∧ effects = if node.onPunchPlan then [.punched msg] else [] := by
  cases kind with
  | findNode targetID =>
    simp only [Node.readAs, Node.readResponse, plan] at handled
    cases handled
    exact ⟨rfl, rfl⟩
  | openControl =>
    simp only [Node.readAs, Node.readControl, plan, true_and] at handled
    split at handled
    · rename_i callback
      cases handled
      exact ⟨rfl, (if_pos callback).symm⟩
    · rename_i silent
      cases handled
      exact ⟨rfl, (if_neg silent).symm⟩

/-! ### Every step of a connection keeps its invariant -/

section Channel

variable {setup : Setup Index} {sent : List (Sending Index)} {channel : Channel Index}

/-- A message is written behind what is there. -/
theorem Channel.Sound.write (sound : channel.Sound setup sent) {msg : DhtMessage}
    {dialer : Dialer} (writes : channel.purpose.Writes setup channel.source msg)
    (behind : channel.handler = .decoding → values channel.toDestination = [] →
      msg.type ≠ .findNode) :
    Channel.Sound setup sent { channel with
      toDestination := channel.toDestination ++ encodeMessage msg
      dialer := dialer } :=
  have messages : values (channel.toDestination ++ encodeMessage msg) =
      values channel.toDestination ++ [msg] := by
    rw [values_append, encodeMessage, values_encodeFirst]
  { sound with
    written := by
      intro other member
      rw [messages] at member
      rcases List.mem_append.mp member with old | new
      · exact sound.written other old
      · exact List.mem_singleton.mp new ▸ writes
    first := by
      intro decoding other head
      rw [messages] at head
      cases before : values channel.toDestination with
      | nil =>
        rw [before] at head
        exact Option.some.inj head ▸ behind decoding before
      | cons first rest =>
        rw [before] at head
        exact sound.first decoding other (by rw [before]; exact head)
    greeted := by
      intro _ _ empty
      rw [messages] at empty
      exact List.append_ne_nil_of_right_ne_nil _ (List.cons_ne_nil _ _) empty }

/-- A write of the dialing end fails, and the end gives up. -/
theorem Channel.Sound.abort (sound : channel.Sound setup sent) (msg : DhtMessage) {written : Nat}
    (short : written ≤ gobTypes.length) :
    Channel.Sound setup sent { channel with
      toDestination := channel.toDestination ++ (encodeMessage msg).take written
      dialer := .aborted } :=
  have messages : values (channel.toDestination ++ (encodeMessage msg).take written) =
      values channel.toDestination := by
    rw [values_append, encodeMessage, values_take_encodeFirst gobTypes msg short, List.append_nil]
  { sound with
    written := by
      rw [messages]
      exact sound.written
    first := by
      rw [messages]
      exact sound.first
    greeted := fun _ aborted => Dialer.noConfusion aborted }

/-- The accepting end has decoded its one message. -/
theorem Channel.Sound.finish (sound : channel.Sound setup sent) {handler : Handler}
    (finished : handler ≠ .decoding) {rest : Stream}
    (left : ∀ msg ∈ values rest, msg ∈ values channel.toDestination) :
    Channel.Sound setup sent { channel with handler := handler, toDestination := rest } :=
  { sound with
    written := fun msg member => sound.written msg (left msg member)
    first := fun decoding => absurd decoding finished
    greeted := fun decoding => absurd decoding finished }

/-- The reader goes on behind a message, or stops. -/
theorem Channel.Sound.advance (sound : channel.Sound setup sent) {dialer : Dialer}
    (past : dialer ≠ .greeted) {rest : Stream}
    (left : ∀ msg ∈ values rest, msg ∈ values channel.toSource) :
    Channel.Sound setup sent { channel with toSource := rest, dialer := dialer } :=
  { sound with
    greeted := fun _ greeted => absurd greeted past
    plans := fun msg member => sound.plans msg (left msg member) }

/-- The accepting node writes a plan for the dialing node, or a part of one. -/
theorem Channel.Sound.answer (sound : channel.Sound setup sent) {items : Stream} {broken : Bool}
    (plans : ∀ msg ∈ values items, ∃ sending ∈ sent, sending.plan = msg ∧
      sending.contact.publicKey = setup.publicKey channel.source) :
    Channel.Sound setup sent { channel with
      toSource := channel.toSource ++ items
      broken := broken } :=
  { sound with
    plans := by
      intro msg member
      rw [values_append] at member
      exact (List.mem_append.mp member).elim (sound.plans msg) (plans msg) }

end Channel

/-! ### Every event keeps the invariant -/

section Sound

variable {setup : Setup Index} {fabric : Fabric Index}

theorem Fabric.Sound.channel (sound : fabric.Sound setup) {conn : ConnId}
    {channel : Channel Index} (found : fabric.channels[conn]? = some channel) :
    channel.Sound setup fabric.sent :=
  sound.channels channel (List.mem_of_getElem? found)

/-- A connection is rewritten between the same ends. -/
theorem Fabric.Sound.set (sound : fabric.Sound setup) {conn : ConnId}
    {channel next : Channel Index} (found : fabric.channels[conn]? = some channel)
    (kept : next.Sound setup fabric.sent) (source : next.source = channel.source)
    (destination : next.destination = channel.destination) :
    Fabric.Sound setup { fabric with channels := fabric.channels.set conn next } :=
  { sound with
    channels := by
      intro other member
      rcases List.mem_or_eq_of_mem_set member with old | rfl
      · exact sound.channels other old
      · exact kept
    controls := by
      intro node key stored lookup
      obtain ⟨old, oldFound, oldDestination, oldSource⟩ := sound.controls node key stored lookup
      by_cases same : stored = conn
      · subst same
        obtain rfl := Option.some.inj (oldFound.symm.trans found)
        obtain ⟨inRange, _⟩ := List.getElem?_eq_some_iff.mp found
        exact ⟨next, List.getElem?_set_self inRange, destination.trans oldDestination,
          by rw [source, oldSource]⟩
      · refine ⟨old, ?_, oldDestination, oldSource⟩
        rw [← oldFound]
        exact List.getElem?_set_ne (Ne.symm same) }

/-- A node changes its table or its stored connections. -/
theorem Fabric.Sound.update [DecidableEq Index] (sound : fabric.Sound setup) {node : Index}
    {next : Node}
    (publicKey : next.publicKey = (fabric.nodes node).publicKey)
    (placed : next.table.WellPlaced)
    (seeded : ∀ contact ∈ next.table.knownPeers, setup.Seeded node contact)
    (stores : ∀ key conn, next.controlConns.lookup key = some conn →
      (fabric.nodes node).controlConns.lookup key = some conn ∨
        ∃ channel, fabric.channels[conn]? = some channel ∧ channel.destination = node ∧
          setup.publicKey channel.source = key) :
    Fabric.Sound setup { fabric with nodes := Function.update fabric.nodes node next } :=
  { sound with
    publicKeys := by
      intro other
      by_cases same : other = node
      · subst same
        exact (congrArg Node.publicKey (Function.update_self _ _ _)).trans
          (publicKey.trans (sound.publicKeys other))
      · exact (congrArg Node.publicKey (Function.update_of_ne same _ _)).trans
          (sound.publicKeys other)
    placed := by
      intro other
      by_cases same : other = node
      · subst same
        simpa only [Function.update_self] using placed
      · simpa only [Function.update_of_ne same] using sound.placed other
    tables := by
      intro other
      by_cases same : other = node
      · subst same
        simpa only [Function.update_self] using seeded
      · simpa only [Function.update_of_ne same] using sound.tables other
    controls := by
      intro other key conn found
      by_cases same : other = node
      · subst same
        simp only [Function.update_self] at found
        exact (stores key conn found).elim (sound.controls other key conn) id
      · simp only [Function.update_of_ne same] at found
        exact sound.controls other key conn found }

/-- A node changes nothing that the invariant speaks of. -/
theorem Fabric.Sound.update_same [DecidableEq Index] (sound : fabric.Sound setup) {node : Index}
    {next : Node}
    (publicKey : next.publicKey = (fabric.nodes node).publicKey)
    (table : next.table = (fabric.nodes node).table)
    (controls : next.controlConns = (fabric.nodes node).controlConns) :
    Fabric.Sound setup { fabric with nodes := Function.update fabric.nodes node next } :=
  sound.update publicKey (by rw [table]; exact sound.placed node)
    (by rw [table]; exact sound.tables node) (fun _ _ found => Or.inl (by rwa [controls] at found))

/-- A call of `SendPunchPlan` is recorded. -/
theorem Fabric.Sound.record (sound : fabric.Sound setup) (node : Index) (contact : Contact)
    {plan : DhtMessage} (punches : plan.type = .punchPlan) :
    Fabric.Sound setup { fabric with sent := fabric.sent ++ [⟨node, contact, plan⟩] } :=
  { sound with
    dials := fun dial member => (sound.dials dial member).mono
    channels := fun channel member => (sound.channels channel member).mono
    sent := by
      intro sending member
      rcases List.mem_append.mp member with old | new
      · exact sound.sent sending old
      · obtain rfl := List.mem_singleton.mp new
        exact punches
    delivered := by
      intro entry member
      obtain ⟨sending, known, meant⟩ := sound.delivered entry member
      exact ⟨sending, List.mem_append_left _ known, meant⟩ }

/-- A plan is given to the callback of a node it was meant for. -/
theorem Fabric.Sound.deliver (sound : fabric.Sound setup) {node : Index} {plans : List DhtMessage}
    (meant : ∀ plan ∈ plans, ∃ sending ∈ fabric.sent, sending.plan = plan ∧
      sending.MeantFor setup node) :
    Fabric.Sound setup { fabric with delivered := fabric.delivered ++ plans.map (node, ·) } :=
  { sound with
    delivered := by
      intro entry member
      rcases List.mem_append.mp member with old | new
      · exact sound.delivered entry old
      · obtain ⟨plan, listed, rfl⟩ := List.mem_map.mp new
        exact meant plan listed }

theorem Fabric.Sound.start (sound : fabric.Sound setup) {started : List (Dial Index)}
    (allowed : ∀ dial ∈ started, dial.purpose.Sound fabric.sent (· = dial.address)) :
    Fabric.Sound setup { fabric with dials := fabric.dials ++ started } :=
  { sound with
    dials := by
      intro dial member
      rcases List.mem_append.mp member with old | new
      · exact sound.dials dial old
      · exact allowed dial new }

theorem Fabric.Sound.drop (sound : fabric.Sound setup) (choice : Nat) :
    Fabric.Sound setup { fabric with dials := fabric.dials.eraseIdx choice } :=
  { sound with dials := fun dial member => sound.dials dial (List.mem_of_mem_eraseIdx member) }

/-- A dial is accepted by a node that its address reaches. -/
theorem Fabric.Sound.connect (sound : fabric.Sound setup) {dial : Dial Index}
    {destination : Index} (waiting : dial ∈ fabric.dials)
    (accepts : setup.accepts destination dial.address) :
    Fabric.Sound setup { fabric with
      channels := fabric.channels ++ [dial.accepted destination] } :=
  { sound with
    channels := by
      intro channel member
      rcases List.mem_append.mp member with old | new
      · exact sound.channels channel old
      · obtain rfl := List.mem_singleton.mp new
        refine ⟨(sound.dials dial waiting).imp fun _ same => same ▸ accepts,
          List.forall_mem_nil _, fun _ _ none => (Option.some_ne_none _ none.symm).elim,
          fun _ greeted => Dialer.noConfusion greeted, List.forall_mem_nil _⟩
    controls := by
      intro node key conn lookup
      obtain ⟨channel, found, ends⟩ := sound.controls node key conn lookup
      obtain ⟨inRange, _⟩ := List.getElem?_eq_some_iff.mp found
      exact ⟨channel, (List.getElem?_append_left inRange).trans found, ends⟩ }

/-- The messages on the way to an accepting node. -/
inductive Channel.Carries (setup : Setup Index) (sent : List (Sending Index))
    (channel : Channel Index) (msg : DhtMessage) : Prop
  | hello (type : msg.type = .controlHello)
      (publicKey : msg.publicKey = setup.publicKey channel.source) : Carries setup sent channel msg
  | request (type : msg.type = .findNode) : Carries setup sent channel msg
  | report (type : msg.type = .reportState) : Carries setup sent channel msg
  | plan (sending : Sending Index) (type : msg.type = .punchPlan) (known : sending ∈ sent)
      (same : sending.plan = msg)
      (accepts : setup.accepts channel.destination sending.contact.controlAddress) :
      Carries setup sent channel msg

theorem Fabric.Sound.carries (sound : fabric.Sound setup) {channel : Channel Index}
    (kept : channel.Sound setup fabric.sent) {msg : DhtMessage}
    (member : msg ∈ values channel.toDestination) : channel.Carries setup fabric.sent msg := by
  have writes := kept.written msg member
  have purpose := kept.purpose
  cases dialed : channel.purpose with
  | reader kind =>
    rw [dialed] at writes
    rcases writes with ⟨type, publicKey⟩ | type
    · exact .hello type publicKey
    · exact .request type
  | report message =>
    rw [dialed] at writes purpose
    exact .report (writes ▸ purpose)
  | plan message =>
    rw [dialed] at writes purpose
    obtain ⟨sending, known, same, accepts⟩ := purpose
    rw [← show msg = message from writes] at same
    exact .plan sending (same ▸ sound.sent sending known) known same accepts

/-- One round of `Bootstrap` places a seed. -/
theorem Fabric.Sound.bootstrap [DecidableEq Index] (sound : fabric.Sound setup) {node : Index}
    {seed : Seed} {next : Node} (listed : seed ∈ setup.seeds node)
    (done : (fabric.nodes node).bootstrapSeed seed.contact = .ok next) :
    Fabric.Sound setup { fabric with nodes := Function.update fabric.nodes node next } := by
  obtain ⟨_, _, done⟩ := bind_eq_ok.mp done
  obtain ⟨table, inserted, done⟩ := bind_eq_ok.mp done
  obtain rfl := Table.eq_place_of_insert inserted
  cases done
  refine sound.update rfl ((sound.placed node).place _) ?_ fun _ _ => Or.inl
  intro contact member
  rcases (sound.placed node).mem_place.mp member with
    ⟨old, _⟩ | ⟨old, oldMember, same, rfl⟩ | ⟨_, rfl⟩
  · exact sound.tables node contact old
  · obtain ⟨first, firstListed, latest, _, _, rfl⟩ := sound.tables node old oldMember
    exact ⟨first, firstListed, seed, listed, same.symm, rfl⟩
  · exact ⟨seed, listed, seed, listed, rfl, rfl⟩

/-- The first message of a connection is no request, so it is not answered. -/
theorem Fabric.Sound.receives (sound : fabric.Sound setup) {conn : ConnId}
    {channel : Channel Index} {remoteAddr observed : Text} {msg : DhtMessage}
    {received : List GobType} {rest : Stream} {next : Node} {effects : List Effect}
    {after : AfterDispatch} (found : fabric.channels[conn]? = some channel)
    (ready : channel.handler = .decoding)
    (decoded : decode [] channel.toDestination = .message msg received rest)
    (dispatched : (fabric.nodes channel.destination).dispatch conn remoteAddr observed msg =
      .ok (next, effects, after)) :
    (fabric.nodes channel.destination).Receives conn msg next effects after := by
  have kept := sound.channel found
  have messages := values_of_decode decoded
  refine Node.receives_of_dispatch ?_ dispatched
  cases sound.carries kept (messages ▸ List.mem_cons_self) with
  | hello type _ => exact Or.inl type
  | request type => exact absurd type (kept.first ready msg (by rw [messages]; rfl))
  | report type => exact Or.inr (Or.inl type)
  | plan _ type _ _ _ => exact Or.inr (Or.inr type)

/-- A connection is served. -/
theorem Fabric.Sound.serve [DecidableEq Index] (sound : fabric.Sound setup) {conn : ConnId}
    {channel : Channel Index} {remoteAddr observed : Text} {msg : DhtMessage}
    {received : List GobType} {rest : Stream} {next : Node} {effects : List Effect}
    {after : AfterDispatch} (found : fabric.channels[conn]? = some channel)
    (ready : channel.handler = .decoding)
    (decoded : decode [] channel.toDestination = .message msg received rest)
    (dispatched : (fabric.nodes channel.destination).dispatch conn remoteAddr observed msg =
      .ok (next, effects, after)) :
    Fabric.Sound setup { fabric with
      nodes := Function.update fabric.nodes channel.destination next
      channels := fabric.channels.set conn { channel with
        handler := after.handler
        toDestination := rest
        toSource := channel.toSource ++ replyItems effects }
      callbacks := fabric.callbacks ++ (discoveredContacts effects).map (channel.destination, ·)
      delivered := fabric.delivered ++ (punchedPlans effects).map (channel.destination, ·) } := by
  have kept := sound.channel found
  have messages := values_of_decode decoded
  have carried := sound.carries kept (messages ▸ List.mem_cons_self)
  have receives := sound.receives found ready decoded dispatched
  have updated : Fabric.Sound setup { fabric with
      nodes := Function.update fabric.nodes channel.destination next } := by
    refine sound.update receives.publicKey (by rw [receives.table]; exact sound.placed _)
      (by rw [receives.table]; exact sound.tables _) fun key stored lookup => ?_
    refine (receives.stores key stored lookup).imp_right ?_
    rintro ⟨greeting, rfl, rfl⟩
    refine ⟨channel, found, rfl, ?_⟩
    cases carried with
    | hello _ publicKey => exact publicKey.symm
    | request type => rw [greeting] at type; cases type
    | report type => rw [greeting] at type; cases type
    | plan _ type _ _ _ => rw [greeting] at type; cases type
  have finished : Channel.Sound setup fabric.sent { channel with
      handler := after.handler
      toDestination := rest } :=
    kept.finish receives.finished fun other member => by
      rw [messages]
      exact List.mem_cons_of_mem _ member
  have meant : ∀ plan ∈ punchedPlans effects, ∃ sending ∈ fabric.sent, sending.plan = plan ∧
      sending.MeantFor setup channel.destination := by
    intro plan member
    rcases receives.punches with none | ⟨type, one⟩
    · rw [none] at member
      cases member
    · rw [one] at member
      obtain rfl := List.mem_singleton.mp member
      cases carried with
      | hello type' _ => rw [type] at type'; cases type'
      | request type' => rw [type] at type'; cases type'
      | report type' => rw [type] at type'; cases type'
      | plan sending _ known same accepts => exact ⟨sending, known, same, Or.inr accepts⟩
  simp only [receives.unannounced, receives.unanswered, List.map_nil, List.append_nil]
  exact (updated.set found finished rfl rfl).deliver meant

/-- A reader gets a plan that its own node was sent. -/
theorem Fabric.Sound.read [DecidableEq Index] (sound : fabric.Sound setup) {conn : ConnId}
    {channel : Channel Index} {kind : DialKind} {msg : DhtMessage} {received known : List GobType}
    {rest : Stream} {next : Node} {effects : List Effect}
    (found : fabric.channels[conn]? = some channel)
    (decoded : decode received channel.toSource = .message msg known rest)
    (handled : (fabric.nodes channel.source).readAs kind msg = .ok (next, effects)) :
    Fabric.Sound setup { fabric with
      nodes := Function.update fabric.nodes channel.source next
      channels := fabric.channels.set conn { channel with
        toSource := rest
        dialer := .reading known }
      callbacks := fabric.callbacks ++ (discoveredContacts effects).map (channel.source, ·)
      delivered := fabric.delivered ++ (punchedPlans effects).map (channel.source, ·) } := by
  have kept := sound.channel found
  have messages := values_of_decode decoded
  obtain ⟨sending, listed, same, meant⟩ := kept.plans msg (messages ▸ List.mem_cons_self)
  obtain ⟨rfl, rfl⟩ := Node.of_readAs (same ▸ sound.sent sending listed) handled
  have advanced : Channel.Sound setup fabric.sent { channel with
      toSource := rest
      dialer := .reading known } :=
    kept.advance (by simp) fun other member => by
      rw [messages]
      exact List.mem_cons_of_mem _ member
  have updated : Fabric.Sound setup { fabric with
      nodes := Function.update fabric.nodes channel.source (fabric.nodes channel.source) } :=
    sound.update_same rfl rfl rfl
  have read := updated.set found advanced rfl rfl
  by_cases callback : (fabric.nodes channel.source).onPunchPlan
  · rw [if_pos callback]
    simp only [discoveredContacts, List.filterMap_cons, List.filterMap_nil, List.map_nil,
      List.append_nil]
    exact read.deliver (List.forall_mem_singleton.mpr ⟨sending, listed, same, Or.inl meant⟩)
  · rw [if_neg callback]
    simp only [discoveredContacts, punchedPlans, List.filterMap_nil, List.map_nil,
      List.append_nil]
    exact read

theorem Fabric.Sound.moves [DecidableEq Index] (sound : fabric.Sound setup) {next : Fabric Index}
    (moved : fabric.Moves setup next) : next.Sound setup := by
  cases moved with
  | bootstraps kind listed done =>
    exact (sound.bootstrap listed done).start (List.forall_mem_singleton.mpr trivial)
  | refreshes node contacts kind =>
    refine sound.start fun dial member => ?_
    obtain ⟨contact, _, rfl⟩ := List.mem_map.mp member
    trivial
  | publishes node endpoint => exact sound.update_same rfl rfl rfl
  | connects waiting accepts =>
    exact (sound.connect (List.mem_of_getElem? waiting) accepts).drop _
  | gives choice => exact sound.drop choice
  | @opens conn channel found ready =>
    have kept := sound.channel found
    refine sound.set found (kept.write ?_ fun _ _ => ?_) rfl rfl
    · cases channel.purpose with
      | reader kind => exact Or.inl ⟨rfl, sound.publicKeys channel.source⟩
      | report msg => rfl
      | plan msg => rfl
    · have purpose := kept.purpose
      cases dialed : channel.purpose with
      | reader kind => exact MsgType.noConfusion
      | report msg =>
        rw [dialed] at purpose
        rw [Purpose.opening, show msg.type = .reportState from purpose]
        exact MsgType.noConfusion
      | plan msg =>
        rw [dialed] at purpose
        obtain ⟨sending, known, rfl, _⟩ := purpose
        rw [Purpose.opening, sound.sent sending known]
        exact MsgType.noConfusion
  | asks found ready purpose =>
    have kept := sound.channel found
    refine sound.set found (kept.write ?_ fun decoding empty => ?_) rfl rfl
    · rw [purpose]
      exact Or.inr rfl
    · exact absurd empty (kept.greeted decoding ready)
  | aborts msg found short =>
    exact sound.set found ((sound.channel found).abort msg short) rfl rfl
  | releases found =>
    exact sound.set found ((sound.channel found).finish (by decide) fun _ => id) rfl rfl
  | serves found ready decoded dispatched => exact sound.serve found ready decoded dispatched
  | reads found decoded handled => exact sound.read found decoded handled
  | closes found =>
    exact sound.set found ((sound.channel found).advance (by decide) fun _ => id) rfl rfl
  | calls started called =>
    rw [sound.callbacks] at called
    cases called
  | @sends conn channel node contact args found stored =>
    have recorded := sound.record node contact
      (show ((fabric.nodes node).planMessage args).type = .punchPlan from rfl)
    refine recorded.set found ((recorded.channel found).answer ?_) rfl rfl
    rw [encodeMessage, values_encodeFirst]
    refine List.forall_mem_singleton.mpr
      ⟨_, List.mem_append_right _ (List.mem_singleton_self _), rfl, ?_⟩
    obtain ⟨other, otherFound, _, source⟩ := sound.controls node _ conn stored
    obtain rfl := Option.some.inj (otherFound.symm.trans found)
    exact source.symm
  | @redirects node contact args =>
    refine (sound.record node contact rfl).start (List.forall_mem_singleton.mpr ?_)
    exact ⟨_, List.mem_append_right _ (List.mem_singleton_self _), rfl, rfl⟩
  | cuts plan found short =>
    refine sound.set found ((sound.channel found).answer ?_) rfl rfl
    rw [encodeMessage, values_take_encodeFirst gobTypes plan short]
    exact List.forall_mem_nil _
  | stays => exact sound

end Sound

/-! ### What holds in every run -/

theorem Fabric.sound_run [DecidableEq Index] {setup : Setup Index}
    {events : List (FabricEvent Index)} {fabric : Fabric Index}
    (ran : setup.fabric.run setup events = some fabric) : fabric.Sound setup := by
  refine Runs.run_invariant (Fabric.Sound setup) ?_ setup.sound_fabric ran
  intro fabric event next sound stepped
  exact sound.moves (Fabric.moves_of_step stepped)

/-- In a network of nodes that all run this code nobody discovers anybody: whatever happens,
the callback for discovered peers is never called, and a table holds nothing but the seeds of
its node's command line, without a public endpoint or a control address. -/
theorem discovery_never_happens [DecidableEq Index] (setup : Setup Index)
    (events : List (FabricEvent Index)) (fabric : Fabric Index)
    (ran : setup.fabric.run setup events = some fabric) :
    fabric.callbacks = [] ∧ ∀ node, ∀ contact ∈ (fabric.nodes node).table.knownPeers,
      setup.Seeded node contact ∧ contact.publicEndpoint = [] ∧ contact.controlEndpoint = [] := by
  have sound := Fabric.sound_run ran
  refine ⟨sound.callbacks, fun node contact member => ?_⟩
  have seeded := sound.tables node contact member
  obtain ⟨first, _, latest, _, _, rfl⟩ := seeded
  exact ⟨sound.tables node _ member, rfl, rfl⟩

/-- A node bootstraps with a hub, which serves the connection. -/
def joins {Index : Type} (hub node : Index) : List (FabricEvent Index) :=
  [.bootstrap node 0, .dial 0 hub, .writeFirst 0, .writeRequest 0,
    .serve 0 (text "203.0.113.2:40000") []]

/-- The first hub has served the second one's connection and does not know it. -/
theorem discovery_never_happens_joins :
    ∃ fabric, twoHubs.fabric.run twoHubs (joins 0 1) = some fabric ∧
      fabric.channels.map Channel.handler = [.parked] ∧ fabric.callbacks = [] ∧
      ∀ node, ∀ contact ∈ (fabric.nodes node).table.knownPeers, twoHubs.Seeded node contact ∧
        contact.publicEndpoint = [] ∧ contact.controlEndpoint = [] := by
  have served : (twoHubs.fabric.run twoHubs (joins 0 1)).map
      (fun fabric => fabric.channels.map Channel.handler) = some [.parked] := by
    decide +kernel
  obtain ⟨fabric, ran, parked⟩ := Option.map_eq_some_iff.mp served
  exact ⟨fabric, ran, parked, discovery_never_happens twoHubs (joins 0 1) fabric ran⟩

end WgMesh.Dht
