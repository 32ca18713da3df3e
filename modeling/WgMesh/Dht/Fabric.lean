/-
This file models a whole network of DHT nodes with every connection between
them, from the dial to the last byte that is read.

Four functions dial. `findNode` and `OpenControl` greet, and leave a reader on the
connection; `findNode` writes its request behind the greeting. `SendState` and the
fallback of `SendPunchPlan` write one message and close. At the other end
`handleConn` decodes one message and dispatches it. `SendPunchPlan` may also write
on an accepted connection that a greeting has stored. Dials, writes, the serving
of a connection and the reading of it are separate events, writes may fail
halfway, and connections may break, so a run is any interleaving of all of this.
-/

import WgMesh.Dht.Control
import WgMesh.Dht.Identity

namespace WgMesh.Dht

open Go

/-! ### What a node starts -/

/-- What a connection was dialed for. -/
inductive Purpose where
  /-- `findNode` or `OpenControl`. -/
  | reader (kind : DialKind)
  /-- `SendState`, with the report it sends. -/
  | report (msg : DhtMessage)
  /-- `SendPunchPlan` to a peer without a stored connection, with the plan it sends. -/
  | plan (msg : DhtMessage)
  deriving DecidableEq, Repr

/-- The message that is written first. -/
def Purpose.opening (node : Node) : Purpose → DhtMessage
  | .reader _ => node.controlHello
  | .report msg => msg
  | .plan msg => msg

/-- The dialing end once the first message is written. -/
def Purpose.opened : Purpose → Dialer
  | .reader (.findNode _) => .greeted
  | .reader .openControl => .reading []
  | .report _ => .closed
  | .plan _ => .closed

/-- The report of `SendState`, and the address it goes to. The identity that is logged
afterwards has forty digits, so its slice exists. -/
def Node.sendState (node : Node) (peerPubKey state endpoint : Text) : Option (Text × DhtMessage) :=
  if node.seedContact.publicKey = [] then none
  else some (node.seedContact.endpoint,
    { type := .reportState
      senderID := node.table.selfID
      targetID := nodeID peerPubKey
      publicKey := node.publicKey
      wgEndpoint := endpoint
      state := state })

/-- The endpoint that the callback of `main` gives to WireGuard. -/
def Contact.wgEndpoint (contact : Contact) : Text :=
  if contact.publicEndpoint ≠ [] then contact.publicEndpoint else contact.endpoint

/-- The dials of the callback that `main` registers for discovered peers, by whether its
`SetPeer` has succeeded. Both log lines slice the key. -/
def Node.peerCallback (node : Node) (contact : Contact) (configured : Bool) :
    Except Panic (List (Text × Purpose)) :=
  if contact.publicKey = [] then return []
  else do
    let _ ← upTo contact.publicKey 16
    if configured then
      let opened := if contact.controlEndpoint ≠ [] then
        [(contact.controlAddress, Purpose.reader .openControl)] else []
      let reported := node.sendState contact.publicKey (text "connected") contact.wgEndpoint
      return opened ++ (reported.map fun sent => (sent.1, Purpose.report sent.2)).toList
    else return []

/-! ### The network -/

/-- A dial that has not come to its end. -/
structure Dial (Index : Type) where
  source : Index
  address : Text
  purpose : Purpose

/-- A connection between two nodes. -/
structure Channel (Index : Type) where
  source : Index
  destination : Index
  purpose : Purpose
  dialer : Dialer
  handler : Handler
  toDestination : Stream
  toSource : Stream
  /-- A write of the accepting node has failed. -/
  broken : Bool

/-- A connection that has been dialed and accepted. -/
def Dial.accepted {Index : Type} (dial : Dial Index) (destination : Index) : Channel Index where
  source := dial.source
  destination := destination
  purpose := dial.purpose
  dialer := .dialed
  handler := .decoding
  toDestination := []
  toSource := []
  broken := false

/-- A call of `SendPunchPlan` that wrote its plan or went on to dial. -/
structure Sending (Index : Type) where
  sender : Index
  contact : Contact
  plan : DhtMessage

/-- A network. Connections are named by their position, in the order they were accepted. -/
structure Fabric (Index : Type) where
  nodes : Index → Node
  dials : List (Dial Index)
  channels : List (Channel Index)
  /-- The calls of `onPeerDiscovered` that have not returned. -/
  callbacks : List (Index × Contact)
  /-- The calls of `SendPunchPlan`, in order. -/
  sent : List (Sending Index)
  /-- The plans that `onPunchPlan` was called with, in order, and on which node. -/
  delivered : List (Index × DhtMessage)

/-- What happens next. -/
inductive FabricEvent (Index : Type) where
  /-- One round of the loop of `Bootstrap`. -/
  | bootstrap (node : Index) (choice : Nat)
  | refresh (node : Index)
  | setPublicEndpoint (node : Index) (endpoint : Text)
  | dial (choice : Nat) (destination : Index)
  | dialFails (choice : Nat)
  | writeFirst (conn : ConnId)
  | writeRequest (conn : ConnId)
  /-- A write of the dialing end fails after some items. -/
  | writeFails (conn : ConnId) (written : Nat)
  | serve (conn : ConnId) (remoteAddr observed : Text)
  /-- The accepting end returns: the connection broke, or the wait after a greeting is over. -/
  | release (conn : ConnId)
  | read (conn : ConnId)
  /-- The reader meets a broken connection. -/
  | readFails (conn : ConnId)
  /-- The callback for a discovered peer runs. -/
  | callback (choice : Nat) (configured : Bool)
  | sendPlan (node : Index) (contact : Contact) (args : PunchArgs)
  /-- A plan on a stored connection whose write fails after some items. -/
  | sendPlanFails (node : Index) (contact : Contact) (args : PunchArgs) (written : Nat)

variable {Index : Type}

section Steps

variable [DecidableEq Index]

/-- The network before anything has happened. -/
def Setup.fabric (setup : Setup Index) : Fabric Index where
  nodes := fun node =>
    Node.new (setup.publicKey node) (setup.listenPort node) (setup.wgEndpoint node)
  dials := []
  channels := []
  callbacks := []
  sent := []
  delivered := []

/-- The message the dialing end is about to write. -/
def Channel.writes (channel : Channel Index) (node : Node) : Option DhtMessage :=
  match channel.dialer, channel.purpose with
  | .dialed, purpose => some (purpose.opening node)
  | .greeted, .reader (.findNode targetID) => some (node.findNodeRequest targetID)
  | _, _ => none

/-- One event. A fault ends the process of the node it happens to, and a dial needs a listener
at its address. -/
def Fabric.step (setup : Setup Index) (fabric : Fabric Index) : FabricEvent Index →
    Option (Fabric Index)
  | .bootstrap node choice => do
    let seed ← (setup.seeds node)[choice]?
    let next ← ((fabric.nodes node).bootstrapSeed seed.contact).toOption
    return { fabric with
      nodes := Function.update fabric.nodes node next
      dials := fabric.dials ++ [⟨node, seed.contact.findNodeAddress,
        .reader (.findNode next.table.selfID)⟩] }
  | .refresh node => some { fabric with
      dials := fabric.dials ++ (fabric.nodes node).refreshContacts.map fun contact =>
        ⟨node, contact.findNodeAddress,
          .reader (.findNode (fabric.nodes node).table.selfID)⟩ }
  | .setPublicEndpoint node endpoint => some { fabric with
      nodes := Function.update fabric.nodes node
        { fabric.nodes node with publicEndpoint := endpoint } }
  | .dial choice destination => do
    let dial ← fabric.dials[choice]?
    if setup.accepts destination dial.address then
      return { fabric with
        dials := fabric.dials.eraseIdx choice
        channels := fabric.channels ++ [dial.accepted destination] }
    else none
  | .dialFails choice => some { fabric with dials := fabric.dials.eraseIdx choice }
  | .writeFirst conn => do
    let channel ← fabric.channels[conn]?
    if channel.dialer = .dialed then
      return { fabric with
        channels := fabric.channels.set conn { channel with
          toDestination := channel.toDestination ++
            encodeMessage (channel.purpose.opening (fabric.nodes channel.source))
          dialer := channel.purpose.opened } }
    else none
  | .writeRequest conn => do
    let channel ← fabric.channels[conn]?
    match channel.dialer, channel.purpose with
    | .greeted, .reader (.findNode targetID) =>
      return { fabric with
        channels := fabric.channels.set conn { channel with
          toDestination := channel.toDestination ++
            encodeMessage ((fabric.nodes channel.source).findNodeRequest targetID)
          dialer := .reading [] } }
    | _, _ => none
  | .writeFails conn written => do
    let channel ← fabric.channels[conn]?
    let msg ← channel.writes (fabric.nodes channel.source)
    if written ≤ gobTypes.length then
      return { fabric with
        channels := fabric.channels.set conn { channel with
          toDestination := channel.toDestination ++ (encodeMessage msg).take written
          dialer := .aborted } }
    else none
  | .serve conn remoteAddr observed => do
    let channel ← fabric.channels[conn]?
    if channel.handler = .decoding then
      match decode [] channel.toDestination with
      | .waiting => none
      | .failed => return { fabric with
          channels := fabric.channels.set conn { channel with handler := .returned } }
      | .message msg _ rest => do
        let (next, effects, after) ← ((fabric.nodes channel.destination).dispatch conn remoteAddr
          observed msg).toOption
        return { fabric with
          nodes := Function.update fabric.nodes channel.destination next
          channels := fabric.channels.set conn { channel with
            handler := after.handler
            toDestination := rest
            toSource := channel.toSource ++ replyItems effects }
          callbacks := fabric.callbacks ++
            (discoveredContacts effects).map (channel.destination, ·)
          delivered := fabric.delivered ++
            (punchedPlans effects).map (channel.destination, ·) }
    else none
  | .release conn => do
    let channel ← fabric.channels[conn]?
    return { fabric with
      channels := fabric.channels.set conn { channel with handler := .returned } }
  | .read conn => do
    let channel ← fabric.channels[conn]?
    match channel.dialer, channel.purpose with
    | .reading received, .reader kind =>
      match decode received channel.toSource with
      | .waiting => none
      | .failed => return { fabric with
          channels := fabric.channels.set conn { channel with dialer := .closed } }
      | .message msg known rest => do
        let (next, effects) ← ((fabric.nodes channel.source).readAs kind msg).toOption
        return { fabric with
          nodes := Function.update fabric.nodes channel.source next
          channels := fabric.channels.set conn { channel with
            toSource := rest
            dialer := .reading known }
          callbacks := fabric.callbacks ++ (discoveredContacts effects).map (channel.source, ·)
          delivered := fabric.delivered ++ (punchedPlans effects).map (channel.source, ·) }
    | _, _ => none
  | .readFails conn => do
    let channel ← fabric.channels[conn]?
    match channel.dialer with
    | .reading _ => return { fabric with
        channels := fabric.channels.set conn { channel with dialer := .closed } }
    | _ => none
  | .callback choice configured => do
    let (node, contact) ← fabric.callbacks[choice]?
    let started ← ((fabric.nodes node).peerCallback contact configured).toOption
    return { fabric with
      callbacks := fabric.callbacks.eraseIdx choice
      dials := fabric.dials ++ started.map fun dial => ⟨node, dial.1, dial.2⟩ }
  | .sendPlan node contact args =>
    match (fabric.nodes node).sendPunchPlan contact args with
    | .ok (.control stored plan) => do
      let channel ← fabric.channels[stored]?
      if channel.broken = false then
        return { fabric with
          channels := fabric.channels.set stored { channel with
            toSource := channel.toSource ++ encodeMessage plan }
          sent := fabric.sent ++ [⟨node, contact, plan⟩] }
      else none
    | .ok (.dial address plan) => some { fabric with
        dials := fabric.dials ++ [⟨node, address, .plan plan⟩]
        sent := fabric.sent ++ [⟨node, contact, plan⟩] }
    | .ok .emptyEndpoint => some fabric
    | .error _ => none
  | .sendPlanFails node contact args written =>
    match (fabric.nodes node).sendPunchPlan contact args with
    | .ok (.control stored plan) => do
      let channel ← fabric.channels[stored]?
      if written ≤ gobTypes.length then
        return { fabric with
          channels := fabric.channels.set stored { channel with
            toSource := channel.toSource ++ (encodeMessage plan).take written
            broken := true } }
      else none
    | _ => none

/-- The network after a run of events. -/
def Fabric.run (setup : Setup Index) (fabric : Fabric Index) (events : List (FabricEvent Index)) :
    Option (Fabric Index) :=
  Runs.run (Fabric.step setup) fabric events

/-! ### What an event does -/

/-- The networks an event can lead to, with what its guards tell. -/
inductive Fabric.Moves (setup : Setup Index) (fabric : Fabric Index) : Fabric Index → Prop
  | bootstraps {node : Index} {seed : Seed} {next : Node} (kind : DialKind)
      (listed : seed ∈ setup.seeds node)
      (done : (fabric.nodes node).bootstrapSeed seed.contact = .ok next) :
      Moves setup fabric { fabric with
        nodes := Function.update fabric.nodes node next
        dials := fabric.dials ++ [⟨node, seed.contact.findNodeAddress, .reader kind⟩] }
  | refreshes (node : Index) (contacts : List Contact) (kind : DialKind) :
      Moves setup fabric { fabric with
        dials := fabric.dials ++ contacts.map fun contact =>
          ⟨node, contact.findNodeAddress, .reader kind⟩ }
  | publishes (node : Index) (endpoint : Text) : Moves setup fabric { fabric with
        nodes := Function.update fabric.nodes node
          { fabric.nodes node with publicEndpoint := endpoint } }
  | connects {choice : Nat} {destination : Index} {dial : Dial Index}
      (waiting : fabric.dials[choice]? = some dial)
      (accepts : setup.accepts destination dial.address) : Moves setup fabric { fabric with
        dials := fabric.dials.eraseIdx choice
        channels := fabric.channels ++ [dial.accepted destination] }
  | gives (choice : Nat) : Moves setup fabric { fabric with
        dials := fabric.dials.eraseIdx choice }
  | opens {conn : ConnId} {channel : Channel Index}
      (found : fabric.channels[conn]? = some channel) (ready : channel.dialer = .dialed) :
      Moves setup fabric { fabric with
        channels := fabric.channels.set conn { channel with
          toDestination := channel.toDestination ++
            encodeMessage (channel.purpose.opening (fabric.nodes channel.source))
          dialer := channel.purpose.opened } }
  | asks {conn : ConnId} {channel : Channel Index} {targetID : Text}
      (found : fabric.channels[conn]? = some channel) (ready : channel.dialer = .greeted)
      (purpose : channel.purpose = .reader (.findNode targetID)) :
      Moves setup fabric { fabric with
        channels := fabric.channels.set conn { channel with
          toDestination := channel.toDestination ++
            encodeMessage ((fabric.nodes channel.source).findNodeRequest targetID)
          dialer := .reading [] } }
  | aborts {conn : ConnId} {channel : Channel Index} (msg : DhtMessage) {written : Nat}
      (found : fabric.channels[conn]? = some channel) (short : written ≤ gobTypes.length) :
      Moves setup fabric { fabric with
        channels := fabric.channels.set conn { channel with
          toDestination := channel.toDestination ++ (encodeMessage msg).take written
          dialer := .aborted } }
  | releases {conn : ConnId} {channel : Channel Index}
      (found : fabric.channels[conn]? = some channel) : Moves setup fabric { fabric with
        channels := fabric.channels.set conn { channel with handler := .returned } }
  | serves {conn : ConnId} {channel : Channel Index} {remoteAddr observed : Text}
      {msg : DhtMessage} {received : List GobType} {rest : Stream} {next : Node}
      {effects : List Effect} {after : AfterDispatch}
      (found : fabric.channels[conn]? = some channel) (ready : channel.handler = .decoding)
      (decoded : decode [] channel.toDestination = .message msg received rest)
      (dispatched : (fabric.nodes channel.destination).dispatch conn remoteAddr observed msg =
        .ok (next, effects, after)) : Moves setup fabric { fabric with
        nodes := Function.update fabric.nodes channel.destination next
        channels := fabric.channels.set conn { channel with
          handler := after.handler
          toDestination := rest
          toSource := channel.toSource ++ replyItems effects }
        callbacks := fabric.callbacks ++ (discoveredContacts effects).map (channel.destination, ·)
        delivered := fabric.delivered ++ (punchedPlans effects).map (channel.destination, ·) }
  | reads {conn : ConnId} {channel : Channel Index} {kind : DialKind} {msg : DhtMessage}
      {received known : List GobType} {rest : Stream} {next : Node} {effects : List Effect}
      (found : fabric.channels[conn]? = some channel)
      (decoded : decode received channel.toSource = .message msg known rest)
      (handled : (fabric.nodes channel.source).readAs kind msg = .ok (next, effects)) :
      Moves setup fabric { fabric with
        nodes := Function.update fabric.nodes channel.source next
        channels := fabric.channels.set conn { channel with
          toSource := rest
          dialer := .reading known }
        callbacks := fabric.callbacks ++ (discoveredContacts effects).map (channel.source, ·)
        delivered := fabric.delivered ++ (punchedPlans effects).map (channel.source, ·) }
  | closes {conn : ConnId} {channel : Channel Index}
      (found : fabric.channels[conn]? = some channel) : Moves setup fabric { fabric with
        channels := fabric.channels.set conn { channel with dialer := .closed } }
  | calls {choice : Nat} {node : Index} {contact : Contact} (started : List (Dial Index))
      (called : fabric.callbacks[choice]? = some (node, contact)) :
      Moves setup fabric { fabric with
        callbacks := fabric.callbacks.eraseIdx choice
        dials := fabric.dials ++ started }
  | sends {conn : ConnId} {channel : Channel Index} {node : Index} {contact : Contact}
      {args : PunchArgs} (found : fabric.channels[conn]? = some channel)
      (stored : (fabric.nodes node).controlConns.lookup contact.publicKey = some conn) :
      Moves setup fabric { fabric with
        channels := fabric.channels.set conn { channel with
          toSource := channel.toSource ++ encodeMessage ((fabric.nodes node).planMessage args) }
        sent := fabric.sent ++ [⟨node, contact, (fabric.nodes node).planMessage args⟩] }
  | redirects {node : Index} {contact : Contact} {args : PunchArgs} :
      Moves setup fabric { fabric with
        dials := fabric.dials ++
          [⟨node, contact.controlAddress, .plan ((fabric.nodes node).planMessage args)⟩]
        sent := fabric.sent ++ [⟨node, contact, (fabric.nodes node).planMessage args⟩] }
  | cuts {conn : ConnId} {channel : Channel Index} (plan : DhtMessage) {written : Nat}
      (found : fabric.channels[conn]? = some channel) (short : written ≤ gobTypes.length) :
      Moves setup fabric { fabric with
        channels := fabric.channels.set conn { channel with
          toSource := channel.toSource ++ (encodeMessage plan).take written
          broken := true } }
  | stays : Moves setup fabric fabric

theorem Fabric.moves_of_step {setup : Setup Index} {fabric next : Fabric Index}
    {event : FabricEvent Index} (stepped : fabric.step setup event = some next) :
    fabric.Moves setup next := by
  cases event with
  | bootstrap node choice =>
    obtain ⟨seed, chosen, stepped⟩ := Option.bind_eq_some_iff.mp stepped
    obtain ⟨after, done, ⟨⟩⟩ := Option.bind_eq_some_iff.mp stepped
    exact .bootstraps _ (List.mem_of_getElem? chosen) (toOption_eq_some done)
  | refresh node =>
    cases stepped
    exact .refreshes node _ _
  | setPublicEndpoint node endpoint =>
    cases stepped
    exact .publishes node endpoint
  | dial choice destination =>
    obtain ⟨dial, waiting, stepped⟩ := Option.bind_eq_some_iff.mp stepped
    obtain ⟨accepts, ⟨⟩⟩ := Option.ite_none_right_eq_some.mp stepped
    exact .connects waiting accepts
  | dialFails choice =>
    cases stepped
    exact .gives choice
  | writeFirst conn =>
    obtain ⟨channel, found, stepped⟩ := Option.bind_eq_some_iff.mp stepped
    obtain ⟨ready, ⟨⟩⟩ := Option.ite_none_right_eq_some.mp stepped
    exact .opens found ready
  | writeRequest conn =>
    obtain ⟨channel, found, stepped⟩ := Option.bind_eq_some_iff.mp stepped
    split at stepped
    · rename_i targetID ready purpose
      cases stepped
      exact .asks found ready purpose
    · cases stepped
  | writeFails conn written =>
    obtain ⟨channel, found, stepped⟩ := Option.bind_eq_some_iff.mp stepped
    obtain ⟨msg, _, stepped⟩ := Option.bind_eq_some_iff.mp stepped
    obtain ⟨short, ⟨⟩⟩ := Option.ite_none_right_eq_some.mp stepped
    exact .aborts msg found short
  | serve conn remoteAddr observed =>
    obtain ⟨channel, found, stepped⟩ := Option.bind_eq_some_iff.mp stepped
    obtain ⟨ready, stepped⟩ := Option.ite_none_right_eq_some.mp stepped
    split at stepped
    · cases stepped
    · cases stepped
      exact .releases found
    · rename_i decoded
      obtain ⟨⟨after, effects, state⟩, dispatched, ⟨⟩⟩ := Option.bind_eq_some_iff.mp stepped
      exact .serves found ready decoded (toOption_eq_some dispatched)
  | release conn =>
    obtain ⟨channel, found, ⟨⟩⟩ := Option.bind_eq_some_iff.mp stepped
    exact .releases found
  | read conn =>
    obtain ⟨channel, found, stepped⟩ := Option.bind_eq_some_iff.mp stepped
    split at stepped
    · split at stepped
      · cases stepped
      · cases stepped
        exact .closes found
      · rename_i decoded
        obtain ⟨⟨after, effects⟩, handled, ⟨⟩⟩ := Option.bind_eq_some_iff.mp stepped
        exact .reads found decoded (toOption_eq_some handled)
    · cases stepped
  | readFails conn =>
    obtain ⟨channel, found, stepped⟩ := Option.bind_eq_some_iff.mp stepped
    split at stepped
    · cases stepped
      exact .closes found
    · cases stepped
  | callback choice configured =>
    obtain ⟨⟨node, contact⟩, called, stepped⟩ := Option.bind_eq_some_iff.mp stepped
    obtain ⟨started, _, ⟨⟩⟩ := Option.bind_eq_some_iff.mp stepped
    exact .calls _ called
  | sendPlan node contact args =>
    simp only [Fabric.step] at stepped
    split at stepped
    · rename_i conn plan sent
      obtain ⟨channel, found, stepped⟩ := Option.bind_eq_some_iff.mp stepped
      obtain ⟨_, ⟨⟩⟩ := Option.ite_none_right_eq_some.mp stepped
      cases Node.sends_of_sendPunchPlan sent with
      | control _ stored => exact .sends found stored
    · rename_i address plan sent
      cases stepped
      cases Node.sends_of_sendPunchPlan sent with
      | dial _ _ chosen _ =>
        subst chosen
        exact .redirects
    · cases stepped
      exact .stays
    · cases stepped
  | sendPlanFails node contact args written =>
    simp only [Fabric.step] at stepped
    split at stepped
    · rename_i conn plan sent
      obtain ⟨channel, found, stepped⟩ := Option.bind_eq_some_iff.mp stepped
      obtain ⟨short, ⟨⟩⟩ := Option.ite_none_right_eq_some.mp stepped
      exact .cuts plan found short
    · cases stepped

end Steps

end WgMesh.Dht
