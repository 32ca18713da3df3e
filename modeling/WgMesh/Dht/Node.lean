/-
This file models a DHT node of `pkg/dht`: its messages, its state, the handlers
that `handleConn` dispatches to, the messages `findNode` and `SendPunchPlan`
build, and the reader that `findNode` leaves on its connection.

A handler returns the node's next state together with its visible effects in
order: contacts passed to the table, callbacks, messages written on the
connection. What the environment decides is an argument: the remote address of
the connection, the endpoint the `observedEndpoint` callback returned (empty
when there is no callback), and the connection's name. Slices taken for log
lines stay in the model, those of the callbacks included, since they fault like
any other.
-/

import Mathlib.Data.List.AList
import WgMesh.Dht.Table
import WgMesh.Go.Address

namespace WgMesh.Dht

open Go

/-- The message types, in the order of their codes. -/
inductive MsgType where
  | findNode
  | findNodeResp
  | ping
  | pong
  | reportState
  | punchPlan
  | controlHello
  /-- A code that no handler has a branch for. -/
  | other (code : UInt8)
  deriving DecidableEq, Repr

/-- A DHT message. Absent fields decode to their zero values. -/
structure DhtMessage where
  type : MsgType
  senderID : Text := []
  targetID : Text := []
  contacts : List Contact := []
  publicKey : Text := []
  wgEndpoint : Text := []
  publicEndpoint : Text := []
  state : Text := []
  controlEndpoint : Text := []
  punchID : Text := []
  targetPublicKey : Text := []
  punchStartUnix : Int := 0
  punchWindowMs : Int := 0
  punchPorts : List Text := []
  deriving DecidableEq, Repr

/-- A connection, by name. -/
abbrev ConnId := Nat

/-- A node: the fields of `DHT` that its handlers read or write. -/
structure Node where
  table : Table
  publicKey : Text
  /-- This node's WireGuard endpoint. -/
  wgEndpoint : Text
  /-- This node's STUN-discovered public address. -/
  publicEndpoint : Text
  /-- The first seed with a public key. -/
  seedContact : Contact
  /-- The TCP port of the listener. -/
  listenPort : Nat
  /-- Whether the callback for discovered peers is registered. -/
  onPeerDiscovered : Bool
  /-- Whether the callback for punch plans is registered. -/
  onPunchPlan : Bool
  controlConns : AList fun _ : Text => ConnId

/-- A contact with all fields empty. -/
def Contact.zero : Contact where
  id := []
  publicKey := []
  endpoint := []
  publicEndpoint := []
  controlEndpoint := []

/-- `NewDHT`, followed by the registrations of `main`. -/
def Node.new (publicKey : Text) (listenPort : Nat) (wgEndpoint : Text) : Node where
  table := Table.new publicKey
  publicKey := publicKey
  wgEndpoint := wgEndpoint
  publicEndpoint := []
  seedContact := Contact.zero
  listenPort := listenPort
  onPeerDiscovered := true
  onPunchPlan := true
  controlConns := ∅

/-- The visible effects of a handler. -/
inductive Effect where
  /-- A contact was passed to `Table.insert`. -/
  | inserted (contact : Contact)
  /-- `onPeerDiscovered` was called. -/
  | discovered (contact : Contact)
  /-- `onPunchPlan` was called. -/
  | punched (plan : DhtMessage)
  /-- A message was written on the connection. -/
  | wrote (message : DhtMessage)
  /-- The connection was stored in `controlConns`. -/
  | storedControl (publicKey : Text)
  deriving DecidableEq, Repr

/-! ### Messages a node builds -/

/-- The greeting that opens a control connection. -/
def Node.controlHello (node : Node) : DhtMessage :=
  { type := .controlHello, senderID := node.table.selfID, publicKey := node.publicKey }

/-- The control address `findNode` advertises. The source binds the second result of
`SplitHostPort`, the port, under the name `host`. -/
def Node.advertisedControl (node : Node) : Text :=
  match splitHostPort node.publicEndpoint with
  | some (_, host) => if host ≠ [] then joinHostPort host (itoa node.listenPort) else []
  | none => []

/-- The request `findNode` sends after the greeting. -/
def Node.findNodeRequest (node : Node) (targetID : Text) : DhtMessage :=
  { type := .findNode
    senderID := node.table.selfID
    targetID := targetID
    publicKey := node.publicKey
    wgEndpoint := node.wgEndpoint
    publicEndpoint := node.publicEndpoint
    controlEndpoint := node.advertisedControl }

def Node.findNodeResp (node : Node) (closest : List Contact) : DhtMessage :=
  { type := .findNodeResp, senderID := node.table.selfID, contacts := closest }

def Node.pong (node : Node) : DhtMessage :=
  { type := .pong, senderID := node.table.selfID }

/-! ### Handlers -/

/-- The contact that `handleFindNode` registers. -/
def registration (remoteAddr observed : Text) (msg : DhtMessage) : Contact where
  id := msg.senderID
  publicKey := msg.publicKey
  endpoint := if msg.wgEndpoint = [] then remoteAddr else msg.wgEndpoint
  publicEndpoint := if observed ≠ [] then observed else msg.publicEndpoint
  controlEndpoint := msg.controlEndpoint

/-- The callback for discovered peers that `main` registers, as far as it can fault. For a contact
with a key it runs a command, and the log lines of both outcomes slice the key. -/
def callDiscovered (contact : Contact) : Except Panic (List Effect) :=
  if contact.publicKey = [] then return [.discovered contact]
  else do
    let _ ← upTo contact.publicKey 16
    return [.discovered contact]

/-- The callback on the responder's side, with the log line before it. -/
def Node.announce (node : Node) (msg : DhtMessage) (contact : Contact) :
    Except Panic (List Effect) :=
  if node.onPeerDiscovered ∧ msg.publicKey ≠ [] ∧ msg.publicKey ≠ node.publicKey then do
    let _ ← upTo msg.publicKey 16
    callDiscovered contact
  else return []

theorem eq_of_callDiscovered {contact : Contact} {effects : List Effect}
    (called : callDiscovered contact = .ok effects) : effects = [.discovered contact] := by
  unfold callDiscovered at called
  split at called
  · cases called
    rfl
  · obtain ⟨_, _, called⟩ := bind_eq_ok.mp called
    cases called
    rfl

theorem Node.eq_of_announce {node : Node} {msg : DhtMessage} {contact : Contact}
    {effects : List Effect} (announced : node.announce msg contact = .ok effects) :
    effects = if node.onPeerDiscovered ∧ msg.publicKey ≠ [] ∧ msg.publicKey ≠ node.publicKey
      then [.discovered contact] else [] := by
  unfold Node.announce at announced
  split at announced
  · rename_i calls
    obtain ⟨_, _, called⟩ := bind_eq_ok.mp announced
    rw [if_pos calls, eq_of_callDiscovered called]
  · rename_i silent
    cases announced
    rw [if_neg silent]

def Node.handleFindNode (node : Node) (remoteAddr observed : Text) (msg : DhtMessage) :
    Except Panic (Node × List Effect) := do
  let contact := registration remoteAddr observed msg
  let table ← node.table.insert contact
  let announced ← node.announce msg contact
  let closest ← table.closest msg.targetID kBucketSize
  return ({ node with table := table },
    .inserted contact :: announced ++ [.wrote (node.findNodeResp closest)])

/-- The log line for one contact of a response. -/
def logDiscovered (contact : Contact) : Except Panic Unit :=
  if 16 ≤ contact.publicKey.length then do
    let _ ← upTo contact.id 8
    let _ ← upTo contact.publicKey 16
    return ()
  else do
    let _ ← upTo contact.id 8
    return ()

/-- The callback is not called for the node itself, and does nothing for a contact without a
key. -/
def Node.Announces (node : Node) (contact : Contact) : Prop :=
  contact.id ≠ node.table.selfID ∧ node.onPeerDiscovered ∧ contact.publicKey ≠ []

instance (node : Node) (contact : Contact) : Decidable (node.Announces contact) :=
  inferInstanceAs (Decidable (_ ∧ _))

/-- The callback on the side that asked. -/
def Node.announceListed (node : Node) (contact : Contact) : Except Panic (List Effect) :=
  if node.onPeerDiscovered ∧ contact.publicKey ≠ [] then callDiscovered contact
  else return []

/-- The body of the loop of `handleFindNodeResp`. -/
def Node.handleListed (node : Node) (contact : Contact) : Except Panic (Node × List Effect) :=
  if contact.id ≠ node.table.selfID then do
    let table ← node.table.insert contact
    let _ ← logDiscovered contact
    let announced ← node.announceListed contact
    return ({ node with table := table }, .inserted contact :: announced)
  else return (node, [])

/-- The loop of `handleFindNodeResp`. -/
def Node.handleContacts (node : Node) : List Contact → Except Panic (Node × List Effect)
  | [] => return (node, [])
  | contact :: rest => do
    let (next, effects) ← node.handleListed contact
    let (last, more) ← next.handleContacts rest
    return (last, effects ++ more)

def Node.handleFindNodeResp (node : Node) (msg : DhtMessage) : Except Panic (Node × List Effect) :=
  node.handleContacts msg.contacts

/-- `handleReportState` only logs; both prefixes are sliced under a length guard. -/
def handleReportState (msg : DhtMessage) : Except Panic Unit :=
  if 8 ≤ msg.senderID.length ∧ 8 ≤ msg.targetID.length then do
    let _ ← upTo msg.senderID 8
    let _ ← upTo msg.targetID 8
    return ()
  else return ()

/-- Where `handleConn` stands once it has dispatched its one message. -/
inductive AfterDispatch where
  /-- Waiting for the stop channel or the 24 h timer. -/
  | parked
  | returned
  deriving DecidableEq, Repr

/-- What `handleConn` does with the message it has decoded. -/
def Node.dispatch (node : Node) (conn : ConnId) (remoteAddr observed : Text) (msg : DhtMessage) :
    Except Panic (Node × List Effect × AfterDispatch) :=
  match msg.type with
  | .controlHello =>
    if msg.publicKey ≠ [] then
      return ({ node with controlConns := node.controlConns.insert msg.publicKey conn },
        [.storedControl msg.publicKey], .parked)
    else return (node, [], .parked)
  | .findNode => do
    let (next, effects) ← node.handleFindNode remoteAddr observed msg
    return (next, effects, .returned)
  | .ping => return (node, [.wrote node.pong], .returned)
  | .reportState => do
    let _ ← handleReportState msg
    return (node, [], .returned)
  | .punchPlan => return (node, if node.onPunchPlan then [.punched msg] else [], .returned)
  | _ => return (node, [], .returned)

/-- What the reader goroutine of `findNode` does with a message it has decoded. -/
def Node.readResponse (node : Node) (resp : DhtMessage) : Except Panic (Node × List Effect) :=
  match resp.type with
  | .findNodeResp => node.handleFindNodeResp resp
  | .punchPlan => return (node, if node.onPunchPlan then [.punched resp] else [])
  | _ => return (node, [])

/-! ### Punch plans -/

/-- The arguments of `SendPunchPlan` besides the contact. Times are in nanoseconds. -/
structure PunchArgs where
  targetPublicKey : Text
  targetEndpoint : Text
  punchID : Text
  start : Int
  window : Int
  ports : List Text
  deriving DecidableEq, Repr

/-- How `SendPunchPlan` reaches the peer. -/
inductive PunchRoute where
  | control (conn : ConnId) (plan : DhtMessage)
  | dial (address : Text) (plan : DhtMessage)
  | emptyEndpoint
  deriving DecidableEq, Repr

/-- The keys logged when there is no control connection, each cut to sixteen bytes. -/
def logControlKeys : List Text → Except Panic Unit
  | [] => return ()
  | key :: rest => do
    let _ ← upTo key 16
    logControlKeys rest

def Node.sendPunchPlan (node : Node) (contact : Contact) (args : PunchArgs) :
    Except Panic PunchRoute :=
  match node.controlConns.lookup contact.publicKey with
  | some conn =>
    return .control conn
      { type := .punchPlan
        senderID := node.table.selfID
        publicKey := node.publicKey
        targetPublicKey := args.targetPublicKey
        wgEndpoint := args.targetEndpoint
        punchID := args.punchID
        punchStartUnix := args.start / 1000000
        punchWindowMs := args.window.tdiv 1000000
        punchPorts := args.ports }
  | none => do
    let _ ← logControlKeys node.controlConns.keys
    let _ ← upTo contact.publicKey 32
    let control :=
      if contact.controlEndpoint = [] then contact.endpoint else contact.controlEndpoint
    if control = [] then
      return .emptyEndpoint
    else
      return .dial control
        { type := .punchPlan
          senderID := node.table.selfID
          publicKey := node.publicKey
          punchID := args.punchID
          targetPublicKey := args.targetPublicKey
          wgEndpoint := args.targetEndpoint
          punchStartUnix := args.start / 1000000
          punchWindowMs := args.window.tdiv 1000000
          punchPorts := args.ports }

/-- The message for a plan, which `SendPunchPlan` builds in two places. -/
def Node.planMessage (node : Node) (args : PunchArgs) : DhtMessage where
  type := .punchPlan
  senderID := node.table.selfID
  publicKey := node.publicKey
  targetPublicKey := args.targetPublicKey
  wgEndpoint := args.targetEndpoint
  punchID := args.punchID
  punchStartUnix := args.start / 1000000
  punchWindowMs := args.window.tdiv 1000000
  punchPorts := args.ports

/-- The ways a plan can go, with what they tell about the node and the contact. -/
inductive Node.Sends (node : Node) (contact : Contact) (args : PunchArgs) : PunchRoute → Prop
  | control (conn : ConnId) (stored : node.controlConns.lookup contact.publicKey = some conn) :
    Sends node contact args (.control conn (node.planMessage args))
  | dial (address : Text) (unstored : node.controlConns.lookup contact.publicKey = none)
    (chosen : address =
      if contact.controlEndpoint = [] then contact.endpoint else contact.controlEndpoint)
    (known : address ≠ []) : Sends node contact args (.dial address (node.planMessage args))
  | emptyEndpoint (unstored : node.controlConns.lookup contact.publicKey = none)
    (noControl : contact.controlEndpoint = []) (noEndpoint : contact.endpoint = []) :
    Sends node contact args .emptyEndpoint

theorem Node.sends_of_sendPunchPlan {node : Node} {contact : Contact} {args : PunchArgs}
    {route : PunchRoute} (sent : node.sendPunchPlan contact args = .ok route) :
    node.Sends contact args route := by
  unfold Node.sendPunchPlan at sent
  split at sent
  · rename_i conn stored
    cases sent
    exact .control conn stored
  · rename_i unstored
    obtain ⟨_, _, sent⟩ := bind_eq_ok.mp sent
    obtain ⟨_, _, sent⟩ := bind_eq_ok.mp sent
    generalize chosen : (if contact.controlEndpoint = [] then contact.endpoint
      else contact.controlEndpoint) = address at sent
    dsimp only at sent
    split at sent
    · rename_i empty
      cases sent
      rw [empty] at chosen
      split at chosen
      · rename_i noControl
        exact .emptyEndpoint unstored noControl chosen
      · rename_i control
        exact absurd chosen control
    · rename_i known
      cases sent
      exact .dial address unstored chosen.symm known

end WgMesh.Dht
