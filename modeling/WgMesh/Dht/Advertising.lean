/-
This file settles which control address a node advertises.

`main` gives the node its public endpoint, a host and a port joined. `findNode`
takes the endpoint apart again and should advertise the host with the port of the
DHT listener, so that a receiver can open a control connection or send a punch
plan there. But it binds the results of `SplitHostPort` in the wrong order, and
what it joins with the listener's port is the public port. The advertised
address is the node's own only if the host reads as that port.
-/

import WgMesh.Dht.Control
import WgMesh.Dht.Merging

namespace WgMesh.Dht

open Go

/-- `SetPublicEndpoint`. -/
def Node.setPublicEndpoint (node : Node) (ep : Text) : Node :=
  { node with publicEndpoint := ep }

/-- The requests of a node advertise a host with the node's listener port, and this is where
whoever registers one of them opens a control connection or sends a punch plan. -/
structure Node.Advertises (node : Node) (host : Text) : Prop where
  request (targetID : Text) :
    splitHostPort (node.findNodeRequest targetID).controlEndpoint =
      some (host, itoa node.listenPort)
  openControl (remoteAddr observed targetID : Text) :
    splitHostPort
        (registration remoteAddr observed (node.findNodeRequest targetID)).controlAddress =
      some (host, itoa node.listenPort)
  sendPunchPlan (hub : Node) (remoteAddr observed targetID : Text) (args : PunchArgs)
    (route : PunchRoute) (unstored : hub.controlConns.lookup node.publicKey = none)
    (sent : hub.sendPunchPlan
      (registration remoteAddr observed (node.findNodeRequest targetID)) args = .ok route) :
    ∃ address plan, route = .dial address plan ∧
      splitHostPort address = some (host, itoa node.listenPort)

/-! ### What the source advertises -/

/-- The advertised address has the public port in the place of the host. -/
theorem Node.advertisedControl_of_split {node : Node} {host : Text} {port : Nat}
    (endpoint : node.publicEndpoint = joinHostPort host (itoa port)) {first second : Text}
    (split : splitHostPort node.publicEndpoint = some (first, second)) :
    node.advertisedControl = joinHostPort (itoa port) (itoa node.listenPort) := by
  have last : splitLast 58 node.publicEndpoint = some (bracketed host, itoa port) := by
    rw [endpoint, joinHostPort_eq]
    exact splitLast_append (not_mem_decimal (by decide) port)
  have second_eq : second = itoa port := port_of_splitHostPort last split
  have printed : itoa port ≠ [] := decimal_ne_nil port
  simp only [Node.advertisedControl, split]
  rw [second_eq, if_pos printed]

/-- Whatever the receiver does with the advertised address, it does with this one. -/
theorem Node.advertises_of_advertisedControl {node : Node} {address host : Text}
    (advertised : node.advertisedControl = address) (nonempty : address ≠ [])
    (split : splitHostPort address = some (host, itoa node.listenPort)) :
    node.Advertises host where
  request targetID := by
    show splitHostPort node.advertisedControl = _
    rw [advertised, split]
  openControl remoteAddr observed targetID := by
    show splitHostPort (if node.advertisedControl = [] then _ else node.advertisedControl) = _
    rw [advertised, if_neg nonempty, split]
  sendPunchPlan hub remoteAddr observed targetID args route unstored sent := by
    have known : node.advertisedControl ≠ [] := by
      rw [advertised]
      exact nonempty
    obtain ⟨plan, dialled⟩ := Node.dial_of_sendPunchPlan unstored sent known
    refine ⟨_, plan, dialled, ?_⟩
    show splitHostPort node.advertisedControl = _
    rw [advertised, split]

/-- A node whose public endpoint joins a host and a port advertises that host with its listener
port exactly when the host reads as the port. -/
theorem advertises_iff_host_eq_port (node : Node) (host : Text) (port : Nat) :
    (node.setPublicEndpoint (joinHostPort host (itoa port))).Advertises host ↔
      host = itoa port := by
  set next := node.setPublicEndpoint (joinHostPort host (itoa port)) with next_eq
  have endpoint : next.publicEndpoint = joinHostPort host (itoa port) := rfl
  constructor
  · intro advertises
    have request : splitHostPort next.advertisedControl = some (host, itoa next.listenPort) :=
      advertises.request []
    cases split : splitHostPort next.publicEndpoint with
    | none =>
      -- A host that does not come apart again is not advertised at all.
      simp only [Node.advertisedControl, split] at request
      cases request
    | some parts =>
      rw [Node.advertisedControl_of_split endpoint split,
        splitHostPort_joinHostPort_itoa] at request
      exact (Prod.mk.inj (Option.some.inj request)).1.symm
  · intro same
    have split : splitHostPort next.publicEndpoint = some (itoa port, itoa port) := by
      rw [endpoint, same]
      exact splitHostPort_joinHostPort_itoa port port
    refine Node.advertises_of_advertisedControl (Node.advertisedControl_of_split endpoint split)
      (joinHostPort_ne_nil _ _) ?_
    rw [splitHostPort_joinHostPort_itoa, same]

/-- A node at 203.0.113.5 whose DHT listens on port 7947. -/
def publicNode : Node :=
  (Node.new (text "node-wireguard-public-key-0123456789") 7947 []).setPublicEndpoint
    (joinHostPort (text "203.0.113.5") (itoa 51820))

/-- It advertises the address 51820:7947, which is not at its host. -/
theorem publicNode_not_advertises :
    publicNode.advertisedControl = text "51820:7947" ∧
      ¬ publicNode.Advertises (text "203.0.113.5") := by
  have advertised : publicNode.advertisedControl = text "51820:7947" := by decide +kernel
  refine ⟨advertised, fun advertises => ?_⟩
  have request : splitHostPort publicNode.advertisedControl =
      some (text "203.0.113.5", itoa publicNode.listenPort) := advertises.request []
  rw [advertised] at request
  exact absurd request (by decide +kernel)

end WgMesh.Dht
