/-
This file puts the daemons into a network of PEX nodes: every callback returns
the connected peers of a mesh state that a handshake monitor has written.

Such a state has no endpoints. A round of gossip therefore dials nobody, nothing
is ever sent, and no daemon learns of a peer from another, whatever the monitors
do and in whatever order the rounds come.
-/

import WgMesh.Meshd.Gossip
import WgMesh.Pex.Network

namespace WgMesh.Meshd

open Go Uapi Pex

variable {Index World : Type}

/-- What the callback of a daemon can return, between the checks of its monitor or during one: the
connected peers of a mesh state that marks of a monitor lead to. -/
def CallbackReturns (known : List PeerEntry) : Prop :=
  ∃ marks order, known = (MeshState.marked marks).knownPeers order

/-- An event of a network of daemons. They never send pings. -/
def OfDaemons : Event Index → Prop
  | .gossip _ known => CallbackReturns known
  | .answer _ known => CallbackReturns known
  | .sendPing _ _ => False
  | _ => True

theorem callbackReturns_of_run {settings : Settings} {env : Env World}
    {session next : Session Call World} {rounds : List Unit} {monitor : Monitor}
    (reached : Runs.run (Monitor.step settings env) (Monitor.new, session) rounds =
      some (monitor, next)) (order : List Text) :
    CallbackReturns (monitor.mesh.knownPeers order) := by
  obtain ⟨marks, same⟩ := exists_marked reached
  exact ⟨marks, order, by rw [same]⟩

theorem CallbackReturns.endpoints_eq {known : List PeerEntry} (returns : CallbackReturns known)
    {entry : PeerEntry} (member : entry ∈ known) : entry.endpoints = [] := by
  obtain ⟨marks, order, rfl⟩ := returns
  exact (MeshState.bare_marked marks).endpoints_eq member

theorem OfDaemons.dialed_eq {event : Event Index} (ofDaemons : OfDaemons event) :
    event.dialed = 0 := by
  cases event with
  | gossip node known =>
    rw [Event.dialed, List.length_eq_zero_iff, List.flatMap_eq_nil_iff]
    exact fun entry member => CallbackReturns.endpoints_eq ofDaemons member
  | sendPing node endpoint => exact ofDaemons.elim
  | _ => rfl

/-- In every run of a network of daemons, no connection is opened, and no daemon keeps an entry
or connects to a peer through peer exchange. -/
theorem daemons_exchange_nothing [DecidableEq Index] {setup : Setup Index}
    {events : List (Event Index)} {network : Network Index}
    (ran : setup.network.run setup events = some network)
    (ofDaemons : ∀ event ∈ events, OfDaemons event) :
    network.dials = [] ∧ network.conns = [] ∧
      ∀ node, (∀ key, (network.nodes node).entries.lookup key = none) ∧
        (network.nodes node).connects = [] := by
  have sound := Network.sound_of_run ran
  have bounded := Network.dialed_of_run ran
  have none : (events.map Event.dialed).sum = 0 :=
    List.sum_eq_zero_iff_forall_eq_nat.mpr fun dialed member => by
      obtain ⟨event, happened, rfl⟩ := List.mem_map.mp member
      exact (ofDaemons event happened).dialed_eq
  rw [none] at bounded
  have start : setup.network.conns.length + setup.network.dials.length = 0 := rfl
  have dials : network.dials = [] := List.length_eq_zero_iff.mp (by omega)
  have conns : network.conns = [] := List.length_eq_zero_iff.mp (by omega)
  have unknown : ∀ node key, (network.nodes node).entries.lookup key = Option.none := by
    intro node key
    refine Option.eq_none_iff_forall_ne_some.mpr fun entry found => ?_
    obtain ⟨_, ⟨conn, member, _⟩, _⟩ := (sound.entries node key entry found).told
    rw [conns] at member
    cases member
  refine ⟨dials, conns, fun node => ⟨unknown node, List.eq_nil_iff_forall_not_mem.mpr ?_⟩⟩
  intro connect called
  obtain ⟨entry, found, _⟩ := sound.connects node connect called
  rw [unknown node] at found
  cases found

/-- Two daemons, of which the first has just found a peer again, with a round of gossip. -/
theorem daemons_exchange_nothing_waking : ∃ known network,
    known ≠ [] ∧
    twoNodes.network.run twoNodes [.gossip false known] = some network ∧
      (∀ event ∈ [Event.gossip false known], OfDaemons event) ∧ network.conns = [] := by
  obtain ⟨session, reached⟩ := waking_round
  have ofDaemons : ∀ event ∈ [Event.gossip false
      ((wakingJudged.recover wakingKey (1000 * second)).mesh.knownPeers [wakingKey])],
      OfDaemons event :=
    List.forall_mem_singleton.mpr (callbackReturns_of_run reached [wakingKey])
  refine ⟨_, _, ?_, rfl, ofDaemons, (daemons_exchange_nothing rfl ofDaemons).2.1⟩
  decide +kernel

end WgMesh.Meshd
