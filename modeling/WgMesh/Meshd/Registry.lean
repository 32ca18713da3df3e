/-
This file models `mesh.State` with the pointers that it stores and hands out, and
connects it to the mesh state that the handshake monitor and the PEX callback are
modelled with, which is a map of values.

`UpsertPeer` writes a peer in place, and `GetPeer`, `Peers` and `ConnectedPeers`
return pointers to the peers and not copies of them. Under its keys the state
reads like the map of values. What was handed out is no snapshot: it shows every
later update of the peer, until the peer is removed, and none after that, even if
a peer with the same key is added again.
-/

import WgMesh.Meshd.Gossip
import WgMesh.Refs

namespace WgMesh.Meshd

open Go Refs

/-! ### The state -/

/-- `mesh.State`, without the node's own entry, which nothing reads. -/
abbrev State := Store Text PeerState

/-- A call that changes the state. -/
inductive Mutation where
  | upsertPeer (pk : Text) (now : Int) (update : PeerState → PeerState)
  | removePeer (pk : Text)

def State.upsertPeer (state : State) (pk : Text) (now : Int) (update : PeerState → PeerState) :
    State :=
  state.upsert pk (.new pk) fun peer => { update peer with lastSeen := now }

def State.removePeer (state : State) (pk : Text) : State := state.remove pk

def State.apply (state : State) : Mutation → State
  | .upsertPeer pk now update => State.upsertPeer state pk now update
  | .removePeer pk => State.removePeer state pk

/-- The state after some calls. -/
def State.after (mutations : List Mutation) : State :=
  mutations.foldl State.apply .empty

/-- `GetPeer`, which returns a pointer. -/
def State.getPeer (state : State) (pk : Text) : Option Nat := state.refs.lookup pk

/-- `Peers`, a copy of the map with the pointers in it. -/
def State.peers (state : State) : AList fun _ : Text => Nat := state.refs

/-- `ConnectedPeers`, in the order in which a `range` visits the keys. -/
def State.connectedPeers (state : State) (order : List Text) : List Nat :=
  (order.filterMap state.refs.lookup).filter fun ref =>
    (state.deref ref).any PeerState.isConnected

/-- `PeerCount`: all the peers, and the connected ones. -/
def State.peerCount (state : State) (order : List Text) : Nat × Nat :=
  (order.filterMap state.refs.lookup).foldl (fun (total, connected) ref =>
    (total + 1, if (state.deref ref).any PeerState.isConnected then connected + 1 else connected))
    (0, 0)

/-! ### The map of values -/

/-- The same call on a map of values. -/
def MeshState.apply (mesh : MeshState) : Mutation → MeshState
  | .upsertPeer pk now update => mesh.upsertPeer pk now update
  | .removePeer pk => mesh.erase pk

def MeshState.after (mutations : List Mutation) : MeshState :=
  mutations.foldl MeshState.apply ∅

/-- A state reads like a map of values. -/
def State.Represents (state : State) (mesh : MeshState) : Prop :=
  ∀ key, state.read key = mesh.lookup key

theorem State.Represents.apply {state : State} {mesh : MeshState}
    (represents : State.Represents state mesh) (mutation : Mutation) :
    State.Represents (State.apply state mutation) (mesh.apply mutation) := by
  intro key
  cases mutation with
  | upsertPeer pk now update =>
    change (state.upsert pk _ _).read key = (mesh.insert pk _).lookup key
    rw [Store.read_upsert, represents pk]
    split
    · rename_i same
      rw [same, AList.lookup_insert]
    · rename_i different
      rw [AList.lookup_insert_ne different]
      exact represents key
  | removePeer pk =>
    change (state.remove pk).read key = (mesh.erase pk).lookup key
    rw [Store.read_remove]
    split
    · rename_i same
      rw [same, AList.lookup_erase]
    · rename_i different
      rw [AList.lookup_erase_ne different]
      exact represents key

theorem State.represents_after (mutations : List Mutation) :
    State.Represents (State.after mutations) (MeshState.after mutations) := by
  induction mutations using List.reverseRecOn with
  | nil => exact fun _ => rfl
  | append_singleton earlier mutation inductionHypothesis =>
    rw [State.after, MeshState.after, List.foldl_append, List.foldl_append]
    exact inductionHypothesis.apply mutation

/-! ### Reading through the pointers -/

section Pointers

variable {state : State} {mesh : MeshState}

/-- The pointers under some keys lead to the values under them. -/
theorem State.Represents.map_deref (represents : State.Represents state mesh)
    (order : List Text) :
    (order.filterMap state.refs.lookup).map state.deref =
      (order.filterMap mesh.lookup).map some := by
  induction order with
  | nil => rfl
  | cons key rest inductionHypothesis =>
    have reads := represents key
    rw [Store.read] at reads
    cases found : state.refs.lookup key with
    | none =>
      rw [found] at reads
      have missing : mesh.lookup key = none := reads.symm
      simp only [List.filterMap_cons, found, missing]
      exact inductionHypothesis
    | some ref =>
      obtain ⟨peer, stored⟩ := state.exists_deref found
      rw [found] at reads
      have known : mesh.lookup key = some peer := reads.symm.trans stored
      simp only [List.filterMap_cons, found, known, List.map_cons, stored, inductionHypothesis]

theorem State.Represents.connectedPeers (represents : State.Represents state mesh)
    (order : List Text) :
    (State.connectedPeers state order).map state.deref =
      (mesh.connectedPeers order).map some := by
  have mapped := represents.map_deref order
  have filtered : ∀ refs : List Nat,
      (refs.filter fun ref => (state.deref ref).any PeerState.isConnected).map state.deref =
        (refs.map state.deref).filter fun peer => peer.any PeerState.isConnected := by
    intro refs
    rw [List.filter_map]
    rfl
  rw [State.connectedPeers, filtered, mapped, List.filter_map]
  rfl

/-- The loop of `PeerCount`. -/
theorem foldl_peerCount (state : State) (refs : List Nat) (total connected : Nat) :
    refs.foldl (fun (total, connected) ref => (total + 1,
        if (state.deref ref).any PeerState.isConnected then connected + 1 else connected))
      (total, connected) =
    (total + refs.length, connected +
      (refs.filter fun ref => (state.deref ref).any PeerState.isConnected).length) := by
  induction refs generalizing total connected with
  | nil => rfl
  | cons ref rest inductionHypothesis =>
    rw [List.foldl_cons, inductionHypothesis, List.length_cons, List.filter_cons]
    split
    · rw [List.length_cons, Nat.add_assoc, Nat.add_assoc, Nat.add_comm 1, Nat.add_comm 1]
    · rw [Nat.add_assoc, Nat.add_comm 1]

theorem State.Represents.peerCount (represents : State.Represents state mesh)
    {order : List Text} (visits : order.Perm mesh.keys) :
    State.peerCount state order = (mesh.keys.length, (mesh.connectedPeers order).length) := by
  have known : ∀ key ∈ order, (mesh.lookup key).isSome := fun key member =>
    AList.lookup_isSome.mpr (AList.mem_keys.mpr (visits.mem_iff.mp member))
  have total : (order.filterMap state.refs.lookup).length = mesh.keys.length := by
    have lengths := congrArg List.length (represents.map_deref order)
    rw [List.length_map, List.length_map] at lengths
    rw [lengths, List.filterMap_length_eq_length.mpr known, visits.length_eq]
  have connected := congrArg List.length (represents.connectedPeers order)
  rw [List.length_map, List.length_map] at connected
  rw [State.peerCount, foldl_peerCount, Nat.zero_add, Nat.zero_add, total, ← connected]
  rfl

end Pointers

/-- After every sequence of calls the state reads like the map of values under every key, its
pointers to the connected peers lead to the peers that the map has as connected, and its counts
are theirs. -/
theorem state_reads_as_map (mutations : List Mutation) (order : List Text)
    (visits : order.Perm (MeshState.after mutations).keys) :
    (∀ key, (State.after mutations).read key = (MeshState.after mutations).lookup key) ∧
    (State.connectedPeers (State.after mutations) order).map (State.after mutations).deref =
      ((MeshState.after mutations).connectedPeers order).map some ∧
    State.peerCount (State.after mutations) order =
      ((MeshState.after mutations).keys.length,
        ((MeshState.after mutations).connectedPeers order).length) := by
  have represents := State.represents_after mutations
  exact ⟨represents, represents.connectedPeers order, represents.peerCount visits⟩

/-! ### Pointers that were handed out -/

/-- A call as a write through a key. -/
def Mutation.write : Mutation → Write Text PeerState
  | .upsertPeer pk now update =>
    .upsert pk (.new pk) fun peer => { update peer with lastSeen := now }
  | .removePeer pk => .remove pk

/-- Whether a call removes a peer. -/
def Mutation.removes (key : Text) : Mutation → Bool
  | .removePeer pk => pk = key
  | .upsertPeer _ _ _ => false

theorem State.after_append (earlier later : List Mutation) :
    State.after (earlier ++ later) =
      (State.after earlier).writes (later.map Mutation.write) := by
  rw [State.after, List.foldl_append, Store.writes, List.foldl_map]
  congr 1
  funext state mutation
  cases mutation with
  | upsertPeer pk now update => rfl
  | removePeer pk => rfl

/-- A pointer that was handed out for a key before the later calls shows every update of the peer
among them, up to its removal and no further. -/
def Shows (earlier later : List Mutation) (key : Text) (ref : Nat) : Prop :=
  (State.after (earlier ++ later)).deref ref =
    (MeshState.after
      (earlier ++ later.takeWhile fun mutation => !mutation.removes key)).lookup key

theorem shows_of_lookup (earlier later : List Mutation) {key : Text} {ref : Nat}
    (stored : (State.after earlier).refs.lookup key = some ref) : Shows earlier later key ref := by
  have removes : ((fun write : Write Text PeerState => !write.removes key) ∘ Mutation.write) =
      fun mutation => !mutation.removes key := by
    funext mutation
    cases mutation with
    | upsertPeer pk now update => rfl
    | removePeer pk => rfl
  rw [Shows, ← State.represents_after, State.after_append, State.after_append,
    (State.after earlier).deref_writes stored, List.takeWhile_map, removes]

/-- What `GetPeer`, `Peers` or `ConnectedPeers` have returned for a peer shows every later update
of it, up to its removal and no further. -/
theorem handed_out_follows (earlier later : List Mutation) :
    (∀ key ref, State.getPeer (State.after earlier) key = some ref →
      Shows earlier later key ref) ∧
    (∀ key ref, (State.peers (State.after earlier)).lookup key = some ref →
      Shows earlier later key ref) ∧
    ∀ order, ∀ ref ∈ State.connectedPeers (State.after earlier) order, ∃ key ∈ order,
      (MeshState.after earlier).Counts key ∧ Shows earlier later key ref := by
  refine ⟨fun key ref => shows_of_lookup earlier later,
    fun key ref => shows_of_lookup earlier later, fun order ref member => ?_⟩
  obtain ⟨among, connected⟩ := List.mem_filter.mp member
  obtain ⟨key, visited, stored⟩ := List.mem_filterMap.mp among
  refine ⟨key, visited, ?_, shows_of_lookup earlier later stored⟩
  obtain ⟨peer, read⟩ := (State.after earlier).exists_deref stored
  rw [read] at connected
  refine ⟨peer, ?_, connected⟩
  rw [← State.represents_after earlier key, Store.read, stored]
  exact read

/-- A peer that is added, connected, removed and added again. -/
def rejoining : List Mutation :=
  [.upsertPeer (text "peer") 1 fun peer => { peer with isConnected := true },
    .removePeer (text "peer"), .upsertPeer (text "peer") 2 id]

theorem state_reads_as_map_rejoining :
    State.peerCount (State.after rejoining) [text "peer"] = (1, 0) := by
  have visits : [text "peer"].Perm (MeshState.after rejoining).keys := by decide +kernel
  refine (state_reads_as_map rejoining [text "peer"] visits).2.2.trans ?_
  decide +kernel

/-- A pointer from before still shows the peer as connected. -/
theorem handed_out_follows_rejoining :
    State.getPeer (State.after (rejoining.take 1)) (text "peer") = some 0 ∧
      (State.after (rejoining.take 1 ++ rejoining.drop 1)).deref 0 =
        some ⟨text "peer", [], 1, true⟩ := by
  have got : State.getPeer (State.after (rejoining.take 1)) (text "peer") = some 0 := by
    decide +kernel
  refine ⟨got, ((handed_out_follows _ _).1 _ _ got).trans ?_⟩
  decide +kernel

end WgMesh.Meshd
