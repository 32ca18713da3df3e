/-
This file settles which messages end a node's process.

A node is driven by three kinds of operation: a message served by `handleConn`,
a message read by the goroutine `findNode` leaves behind, and a `SendPunchPlan`
to a contact of its table. For each of them there is an exact condition, on the
operation and the state before it, under which it performs no index or slice
expression out of range. A run returns exactly when every operation meets its
condition in the state the run has reached.

The conditions are what the source does not check. An identity has to decode to
twenty bytes, because `insert` indexes it with the positions of the node's own; a
target must not decode to more bytes than the identities `closest` compares it
with; a key for which the callback is called, of a registration or of a listed
contact, has to be long enough for its log lines; and a plan needs a control
connection or keys long enough for another log line.
-/

import WgMesh.Dht.Network

namespace WgMesh.Dht

open Go

/-! ### The condition of each operation -/

/-- `closest` can compare a target with every one of a list of identities. -/
def Comparable (targetID : Text) (ids : List Text) : Prop :=
  ids.length ≤ 1 ∨ ∀ id ∈ ids, (hexDecode targetID).length ≤ (hexDecode id).length

instance (targetID : Text) (ids : List Text) : Decidable (Comparable targetID ids) :=
  inferInstanceAs (Decidable (_ ∨ _))

theorem Comparable.perm {targetID : Text} {first second : List Text} (same : first.Perm second) :
    Comparable targetID first ↔ Comparable targetID second := by
  unfold Comparable
  rw [same.length_eq]
  simp only [same.mem_iff]

theorem Table.returns_closest_iff (table : Table) (targetID : Text) (count : Nat) :
    Returns (table.closest targetID count) ↔ Comparable targetID table.ids := by
  rw [Table.returns_closest, Comparable, Table.ids, List.length_map]
  simp only [List.mem_map, forall_exists_index, and_imp, forall_apply_eq_imp_iff₂]

/-- A request that `handleFindNode` serves without a fault. -/
structure FindNodeOk (node : Node) (msg : DhtMessage) : Prop where
  senderLong : LongID msg.senderID
  keyLong : node.onPeerDiscovered → msg.publicKey ≠ [] → msg.publicKey ≠ node.publicKey →
    16 ≤ msg.publicKey.length
  targetFits : Comparable msg.targetID (node.table.idsWith msg.senderID)

/-- A contact of a response that is handled without a fault: it can be placed, and its key can be
logged if the callback is called for it. -/
structure ListedOk (node : Node) (contact : Contact) : Prop where
  idLong : LongID contact.id
  keyLong : node.Announces contact → 16 ≤ contact.publicKey.length

/-- What happens to a node. -/
inductive Operation where
  /-- `handleConn` dispatches a message it has decoded. -/
  | serve (conn : ConnId) (remoteAddr observed : Text) (msg : DhtMessage)
  /-- The reader of `findNode` handles a message it has decoded. -/
  | read (msg : DhtMessage)
  /-- A plan is sent to a contact of the table. -/
  | sendPunchPlan (contact : Contact) (args : PunchArgs)

/-- The node after an operation. A plan is only sent to a contact that `KnownPeers` lists. -/
def Node.apply (node : Node) : Operation → Except Panic Node
  | .serve conn remoteAddr observed msg => do
    let (next, _, _) ← node.dispatch conn remoteAddr observed msg
    return next
  | .read msg => do
    let (next, _) ← node.readResponse msg
    return next
  | .sendPunchPlan contact args =>
    if contact ∈ node.table.knownPeers then do
      let _ ← node.sendPunchPlan contact args
      return node
    else return node

/-- The node after a run of operations. -/
def Node.run (node : Node) (operations : List Operation) : Except Panic Node :=
  operations.foldlM Node.apply node

/-- The condition of an operation, in the state before it. -/
def Node.Harmless (node : Node) : Operation → Prop
  | .serve _ _ _ msg => msg.type = .findNode → FindNodeOk node msg
  | .read msg => msg.type = .findNodeResp → ∀ contact ∈ msg.contacts, ListedOk node contact
  | .sendPunchPlan contact _ => contact ∈ node.table.knownPeers →
      contact.publicKey ∈ node.controlConns ∨
        (32 ≤ contact.publicKey.length ∧ ∀ key ∈ node.controlConns.keys, 16 ≤ key.length)

/-- Every operation of a run meets its condition in the state the run has reached. -/
def Node.AllHarmless (node : Node) : List Operation → Prop
  | [] => True
  | operation :: rest => node.Harmless operation ∧
      ∀ next, node.apply operation = .ok next → next.AllHarmless rest

/-! ### What an operation changes -/

/-- The contacts that an operation passes to the table. -/
def Operation.inserts : Operation → List Contact
  | .serve _ remoteAddr observed msg =>
    if msg.type = .findNode then [registration remoteAddr observed msg] else []
  | .read msg => listedContacts msg
  | .sendPunchPlan _ _ => []

theorem Node.of_dispatch {node next : Node} {conn : ConnId} {remoteAddr observed : Text}
    {msg : DhtMessage} {effects : List Effect} {after : AfterDispatch}
    (dispatched : node.dispatch conn remoteAddr observed msg = .ok (next, effects, after)) :
    ∃ controlConns, next = { node with
      table := (Operation.inserts (.serve conn remoteAddr observed msg)).foldl Table.place
        node.table
      controlConns := controlConns } := by
  by_cases asks : msg.type = .findNode
  · rw [show Operation.inserts (.serve conn remoteAddr observed msg) =
      [registration remoteAddr observed msg] from if_pos asks]
    rw [Node.dispatch, asks] at dispatched
    obtain ⟨⟨_, _⟩, handled, dispatched⟩ := bind_eq_ok.mp dispatched
    cases dispatched
    exact ⟨node.controlConns, (Node.of_handleFindNode handled).1⟩
  · rw [show Operation.inserts (.serve conn remoteAddr observed msg) = [] from if_neg asks]
    unfold Node.dispatch at dispatched
    split at dispatched
    · split at dispatched
      · cases dispatched
        exact ⟨_, rfl⟩
      · cases dispatched
        exact ⟨_, rfl⟩
    · rename_i type
      exact absurd type asks
    · cases dispatched
      exact ⟨_, rfl⟩
    · obtain ⟨_, _, dispatched⟩ := bind_eq_ok.mp dispatched
      cases dispatched
      exact ⟨_, rfl⟩
    · cases dispatched
      exact ⟨_, rfl⟩
    · cases dispatched
      exact ⟨_, rfl⟩

/-- An operation places contacts in the table and may store a connection. -/
theorem Node.of_apply {node next : Node} {operation : Operation}
    (applied : node.apply operation = .ok next) :
    ∃ controlConns, next = { node with
      table := operation.inserts.foldl Table.place node.table
      controlConns := controlConns } := by
  cases operation with
  | serve conn remoteAddr observed msg =>
    obtain ⟨⟨_, _, _⟩, dispatched, applied⟩ := bind_eq_ok.mp applied
    cases applied
    exact Node.of_dispatch dispatched
  | read msg =>
    obtain ⟨⟨_, _⟩, read, applied⟩ := bind_eq_ok.mp applied
    cases applied
    exact ⟨node.controlConns, Node.of_readResponse read⟩
  | sendPunchPlan contact args =>
    rw [Node.apply] at applied
    split at applied
    · obtain ⟨_, _, applied⟩ := bind_eq_ok.mp applied
      cases applied
      exact ⟨_, rfl⟩
    · cases applied
      exact ⟨_, rfl⟩

/-! ### Each handler faults exactly off its condition -/

theorem returns_callDiscovered (contact : Contact) :
    Returns (callDiscovered contact) ↔
      (contact.publicKey ≠ [] → 16 ≤ contact.publicKey.length) := by
  unfold callDiscovered
  split
  · rename_i empty
    exact iff_of_true (returns_pure _) fun keyed => absurd empty keyed
  · rename_i keyed
    rw [returns_bind_const, returns_upTo]
    exact ⟨fun parts _ => parts.1, fun long => ⟨long keyed, returns_pure _⟩⟩

theorem Node.returns_announce (node : Node) (msg : DhtMessage) {contact : Contact}
    (same : contact.publicKey = msg.publicKey) :
    Returns (node.announce msg contact) ↔
      (node.onPeerDiscovered → msg.publicKey ≠ [] → msg.publicKey ≠ node.publicKey →
        16 ≤ msg.publicKey.length) := by
  unfold Node.announce
  split
  · rename_i calls
    rw [returns_bind_const, returns_upTo, returns_callDiscovered, same]
    constructor
    · rintro ⟨long, _⟩ _ _ _
      exact long
    · intro long
      have logged := long calls.1 calls.2.1 calls.2.2
      exact ⟨logged, fun _ => logged⟩
  · rename_i silent
    refine iff_of_true (returns_pure _) fun callback present foreign => ?_
    exact absurd ⟨callback, present, foreign⟩ silent

theorem Node.returns_handleFindNode (node : Node) (remoteAddr observed : Text)
    (msg : DhtMessage) :
    Returns (node.handleFindNode remoteAddr observed msg) ↔ FindNodeOk node msg := by
  have targets : Returns ((node.table.place (registration remoteAddr observed msg)).closest
      msg.targetID kBucketSize) ↔ Comparable msg.targetID (node.table.idsWith msg.senderID) := by
    rw [Table.returns_closest_iff]
    exact Comparable.perm (Table.place_ids node.table (registration remoteAddr observed msg))
  unfold Node.handleFindNode
  constructor
  · intro returned
    obtain ⟨table, inserted, rest⟩ := returns_bind.mp returned
    obtain ⟨announced, callback, rest⟩ := returns_bind.mp rest
    obtain ⟨closest, found, _⟩ := returns_bind.mp rest
    rw [Table.eq_place_of_insert inserted] at found
    exact ⟨(Table.returns_insert _ _).mp ⟨table, inserted⟩,
      (node.returns_announce msg rfl).mp ⟨announced, callback⟩, targets.mp ⟨closest, found⟩⟩
  · intro good
    obtain ⟨announced, callback⟩ := (node.returns_announce msg
      (show (registration remoteAddr observed msg).publicKey = _ from rfl)).mpr good.keyLong
    obtain ⟨closest, found⟩ := targets.mpr good.targetFits
    refine returns_bind.mpr ⟨_, Table.insert_eq _ _ good.senderLong, ?_⟩
    refine returns_bind.mpr ⟨announced, callback, ?_⟩
    exact returns_bind.mpr ⟨closest, found, returns_pure _⟩

theorem returns_logDiscovered (contact : Contact) :
    Returns (logDiscovered contact) ↔ 8 ≤ contact.id.length := by
  unfold logDiscovered
  split
  · rename_i long
    rw [returns_bind_const, returns_bind_const, returns_upTo, returns_upTo]
    exact ⟨fun parts => parts.1, fun sliced => ⟨sliced, long, returns_pure _⟩⟩
  · rw [returns_bind_const, returns_upTo]
    exact ⟨fun parts => parts.1, fun sliced => ⟨sliced, returns_pure _⟩⟩

theorem Node.returns_handleListed (node : Node) (contact : Contact) :
    Returns (node.handleListed contact) ↔ ListedOk node contact := by
  unfold Node.handleListed
  split
  · rename_i foreign
    have called : Returns (node.announceListed contact) ↔
        (node.Announces contact → 16 ≤ contact.publicKey.length) := by
      unfold Node.announceListed
      split
      · rename_i calls
        rw [returns_callDiscovered]
        exact ⟨fun long _ => long calls.2, fun long _ => long ⟨foreign, calls⟩⟩
      · rename_i silent
        exact iff_of_true (returns_pure _) fun announced => absurd announced.2 silent
    constructor
    · intro returned
      obtain ⟨table, inserted, returned⟩ := returns_bind.mp returned
      obtain ⟨_, returned⟩ := returns_bind_const.mp returned
      obtain ⟨announced, callback, _⟩ := returns_bind.mp returned
      exact ⟨(Table.returns_insert _ _).mp ⟨table, inserted⟩, called.mp ⟨announced, callback⟩⟩
    · intro good
      obtain ⟨announced, callback⟩ := called.mpr good.keyLong
      refine returns_bind.mpr ⟨_, Table.insert_eq _ _ good.idLong, ?_⟩
      refine returns_bind_const.mpr
        ⟨(returns_logDiscovered contact).mpr good.idLong.prefix_sliced, ?_⟩
      exact returns_bind.mpr ⟨announced, callback, returns_pure _⟩
  · rename_i own
    refine iff_of_true (returns_pure _) ⟨?_, fun announced => absurd announced.1 own⟩
    rw [not_not.mp own]
    exact node.table.selfForm.longID

/-- A contact that was handled leaves the node with its identity and its callback. -/
theorem ListedOk.iff_of_handleListed {node next : Node} {listed : Contact} {effects : List Effect}
    (handled : node.handleListed listed = .ok (next, effects)) (contact : Contact) :
    ListedOk next contact ↔ ListedOk node contact := by
  obtain ⟨rfl, _⟩ := Node.of_handleListed handled
  have same : Node.Announces { node with table := node.table.place listed } contact ↔
      node.Announces contact := node.announces_place listed contact
  exact ⟨fun good => ⟨good.idLong, good.keyLong ∘ same.mpr⟩,
    fun good => ⟨good.idLong, good.keyLong ∘ same.mp⟩⟩

theorem Node.returns_handleContacts (node : Node) (contacts : List Contact) :
    Returns (node.handleContacts contacts) ↔ ∀ contact ∈ contacts, ListedOk node contact := by
  induction contacts generalizing node with
  | nil => exact iff_of_true (returns_pure _) (by simp)
  | cons contact rest inductionHypothesis =>
    rw [List.forall_mem_cons, ← node.returns_handleListed contact]
    constructor
    · intro returned
      obtain ⟨⟨next, effects⟩, listed, remaining⟩ := returns_bind.mp returned
      obtain ⟨result, handled, _⟩ := returns_bind.mp remaining
      refine ⟨⟨_, listed⟩, fun other member => ?_⟩
      exact (ListedOk.iff_of_handleListed listed other).mp
        ((inductionHypothesis next).mp ⟨_, handled⟩ other member)
    · rintro ⟨⟨⟨next, effects⟩, listed⟩, good⟩
      obtain ⟨⟨last, more⟩, handled⟩ := (inductionHypothesis next).mpr fun other member =>
        (ListedOk.iff_of_handleListed listed other).mpr (good other member)
      refine returns_bind.mpr ⟨_, listed, ?_⟩
      exact returns_bind.mpr ⟨_, handled, returns_pure _⟩

/-- The prefixes `handleReportState` slices are guarded. -/
theorem returns_handleReportState (msg : DhtMessage) : Returns (handleReportState msg) := by
  unfold handleReportState
  split
  · rename_i guarded
    rw [returns_bind_const, returns_bind_const, returns_upTo, returns_upTo]
    exact ⟨guarded.1, guarded.2, returns_pure _⟩
  · exact returns_pure _

theorem Node.returns_dispatch (node : Node) (conn : ConnId) (remoteAddr observed : Text)
    (msg : DhtMessage) :
    Returns (node.dispatch conn remoteAddr observed msg) ↔
      (msg.type = .findNode → FindNodeOk node msg) := by
  unfold Node.dispatch
  cases type : msg.type with
  | findNode =>
    simp only [true_implies, ← node.returns_handleFindNode remoteAddr observed msg]
    rw [returns_bind]
    constructor
    · rintro ⟨result, handled, _⟩
      exact ⟨result, handled⟩
    · rintro ⟨result, handled⟩
      exact ⟨result, handled, returns_pure _⟩
  | controlHello =>
    refine iff_of_true ?_ (by simp)
    simp only
    split
    · exact returns_pure _
    · exact returns_pure _
  | reportState =>
    refine iff_of_true ?_ (by simp)
    exact returns_bind_const.mpr ⟨returns_handleReportState msg, returns_pure _⟩
  | ping => exact iff_of_true (returns_pure _) (by simp)
  | punchPlan => exact iff_of_true (returns_pure _) (by simp)
  | findNodeResp => exact iff_of_true (returns_pure _) (by simp)
  | pong => exact iff_of_true (returns_pure _) (by simp)
  | other code => exact iff_of_true (returns_pure _) (by simp)

theorem Node.returns_readResponse (node : Node) (msg : DhtMessage) :
    Returns (node.readResponse msg) ↔
      (msg.type = .findNodeResp → ∀ contact ∈ msg.contacts, ListedOk node contact) := by
  unfold Node.readResponse
  cases type : msg.type with
  | findNodeResp =>
    simp only [true_implies]
    exact node.returns_handleContacts msg.contacts
  | punchPlan => exact iff_of_true (returns_pure _) (by simp)
  | findNode => exact iff_of_true (returns_pure _) (by simp)
  | ping => exact iff_of_true (returns_pure _) (by simp)
  | pong => exact iff_of_true (returns_pure _) (by simp)
  | reportState => exact iff_of_true (returns_pure _) (by simp)
  | controlHello => exact iff_of_true (returns_pure _) (by simp)
  | other code => exact iff_of_true (returns_pure _) (by simp)

theorem returns_logControlKeys (keys : List Text) :
    Returns (logControlKeys keys) ↔ ∀ key ∈ keys, 16 ≤ key.length := by
  induction keys with
  | nil => exact iff_of_true (returns_pure _) (by simp)
  | cons key rest inductionHypothesis =>
    rw [logControlKeys, returns_bind_const, returns_upTo, inductionHypothesis,
      List.forall_mem_cons]

theorem Node.returns_sendPunchPlan (node : Node) (contact : Contact) (args : PunchArgs) :
    Returns (node.sendPunchPlan contact args) ↔
      contact.publicKey ∈ node.controlConns ∨
        (32 ≤ contact.publicKey.length ∧ ∀ key ∈ node.controlConns.keys, 16 ≤ key.length) := by
  unfold Node.sendPunchPlan
  cases stored : node.controlConns.lookup contact.publicKey with
  | some conn =>
    refine iff_of_true (returns_pure _) (Or.inl ?_)
    exact AList.lookup_isSome.mp (by rw [stored]; rfl)
  | none =>
    have absent : contact.publicKey ∉ node.controlConns := AList.lookup_eq_none.mp stored
    simp only [absent, false_or]
    rw [returns_bind_const, returns_bind_const, returns_logControlKeys, returns_upTo, and_comm,
      and_assoc]
    refine and_congr_right fun _ => and_iff_right_of_imp fun _ => ?_
    split_ifs <;> exact returns_pure _

theorem Node.returns_apply (node : Node) (operation : Operation) :
    Returns (node.apply operation) ↔ node.Harmless operation := by
  cases operation with
  | serve conn remoteAddr observed msg =>
    rw [Node.Harmless, ← node.returns_dispatch conn remoteAddr observed msg, Node.apply,
      returns_bind]
    constructor
    · rintro ⟨result, dispatched, _⟩
      exact ⟨result, dispatched⟩
    · rintro ⟨result, dispatched⟩
      exact ⟨result, dispatched, returns_pure _⟩
  | read msg =>
    rw [Node.Harmless, ← node.returns_readResponse msg, Node.apply, returns_bind]
    constructor
    · rintro ⟨result, handled, _⟩
      exact ⟨result, handled⟩
    · rintro ⟨result, handled⟩
      exact ⟨result, handled, returns_pure _⟩
  | sendPunchPlan contact args =>
    rw [Node.Harmless, Node.apply]
    split
    · rename_i known
      rw [returns_bind_const, node.returns_sendPunchPlan contact args]
      exact ⟨fun parts _ => parts.1, fun good => ⟨good known, returns_pure _⟩⟩
    · rename_i unknown
      exact iff_of_true (returns_pure _) fun known => absurd known unknown

/-! ### Runs -/

/-- A run performs no index or slice expression out of range exactly when each of its
operations meets its condition in the state the run has reached. -/
theorem Node.returns_run (node : Node) (operations : List Operation) :
    Returns (node.run operations) ↔ node.AllHarmless operations := by
  unfold Node.run
  induction operations generalizing node with
  | nil => exact iff_of_true (returns_pure _) trivial
  | cons operation rest inductionHypothesis =>
    rw [List.foldlM_cons, Node.AllHarmless, ← node.returns_apply operation, returns_bind]
    constructor
    · rintro ⟨next, applied, returned⟩
      refine ⟨⟨next, applied⟩, fun other applied' => ?_⟩
      rw [applied] at applied'
      cases applied'
      exact (inductionHypothesis next).mp returned
    · rintro ⟨⟨next, applied⟩, remaining⟩
      exact ⟨next, applied, (inductionHypothesis next).mpr (remaining next applied)⟩

/-- A request with an empty sender identity, the first message a new node serves, ends it. -/
theorem Node.run_emptySender_faults :
    ¬ Returns ((Node.new (text "hub") 51822 []).run
      [.serve 0 (text "203.0.113.9:40000") [] { type := .findNode }]) := by
  intro returned
  obtain ⟨next, applied, _⟩ := returns_bind.mp returned
  have harmless := (Node.returns_apply _ _).mp ⟨next, applied⟩
  exact absurd (harmless rfl).senderLong (by decide)

end WgMesh.Dht
