/-
This file models the control connections that one peer opens to a hub, and
settles when the hub holds no more than one of them.

Every round of `Bootstrap`, every contact that `Refresh` dials and every
`OpenControl` opens a connection of its own and greets the hub on it. The hub's
handler stores the connection under the key of the greeting, over the one that was
stored before, and waits for a day. No line of the source closes an accepted
connection. The collector may close one that nothing refers to any more: its
handler makes no use of it after the greeting, and it is not stored.

So a stored connection is open, and a greeting that replaces it leaves two open.
Once the hub has read all greetings, it has one open connection of the peer, the
stored one, exactly when it never replaced one.
-/

import WgMesh.Dht.Connection
import WgMesh.Dht.Network

namespace WgMesh.Dht

open Go

/-! ### The connections of a peer at a hub -/

/-- The address that `OpenControl` dials. -/
def Contact.controlAddress (contact : Contact) : Text :=
  if contact.controlEndpoint = [] then contact.endpoint else contact.controlEndpoint

/-- An accepted connection at the hub. -/
structure Accepted where
  /-- What the peer has written and the handler has not read. -/
  toHub : Stream
  handler : Handler
  /-- The key of the greeting that the hub has received on it. -/
  greeted : Option Text
  /-- The hub has not closed it. -/
  isOpen : Bool

/-- A connection on which the peer has written its greeting, and then maybe more. -/
def Node.greeting (peer : Node) (more : Stream) : Accepted where
  toHub := encodeMessage peer.controlHello ++ more
  handler := .decoding
  greeted := none
  isOpen := true

/-- A peer and a hub. The connections are numbered in the order they were accepted. -/
structure Controls where
  peer : Node
  /-- The contacts that a running `Bootstrap` or `Refresh` of the peer is going to dial. -/
  pending : List Contact
  hub : Node
  conns : List Accepted

/-- A peer in any state and a new hub. -/
def Controls.start (peer : Node) (publicKey : Text) (listenPort : Nat) (wgEndpoint : Text) :
    Controls where
  peer := peer
  pending := []
  hub := Node.new publicKey listenPort wgEndpoint
  conns := []

/-- What happens next. -/
inductive ControlEvent where
  /-- One round of the loop of `Bootstrap`. -/
  | bootstrap (seed : Contact)
  | refresh
  /-- The peer handles a contact that another node has listed. -/
  | learn (contact : Contact)
  /-- A dial of `findNode` reaches the hub. The request after the greeting may fail. -/
  | findNode (choice : Nat) (asked : Bool)
  /-- A dial of `findNode` fails, or reaches another node. -/
  | dialFails (choice : Nat)
  /-- A dial of `OpenControl` reaches the hub. -/
  | openControl (contact : Contact)
  | serve (conn : ConnId) (remoteAddr observed : Text)
  /-- The stop channel is closed or the timer fires. -/
  | expire (conn : ConnId)
  /-- The collector closes a connection. -/
  | collect (conn : ConnId)

/-- One event. A dial needs an address under which the hub can be reached. -/
def Controls.step (reaches : Text → Bool) (controls : Controls) :
    ControlEvent → Option Controls
  | .bootstrap seed => do
    let peer ← (controls.peer.bootstrapSeed seed).toOption
    return { controls with peer := peer, pending := controls.pending ++ [seed] }
  | .refresh => some { controls with
      pending := controls.pending ++ controls.peer.refreshContacts }
  | .learn contact => do
    let (peer, _) ← (controls.peer.handleListed contact).toOption
    return { controls with peer := peer }
  | .findNode choice asked => do
    let contact ← controls.pending[choice]?
    if reaches contact.findNodeAddress then
      let request := encodeMessage (controls.peer.findNodeRequest controls.peer.table.selfID)
      return { controls with
        pending := controls.pending.eraseIdx choice
        conns := controls.conns ++ [controls.peer.greeting (if asked then request else [])] }
    else none
  | .dialFails choice => some { controls with pending := controls.pending.eraseIdx choice }
  | .openControl contact =>
    if contact.controlAddress ≠ [] ∧ reaches contact.controlAddress then
      some { controls with conns := controls.conns ++ [controls.peer.greeting []] }
    else none
  | .serve conn remoteAddr observed => do
    let accepted ← controls.conns[conn]?
    if accepted.handler = .decoding then
      match decode [] accepted.toHub with
      | .waiting => none
      | .failed => return { controls with
          conns := controls.conns.set conn { accepted with handler := .returned } }
      | .message msg _ rest => do
        let (hub, _, after) ← (controls.hub.dispatch conn remoteAddr observed msg).toOption
        return { controls with
          hub := hub
          conns := controls.conns.set conn { accepted with
            toHub := rest
            handler := after.handler
            greeted := if msg.type = .controlHello then some msg.publicKey
              else accepted.greeted } }
    else none
  | .expire conn => do
    let accepted ← controls.conns[conn]?
    if accepted.handler = .parked then
      return { controls with conns := controls.conns.set conn { accepted with
        handler := .returned } }
    else none
  | .collect conn => do
    let accepted ← controls.conns[conn]?
    if accepted.handler ≠ .decoding ∧ ∀ entry ∈ controls.hub.controlConns.entries,
        entry.2 ≠ conn then
      return { controls with conns := controls.conns.set conn { accepted with isOpen := false } }
    else none

/-- The handler has read all it will read. -/
def Accepted.Idle (accepted : Accepted) : Prop :=
  accepted.handler ≠ .decoding ∨ decode [] accepted.toHub = .waiting

/-- The hub's handlers have read all greetings that were written. -/
def Controls.Settled (controls : Controls) : Prop :=
  ∀ (conn : ConnId) (accepted : Accepted), controls.conns[conn]? = some accepted → accepted.Idle

/-- The connection is open, and the hub has received a greeting with the peer's key on it. -/
def Controls.OpenFor (controls : Controls) (conn : ConnId) : Prop :=
  ∃ accepted, controls.conns[conn]? = some accepted ∧ accepted.isOpen = true ∧
    accepted.greeted = some controls.peer.publicKey

/-- At most one connection of the peer is open, and it is the stored one. -/
structure Controls.OnePerPeer (controls : Controls) : Prop where
  unique : ∀ first second, controls.OpenFor first → controls.OpenFor second → first = second
  stored : ∀ conn, controls.OpenFor conn →
    controls.hub.controlConns.lookup controls.peer.publicKey = some conn

/-- When the last unread greeting is handled, it has a key, and the hub has not stored a
connection under this key before. -/
def Controls.FirstGreeting (controls : Controls) : ControlEvent → Prop
  | .serve conn _ _ =>
    (∀ (other : ConnId) (accepted : Accepted), other ≠ conn →
      controls.conns[other]? = some accepted → accepted.Idle) →
    controls.peer.publicKey ≠ [] ∧ controls.peer.publicKey ∉ controls.hub.controlConns
  | _ => True

/-! ### What an event does -/

/-- What the events other than the handling of a greeting do: they store nothing, they may add an
unread greeting, and they close no connection that is stored. -/
structure Controls.Narrows (controls next : Controls) : Prop where
  publicKey : next.peer.publicKey = controls.peer.publicKey
  hub : next.hub = controls.hub
  unread : ∀ (conn : ConnId) (accepted : Accepted), next.conns[conn]? = some accepted →
    accepted.handler = .decoding →
      controls.conns[conn]? = some accepted ∨ ∃ more, accepted = controls.peer.greeting more
  settled : next.Settled → controls.Settled
  opened : ∀ conn, next.OpenFor conn → controls.OpenFor conn
  kept : ∀ conn key, controls.hub.controlConns.lookup key = some conn → controls.OpenFor conn →
    next.OpenFor conn

theorem Controls.narrows_keeps (controls : Controls) {peer : Node} (pending : List Contact)
    (same : peer.publicKey = controls.peer.publicKey) :
    controls.Narrows { controls with peer := peer, pending := pending } where
  publicKey := same
  hub := rfl
  unread := fun _ _ found _ => Or.inl found
  settled := id
  opened := by
    rintro conn ⟨accepted, found, isOpen, greeted⟩
    exact ⟨accepted, found, isOpen, same ▸ greeted⟩
  kept := by
    rintro conn _ _ ⟨accepted, found, isOpen, greeted⟩
    exact ⟨accepted, found, isOpen, same.symm ▸ greeted⟩

theorem Controls.narrows_accepts (controls : Controls) (pending : List Contact) (more : Stream) :
    controls.Narrows { controls with
      pending := pending
      conns := controls.conns ++ [controls.peer.greeting more] } := by
  have older : ∀ (conn : ConnId) (accepted : Accepted), controls.conns[conn]? = some accepted →
      (controls.conns ++ [controls.peer.greeting more])[conn]? = some accepted := by
    intro conn accepted found
    rw [List.getElem?_append_left (List.getElem?_eq_some_iff.mp found).1]
    exact found
  have newer : ∀ (conn : ConnId) (accepted : Accepted),
      (controls.conns ++ [controls.peer.greeting more])[conn]? = some accepted →
        controls.conns[conn]? = some accepted ∨ accepted = controls.peer.greeting more := by
    intro conn accepted found
    rcases Nat.lt_or_ge conn controls.conns.length with below | above
    · rw [List.getElem?_append_left below] at found
      exact Or.inl found
    · rw [List.getElem?_append_right above] at found
      exact Or.inr (List.mem_singleton.mp (List.mem_of_getElem? found))
  exact
    { publicKey := rfl
      hub := rfl
      unread := fun conn accepted found _ => (newer conn accepted found).imp_right fun new =>
        ⟨more, new⟩
      settled := fun settled conn accepted found =>
        settled conn accepted (older conn accepted found)
      opened := by
        rintro conn ⟨accepted, found, isOpen, greeted⟩
        rcases newer conn accepted found with old | rfl
        · exact ⟨accepted, old, isOpen, greeted⟩
        · cases greeted
      kept := fun conn _ _ ⟨accepted, found, isOpen, greeted⟩ =>
        ⟨accepted, older conn accepted found, isOpen, greeted⟩ }

/-- A connection whose greeting was read may lose its handler, and it may be closed if it is not
stored. -/
theorem Controls.narrows_set {controls : Controls} {conn : ConnId} {accepted after : Accepted}
    (found : controls.conns[conn]? = some accepted) (read : accepted.handler ≠ .decoding)
    (still : after.handler ≠ .decoding) (greeted : after.greeted = accepted.greeted)
    (opened : after.isOpen = true → accepted.isOpen = true)
    (kept : ∀ key, controls.hub.controlConns.lookup key = some conn →
      after.isOpen = accepted.isOpen) :
    controls.Narrows { controls with conns := controls.conns.set conn after } := by
  have replaced : (controls.conns.set conn after)[conn]? = some after := by
    rw [List.getElem?_set_self (List.getElem?_eq_some_iff.mp found).1]
  have others : ∀ other, other ≠ conn →
      (controls.conns.set conn after)[other]? = controls.conns[other]? := fun other ne =>
    List.getElem?_set_ne (Ne.symm ne)
  refine ⟨rfl, rfl, ?_, ?_, ?_, ?_⟩
  · intro other entry present decoding
    by_cases same : other = conn
    · subst same
      rw [replaced] at present
      cases present
      exact absurd decoding still
    · rw [others other same] at present
      exact Or.inl present
  · intro settled other entry present
    by_cases same : other = conn
    · subst same
      rw [found] at present
      cases present
      exact Or.inl read
    · exact settled other entry ((others other same).trans present)
  · rintro other ⟨entry, present, isOpen, key⟩
    by_cases same : other = conn
    · subst same
      rw [replaced] at present
      cases present
      exact ⟨accepted, found, opened isOpen, greeted.symm.trans key⟩
    · exact ⟨entry, (others other same).symm.trans present, isOpen, key⟩
  · rintro other name stored ⟨entry, present, isOpen, key⟩
    by_cases same : other = conn
    · subst same
      rw [found] at present
      cases present
      exact ⟨after, replaced, (kept name stored).trans isOpen, greeted.trans key⟩
    · exact ⟨entry, (others other same).trans present, isOpen, key⟩

theorem Controls.narrows_of_step {reaches : Text → Bool} {controls next : Controls}
    {event : ControlEvent} (stepped : controls.step reaches event = some next)
    (aside : ∀ conn remoteAddr observed, event ≠ .serve conn remoteAddr observed) :
    controls.Narrows next := by
  cases event with
  | bootstrap seed =>
    obtain ⟨peer, inserted, ⟨⟩⟩ := Option.bind_eq_some_iff.mp stepped
    exact controls.narrows_keeps _ (Node.of_bootstrapSeed (toOption_eq_some inserted)).2.publicKey
  | refresh =>
    cases stepped
    exact controls.narrows_keeps _ rfl
  | learn contact =>
    obtain ⟨⟨peer, effects⟩, handled, ⟨⟩⟩ := Option.bind_eq_some_iff.mp stepped
    refine controls.narrows_keeps _ ?_
    rw [(Node.of_handleListed (toOption_eq_some handled)).1]
  | findNode choice asked =>
    obtain ⟨contact, _, dialed⟩ := Option.bind_eq_some_iff.mp stepped
    split at dialed
    · cases dialed
      exact controls.narrows_accepts _ _
    · cases dialed
  | dialFails choice =>
    cases stepped
    exact controls.narrows_keeps _ rfl
  | openControl contact =>
    simp only [Controls.step] at stepped
    split at stepped
    · cases stepped
      exact controls.narrows_accepts _ _
    · cases stepped
  | serve conn remoteAddr observed => exact absurd rfl (aside conn remoteAddr observed)
  | expire conn =>
    obtain ⟨accepted, found, returned⟩ := Option.bind_eq_some_iff.mp stepped
    split at returned
    · rename_i parked
      cases returned
      exact narrows_set found (parked ▸ Handler.noConfusion) Handler.noConfusion rfl id
        fun _ _ => rfl
    · cases returned
  | collect conn =>
    obtain ⟨accepted, found, closed⟩ := Option.bind_eq_some_iff.mp stepped
    split at closed
    · rename_i free
      cases closed
      refine narrows_set found free.1 free.1 rfl Bool.noConfusion fun key stored => ?_
      exact absurd rfl (free.2 ⟨key, conn⟩ (AList.mem_lookup_iff.mp stored))
    · cases closed

/-- An unread connection is open and has the peer's greeting first, and the hub stores the peer's
last greeting, on a connection that is open. -/
structure Controls.Sound (controls : Controls) : Prop where
  unread : ∀ (conn : ConnId) (accepted : Accepted), controls.conns[conn]? = some accepted →
    accepted.handler = .decoding → accepted.isOpen = true ∧ accepted.greeted = none ∧
      ∃ hello rest, hello.type = .controlHello ∧ hello.publicKey = controls.peer.publicKey ∧
        accepted.toHub = encodeMessage hello ++ rest
  unnamed : [] ∉ controls.hub.controlConns
  stored : ∀ conn, controls.hub.controlConns.lookup controls.peer.publicKey = some conn →
    controls.OpenFor conn
  known : controls.peer.publicKey ≠ [] → ∀ conn, controls.OpenFor conn →
    controls.peer.publicKey ∈ controls.hub.controlConns

/-- The hub after one of the peer's greetings was handled. -/
def Controls.greet (controls : Controls) (conn : ConnId) (rest : Stream) : Controls :=
  { controls with
    hub := controls.hub.storing controls.peer.publicKey conn
    conns := controls.conns.set conn
      { toHub := rest
        handler := .parked
        greeted := some controls.peer.publicKey
        isOpen := true } }

theorem Controls.Sound.greet_of_step {reaches : Text → Bool} {controls next : Controls}
    (sound : controls.Sound) {conn : ConnId} {remoteAddr observed : Text}
    (stepped : controls.step reaches (.serve conn remoteAddr observed) = some next) :
    ∃ accepted rest, controls.conns[conn]? = some accepted ∧ accepted.handler = .decoding ∧
      next = controls.greet conn rest := by
  obtain ⟨accepted, found, served⟩ := Option.bind_eq_some_iff.mp stepped
  split at served
  · rename_i decoding
    obtain ⟨isOpen, _, hello, rest, greeting, own, items⟩ :=
      sound.unread conn accepted found decoding
    rw [items, decode_encodeMessage] at served
    obtain ⟨⟨hub, effects, after⟩, dispatched, ⟨⟩⟩ := Option.bind_eq_some_iff.mp served
    rw [Node.dispatch_greeting_eq _ _ _ _ greeting] at dispatched
    cases dispatched
    refine ⟨accepted, rest, found, decoding, ?_⟩
    rw [Controls.greet, own, if_pos greeting, isOpen]
    rfl
  · cases served

/-! ### What an event keeps -/

theorem Controls.Sound.narrows {controls next : Controls} (sound : controls.Sound)
    (narrows : controls.Narrows next) : next.Sound := by
  refine ⟨?_, ?_, ?_, ?_⟩
  · intro conn accepted found decoding
    rw [narrows.publicKey]
    rcases narrows.unread conn accepted found decoding with old | ⟨more, rfl⟩
    · exact sound.unread conn accepted old decoding
    · exact ⟨rfl, rfl, controls.peer.controlHello, more, rfl, rfl, rfl⟩
  · rw [narrows.hub]
    exact sound.unnamed
  · intro conn stored
    rw [narrows.publicKey, narrows.hub] at stored
    exact narrows.kept conn _ stored (sound.stored conn stored)
  · intro named conn isOpen
    rw [narrows.publicKey] at named ⊢
    rw [narrows.hub]
    exact sound.known named conn (narrows.opened conn isOpen)

theorem Controls.OnePerPeer.narrows {controls next : Controls} (one : controls.OnePerPeer)
    (narrows : controls.Narrows next) : next.OnePerPeer := by
  refine ⟨?_, ?_⟩
  · exact fun first second isOpen alsoOpen =>
      one.unique first second (narrows.opened first isOpen) (narrows.opened second alsoOpen)
  · intro conn isOpen
    rw [narrows.publicKey, narrows.hub]
    exact one.stored conn (narrows.opened conn isOpen)

section Greet

variable {controls : Controls} {conn : ConnId} {accepted : Accepted} (rest : Stream)

theorem Controls.openFor_greet (found : controls.conns[conn]? = some accepted) :
    (controls.greet conn rest).OpenFor conn := by
  refine ⟨_, List.getElem?_set_self (List.getElem?_eq_some_iff.mp found).1, rfl, rfl⟩

theorem Controls.getElem?_greet_ne {other : ConnId} (ne : other ≠ conn) :
    (controls.greet conn rest).conns[other]? = controls.conns[other]? :=
  List.getElem?_set_ne (Ne.symm ne)

theorem Controls.openFor_greet_ne {other : ConnId} (ne : other ≠ conn) :
    (controls.greet conn rest).OpenFor other ↔ controls.OpenFor other := by
  unfold Controls.OpenFor
  rw [Controls.getElem?_greet_ne rest ne]
  rfl

theorem Controls.lookup_greet (named : controls.peer.publicKey ≠ []) :
    (controls.greet conn rest).hub.controlConns.lookup controls.peer.publicKey = some conn := by
  show (controls.hub.storing _ _).controlConns.lookup _ = _
  rw [Node.storing, if_pos named]
  exact AList.lookup_insert _

theorem Controls.lookup_greet_unnamed (sound : controls.Sound)
    (unnamed : controls.peer.publicKey = []) :
    (controls.greet conn rest).hub.controlConns.lookup controls.peer.publicKey = none := by
  show (controls.hub.storing _ _).controlConns.lookup _ = _
  rw [Node.storing, if_neg (not_not.mpr unnamed), unnamed]
  exact AList.lookup_eq_none.mpr sound.unnamed

theorem Controls.parked_greet (found : (controls.greet conn rest).conns[conn]? = some accepted) :
    accepted.handler = .parked := by
  change (controls.conns.set conn _)[conn]? = _ at found
  rw [List.getElem?_set, if_pos rfl] at found
  split at found
  · cases found
    rfl
  · cases found

theorem Controls.settled_greet_iff :
    (controls.greet conn rest).Settled ↔ ∀ (other : ConnId) (accepted : Accepted), other ≠ conn →
      controls.conns[other]? = some accepted → accepted.Idle := by
  constructor
  · intro settled other accepted ne found
    exact settled other accepted ((Controls.getElem?_greet_ne rest ne).trans found)
  · intro idle other accepted found
    by_cases same : other = conn
    · subst same
      exact Or.inl (Controls.parked_greet rest found ▸ Handler.noConfusion)
    · rw [Controls.getElem?_greet_ne rest same] at found
      exact idle other accepted same found

end Greet

theorem Controls.Sound.greet {controls : Controls} (sound : controls.Sound) {conn : ConnId}
    {accepted : Accepted} (rest : Stream) (found : controls.conns[conn]? = some accepted) :
    (controls.greet conn rest).Sound := by
  refine ⟨?_, ?_, ?_, ?_⟩
  · intro other entry present decoding
    by_cases same : other = conn
    · subst same
      rw [Controls.parked_greet rest present] at decoding
      cases decoding
    · rw [Controls.getElem?_greet_ne rest same] at present
      exact sound.unread other entry present decoding
  · show [] ∉ (controls.hub.storing _ _).controlConns
    rw [Node.storing]
    split
    · rename_i named
      exact fun member => ((AList.mem_insert _).mp member).elim (fun same => named same.symm)
        sound.unnamed
    · exact sound.unnamed
  · intro other stored
    change (controls.greet conn rest).hub.controlConns.lookup controls.peer.publicKey = _ at stored
    by_cases named : controls.peer.publicKey ≠ []
    · rw [Controls.lookup_greet rest named] at stored
      cases stored
      exact Controls.openFor_greet rest found
    · rw [Controls.lookup_greet_unnamed rest sound (not_not.mp named)] at stored
      cases stored
  · intro named _ _
    change controls.peer.publicKey ≠ [] at named
    show controls.peer.publicKey ∈ _
    rw [← AList.lookup_isSome, Controls.lookup_greet rest named]
    rfl

/-- The first greeting leaves one connection open, the stored one. -/
theorem Controls.Sound.onePerPeer_greet {controls : Controls} (sound : controls.Sound)
    {conn : ConnId} (rest : Stream) (named : controls.peer.publicKey ≠ [])
    (first : controls.peer.publicKey ∉ controls.hub.controlConns) :
    (controls.greet conn rest).OnePerPeer := by
  have only : ∀ other, (controls.greet conn rest).OpenFor other → other = conn := by
    intro other isOpen
    by_contra ne
    exact first (sound.known named other ((Controls.openFor_greet_ne rest ne).mp isOpen))
  refine ⟨?_, ?_⟩
  · exact fun one another isOpen alsoOpen => (only one isOpen).trans (only another alsoOpen).symm
  · intro other isOpen
    rw [only other isOpen]
    exact Controls.lookup_greet rest named

/-- A greeting without a key leaves a connection open that is not stored, and a later greeting
leaves the connection open that it replaces. -/
theorem Controls.Sound.not_onePerPeer_greet {controls : Controls} (sound : controls.Sound)
    {conn : ConnId} {accepted : Accepted} (rest : Stream)
    (found : controls.conns[conn]? = some accepted) (unread : accepted.handler = .decoding)
    (later : ¬ (controls.peer.publicKey ≠ [] ∧
      controls.peer.publicKey ∉ controls.hub.controlConns)) :
    ¬ (controls.greet conn rest).OnePerPeer := by
  intro one
  have greeted := Controls.openFor_greet rest found
  by_cases named : controls.peer.publicKey ≠ []
  · have member : controls.peer.publicKey ∈ controls.hub.controlConns :=
      by_contra fun missing => later ⟨named, missing⟩
    obtain ⟨replaced, stored⟩ := Option.isSome_iff_exists.mp (AList.lookup_isSome.mpr member)
    obtain ⟨entry, present, isOpen, key⟩ := sound.stored replaced stored
    have ne : replaced ≠ conn := by
      rintro rfl
      rw [found] at present
      cases present
      rw [(sound.unread replaced accepted found unread).2.1] at key
      cases key
    exact ne (one.unique replaced conn
      ((Controls.openFor_greet_ne rest ne).mpr ⟨entry, present, isOpen, key⟩) greeted)
  · have stored := one.stored conn greeted
    change (controls.greet conn rest).hub.controlConns.lookup controls.peer.publicKey = _ at stored
    rw [Controls.lookup_greet_unnamed rest sound (not_not.mp named)] at stored
    cases stored

/-! ### One connection for each peer -/

theorem Controls.sound_start (peer : Node) (publicKey : Text) (listenPort : Nat)
    (wgEndpoint : Text) : (Controls.start peer publicKey listenPort wgEndpoint).Sound where
  unread := fun _ _ found => nomatch found
  unnamed := AList.notMem_empty []
  stored := fun _ stored => nomatch stored
  known := fun _ _ ⟨_, found, _⟩ => nomatch found

theorem Controls.onePerPeer_start (peer : Node) (publicKey : Text) (listenPort : Nat)
    (wgEndpoint : Text) : (Controls.start peer publicKey listenPort wgEndpoint).OnePerPeer where
  unique := fun _ _ ⟨_, found, _⟩ => nomatch found
  stored := fun _ ⟨_, found, _⟩ => nomatch found

/-- In every run of bootstraps, refreshes and `OpenControl` calls of a peer, the hub has at most
one open connection of the peer, the stored one, whenever its handlers have read all greetings, if
and only if the last unread greeting is never handled after the hub has stored a connection of the
peer. -/
theorem control_onePerPeer_iff (reaches : Text → Bool) (peer : Node) (publicKey : Text)
    (listenPort : Nat) (wgEndpoint : Text) {events : List ControlEvent}
    (enabled : (Runs.run (Controls.step reaches)
      (Controls.start peer publicKey listenPort wgEndpoint) events).isSome) :
    Runs.Always (Controls.step reaches) (fun controls => controls.Settled → controls.OnePerPeer)
        (Controls.start peer publicKey listenPort wgEndpoint) events ↔
      Runs.Along (Controls.step reaches) Controls.FirstGreeting
        (Controls.start peer publicKey listenPort wgEndpoint) events := by
  refine Runs.always_iff_along
    (fun controls => controls.Sound ∧ (controls.Settled → controls.OnePerPeer))
    (fun _ kept => kept.2) ?_ ?_
    ⟨Controls.sound_start _ _ _ _, fun _ => Controls.onePerPeer_start _ _ _ _⟩ enabled
  · rintro controls event next ⟨sound, one⟩ first stepped
    by_cases serves : ∃ conn remoteAddr observed, event = .serve conn remoteAddr observed
    · obtain ⟨conn, remoteAddr, observed, rfl⟩ := serves
      obtain ⟨accepted, rest, found, _, rfl⟩ := sound.greet_of_step stepped
      refine ⟨sound.greet rest found, fun settled => ?_⟩
      obtain ⟨named, missing⟩ := first ((Controls.settled_greet_iff rest).mp settled)
      exact sound.onePerPeer_greet rest named missing
    · have narrows := Controls.narrows_of_step stepped fun conn remoteAddr observed same =>
        serves ⟨conn, remoteAddr, observed, same⟩
      exact ⟨sound.narrows narrows, fun settled => (one (narrows.settled settled)).narrows narrows⟩
  · rintro controls event next ⟨sound, _⟩ later stepped holds
    cases event with
    | serve conn remoteAddr observed =>
      obtain ⟨accepted, rest, found, unread, rfl⟩ := sound.greet_of_step stepped
      obtain ⟨idle, again⟩ := Classical.not_imp.mp later
      exact sound.not_onePerPeer_greet rest found unread again
        (holds ((Controls.settled_greet_iff rest).mpr idle))
    | _ => exact later trivial

/-- A peer and a new hub. -/
def peerAndHub : Controls :=
  Controls.start (Node.new (text "peer-public-key") 51821 []) (text "hub-public-key") 51821 []

/-- The only address of the hub. -/
def hubAddress (address : Text) : Bool := decide (address = text "203.0.113.1:51821")

/-- The peer bootstraps with the hub, and the hub handles its greeting. -/
def bootstrapped : List ControlEvent :=
  [.bootstrap (.known (text "hub-public-key") (text "203.0.113.1:51821")), .findNode 0 true,
    .serve 0 (text "198.51.100.7:40000") []]

/-- One bootstrap leaves the hub with one connection. -/
theorem control_onePerPeer_iff_bootstrapped :
    Runs.Always (Controls.step hubAddress) (fun controls => controls.Settled → controls.OnePerPeer)
      peerAndHub bootstrapped := by
  refine (control_onePerPeer_iff hubAddress _ _ _ _ (by decide +kernel)).mpr
    ⟨trivial, fun seeded inserted => ⟨trivial, fun dialed accepted => ⟨fun _ => ?_,
      fun _ _ => trivial⟩⟩⟩
  have first := Controls.narrows_of_step inserted (fun _ _ _ => ControlEvent.noConfusion)
  have second := Controls.narrows_of_step accepted (fun _ _ _ => ControlEvent.noConfusion)
  rw [second.publicKey, second.hub, first.publicKey, first.hub]
  exact ⟨by decide, AList.notMem_empty _⟩

/-- After one refresh the hub has read both greetings, and both connections are open. -/
theorem refreshed_twoOpen :
    ∃ controls, Runs.run (Controls.step hubAddress) peerAndHub
        (bootstrapped ++ [.refresh, .findNode 0 true, .serve 1 (text "198.51.100.7:40001") []]) =
          some controls ∧
      controls.Settled ∧ controls.OpenFor 0 ∧ controls.OpenFor 1 ∧ ¬ controls.OnePerPeer := by
  let facts (accepted : Accepted) := (accepted.handler, accepted.isOpen, accepted.greeted)
  have ended : (Runs.run (Controls.step hubAddress) peerAndHub
      (bootstrapped ++ [.refresh, .findNode 0 true, .serve 1 (text "198.51.100.7:40001") []])).map
        (fun controls => (controls.peer.publicKey, controls.conns.map facts)) =
      some (text "peer-public-key",
        List.replicate 2 (.parked, true, some (text "peer-public-key"))) := by
    decide +kernel
  obtain ⟨controls, ran, both⟩ := Option.map_eq_some_iff.mp ended
  obtain ⟨publicKey, conns⟩ := Prod.mk.inj both
  have isOpen : ∀ conn < 2, controls.OpenFor conn := by
    intro conn below
    have found : controls.conns[conn]?.map facts =
        some (.parked, true, some (text "peer-public-key")) := by
      rw [← List.getElem?_map, conns, List.getElem?_replicate_of_lt below]
    obtain ⟨accepted, present, fields⟩ := Option.map_eq_some_iff.mp found
    obtain ⟨_, opened, greeted⟩ := by simpa only [facts, Prod.mk.injEq] using fields
    exact ⟨accepted, present, opened, publicKey.symm ▸ greeted⟩
  refine ⟨controls, ran, ?_, isOpen 0 (by decide), isOpen 1 (by decide), ?_⟩
  · intro conn accepted present
    have member := List.mem_map_of_mem (f := facts) (List.mem_of_getElem? present)
    rw [conns] at member
    have parked : accepted.handler = .parked :=
      congrArg Prod.fst (List.eq_of_mem_replicate member)
    exact Or.inl (parked ▸ Handler.noConfusion)
  · intro one
    exact absurd (one.unique 0 1 (isOpen 0 (by decide)) (isOpen 1 (by decide))) (by decide)

end WgMesh.Dht
