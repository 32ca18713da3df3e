/-
This file connects the mesh state to peer exchange: the callback of the daemon
that tells the connected peers, and what another node makes of them.

The monitor is the only writer of the mesh state, and it marks peers as connected
or disconnected without ever filling in an endpoint. A node takes in no entry
without an endpoint, so it learns of a connected peer exactly when it knows the
peer already.
-/

import WgMesh.Meshd.Monitor
import WgMesh.Pex.Protocol

namespace WgMesh.Meshd

open Go Uapi Pex

variable {World : Type}

/-! ### The callback -/

/-- `ConnectedPeers`, in the order in which a `range` visits the keys. -/
def MeshState.connectedPeers (mesh : MeshState) (order : List Text) : List PeerState :=
  (order.filterMap mesh.lookup).filter (·.isConnected)

/-- The callback that `main` passes to peer exchange. -/
def MeshState.knownPeers (mesh : MeshState) (order : List Text) : List PeerEntry :=
  (mesh.connectedPeers order).map fun peer =>
    { publicKey := peer.publicKey, endpoints := peer.endpoints, latencyMs := 0 }

/-- The mesh state counts a peer as connected. -/
def MeshState.Counts (mesh : MeshState) (key : Text) : Prop :=
  ∃ peer, mesh.lookup key = some peer ∧ peer.isConnected = true

/-- A node has every connected peer other than itself among its entries. -/
def Knows (mesh : MeshState) (receiver : Protocol) : Prop :=
  ∀ key, mesh.Counts key → key ≠ receiver.publicKey → key ∈ receiver.entries

/-- After a node has handled the request or the response of a daemon with this mesh state, it
knows the connected peers. -/
structure Spreads (mesh : MeshState) (sender receiver : Protocol) : Prop where
  request : ∀ order, order.Perm mesh.keys → ∀ knownPeers, ∃ after answer,
    receiver.handleRequest (sender.request (mesh.knownPeers order)) knownPeers =
      .ok (after, answer) ∧ Knows mesh after
  response : ∀ order, order.Perm mesh.keys → ∃ after,
    receiver.handleResponse (sender.answer (mesh.knownPeers order)) = .ok after ∧ Knows mesh after
  reply : ∀ order, order.Perm mesh.keys → ∃ after,
    receiver.receiveReply (sender.answer (mesh.knownPeers order)) = .ok after ∧ Knows mesh after

/-! ### The mesh states of a daemon -/

/-- A call of `UpsertPeer` as the monitor makes it. -/
structure Mark where
  publicKey : Text
  seen : Int
  connected : Bool
  deriving DecidableEq, Repr

def MeshState.mark (mesh : MeshState) (mark : Mark) : MeshState :=
  mesh.upsertPeer mark.publicKey mark.seen fun state =>
    { state with isConnected := mark.connected }

/-- The mesh state after these calls. -/
def MeshState.marked (marks : List Mark) : MeshState := marks.foldl MeshState.mark ∅

/-- No peer has an endpoint. -/
def MeshState.Bare (mesh : MeshState) : Prop :=
  ∀ key peer, mesh.lookup key = some peer → peer.endpoints = []

/-- Every mesh state in a run of the monitor is made by such calls. -/
theorem exists_marked {settings : Settings} {env : Env World} {session next : Session Call World}
    {rounds : List Unit} {monitor : Monitor}
    (reached : Runs.run (Monitor.step settings env) (Monitor.new, session) rounds =
      some (monitor, next)) : ∃ marks, monitor.mesh = .marked marks := by
  refine monitor_invariant (fun monitor => ∃ marks, monitor.mesh = .marked marks) ?_ ?_
    ⟨[], rfl⟩ reached
  · rintro now peer before after ⟨marks, same⟩ judged
    cases judged with
    | passed _ => exact ⟨marks, same⟩
    | recorded _ _ removedAt seen =>
      refine ⟨marks ++ [⟨peer.publicKey, seen, false⟩], ?_⟩
      rw [MeshState.marked, List.foldl_append, ← MeshState.marked, ← same]
      rfl
  · rintro _ _ key saved before after ⟨marks, same⟩ _ retried
    cases retried with
    | waited => exact ⟨marks, same⟩
    | postponed _ => exact ⟨marks, same⟩
    | recovered seen _ =>
      refine ⟨marks ++ [⟨key, seen, true⟩], ?_⟩
      rw [MeshState.marked, List.foldl_append, ← MeshState.marked, ← same]
      rfl

theorem MeshState.Bare.mark {mesh : MeshState} (bare : mesh.Bare) (mark : Mark) :
    (mesh.mark mark).Bare := by
  intro key peer found
  by_cases same : key = mark.publicKey
  · subst same
    rw [MeshState.mark, MeshState.upsertPeer, AList.lookup_insert] at found
    cases found
    cases known : AList.lookup mark.publicKey mesh with
    | none => rfl
    | some old => exact bare mark.publicKey old known
  · rw [MeshState.mark, MeshState.upsertPeer, AList.lookup_insert_ne same] at found
    exact bare key peer found

theorem MeshState.bare_marked (marks : List Mark) : (MeshState.marked marks).Bare := by
  induction marks using List.reverseRecOn with
  | nil =>
    rintro key peer ⟨⟩
  | append_singleton marks mark inductionHypothesis =>
    rw [MeshState.marked, List.foldl_append]
    exact inductionHypothesis.mark mark

/-! ### What a node learns -/

theorem MeshState.Bare.endpoints_eq {mesh : MeshState} (bare : mesh.Bare) {order : List Text}
    {entry : PeerEntry} (member : entry ∈ mesh.knownPeers order) : entry.endpoints = [] := by
  obtain ⟨peer, among, rfl⟩ := List.mem_map.mp member
  obtain ⟨key, _, found⟩ := List.mem_filterMap.mp (List.mem_of_mem_filter among)
  exact bare key peer found

/-- Entries without endpoints change nothing. -/
theorem ingestAll_of_bare (path : Path) (receiver : Protocol) {entries : List PeerEntry}
    (nowhere : ∀ entry ∈ entries, entry.endpoints = []) :
    receiver.ingestAll path entries = .ok receiver := by
  unfold Protocol.ingestAll
  induction entries with
  | nil => rfl
  | cons entry rest inductionHypothesis =>
    obtain ⟨first, others⟩ := List.forall_mem_cons.mp nowhere
    rw [List.foldlM_cons, Protocol.ingest_of_not_accepts _ fun accepts => accepts.2.2 first]
    exact inductionHypothesis others

theorem spreads_iff_of_bare {mesh : MeshState} (bare : mesh.Bare) (sender receiver : Protocol) :
    Spreads mesh sender receiver ↔ Knows mesh receiver := by
  have same : ∀ path order, receiver.ingestAll path (mesh.knownPeers order) = .ok receiver :=
    fun path order => ingestAll_of_bare path receiver fun entry member => bare.endpoints_eq member
  constructor
  · intro spreads
    obtain ⟨after, handled, knows⟩ := spreads.response mesh.keys (.refl _)
    rw [Protocol.handleResponse] at handled
    cases (same .response mesh.keys).symm.trans handled
    exact knows
  · intro knows
    refine ⟨fun order _ known => ?_, fun order _ => ?_, fun order _ => ?_⟩
    · refine ⟨receiver, receiver.answer known, ?_, knows⟩
      rw [Protocol.handleRequest]
      exact congrArg (· >>= fun next => pure (next, receiver.answer known)) (same .request order)
    · exact ⟨receiver, same .response order, knows⟩
    · exact ⟨receiver, (if_pos rfl).trans (same .reply order), knows⟩

/-- Peer exchange makes the connected peers of a daemon known to a node exactly when the node
knows them already: in every state that marks of a monitor lead to, and so in every state of a
run. -/
theorem spreads_iff_known (marks : List Mark) (sender receiver : Protocol) :
    (Spreads (.marked marks) sender receiver ↔ Knows (.marked marks) receiver) ∧
      ∀ (World : Type) (settings : Settings) (env : Env World) (session next : Session Call World)
        (rounds : List Unit) (monitor : Monitor),
        Runs.run (Monitor.step settings env) (Monitor.new, session) rounds =
          some (monitor, next) →
        (∃ marks, monitor.mesh = .marked marks) ∧
          (Spreads monitor.mesh sender receiver ↔ Knows monitor.mesh receiver) := by
  refine ⟨spreads_iff_of_bare (MeshState.bare_marked marks) sender receiver, ?_⟩
  intro World settings env session next rounds monitor reached
  obtain ⟨marks, same⟩ := exists_marked reached
  rw [same]
  exact ⟨⟨marks, rfl⟩, spreads_iff_of_bare (MeshState.bare_marked marks) sender receiver⟩

/-! ### A peer that is connected and not spread -/

def wakingKey : Text := text "AAAAAAAAAAAAAAAAAAAAAAAAAAAAAAAAAAAAAAAAAAA="

/-- A peer that is quiet until it is scanned for. -/
def wakingPeer (awake : Bool) : PeerInfo where
  publicKey := wakingKey
  presharedKey := text "(none)"
  endpoint := text "203.0.113.5:51820"
  allowedIPs := text "10.200.200.3/32"
  latestHandshake := if awake then 1000 else 0
  transferRx := if awake then 1 else 0
  transferTx := 0
  persistentKeepalive := 25

/-- A world in which this peer answers the first candidate of a scan. -/
def wakingEnv : Env Bool where
  answer := fun call awake => match call with
    | .now => (1000 * second, awake)
    | .done => (false, awake)
    | .sleep _ => (false, awake)
    | .listPeers => (some [wakingPeer awake], awake)
    | .setPeer site _ => (true, awake || site = .scan)
    | .setEndpointFast _ _ _ => (true, awake)
  order := fun _ keys => keys
  order_perm := fun _ keys => List.Perm.refl keys

/-- Tracked peers are retried at once. -/
def eager : Settings := { Settings.default (text "hub") with restoreInterval := 0 }

/-- The peer as phase 1 tracks it. -/
def wakingSaved : SavedPeer where
  publicKey := wakingKey
  endpoint := text "203.0.113.5:51820"
  allowedIPs := text "10.200.200.3/32"
  keepAlive := 25
  baselineRx := 0
  removedAt := 1000 * second

theorem scan_waking (calls : List Call) : ∃ next,
    wakingSaved.scan eager wakingEnv ⟨false, calls⟩ =
      .ok (some (text "203.0.113.5:51820"), next) := by
  have started : (wakingSaved.scanArgs eager).center = some (text "203.0.113.5", 51820) := by
    decide +kernel
  have address : joinHostPort (text "203.0.113.5") (itoa (51820 : Int).toNat) =
      text "203.0.113.5:51820" := by decide +kernel
  have timely : ¬ 1000 * second + (wakingSaved.scanArgs eager).effectiveBudget < 1000 * second := by
    decide
  have accepted : lists (handshaken wakingKey (text "203.0.113.5:51820") (unix (1000 * second)) 0)
      (some [wakingPeer true]) = true := by
    decide +kernel
  have logged : ∀ calls, (liftM (upTo (wakingSaved.scanArgs eager).publicKey 16) :
      Process Bool Text) ⟨false, calls⟩ = .ok (wakingKey.take 16, ⟨false, calls⟩) :=
    fun calls => proc_lift_eq_ok.mpr ⟨if_pos (by decide), rfl⟩
  have asked : ∀ awake calls, wakingEnv.call .now ⟨awake, calls⟩ =
      .ok (1000 * second, ⟨awake, calls ++ [.now]⟩) := fun _ _ => rfl
  have polled : ∀ awake calls, wakingEnv.call .done ⟨awake, calls⟩ =
      .ok (false, ⟨awake, calls ++ [.done]⟩) := fun _ _ => rfl
  have set : ∀ calls, setCandidate wakingEnv (wakingSaved.scanArgs eager) 0
      (text "203.0.113.5:51820") ⟨false, calls⟩ = .ok (true, ⟨true, calls ++
        [.setPeer .scan wakingSaved.config]⟩) := fun _ => rfl
  have sampled : ∀ calls, sampleCandidate wakingEnv (wakingSaved.scanArgs eager)
      (unix (1000 * second)) 0 (text "203.0.113.5:51820") ⟨true, calls⟩ =
        .ok (true, ⟨true, calls ++ [.listPeers]⟩) := by
    intro calls
    rw [← accepted]
    rfl
  obtain ⟨rest, ports⟩ := prioritizedPorts_cons (show ValidPort 51820 by decide)
    (wakingSaved.scanArgs eager).effectiveCount
  have scanned : wakingSaved.scan eager wakingEnv =
      blindScanEndpoint wakingEnv (wakingSaved.scanArgs eager) := if_pos rfl
  rw [scanned]
  unfold blindScanEndpoint
  rw [started]
  change ∃ next, (wakingEnv.call .now >>= _) _ = _
  rw [proc_bind_of_ok (asked _ _), proc_bind_of_ok (logged _), ports]
  change ∃ next, (wakingEnv.call .now >>= _) _ = _
  rw [proc_bind_of_ok (asked _ _), if_neg timely, proc_bind_of_ok (polled _ _), address]
  exact ⟨_, (proc_bind_of_ok (set _)).trans (proc_bind_of_ok (sampled _))⟩

/-- The monitor once phase 1 has tracked the peer. -/
def wakingJudged : Monitor :=
  Monitor.new.record (wakingPeer false) (1000 * second) (1000 * second)

/-- The calls of a check up to there. -/
def wakingCalls : List Call :=
  [.listPeers, .now, .setPeer .clearRoute (clearedConfig (wakingPeer false)), .now, .now]

theorem retry_waking : ∃ next,
    wakingJudged.retry eager wakingEnv wakingKey wakingSaved ⟨false, wakingCalls⟩ =
      .ok (wakingJudged.recover wakingKey (1000 * second), next) := by
  obtain ⟨next, scanned⟩ := scan_waking (wakingCalls ++ [.now])
  have asked : wakingEnv.call .now ⟨false, wakingCalls⟩ =
      .ok (1000 * second, ⟨false, wakingCalls ++ [.now]⟩) := rfl
  have due : ¬ 1000 * second - wakingSaved.removedAt < eager.restoreInterval.tdiv 2 := by decide
  have logged : (liftM (upTo wakingKey 16) : Process Bool Text) next =
      .ok (wakingKey.take 16, next) := proc_lift_eq_ok.mpr ⟨if_pos (by decide), rfl⟩
  have stamped : wakingEnv.call .now next =
      .ok (1000 * second, ⟨next.world, next.calls ++ [.now]⟩) := rfl
  unfold Monitor.retry
  rw [proc_bind_of_ok asked, if_neg due, proc_bind_of_ok scanned]
  exact ⟨_, (proc_bind_of_ok logged).trans (proc_bind_of_ok stamped)⟩

theorem phase1_waking : Monitor.new.phase1 eager wakingEnv 1000 [wakingPeer false]
    ⟨false, [.listPeers, .now]⟩ = .ok (wakingJudged, ⟨false, wakingCalls⟩) := by
  have unskipped : ¬ Monitor.new.Skips eager (wakingPeer false) := by decide +kernel
  have stale : eager.Stale 1000 (wakingPeer false) := by decide +kernel
  unfold Monitor.phase1 Monitor.phase1Peer
  rw [if_neg unskipped, if_pos stale]
  rfl

theorem phase2_waking : ∃ next,
    wakingJudged.phase2 eager wakingEnv [wakingKey] ⟨false, wakingCalls⟩ =
      .ok (wakingJudged.recover wakingKey (1000 * second), next) := by
  obtain ⟨next, retried⟩ := retry_waking
  have tracked : wakingJudged.savedPeers.lookup wakingKey = some wakingSaved :=
    AList.lookup_insert _
  unfold Monitor.phase2
  rw [tracked]
  exact ⟨next, (proc_bind_of_ok retried).trans rfl⟩

theorem check_waking : ∃ next, Monitor.new.check eager wakingEnv ⟨false, []⟩ =
    .ok (wakingJudged.recover wakingKey (1000 * second), next) := by
  obtain ⟨next, retried⟩ := phase2_waking
  have listed : wakingEnv.call .listPeers ⟨false, []⟩ =
      .ok (some [wakingPeer false], ⟨false, [.listPeers]⟩) := rfl
  have timed : wakingEnv.call .now ⟨false, [.listPeers]⟩ =
      .ok (1000 * second, ⟨false, [.listPeers, .now]⟩) := rfl
  have ranged : wakingEnv.rangeKeys wakingJudged.savedPeers.keys ⟨false, wakingCalls⟩ =
      .ok ([wakingKey], ⟨false, wakingCalls⟩) := rfl
  unfold Monitor.check
  rw [proc_bind_of_ok listed]
  change ∃ next, (wakingEnv.call .now >>= _) _ = _
  rw [proc_bind_of_ok timed, show unix (1000 * second) = 1000 by decide,
    proc_bind_of_ok phase1_waking, proc_bind_of_ok ranged]
  exact ⟨next, retried⟩

theorem step_of_round {settings : Settings} {env : Env World} {monitor after : Monitor}
    {session next : Session Call World}
    (round : monitor.round settings env session = .ok (some after, next)) :
    Monitor.step settings env (monitor, session) () = some (after, next) := by
  unfold Monitor.step
  rw [round]

/-- The peer is found stale, scanned for and marked as connected in one round. -/
theorem waking_round : ∃ session,
    Runs.run (Monitor.step eager wakingEnv) (Monitor.new, ⟨false, []⟩) [()] =
      some (wakingJudged.recover wakingKey (1000 * second), session) := by
  obtain ⟨next, checked⟩ := check_waking
  have slept : wakingEnv.call (.sleep eager.interval) next =
      .ok (false, ⟨next.world, next.calls ++ [.sleep eager.interval]⟩) := rfl
  have round : Monitor.new.round eager wakingEnv ⟨false, []⟩ =
      .ok (some (wakingJudged.recover wakingKey (1000 * second)),
        ⟨next.world, next.calls ++ [.sleep eager.interval]⟩) :=
    (proc_bind_of_ok checked).trans (proc_bind_of_ok slept)
  exact ⟨_, Runs.run_cons.mpr ⟨_, step_of_round round, rfl⟩⟩

/-- A peer that the daemon counts as connected is not told to a node that does not know it. -/
theorem waking_unspread : ∃ monitor session,
    Runs.run (Monitor.step eager wakingEnv) (Monitor.new, ⟨false, []⟩) [()] =
      some (monitor, session) ∧ monitor.mesh.Counts wakingKey ∧
      ¬ Spreads monitor.mesh (.new (text "sender")) (.new (text "receiver")) := by
  obtain ⟨session, ran⟩ := waking_round
  obtain ⟨marks, same⟩ := exists_marked ran
  have counted : (wakingJudged.recover wakingKey (1000 * second)).mesh.Counts wakingKey :=
    ⟨_, AList.lookup_insert _, rfl⟩
  refine ⟨_, session, ran, counted, ?_⟩
  have bare := MeshState.bare_marked marks
  rw [← same] at bare
  rw [spreads_iff_of_bare bare]
  intro knows
  exact AList.notMem_empty _ (knows wakingKey counted (by decide))

end WgMesh.Meshd
