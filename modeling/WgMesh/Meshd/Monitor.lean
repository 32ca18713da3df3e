/-
This file models the handshake monitor of the daemon: the peers it tracks, the
mesh state it keeps, the two phases of a check and the loop that repeats it.

Phase 1 goes over a listing and records the peers whose handshake is stale. It
skips every peer that is already tracked. Phase 2 goes over the tracked peers and
retries those whose time has come. So what a phase can do to the monitor is one
of a few moves for each peer, which `Judges` and `Retries` list.
-/

import WgMesh.Go.Duration
import WgMesh.Meshd.Scan
import WgMesh.Runs

namespace WgMesh.Meshd

open Go Uapi

variable {World : Type}

/-! ### The mesh state -/

/-- The fields of `mesh.PeerState` that the daemon writes or reads. -/
structure PeerState where
  publicKey : Text
  endpoints : List Text
  lastSeen : Int
  isConnected : Bool
  deriving DecidableEq, Repr

/-- The peers of `mesh.State`. -/
abbrev MeshState := AList fun _ : Text => PeerState

/-- A peer that is not known yet. The zero time is as good as any: it is overwritten before it
is read. -/
def PeerState.new (publicKey : Text) : PeerState where
  publicKey := publicKey
  endpoints := []
  lastSeen := 0
  isConnected := false

/-- `UpsertPeer`, at a time. -/
def MeshState.upsertPeer (peers : MeshState) (publicKey : Text) (now : Int)
    (update : PeerState → PeerState) : MeshState :=
  peers.insert publicKey
    { update ((peers.lookup publicKey).getD (.new publicKey)) with lastSeen := now }

/-! ### The monitor -/

/-- A peer that is tracked for restoration. -/
structure SavedPeer where
  publicKey : Text
  endpoint : Text
  allowedIPs : Text
  keepAlive : Int
  baselineRx : Int
  removedAt : Int
  deriving DecidableEq, Repr

/-- The tracked peers and the mesh state. -/
structure Monitor where
  savedPeers : AList fun _ : Text => SavedPeer
  mesh : MeshState

/-- The monitor when it starts. -/
def Monitor.new : Monitor where
  savedPeers := ∅
  mesh := ∅

/-- The arguments of `runHandshakeMonitor`. Durations are in nanoseconds. -/
structure Settings where
  vpsHubPubKey : Text
  timeout : Int
  interval : Int
  restoreInterval : Int
  blindScan : Bool
  blindScanPorts : Int
  blindScanRate : Int
  blindScanBudget : Int
  deriving DecidableEq, Repr

/-- The settings `main` passes when no flag is given. -/
def Settings.default (vpsHubPubKey : Text) : Settings where
  vpsHubPubKey := vpsHubPubKey
  timeout := 120 * second
  interval := 15 * second
  restoreInterval := 300 * second
  blindScan := true
  blindScanPorts := 65535
  blindScanRate := 230
  blindScanBudget := 330 * second

def normalizedAllowedIPs (allowed : Text) : Text :=
  if allowed = [] ∨ allowed = text "(none)" then [] else allowed

/-- The handshake of a listed peer is older than the timeout, in whole seconds. -/
def Settings.Stale (settings : Settings) (now : Int) (peer : PeerInfo) : Prop :=
  truncate (seconds settings.timeout) < wrap64 (now - peer.latestHandshake)

instance (settings : Settings) (now : Int) (peer : PeerInfo) :
    Decidable (settings.Stale now peer) := inferInstanceAs (Decidable (_ < _))

/-- For a timeout below half a year the rounding does not show. -/
theorem Settings.stale_iff {settings : Settings} (nonneg : 0 ≤ settings.timeout)
    (below : settings.timeout < 2 ^ 24 * second) (now : Int) (peer : PeerInfo) :
    settings.Stale now peer ↔
      settings.timeout / second < wrap64 (now - peer.latestHandshake) := by
  have whole : truncate (seconds settings.timeout) = settings.timeout / second :=
    (truncate_seconds nonneg below).trans (Int.tdiv_eq_ediv_of_nonneg nonneg)
  rw [Settings.Stale, whole]

/-- Phase 1 passes over the peer: it is the hub, or has no endpoint, or is a relay, or is
tracked. -/
def Monitor.Skips (monitor : Monitor) (settings : Settings) (peer : PeerInfo) : Prop :=
  peer.publicKey = settings.vpsHubPubKey ∨ (peer.endpoint = [] ∨ peer.endpoint = text "(none)") ∨
    contains peer.allowedIPs (text "/24") ∨ peer.publicKey ∈ monitor.savedPeers

instance (monitor : Monitor) (settings : Settings) (peer : PeerInfo) :
    Decidable (monitor.Skips settings peer) := inferInstanceAs (Decidable (_ ∨ _))

theorem Monitor.skips_of_tracked {monitor : Monitor} {settings : Settings} {peer : PeerInfo}
    (tracked : peer.publicKey ∈ monitor.savedPeers) : monitor.Skips settings peer :=
  Or.inr (Or.inr (Or.inr tracked))

/-- Track a stale peer. -/
def Monitor.record (monitor : Monitor) (peer : PeerInfo) (removedAt seen : Int) : Monitor where
  savedPeers := monitor.savedPeers.insert peer.publicKey
    { publicKey := peer.publicKey
      endpoint := peer.endpoint
      allowedIPs := normalizedAllowedIPs peer.allowedIPs
      keepAlive := peer.persistentKeepalive
      baselineRx := peer.transferRx
      removedAt := removedAt }
  mesh := monitor.mesh.upsertPeer peer.publicKey seen fun state =>
    { state with isConnected := false }

/-- Start the clock of a tracked peer again. -/
def Monitor.postpone (monitor : Monitor) (key : Text) (saved : SavedPeer) (removedAt : Int) :
    Monitor :=
  { monitor with
    savedPeers := monitor.savedPeers.insert key { saved with removedAt := removedAt } }

/-- Stop tracking a peer and mark it as connected. -/
def Monitor.recover (monitor : Monitor) (key : Text) (seen : Int) : Monitor where
  savedPeers := monitor.savedPeers.erase key
  mesh := monitor.mesh.upsertPeer key seen fun state => { state with isConnected := true }

/-- The command that is meant to clear the route of a stale peer. -/
def clearedConfig (peer : PeerInfo) : PeerConfig where
  publicKey := peer.publicKey
  endpoint := peer.endpoint
  allowedIPs := []
  keepAlive := peer.persistentKeepalive

/-- Issue it, if the peer has a route. -/
def clearRoute (env : Env World) (peer : PeerInfo) : Process World Bool :=
  if normalizedAllowedIPs peer.allowedIPs ≠ [] then
    env.call (.setPeer .clearRoute (clearedConfig peer))
  else return true

/-- The body of the loop of phase 1. -/
def Monitor.phase1Peer (settings : Settings) (env : Env World) (now : Int) (monitor : Monitor)
    (peer : PeerInfo) : Process World Monitor :=
  if monitor.Skips settings peer then return monitor
  else if settings.Stale now peer then do
    let _ ← upTo peer.publicKey 16
    let _ ← clearRoute env peer
    let removedAt ← env.call .now
    let seen ← env.call .now
    return monitor.record peer removedAt seen
  else return monitor

/-- Phase 1, over a listing. -/
def Monitor.phase1 (settings : Settings) (env : Env World) (now : Int) (monitor : Monitor) :
    List PeerInfo → Process World Monitor
  | [] => return monitor
  | peer :: rest => do
    let next ← monitor.phase1Peer settings env now peer
    next.phase1 settings env now rest

/-- What the scan of a tracked peer is called with. -/
def SavedPeer.scanArgs (saved : SavedPeer) (settings : Settings) : ScanArgs where
  publicKey := saved.publicKey
  oldEndpoint := saved.endpoint
  allowedIPs := saved.allowedIPs
  keepAlive := saved.keepAlive
  baselineRx := saved.baselineRx
  count := settings.blindScanPorts
  rate := settings.blindScanRate
  budget := settings.blindScanBudget

/-- The command that restores a tracked peer. -/
def SavedPeer.config (saved : SavedPeer) : PeerConfig where
  publicKey := saved.publicKey
  endpoint := saved.endpoint
  allowedIPs := saved.allowedIPs
  keepAlive := saved.keepAlive

/-- Scan for a tracked peer, if scanning is on. -/
def SavedPeer.scan (settings : Settings) (env : Env World) (saved : SavedPeer) :
    Process World (Option Text) :=
  if settings.blindScan then blindScanEndpoint env (saved.scanArgs settings) else return none

/-- The body of the loop of phase 2, for a key that is still tracked. -/
def Monitor.retry (settings : Settings) (env : Env World) (monitor : Monitor) (key : Text)
    (saved : SavedPeer) : Process World Monitor := do
  let now ← env.call .now
  if now - saved.removedAt < settings.restoreInterval.tdiv 2 then return monitor
  else do
    let found ← saved.scan settings env
    if found.isSome then do
      let _ ← upTo key 16
      let seen ← env.call .now
      return monitor.recover key seen
    else do
      let _ ← upTo key 16
      let restored ← env.call (.setPeer .restore saved.config)
      if restored then do
        let removedAt ← env.call .now
        return monitor.postpone key saved removedAt
      else return monitor

/-- Phase 2, over the keys in the order of the `range`. -/
def Monitor.phase2 (settings : Settings) (env : Env World) (monitor : Monitor) :
    List Text → Process World Monitor
  | [] => return monitor
  | key :: rest =>
    match monitor.savedPeers.lookup key with
    | none => monitor.phase2 settings env rest
    | some saved => do
      let next ← monitor.retry settings env key saved
      next.phase2 settings env rest

/-- One check of the monitor. -/
def Monitor.check (settings : Settings) (env : Env World) (monitor : Monitor) :
    Process World Monitor := do
  let listing ← env.call .listPeers
  match listing with
  | none => return monitor
  | some peers => do
    let time ← env.call .now
    let judged ← monitor.phase1 settings env (unix time) peers
    let keys ← env.rangeKeys judged.savedPeers.keys
    judged.phase2 settings env keys

/-- One round of the loop of `runHandshakeMonitor`: a check, and the wait for the next one. The
loop ends when the wait is cancelled. -/
def Monitor.round (settings : Settings) (env : Env World) (monitor : Monitor) :
    Process World (Option Monitor) := do
  let next ← monitor.check settings env
  let cancelled ← env.call (.sleep settings.interval)
  return if cancelled then none else some next

/-- One round as a step of the monitor together with its session. -/
def Monitor.step (settings : Settings) (env : Env World)
    (state : Monitor × Session Call World) (_ : Unit) : Option (Monitor × Session Call World) :=
  match state.1.round settings env state.2 with
  | .ok (some next, session) => some (next, session)
  | _ => none

/-! ### What a check can do -/

/-- What phase 1 can do to the monitor with one listed peer. -/
inductive Judges (settings : Settings) (now : Int) (peer : PeerInfo) : Monitor → Monitor → Prop
  | passed {monitor : Monitor}
      (left : monitor.Skips settings peer ∨ ¬ settings.Stale now peer) :
      Judges settings now peer monitor monitor
  | recorded {monitor : Monitor} (unskipped : ¬ monitor.Skips settings peer)
      (stale : settings.Stale now peer) (removedAt seen : Int) :
      Judges settings now peer monitor (monitor.record peer removedAt seen)

/-- The calls of phase 1: the time, and the clearing of routes of peers that were not
tracked. -/
def Call.OfPhase1 (monitor : Monitor) : Call → Prop
  | .now => True
  | .setPeer site config =>
    site = .clearRoute ∧ config.publicKey ∉ monitor.savedPeers ∧ config.allowedIPs = []
  | _ => False

/-- What phase 2 can do to the monitor with one tracked peer. A peer is only given up after a
command has set its endpoint. -/
inductive Retries (session next : Session Call World) (key : Text) (saved : SavedPeer) :
    Monitor → Monitor → Prop
  | waited {monitor : Monitor} : Retries session next key saved monitor monitor
  | postponed {monitor : Monitor} (removedAt : Int) :
      Retries session next key saved monitor (monitor.postpone key saved removedAt)
  | recovered {monitor : Monitor} (seen : Int)
      (made : session.Made (Call.SetsEndpoint saved.publicKey) next) :
      Retries session next key saved monitor (monitor.recover key seen)

/-- The calls of phase 2: no route is cleared. -/
def Call.OfPhase2 : Call → Prop
  | .setPeer site _ => site ≠ .clearRoute
  | _ => True

theorem emits_clearRoute {env : Env World} {peer : PeerInfo} {monitor : Monitor}
    (untracked : peer.publicKey ∉ monitor.savedPeers) :
    Emits env.answer (Call.OfPhase1 monitor) (clearRoute env peer) :=
  emits_ite (fun _ => emits_perform ⟨rfl, untracked, rfl⟩) fun _ => emits_pure _

theorem emits_phase1Peer (settings : Settings) (env : Env World) (now : Int) (monitor : Monitor)
    (peer : PeerInfo) :
    Emits env.answer (Call.OfPhase1 monitor) (monitor.phase1Peer settings env now peer) := by
  refine emits_ite (fun _ => emits_pure _) fun unskipped => ?_
  refine emits_ite (fun _ => ?_) fun _ => emits_pure _
  have untracked : peer.publicKey ∉ monitor.savedPeers := fun tracked =>
    unskipped (Monitor.skips_of_tracked tracked)
  refine emits_bind (emits_lift _) fun _ => emits_bind (emits_clearRoute untracked) fun _ => ?_
  refine emits_bind (emits_perform trivial) fun _ => ?_
  exact emits_bind (emits_perform trivial) fun _ => emits_pure _

/-- The clearing command of a stale peer, if it has a route. -/
def clearCalls (peer : PeerInfo) : List Call :=
  if normalizedAllowedIPs peer.allowedIPs ≠ [] then
    [.setPeer .clearRoute (clearedConfig peer)]
  else []

theorem clearRoute_eq_ok {env : Env World} {peer : PeerInfo} {cleared : Bool}
    {session next : Session Call World} (ran : clearRoute env peer session = .ok (cleared, next)) :
    next = session.after env.answer (clearCalls peer) := by
  unfold clearRoute at ran
  unfold clearCalls
  split at ran
  · rw [if_pos ‹_›]
    exact (perform_eq_after.mp ran).2
  · rw [if_neg ‹_›, Session.after_nil]
    exact (proc_pure_eq_ok.mp ran).2

/-- Phase 1 passes over a listed peer, or issues its clearing command and tracks it. -/
theorem phase1Peer_eq_ok {settings : Settings} {env : Env World} {now : Int}
    {monitor after : Monitor} {peer : PeerInfo} {session next : Session Call World}
    (ran : monitor.phase1Peer settings env now peer session = .ok (after, next)) :
    ((monitor.Skips settings peer ∨ ¬ settings.Stale now peer) ∧ after = monitor ∧
        next = session) ∨
      (¬ monitor.Skips settings peer ∧ settings.Stale now peer ∧
        (∃ removedAt seen, after = monitor.record peer removedAt seen) ∧
        next = session.after env.answer (clearCalls peer ++ [.now, .now])) := by
  unfold Monitor.phase1Peer at ran
  split at ran
  · rename_i skipped
    exact Or.inl ⟨Or.inl skipped, proc_pure_eq_ok.mp ran⟩
  · rename_i unskipped
    split at ran
    · rename_i stale
      obtain ⟨_, _, logged, clearing⟩ := proc_bind_eq_ok.mp ran
      obtain ⟨_, rfl⟩ := proc_lift_eq_ok.mp logged
      obtain ⟨_, _, cleared, timing⟩ := proc_bind_eq_ok.mp clearing
      obtain rfl := clearRoute_eq_ok cleared
      obtain ⟨removedAt, _, timed, stamping⟩ := proc_bind_eq_ok.mp timing
      obtain ⟨_, rfl⟩ := perform_eq_after.mp timed
      obtain ⟨seen, _, stamped, returned⟩ := proc_bind_eq_ok.mp stamping
      obtain ⟨_, rfl⟩ := perform_eq_after.mp stamped
      obtain ⟨rfl, rfl⟩ := proc_pure_eq_ok.mp returned
      refine Or.inr ⟨unskipped, stale, ⟨removedAt, seen, rfl⟩, ?_⟩
      rw [← Session.after_append, ← Session.after_append]
      rfl
    · rename_i fresh
      exact Or.inl ⟨Or.inr fresh, proc_pure_eq_ok.mp ran⟩

theorem judges_of_phase1Peer {settings : Settings} {env : Env World} {now : Int}
    {monitor after : Monitor} {peer : PeerInfo} {session next : Session Call World}
    (ran : monitor.phase1Peer settings env now peer session = .ok (after, next)) :
    Judges settings now peer monitor after := by
  rcases phase1Peer_eq_ok ran with
    ⟨left, rfl, _⟩ | ⟨unskipped, stale, ⟨removedAt, seen, rfl⟩, _⟩
  · exact .passed left
  · exact .recorded unskipped stale removedAt seen

theorem Call.ofPhase2_of_ofScan {publicKey : Text} (call : Call) (ofScan : call.OfScan publicKey) :
    call.OfPhase2 := by
  cases call with
  | setPeer site config =>
    obtain ⟨rfl, _⟩ := ofScan
    exact Site.noConfusion
  | _ => trivial

theorem emits_scan (settings : Settings) (env : Env World) (saved : SavedPeer) :
    Emits env.answer Call.OfPhase2 (saved.scan settings env) :=
  emits_ite (fun _ _ _ _ ran => (emits_blindScanEndpoint _ _ _ _ _ ran).mono
    Call.ofPhase2_of_ofScan) fun _ => emits_pure _

theorem emits_retry (settings : Settings) (env : Env World) (monitor : Monitor) (key : Text)
    (saved : SavedPeer) :
    Emits env.answer Call.OfPhase2 (monitor.retry settings env key saved) := by
  refine emits_bind (emits_perform trivial) fun _ =>
    emits_ite (fun _ => emits_pure _) fun _ => ?_
  refine emits_bind (emits_scan _ _ _) fun _ => emits_ite (fun _ => ?_) fun _ => ?_
  · refine emits_bind (emits_lift _) fun _ => ?_
    exact emits_bind (emits_perform trivial) fun _ => emits_pure _
  · refine emits_bind (emits_lift _) fun _ => ?_
    refine emits_bind (emits_perform Site.noConfusion) fun _ => ?_
    refine emits_ite (fun _ => ?_) fun _ => emits_pure _
    exact emits_bind (emits_perform trivial) fun _ => emits_pure _

theorem made_scan {settings : Settings} {env : Env World} {saved : SavedPeer} {found : Option Text}
    {session next : Session Call World} (some : found.isSome = true)
    (ran : saved.scan settings env session = .ok (found, next)) :
    session.Made (Call.SetsEndpoint saved.publicKey) next := by
  obtain ⟨endpoint, rfl⟩ := Option.isSome_iff_exists.mp some
  unfold SavedPeer.scan at ran
  split at ran
  · exact made_blindScanEndpoint ran
  · cases (proc_pure_eq_ok.mp ran).1

theorem retries_of_retry {settings : Settings} {env : Env World} {monitor after : Monitor}
    {key : Text} {saved : SavedPeer} {session next : Session Call World}
    (ran : monitor.retry settings env key saved session = .ok (after, next)) :
    Retries session next key saved monitor after := by
  obtain ⟨now, began, asked, rest⟩ := proc_bind_eq_ok.mp ran
  have emitted : Session.Emitted env.answer Call.OfPhase2 session began :=
    emits_perform trivial _ _ _ asked
  split at rest
  · obtain ⟨rfl, _⟩ := proc_pure_eq_ok.mp rest
    exact .waited
  · obtain ⟨found, scanned, scan, decided⟩ := proc_bind_eq_ok.mp rest
    split at decided
    · rename_i some
      obtain ⟨_, _, logged, stamped⟩ := proc_bind_eq_ok.mp decided
      obtain ⟨_, rfl⟩ := proc_lift_eq_ok.mp logged
      obtain ⟨seen, _, timed, returned⟩ := proc_bind_eq_ok.mp stamped
      obtain ⟨rfl, rfl⟩ := proc_pure_eq_ok.mp returned
      have ended := emits_perform (show Call.OfPhase2 .now from trivial) _ _ _ timed
      exact .recovered seen (((made_scan some scan).after emitted).before ended)
    · obtain ⟨_, _, _, commanded⟩ := proc_bind_eq_ok.mp decided
      obtain ⟨restored, _, _, ended⟩ := proc_bind_eq_ok.mp commanded
      split at ended
      · obtain ⟨removedAt, _, _, returned⟩ := proc_bind_eq_ok.mp ended
        obtain ⟨rfl, _⟩ := proc_pure_eq_ok.mp returned
        exact .postponed removedAt
      · obtain ⟨rfl, _⟩ := proc_pure_eq_ok.mp ended
        exact .waited

/-! ### What holds after a phase -/

/-- What the moves of phase 1 preserve holds after it. -/
theorem phase1_invariant {settings : Settings} {env : Env World} {now : Int}
    (Inv : Monitor → Session Call World → Prop) {peers : List PeerInfo}
    (preserved : ∀ monitor after session next, ∀ peer ∈ peers, Inv monitor session →
      Judges settings now peer monitor after →
      Session.Emitted env.answer (Call.OfPhase1 monitor) session next →
      Inv after next)
    {monitor after : Monitor} {session next : Session Call World} (start : Inv monitor session)
    (ran : monitor.phase1 settings env now peers session = .ok (after, next)) : Inv after next := by
  induction peers generalizing monitor session with
  | nil =>
    obtain ⟨rfl, rfl⟩ := proc_pure_eq_ok.mp ran
    exact start
  | cons peer rest inductionHypothesis =>
    obtain ⟨judged, middle, first, continued⟩ := proc_bind_eq_ok.mp ran
    refine inductionHypothesis (fun monitor after session next peer member =>
      preserved monitor after session next peer (List.mem_cons_of_mem _ member)) ?_ continued
    exact preserved monitor judged session middle peer List.mem_cons_self start
      (judges_of_phase1Peer first) (emits_phase1Peer _ _ _ _ _ _ _ _ first)

/-- What the moves of phase 2 preserve holds after it. -/
theorem phase2_invariant {settings : Settings} {env : Env World}
    (Inv : Monitor → Session Call World → Prop)
    (preserved : ∀ monitor after session next key saved, Inv monitor session →
      monitor.savedPeers.lookup key = some saved → Retries session next key saved monitor after →
      Session.Emitted env.answer Call.OfPhase2 session next → Inv after next)
    {keys : List Text} {monitor after : Monitor} {session next : Session Call World}
    (start : Inv monitor session)
    (ran : monitor.phase2 settings env keys session = .ok (after, next)) : Inv after next := by
  induction keys generalizing monitor session with
  | nil =>
    obtain ⟨rfl, rfl⟩ := proc_pure_eq_ok.mp ran
    exact start
  | cons key rest inductionHypothesis =>
    unfold Monitor.phase2 at ran
    cases tracked : monitor.savedPeers.lookup key with
    | none =>
      rw [tracked] at ran
      exact inductionHypothesis start ran
    | some saved =>
      rw [tracked] at ran
      obtain ⟨retried, middle, first, continued⟩ := proc_bind_eq_ok.mp ran
      refine inductionHypothesis ?_ continued
      exact preserved monitor retried session middle key saved start tracked
        (retries_of_retry first) (emits_retry _ _ _ _ _ _ _ _ first)

/-- Every tracked entry has a property. -/
def Monitor.Entries (monitor : Monitor) (Holds : Text → SavedPeer → Prop) : Prop :=
  ∀ key saved, monitor.savedPeers.lookup key = some saved → Holds key saved

theorem Monitor.entries_new (Holds : Text → SavedPeer → Prop) : Monitor.new.Entries Holds := by
  intro key saved found
  cases found

theorem Monitor.Entries.insert {Holds : Text → SavedPeer → Prop} {monitor : Monitor}
    (entries : monitor.Entries Holds) {key : Text} {saved : SavedPeer} (holds : Holds key saved)
    (mesh : MeshState) : Monitor.Entries ⟨monitor.savedPeers.insert key saved, mesh⟩ Holds := by
  intro other entry found
  by_cases same : other = key
  · subst same
    rw [AList.lookup_insert] at found
    cases found
    exact holds
  · rw [AList.lookup_insert_ne same] at found
    exact entries other entry found

theorem Monitor.Entries.erase {Holds : Text → SavedPeer → Prop} {monitor : Monitor}
    (entries : monitor.Entries Holds) (key : Text) (mesh : MeshState) :
    Monitor.Entries ⟨monitor.savedPeers.erase key, mesh⟩ Holds := by
  intro other entry found
  by_cases same : other = key
  · subst same
    rw [AList.lookup_erase] at found
    cases found
  · rw [AList.lookup_erase_ne same] at found
    exact entries other entry found

/-- Phase 1 keeps a property of the entries that a new entry has. -/
theorem entries_of_judges {settings : Settings} {now : Int} {peer : PeerInfo}
    {monitor after : Monitor} {Holds : Text → SavedPeer → Prop} (entries : monitor.Entries Holds)
    (recorded : ∀ removedAt, ¬ monitor.Skips settings peer →
      Holds peer.publicKey ⟨peer.publicKey, peer.endpoint, normalizedAllowedIPs peer.allowedIPs,
        peer.persistentKeepalive, peer.transferRx, removedAt⟩)
    (judged : Judges settings now peer monitor after) : after.Entries Holds := by
  cases judged with
  | passed _ => exact entries
  | recorded unskipped _ removedAt _ => exact entries.insert (recorded removedAt unskipped) _

/-- Phase 2 keeps a property of the entries that does not depend on the clock. -/
theorem entries_of_retries {session next : Session Call World} {key : Text} {saved : SavedPeer}
    {monitor after : Monitor} {Holds : Text → SavedPeer → Prop} (entries : monitor.Entries Holds)
    (postponed : ∀ removedAt, Holds key saved → Holds key { saved with removedAt := removedAt })
    (tracked : monitor.savedPeers.lookup key = some saved)
    (retried : Retries session next key saved monitor after) : after.Entries Holds := by
  cases retried with
  | waited => exact entries
  | postponed removedAt =>
    exact entries.insert (postponed removedAt (entries key saved tracked)) _
  | recovered seen _ => exact entries.erase key _

/-- Phase 1 leaves the entry of a tracked peer as it is. -/
theorem Judges.lookup_eq {settings : Settings} {now : Int} {peer : PeerInfo}
    {monitor after : Monitor} (judged : Judges settings now peer monitor after) {key : Text}
    (tracked : key ∈ monitor.savedPeers) :
    after.savedPeers.lookup key = monitor.savedPeers.lookup key := by
  cases judged with
  | passed _ => rfl
  | recorded unskipped _ _ _ =>
    exact AList.lookup_insert_ne fun same =>
      unskipped (Monitor.skips_of_tracked (same ▸ tracked))

theorem mem_of_lookup_eq {key : Text} {first second : AList fun _ : Text => SavedPeer}
    (same : second.lookup key = first.lookup key) (member : key ∈ first) : key ∈ second := by
  rwa [← AList.lookup_isSome, same, AList.lookup_isSome]

theorem phase1_lookup {settings : Settings} {env : Env World} {now : Int} {peers : List PeerInfo}
    {monitor after : Monitor} {session next : Session Call World}
    (ran : monitor.phase1 settings env now peers session = .ok (after, next)) {key : Text}
    (tracked : key ∈ monitor.savedPeers) :
    after.savedPeers.lookup key = monitor.savedPeers.lookup key := by
  refine phase1_invariant
    (fun state _ => state.savedPeers.lookup key = monitor.savedPeers.lookup key) ?_ rfl ran
  intro state judged _ _ peer _ same moved _
  exact (moved.lookup_eq (mem_of_lookup_eq same tracked)).trans same

/-! ### What a check does -/

/-- The calls a check begins with. -/
def Call.Reads : Call → Prop
  | .listPeers => True
  | .now => True
  | _ => False

/-- The time of a check, in seconds. -/
def checkTime (env : Env World) (session : Session Call World) : Int :=
  unix (env.answer .now (env.answer .listPeers session.world).2).1

/-- A check either cannot list the peers and does nothing, or reads the clock and runs the two
phases. -/
theorem check_phases {settings : Settings} {env : Env World} {monitor after : Monitor}
    {session next : Session Call World}
    (ran : monitor.check settings env session = .ok (after, next)) :
    ((env.answer .listPeers session.world).1 = none ∧ after = monitor ∧
      next = session.after env.answer [.listPeers]) ∨
    ∃ peers judged middle keys, (env.answer .listPeers session.world).1 = some peers ∧
      monitor.phase1 settings env (checkTime env session) peers
        (session.after env.answer [.listPeers, .now]) = .ok (judged, middle) ∧
      judged.phase2 settings env keys middle = .ok (after, next) := by
  obtain ⟨listing, afterList, asked, rest⟩ := proc_bind_eq_ok.mp ran
  obtain ⟨rfl, rfl⟩ := perform_eq_after.mp asked
  cases listed : (env.answer .listPeers session.world).1 with
  | none =>
    rw [listed] at rest
    exact Or.inl ⟨rfl, proc_pure_eq_ok.mp rest⟩
  | some peers =>
    rw [listed] at rest
    obtain ⟨time, began, clocked, phases⟩ := proc_bind_eq_ok.mp rest
    obtain ⟨rfl, rfl⟩ := perform_eq_after.mp clocked
    rw [← Session.after_append] at phases
    obtain ⟨judged, middle, first, ranged⟩ := proc_bind_eq_ok.mp phases
    obtain ⟨keys, visited, order, second⟩ := proc_bind_eq_ok.mp ranged
    cases order
    exact Or.inr ⟨peers, judged, _, _, rfl, first, second⟩

/-- The two phases of a check come after calls that only read. -/
theorem check_cases {settings : Settings} {env : Env World} {monitor after : Monitor}
    {session next : Session Call World}
    (ran : monitor.check settings env session = .ok (after, next)) :
    ((env.answer .listPeers session.world).1 = none ∧ after = monitor ∧
      Session.Emitted env.answer Call.Reads session next) ∨
    ∃ peers began judged middle keys, (env.answer .listPeers session.world).1 = some peers ∧
      Session.Emitted env.answer Call.Reads session began ∧
      monitor.phase1 settings env (checkTime env session) peers began = .ok (judged, middle) ∧
      judged.phase2 settings env keys middle = .ok (after, next) := by
  rcases check_phases ran with
    ⟨failed, same, rfl⟩ | ⟨peers, judged, middle, keys, listed, first, second⟩
  · exact Or.inl ⟨failed, same, Session.emitted_after (by simp [Call.Reads])⟩
  · exact Or.inr ⟨peers, _, judged, middle, keys, listed,
      Session.emitted_after (by simp [Call.Reads]), first, second⟩

/-- What the moves of the two phases preserve holds after a check. -/
theorem check_invariant {settings : Settings} {env : Env World} (Inv : Monitor → Prop)
    (judges : ∀ now peer monitor after, Inv monitor → Judges settings now peer monitor after →
      Inv after)
    (retries : ∀ (session next : Session Call World) key saved monitor after, Inv monitor →
      monitor.savedPeers.lookup key = some saved → Retries session next key saved monitor after →
      Inv after)
    {monitor after : Monitor} {session next : Session Call World} (start : Inv monitor)
    (ran : monitor.check settings env session = .ok (after, next)) : Inv after := by
  rcases check_cases ran with
    ⟨_, rfl, _⟩ | ⟨peers, began, judged, middle, keys, _, _, first, second⟩
  · exact start
  · refine phase2_invariant (fun state _ => Inv state) ?_ ?_ second
    · exact fun _ _ _ _ _ _ holds tracked moved _ => retries _ _ _ _ _ _ holds tracked moved
    · refine phase1_invariant (fun state _ => Inv state) ?_ start first
      exact fun _ _ _ _ _ _ holds moved _ => judges _ _ _ _ holds moved

/-- A step is a check and a sleep. -/
theorem check_of_step {settings : Settings} {env : Env World}
    {state next : Monitor × Session Call World} {turn : Unit}
    (stepped : Monitor.step settings env state turn = some next) :
    ∃ checked, state.1.check settings env state.2 = .ok (next.1, checked) ∧
      Session.Emitted env.answer (· = .sleep settings.interval) checked next.2 := by
  unfold Monitor.step at stepped
  split at stepped
  · rename_i after session round
    cases stepped
    obtain ⟨judged, checked, ran, waited⟩ := proc_bind_eq_ok.mp round
    obtain ⟨cancelled, slept, asleep, returned⟩ := proc_bind_eq_ok.mp waited
    obtain ⟨same, rfl⟩ := proc_pure_eq_ok.mp returned
    split at same
    · cases same
    · cases same
      have sleeping : Session.Emitted env.answer (· = .sleep settings.interval) checked session :=
        emits_perform (by rfl) _ _ _ asleep
      exact ⟨checked, ran, sleeping⟩
  · cases stepped

/-- What the moves of the two phases preserve holds in every state of a run. -/
theorem monitor_invariant {settings : Settings} {env : Env World} (Inv : Monitor → Prop)
    (judges : ∀ now peer monitor after, Inv monitor → Judges settings now peer monitor after →
      Inv after)
    (retries : ∀ (session next : Session Call World) key saved monitor after, Inv monitor →
      monitor.savedPeers.lookup key = some saved → Retries session next key saved monitor after →
      Inv after)
    (start : Inv Monitor.new) {session next : Session Call World} {rounds : List Unit}
    {monitor : Monitor}
    (reached : Runs.run (Monitor.step settings env) (Monitor.new, session) rounds =
      some (monitor, next)) : Inv monitor := by
  refine Runs.run_invariant (fun state => Inv state.1) ?_ start reached
  intro before _ after holds stepped
  obtain ⟨_, ran, _⟩ := check_of_step stepped
  exact check_invariant Inv judges retries holds ran

end WgMesh.Meshd
