/-
This file settles when a check judges a tracked peer again.

Phase 1 skips the tracked peers, so their handshakes are not looked at and no
route of theirs is cleared. Phase 2 only looks at the clock, and it stops
tracking a peer only when a scan has reported an endpoint for it, which the scan
has then set. So a peer that has recovered by itself is tracked on, or is given
up at the price of a new endpoint, and a peer whose route has come back keeps it.
The verdict is right in the one case in which there is nothing to do: the peer is
stale and has no route.
-/

import WgMesh.Meshd.Monitor

namespace WgMesh.Meshd

open Go Uapi

variable {World : Type}

/-! ### Tracked peers -/

/-- Every entry is stored under its own key. -/
def Monitor.Keyed (monitor : Monitor) : Prop :=
  ∀ key saved, monitor.savedPeers.lookup key = some saved → saved.publicKey = key

theorem keyed_of_judges {settings : Settings} {now : Int} {peer : PeerInfo}
    {monitor after : Monitor} (keyed : monitor.Keyed)
    (judged : Judges settings now peer monitor after) : after.Keyed :=
  entries_of_judges keyed (fun _ _ => rfl) judged

theorem keyed_of_retries {session next : Session Call World} {key : Text} {saved : SavedPeer}
    {monitor after : Monitor} (keyed : monitor.Keyed)
    (tracked : monitor.savedPeers.lookup key = some saved)
    (retried : Retries session next key saved monitor after) : after.Keyed :=
  entries_of_retries keyed (fun _ holds => holds) tracked retried

/-- In every state of a run, every entry is stored under its own key. -/
theorem keyed_of_run {settings : Settings} {env : Env World} {session next : Session Call World}
    {rounds : List Unit} {monitor : Monitor}
    (reached : Runs.run (Monitor.step settings env) (Monitor.new, session) rounds =
      some (monitor, next)) : monitor.Keyed :=
  monitor_invariant Monitor.Keyed (fun _ _ _ _ => keyed_of_judges)
    (fun _ _ _ _ _ _ => keyed_of_retries) (Monitor.entries_new _) reached

/-- Phase 2 stops tracking a peer only after a command has set its endpoint. -/
theorem tracked_or_made_of_phase2 {settings : Settings} {env : Env World} {keys : List Text}
    {monitor after : Monitor} {session next : Session Call World} (keyed : monitor.Keyed)
    {key : Text} (tracked : key ∈ monitor.savedPeers)
    (ran : monitor.phase2 settings env keys session = .ok (after, next)) :
    key ∈ after.savedPeers ∨ session.Made (Call.SetsEndpoint key) next := by
  have holds := phase2_invariant (fun state middle => Session.Emitted env.answer Call.OfPhase2
    session middle ∧ state.Keyed ∧
      (key ∈ state.savedPeers ∨ session.Made (Call.SetsEndpoint key) middle)) ?_
    ⟨Relation.ReflTransGen.refl, keyed, Or.inl tracked⟩ ran
  · exact holds.2.2
  rintro state retried middle last other saved ⟨began, keyedState, here⟩ found moved emitted
  refine ⟨began.trans emitted, keyed_of_retries keyedState found moved, ?_⟩
  rcases here with member | made
  · cases moved with
    | waited => exact Or.inl member
    | postponed _ => exact Or.inl ((AList.mem_insert _).mpr (Or.inr member))
    | recovered _ made =>
      by_cases same : key = other
      · rw [keyedState other saved found, ← same] at made
        exact Or.inr (made.after began)
      · exact Or.inl (AList.mem_erase.mpr ⟨same, member⟩)
  · exact Or.inr (made.before emitted)

/-- The call clears the route of a peer: it names no allowed IPs, and phase 1 issues it. A restore
sends the same words for a peer that was recorded without a route, so they do not tell. -/
def Call.ClearsRoute (publicKey : Text) : Call → Prop
  | .setPeer site config =>
    site = .clearRoute ∧ config.publicKey = publicKey ∧ config.allowedIPs = []
  | _ => False

theorem not_clearsRoute_of_reads {call : Call} (key : Text) (reads : call.Reads) :
    ¬ call.ClearsRoute key := by
  cases call with
  | setPeer site config => exact reads.elim
  | _ => exact id

theorem not_clearsRoute_of_ofPhase1 {call : Call} {monitor : Monitor} {key : Text}
    (tracked : key ∈ monitor.savedPeers) (ofPhase1 : call.OfPhase1 monitor) :
    ¬ call.ClearsRoute key := by
  cases call with
  | setPeer site config => exact fun clears => ofPhase1.2.1 (clears.2.1 ▸ tracked)
  | _ => exact id

theorem not_clearsRoute_of_ofPhase2 {call : Call} (key : Text) (ofPhase2 : call.OfPhase2) :
    ¬ call.ClearsRoute key := by
  cases call with
  | setPeer site config => exact fun clears => ofPhase2 clears.1
  | _ => exact id

/-- Phase 1 only clears routes of peers that were not tracked before it. -/
theorem emitted_of_phase1 {settings : Settings} {env : Env World} {now : Int}
    {peers : List PeerInfo} {monitor after : Monitor} {session next : Session Call World}
    (ran : monitor.phase1 settings env now peers session = .ok (after, next)) :
    Session.Emitted env.answer (Call.OfPhase1 monitor) session next := by
  have holds := phase1_invariant (fun state middle => (∀ key ∈ monitor.savedPeers,
    key ∈ state.savedPeers) ∧ Session.Emitted env.answer (Call.OfPhase1 monitor) session middle) ?_
    ⟨fun _ tracked => tracked, Relation.ReflTransGen.refl⟩ ran
  · exact holds.2
  rintro state judged middle last peer _ ⟨tracked, began⟩ moved emitted
  refine ⟨fun key member => mem_of_lookup_eq (moved.lookup_eq (tracked key member))
    (tracked key member), began.trans (emitted.mono ?_)⟩
  intro call allowed
  cases call with
  | setPeer site config =>
    exact ⟨allowed.1, fun member => allowed.2.1 (tracked _ member), allowed.2.2⟩
  | _ => exact allowed

theorem emitted_of_phase2 {settings : Settings} {env : Env World} {keys : List Text}
    {monitor after : Monitor} {session next : Session Call World}
    (ran : monitor.phase2 settings env keys session = .ok (after, next)) :
    Session.Emitted env.answer Call.OfPhase2 session next :=
  phase2_invariant (fun _ middle => Session.Emitted env.answer Call.OfPhase2 session middle)
    (fun _ _ _ _ _ _ began _ _ emitted => began.trans emitted) Relation.ReflTransGen.refl ran

/-! ### When a tracked peer is judged again -/

/-- A check clears no route of a tracked peer, and stops tracking it only after a command has
set its endpoint. -/
theorem check_of_tracked {settings : Settings} {env : Env World} {monitor after : Monitor}
    {session next : Session Call World} {peers : List PeerInfo}
    (listed : (env.answer .listPeers session.world).1 = some peers) (keyed : monitor.Keyed)
    {key : Text} (tracked : key ∈ monitor.savedPeers)
    (ran : monitor.check settings env session = .ok (after, next)) :
    Session.Emitted env.answer (fun call => ¬ call.ClearsRoute key) session next ∧
      (key ∈ after.savedPeers ∨ session.Made (Call.SetsEndpoint key) next) := by
  rcases check_cases ran with
    ⟨failed, _⟩ | ⟨peers, began, judged, middle, keys, _, read, first, second⟩
  · rw [listed] at failed
    cases failed
  have phase1 := emitted_of_phase1 first
  have stillTracked := mem_of_lookup_eq (phase1_lookup first tracked) tracked
  have keyedJudged : judged.Keyed :=
    phase1_invariant (fun state _ => state.Keyed)
      (fun _ _ _ _ _ _ keyedState moved _ => keyed_of_judges keyedState moved) keyed first
  constructor
  · have began := read.mono fun _ => not_clearsRoute_of_reads key
    have judging := phase1.mono fun _ => not_clearsRoute_of_ofPhase1 tracked
    have retrying := (emitted_of_phase2 second).mono fun _ => not_clearsRoute_of_ofPhase2 key
    exact began.trans (judging.trans retrying)
  · rcases tracked_or_made_of_phase2 keyedJudged stillTracked second with member | made
    · exact Or.inl member
    · exact Or.inr ((made.after phase1).after read)

/-- After a check, a listed peer was judged again: if it is fresh, it is tracked no more, is
connected, and its endpoint was left alone; if it is stale and has a route, the clearing of the
route was issued. -/
def Rejudged (settings : Settings) (now : Int) (peer : PeerInfo) (session next : Session Call World)
    (after : Monitor) : Prop :=
  (¬ settings.Stale now peer →
    peer.publicKey ∉ after.savedPeers ∧
    (∃ state, after.mesh.lookup peer.publicKey = some state ∧ state.isConnected = true) ∧
    ∀ call ∈ next.calls.drop session.calls.length, ¬ call.SetsEndpoint peer.publicKey) ∧
  (settings.Stale now peer → normalizedAllowedIPs peer.allowedIPs ≠ [] →
    ∃ call ∈ next.calls.drop session.calls.length, call.ClearsRoute peer.publicKey)

/-- In every run, a check judges a tracked peer again if and only if the peer is listed as stale
and without a route, when there is nothing to do. -/
theorem rejudged_iff {settings : Settings} {env : Env World} {start session : Session Call World}
    {rounds : List Unit} {monitor : Monitor}
    (reached : Runs.run (Monitor.step settings env) (Monitor.new, start) rounds =
      some (monitor, session))
    {peers : List PeerInfo} (listed : (env.answer .listPeers session.world).1 = some peers)
    {after : Monitor} {next : Session Call World}
    (ran : monitor.check settings env session = .ok (after, next)) :
    ∀ peer ∈ peers, peer.publicKey ∈ monitor.savedPeers →
      (Rejudged settings (checkTime env session) peer session next after ↔
        settings.Stale (checkTime env session) peer ∧
          normalizedAllowedIPs peer.allowedIPs = []) := by
  intro peer _ tracked
  obtain ⟨uncleared, kept⟩ := check_of_tracked listed (keyed_of_run reached) tracked ran
  constructor
  · rintro ⟨whenFresh, whenStale⟩
    have stale : settings.Stale (checkTime env session) peer := by
      by_contra fresh
      obtain ⟨gone, _, untouched⟩ := whenFresh fresh
      rcases kept with member | made
      · exact gone member
      · obtain ⟨call, member, sets⟩ := made.drop
        exact untouched call member sets
    refine ⟨stale, by_contra fun route => ?_⟩
    obtain ⟨call, member, clears⟩ := whenStale stale route
    exact uncleared.drop call member clears
  · rintro ⟨stale, routeless⟩
    exact ⟨fun fresh => absurd stale fresh, fun _ route => absurd routeless route⟩

/-! ### A peer that recovers by itself -/

/-- A world that is a clock, with one peer whose state depends on the time. -/
def clockEnv (peer : Int → PeerInfo) : Env Int where
  answer := fun call clock => match call with
    | .now => (clock, clock)
    | .done => (false, clock)
    | .sleep duration => (false, clock + duration)
    | .listPeers => (some [peer clock], clock)
    | .setPeer _ _ => (true, clock)
    | .setEndpointFast _ _ _ => (true, clock)
  order := fun _ keys => keys
  order_perm := fun _ keys => List.Perm.refl keys

/-- A peer with its last handshake. -/
def roamingPeer (endpoint allowedIPs : Text) (latestHandshake : Int) : PeerInfo where
  publicKey := text "AAAAAAAAAAAAAAAAAAAAAAAAAAAAAAAAAAAAAAAAAAA="
  presharedKey := text "(none)"
  endpoint := endpoint
  allowedIPs := allowedIPs
  latestHandshake := latestHandshake
  transferRx := 0
  transferTx := 0
  persistentKeepalive := 25

/-- Scanning is off, and the checks are as far apart as half a restore interval. -/
def unscanned : Settings :=
  { Settings.default (text "hub") with interval := 150 * second, blindScan := false }

/-- One round of a new monitor, at 1000 s, and the check after it. -/
def secondCheck (peer : Int → PeerInfo) :
    Option ((Monitor × Session Call Int) × (Monitor × Session Call Int)) := do
  let before ← Runs.run (Monitor.step unscanned (clockEnv peer))
    (Monitor.new, ⟨1000 * second, []⟩) [()]
  let after ← (before.1.check unscanned (clockEnv peer) before.2).toOption
  return (before, after)

theorem of_secondCheck {peer : Int → PeerInfo} (returns : (secondCheck peer).isSome = true)
    {Holds : (Monitor × Session Call Int) × (Monitor × Session Call Int) → Prop}
    (holds : Holds ((secondCheck peer).get returns)) :
    ∃ monitor session after next,
      Runs.run (Monitor.step unscanned (clockEnv peer)) (Monitor.new, ⟨1000 * second, []⟩)
        [()] = some (monitor, session) ∧
      monitor.check unscanned (clockEnv peer) session = .ok (after, next) ∧
      Holds ((monitor, session), (after, next)) := by
  generalize found : (secondCheck peer).get returns = result at holds
  obtain ⟨⟨monitor, session⟩, ⟨after, next⟩⟩ := result
  have ended := (Option.some_get returns).symm.trans (congrArg some found)
  simp only [secondCheck, Option.bind_eq_bind, Option.bind_eq_some_iff] at ended
  obtain ⟨_, reached, _, ran, ⟨⟩⟩ := ended
  exact ⟨monitor, session, after, next, reached, toOption_eq_some ran, holds⟩

/-- A stale peer without a route is tracked by the first check and judged by the second. -/
theorem rejudged_iff_routeless :
    let peer := roamingPeer (text "203.0.113.5:51820") (text "(none)") 0
    ∃ monitor session after next,
      Runs.run (Monitor.step unscanned (clockEnv fun _ => peer))
        (Monitor.new, ⟨1000 * second, []⟩) [()] = some (monitor, session) ∧
      monitor.check unscanned (clockEnv fun _ => peer) session = .ok (after, next) ∧
      peer.publicKey ∈ monitor.savedPeers ∧
      Rejudged unscanned (checkTime (clockEnv fun _ => peer) session) peer session next after := by
  intro peer
  obtain ⟨monitor, session, after, next, reached, ran, tracked, stale⟩ :=
    @of_secondCheck (fun _ => peer) (by decide +kernel)
      (fun checks => peer.publicKey ∈ checks.1.1.savedPeers ∧
        unscanned.Stale (checkTime (clockEnv fun _ => peer) checks.1.2) peer) (by decide +kernel)
  exact ⟨monitor, session, after, next, reached, ran, tracked,
    (rejudged_iff reached rfl ran peer List.mem_cons_self tracked).mpr ⟨stale, by decide⟩⟩

/-- A peer that is quiet until 1100 s and talks from another port from then on. -/
def recoveringPeer (clock : Int) : PeerInfo :=
  if clock < 1100 * second then
    roamingPeer (text "203.0.113.5:51820") (text "10.200.200.3/32") 0
  else roamingPeer (text "203.0.113.5:40000") (text "10.200.200.3/32") (unix clock - 1)

/-- The peer is tracked at 1000 s. At 1150 s it is listed with a handshake of the last second and
with its new port, but it is tracked on, counts as disconnected, and is set back to its old
endpoint. -/
theorem recoveringPeer_setBack :
    let key := (recoveringPeer 0).publicKey
    ∃ monitor session after next,
      Runs.run (Monitor.step unscanned (clockEnv recoveringPeer))
        (Monitor.new, ⟨1000 * second, []⟩) [()] = some (monitor, session) ∧
      monitor.check unscanned (clockEnv recoveringPeer) session = .ok (after, next) ∧
      session.world = 1150 * second ∧
      ¬ unscanned.Stale (checkTime (clockEnv recoveringPeer) session)
        (recoveringPeer (1150 * second)) ∧
      key ∈ monitor.savedPeers ∧ key ∈ after.savedPeers ∧
      (after.mesh.lookup key).map PeerState.isConnected = some false ∧
      next.calls.drop session.calls.length = [.listPeers, .now, .now,
        .setPeer .restore ⟨key, text "203.0.113.5:51820", text "10.200.200.3/32", 25⟩, .now] :=
  @of_secondCheck recoveringPeer (by decide +kernel)
    (fun checks => checks.1.2.world = 1150 * second ∧
      ¬ unscanned.Stale (checkTime (clockEnv recoveringPeer) checks.1.2)
        (recoveringPeer (1150 * second)) ∧
      (recoveringPeer 0).publicKey ∈ checks.1.1.savedPeers ∧
      (recoveringPeer 0).publicKey ∈ checks.2.1.savedPeers ∧
      (checks.2.1.mesh.lookup (recoveringPeer 0).publicKey).map PeerState.isConnected =
        some false ∧
      checks.2.2.calls.drop checks.1.2.calls.length = [.listPeers, .now, .now,
        .setPeer .restore ⟨(recoveringPeer 0).publicKey, text "203.0.113.5:51820",
          text "10.200.200.3/32", 25⟩, .now]) (by decide +kernel)

end WgMesh.Meshd
