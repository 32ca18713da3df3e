/-
This file proves that the monitor does not restore a peer too often. Two commands
that restore the same peer, the first of which succeeds, are at least half of the
restore interval apart, in every run and for every peer.

The clock of a tracked peer is read after its restore command has returned, and
read again before the next one is issued. So every restore of a peer that has
succeeded so far had ended by the time that its entry holds. A peer that is found
by a scan and becomes stale again is recorded at a later time still.
-/

import WgMesh.Meshd.Attempts
import WgMesh.Meshd.Recovery

namespace WgMesh.Meshd

open Go Uapi

variable {World : Type}

/-! ### The attempts to restore a peer -/

/-- Whether the command restores this peer. -/
def Call.restores (key : Text) : Call → Bool
  | .setPeer .restore config => config.publicKey = key
  | _ => false

/-- The attempts to restore a peer among some calls. -/
abbrev Env.restores (env : Env World) (clock : World → Int) (key : Text) (world : World)
    (calls : List Call) : List Attempt :=
  env.attempts clock (Call.restores key) world calls

section

variable {env : Env World} {clock : World → Int}

/-! ### What has been done so far -/

/-- The attempts of a run so far are spaced, and over. -/
structure Timeline (env : Env World) (clock : World → Int) (pause : Int) (world : World)
    (calls : List Call) : Prop where
  spaced : ∀ key, Spaced pause (env.restores clock key world calls)
  past : ∀ key, EndBy (clock (replay env.answer world calls)) (env.restores clock key world calls)

/-- The entry of a tracked peer is at least as new as the restores of the peer. -/
def Since (env : Env World) (clock : World → Int) (world : World) (calls : List Call) (key : Text)
    (saved : SavedPeer) : Prop :=
  saved.publicKey = key ∧ EndBy saved.removedAt (env.restores clock key world calls)

/-- The monitor keeps up with what was done. -/
structure History (env : Env World) (clock : World → Int) (pause : Int) (world : World)
    (monitor : Monitor) (calls : List Call) : Prop
    extends Timeline env clock pause world calls where
  since : monitor.Entries (Since env clock world calls)

/-- No peer is restored by the calls. -/
def Quiet (calls : List Call) : Prop := ∀ call ∈ calls, ∀ key, call.restores key = false

variable {pause : Int} {world : World} {monitor : Monitor} {calls more : List Call}

theorem Quiet.attempts_append (quiet : Quiet more) (key : Text) :
    env.restores clock key world (calls ++ more) = env.restores clock key world calls :=
  Env.attempts_append_of_none (fun call member => quiet call member key) world

theorem Timeline.quiet (clocked : env.Clocked clock)
    (timeline : Timeline env clock pause world calls)
    (quiet : Quiet more) : Timeline env clock pause world (calls ++ more) where
  spaced key := by
    rw [quiet.attempts_append]
    exact timeline.spaced key
  past key := by
    rw [quiet.attempts_append, replay_append]
    exact (timeline.past key).mono (clocked.replay _ _)

theorem History.quiet (clocked : env.Clocked clock)
    (history : History env clock pause world monitor calls) (quiet : Quiet more) :
    History env clock pause world monitor (calls ++ more) where
  toTimeline := history.toTimeline.quiet clocked quiet
  since key saved tracked := by
    rw [Since, quiet.attempts_append]
    exact history.since key saved tracked

/-- A peer that is recorded now is recorded after everything that was done. -/
theorem History.record (history : History env clock pause world monitor calls) (peer : PeerInfo)
    {removedAt : Int} (now : clock (replay env.answer world calls) ≤ removedAt) (seen : Int) :
    History env clock pause world (monitor.record peer removedAt seen) calls where
  toTimeline := history.toTimeline
  since := by
    refine history.since.insert ?_ _
    exact ⟨rfl, (history.past peer.publicKey).mono now⟩

theorem History.recover (history : History env clock pause world monitor calls) (key : Text)
    (seen : Int) : History env clock pause world (monitor.recover key seen) calls where
  toTimeline := history.toTimeline
  since := history.since.erase key _

/-! ### One more restore -/

theorem SavedPeer.attempts_restore (saved : SavedPeer) (key : Text) :
    env.restores clock key world (calls ++ [Call.setPeer .restore saved.config]) =
      env.restores clock key world calls ++
        if saved.publicKey = key then
          [env.attempt clock (.setPeer .restore saved.config) (replay env.answer world calls)]
        else [] := by
  have restores : (Call.setPeer .restore saved.config).restores key =
      decide (saved.publicKey = key) := rfl
  rw [Env.restores, Env.attempts_append, Env.attempts, Env.attempts, List.append_nil, restores]
  simp only [decide_eq_true_eq]

/-- A restore that comes after the pause is spaced. -/
theorem Timeline.restore (clocked : env.Clocked clock)
    (timeline : Timeline env clock pause world calls) {saved : SavedPeer}
    (due : EndBy (clock (replay env.answer world calls) - pause)
      (env.restores clock saved.publicKey world calls)) :
    Timeline env clock pause world (calls ++ [Call.setPeer .restore saved.config]) where
  spaced key := by
    rw [saved.attempts_restore]
    split
    · rename_i same
      refine List.pairwise_append.mpr
        ⟨timeline.spaced key, List.pairwise_singleton _ _, fun first member second last => ?_⟩
      intro succeeded
      rw [List.mem_singleton.mp last]
      have ended := due first (same ▸ member) succeeded
      show first.ended + pause ≤ clock _
      omega
    · rw [List.append_nil]
      exact timeline.spaced key
  past key := by
    rw [saved.attempts_restore, replay_append]
    intro attempt member succeeded
    rcases List.mem_append.mp member with earlier | last
    · exact (timeline.past key attempt earlier succeeded).trans (clocked.replay _ _)
    · split at last
      · rw [List.mem_singleton.mp last]
        exact le_rfl
      · cases last

/-- A restore that fails does not count. -/
theorem History.failed (clocked : env.Clocked clock)
    (history : History env clock pause world monitor calls) {saved : SavedPeer}
    (due : EndBy (clock (replay env.answer world calls) - pause)
      (env.restores clock saved.publicKey world calls))
    (fails : (env.answer (.setPeer .restore saved.config) (replay env.answer world calls)).1 =
      false) :
    History env clock pause world monitor (calls ++ [Call.setPeer .restore saved.config]) where
  toTimeline := history.toTimeline.restore clocked due
  since key entry tracked := by
    obtain ⟨keyed, endBy⟩ := history.since key entry tracked
    refine ⟨keyed, ?_⟩
    rw [saved.attempts_restore]
    intro attempt member succeeded
    rcases List.mem_append.mp member with earlier | last
    · exact endBy attempt earlier succeeded
    · split at last
      · rw [List.mem_singleton.mp last] at succeeded
        cases fails.symm.trans succeeded
      · cases last

/-- After a restore that succeeds, the clock of the entry starts again. -/
theorem History.restored (clocked : env.Clocked clock)
    (history : History env clock pause world monitor calls) {key : Text} {saved : SavedPeer}
    (keyed : saved.publicKey = key)
    (due : EndBy (clock (replay env.answer world calls) - pause)
      (env.restores clock saved.publicKey world calls)) {removedAt : Int}
    (now : clock (replay env.answer world (calls ++ [Call.setPeer .restore saved.config])) ≤
      removedAt) :
    History env clock pause world (monitor.postpone key saved removedAt)
      (calls ++ [Call.setPeer .restore saved.config]) where
  toTimeline := history.toTimeline.restore clocked due
  since other entry tracked := by
    by_cases same : other = key
    · subst same
      cases (AList.lookup_insert _).symm.trans tracked
      exact ⟨keyed, ((history.toTimeline.restore clocked due).past other).mono now⟩
    · have before := (AList.lookup_insert_ne same).symm.trans tracked
      have elsewhere : saved.publicKey ≠ other := fun equal => same (equal.symm.trans keyed)
      rw [Since, saved.attempts_restore, if_neg elsewhere, List.append_nil]
      exact history.since other entry before

/-! ### The two phases -/

theorem quiet_of_ofScan {publicKey : Text} {scan : List Call}
    (ofScan : ∀ call ∈ scan, call.OfScan publicKey) : Quiet scan := by
  intro call member key
  cases call with
  | setPeer site config =>
    obtain ⟨rfl, _⟩ := ofScan _ member
    rfl
  | _ => rfl

theorem quiet_clearCalls (peer : PeerInfo) : Quiet (clearCalls peer) := by
  intro call member key
  unfold clearCalls at member
  split at member
  · rw [List.mem_singleton.mp member]
    rfl
  · cases member

/-- The calls of a retry, and what it does to the monitor. -/
inductive Retried (settings : Settings) (env : Env World) (key : Text) (saved : SavedPeer)
    (world : World) (monitor : Monitor) : List Call → Monitor → Prop
  | early : Retried settings env key saved world monitor [.now] monitor
  | found {scan : List Call} (seen : Int) (ofScan : ∀ call ∈ scan, call.OfScan saved.publicKey) :
      Retried settings env key saved world monitor (Call.now :: scan ++ [Call.now])
        (monitor.recover key seen)
  | failed {scan : List Call} (ofScan : ∀ call ∈ scan, call.OfScan saved.publicKey)
      (due : settings.restoreInterval.tdiv 2 ≤ (env.answer .now world).1 - saved.removedAt)
      (fails : (env.answer (.setPeer .restore saved.config)
        (replay env.answer world (.now :: scan))).1 = false) :
      Retried settings env key saved world monitor
        (Call.now :: scan ++ [Call.setPeer .restore saved.config]) monitor
  | restored {scan : List Call} (ofScan : ∀ call ∈ scan, call.OfScan saved.publicKey)
      (due : settings.restoreInterval.tdiv 2 ≤ (env.answer .now world).1 - saved.removedAt) :
      Retried settings env key saved world monitor
        (Call.now :: scan ++ [Call.setPeer .restore saved.config] ++ [Call.now])
        (monitor.postpone key saved (env.answer .now (replay env.answer world
          (Call.now :: scan ++ [Call.setPeer .restore saved.config]))).1)

theorem scan_eq_after {settings : Settings} {saved : SavedPeer} {found : Option Text}
    {session next : Session Call World}
    (ran : saved.scan settings env session = .ok (found, next)) :
    ∃ scan, next = session.after env.answer scan ∧
      ∀ call ∈ scan, call.OfScan saved.publicKey := by
  unfold SavedPeer.scan at ran
  split at ran
  · exact (emits_blindScanEndpoint _ _ _ _ _ ran).exists_after
  · obtain ⟨_, rfl⟩ := proc_pure_eq_ok.mp ran
    exact ⟨[], (Session.after_nil _).symm, List.forall_mem_nil _⟩

theorem retried_of_retry {settings : Settings} {key : Text} {saved : SavedPeer} {after : Monitor}
    {session next : Session Call World}
    (ran : monitor.retry settings env key saved session = .ok (after, next)) :
    ∃ more, next = session.after env.answer more ∧
      Retried settings env key saved session.world monitor more after := by
  obtain ⟨now, _, asked, rest⟩ := proc_bind_eq_ok.mp ran
  obtain ⟨rfl, rfl⟩ := perform_eq_after.mp asked
  split at rest
  · obtain ⟨rfl, rfl⟩ := proc_pure_eq_ok.mp rest
    exact ⟨[.now], rfl, .early⟩
  · rename_i due
    obtain ⟨found, _, scanned, decided⟩ := proc_bind_eq_ok.mp rest
    obtain ⟨scan, rfl, ofScan⟩ := scan_eq_after scanned
    rw [← Session.after_append] at decided
    split at decided
    · obtain ⟨_, _, logged, stamped⟩ := proc_bind_eq_ok.mp decided
      obtain ⟨_, rfl⟩ := proc_lift_eq_ok.mp logged
      obtain ⟨seen, _, timed, returned⟩ := proc_bind_eq_ok.mp stamped
      obtain ⟨_, rfl⟩ := perform_eq_after.mp timed
      obtain ⟨rfl, rfl⟩ := proc_pure_eq_ok.mp returned
      exact ⟨_, (Session.after_append _ _ _).symm, .found seen ofScan⟩
    · obtain ⟨_, _, logged, commanded⟩ := proc_bind_eq_ok.mp decided
      obtain ⟨_, rfl⟩ := proc_lift_eq_ok.mp logged
      obtain ⟨restored, _, command, ended⟩ := proc_bind_eq_ok.mp commanded
      obtain ⟨rfl, rfl⟩ := perform_eq_after.mp command
      rw [← Session.after_append] at ended
      split at ended
      · obtain ⟨removedAt, _, timed, returned⟩ := proc_bind_eq_ok.mp ended
        obtain ⟨rfl, rfl⟩ := perform_eq_after.mp timed
        obtain ⟨rfl, rfl⟩ := proc_pure_eq_ok.mp returned
        exact ⟨_, (Session.after_append _ _ _).symm, .restored ofScan (not_lt.mp due)⟩
      · rename_i fails
        obtain ⟨rfl, rfl⟩ := proc_pure_eq_ok.mp ended
        exact ⟨_, rfl, .failed ofScan (not_lt.mp due) (Bool.eq_false_iff.mpr fails)⟩

/-- The clock that phase 1 stores is read after the route was cleared. -/
theorem recordedAt_of_phase1Peer {settings : Settings} {now : Int} {peer : PeerInfo}
    {after : Monitor} {session next : Session Call World}
    (unskipped : ¬ monitor.Skips settings peer) (stale : settings.Stale now peer)
    (ran : monitor.phase1Peer settings env now peer session = .ok (after, next)) :
    ∃ seen, after = monitor.record peer
      (env.answer .now (replay env.answer session.world (clearCalls peer))).1 seen := by
  rw [Monitor.phase1Peer, if_neg unskipped, if_pos stale] at ran
  obtain ⟨_, _, logged, clearing⟩ := proc_bind_eq_ok.mp ran
  obtain ⟨_, rfl⟩ := proc_lift_eq_ok.mp logged
  obtain ⟨_, _, cleared, timing⟩ := proc_bind_eq_ok.mp clearing
  obtain rfl := clearRoute_eq_ok cleared
  obtain ⟨_, _, timed, stamping⟩ := proc_bind_eq_ok.mp timing
  obtain ⟨rfl, _⟩ := perform_eq_after.mp timed
  obtain ⟨seen, _, _, returned⟩ := proc_bind_eq_ok.mp stamping
  exact ⟨seen, (proc_pure_eq_ok.mp returned).1⟩

theorem History.retried (clocked : env.Clocked clock) {settings : Settings} {key : Text}
    {saved : SavedPeer} {after : Monitor}
    (history : History env clock (settings.restoreInterval.tdiv 2) world monitor calls)
    (tracked : monitor.savedPeers.lookup key = some saved)
    (retried : Retried settings env key saved (replay env.answer world calls) monitor more after) :
    History env clock (settings.restoreInterval.tdiv 2) world after (calls ++ more) := by
  obtain ⟨keyed, endBy⟩ := history.since key saved tracked
  have now : Quiet [.now] := by
    intro call member key
    rw [List.mem_singleton.mp member]
    rfl
  have scanning : ∀ {scan : List Call}, (∀ call ∈ scan, call.OfScan saved.publicKey) →
      Quiet (.now :: scan) := by
    intro scan ofScan call member
    rcases List.mem_cons.mp member with rfl | scanned
    · exact now _ List.mem_cons_self
    · exact quiet_of_ofScan ofScan call scanned
  -- The clock was read before the scan, so it has not gone back since.
  have ready : ∀ {scan : List Call}, (∀ call ∈ scan, call.OfScan saved.publicKey) →
      settings.restoreInterval.tdiv 2 ≤
        (env.answer .now (replay env.answer world calls)).1 - saved.removedAt →
      EndBy (clock (replay env.answer world (calls ++ .now :: scan)) -
          settings.restoreInterval.tdiv 2)
        (env.restores clock saved.publicKey world (calls ++ .now :: scan)) := by
    intro scan ofScan due
    rw [(scanning ofScan).attempts_append, keyed]
    refine endBy.mono ?_
    have read := clocked.now_le (replay env.answer world calls)
    have scanned := clocked.replay (env.answer .now (replay env.answer world calls)).2 scan
    rw [replay_append]
    exact le_sub_iff_add_le.mpr ((le_sub_iff_add_le'.mp due).trans (read.trans scanned))
  cases retried with
  | early => exact history.quiet clocked now
  | found seen ofScan =>
    rw [← List.append_assoc]
    exact ((history.quiet clocked (scanning ofScan)).quiet clocked now).recover key seen
  | failed ofScan due fails =>
    rw [← replay_append] at fails
    rw [← List.append_assoc]
    exact (history.quiet clocked (scanning ofScan)).failed clocked (ready ofScan due) fails
  | restored ofScan due =>
    rw [← replay_append, ← List.append_assoc, ← List.append_assoc, ← List.append_assoc]
    exact ((history.quiet clocked (scanning ofScan)).restored clocked keyed (ready ofScan due)
      (clocked.now_ge _)).quiet clocked now

theorem History.phase2 (clocked : env.Clocked clock) {settings : Settings} {keys : List Text}
    {after : Monitor} {start next : Session Call World}
    (history : History env clock (settings.restoreInterval.tdiv 2) start.world monitor calls)
    (ran : monitor.phase2 settings env keys (start.after env.answer calls) = .ok (after, next)) :
    ∃ later, next = start.after env.answer later ∧
      History env clock (settings.restoreInterval.tdiv 2) start.world after later := by
  induction keys generalizing monitor calls with
  | nil =>
    obtain ⟨rfl, rfl⟩ := proc_pure_eq_ok.mp ran
    exact ⟨calls, rfl, history⟩
  | cons key rest inductionHypothesis =>
    unfold Monitor.phase2 at ran
    cases tracked : monitor.savedPeers.lookup key with
    | none =>
      rw [tracked] at ran
      exact inductionHypothesis history ran
    | some saved =>
      rw [tracked] at ran
      obtain ⟨retried, _, first, continued⟩ := proc_bind_eq_ok.mp ran
      obtain ⟨more, rfl, moved⟩ := retried_of_retry first
      rw [← Session.after_append] at continued
      exact inductionHypothesis (history.retried clocked tracked moved) continued

theorem History.phase1Peer (clocked : env.Clocked clock) {settings : Settings} {now : Int}
    {peer : PeerInfo} {after : Monitor} {start next : Session Call World}
    (history : History env clock pause start.world monitor calls)
    (ran : monitor.phase1Peer settings env now peer (start.after env.answer calls) =
      .ok (after, next)) :
    ∃ later, next = start.after env.answer later ∧
      History env clock pause start.world after later := by
  rcases phase1Peer_eq_ok ran with ⟨_, rfl, rfl⟩ | ⟨unskipped, stale, _, rfl⟩
  · exact ⟨calls, rfl, history⟩
  · obtain ⟨seen, rfl⟩ := recordedAt_of_phase1Peer unskipped stale ran
    have timed : Quiet [.now, .now] := by
      intro call member key
      rw [List.mem_pair.mp member |>.elim id id]
      rfl
    have cleared := history.quiet clocked (quiet_clearCalls peer)
    refine ⟨_, (Session.after_append _ _ _).symm, ?_⟩
    rw [← List.append_assoc]
    refine (cleared.record peer ?_ seen).quiet clocked timed
    rw [replay_append]
    exact clocked.now_ge _

theorem History.phase1 (clocked : env.Clocked clock) {settings : Settings} {now : Int}
    {peers : List PeerInfo} {after : Monitor} {start next : Session Call World}
    (history : History env clock pause start.world monitor calls)
    (ran : monitor.phase1 settings env now peers (start.after env.answer calls) =
      .ok (after, next)) :
    ∃ later, next = start.after env.answer later ∧
      History env clock pause start.world after later := by
  induction peers generalizing monitor calls with
  | nil =>
    obtain ⟨rfl, rfl⟩ := proc_pure_eq_ok.mp ran
    exact ⟨calls, rfl, history⟩
  | cons peer rest inductionHypothesis =>
    obtain ⟨judged, _, first, continued⟩ := proc_bind_eq_ok.mp ran
    obtain ⟨later, rfl, moved⟩ := history.phase1Peer clocked first
    exact inductionHypothesis moved continued

/-! ### Whole runs -/

theorem quiet_of_reads (reads : ∀ call ∈ calls, call.Reads) : Quiet calls := by
  intro call member key
  cases call with
  | setPeer site config => exact (reads _ member).elim
  | _ => rfl

theorem History.check (clocked : env.Clocked clock) {settings : Settings} {after : Monitor}
    {start next : Session Call World}
    (history : History env clock (settings.restoreInterval.tdiv 2) start.world monitor calls)
    (ran : monitor.check settings env (start.after env.answer calls) = .ok (after, next)) :
    ∃ later, next = start.after env.answer later ∧
      History env clock (settings.restoreInterval.tdiv 2) start.world after later := by
  rcases check_cases ran with
    ⟨_, rfl, reading⟩ | ⟨peers, began, judged, middle, keys, _, reading, first, second⟩
  · obtain ⟨more, rfl, reads⟩ := reading.exists_after
    exact ⟨_, (Session.after_append _ _ _).symm, history.quiet clocked (quiet_of_reads reads)⟩
  · obtain ⟨more, rfl, reads⟩ := reading.exists_after
    rw [← Session.after_append] at first
    obtain ⟨later, rfl, moved⟩ :=
      (history.quiet clocked (quiet_of_reads reads)).phase1 clocked first
    exact moved.phase2 clocked second

theorem history_run (clocked : env.Clocked clock) {settings : Settings}
    {start session : Session Call World} {rounds : List Unit}
    (reached : Runs.run (Monitor.step settings env) (Monitor.new, start) rounds =
      some (monitor, session)) :
    ∃ made, session = start.after env.answer made ∧
      History env clock (settings.restoreInterval.tdiv 2) start.world monitor made := by
  refine Runs.run_invariant (fun state => ∃ made, state.2 = start.after env.answer made ∧
    History env clock (settings.restoreInterval.tdiv 2) start.world state.1 made) ?_ ?_ reached
  · rintro ⟨before, _⟩ _ ⟨after, awake⟩ ⟨made, rfl, history⟩ stepped
    obtain ⟨checked, ran, slept⟩ := check_of_step stepped
    obtain ⟨later, rfl, moved⟩ := history.check clocked ran
    obtain ⟨sleeps, same, asleep⟩ := slept.exists_after
    refine ⟨later ++ sleeps, same.trans (Session.after_append _ _ _).symm,
      moved.quiet clocked fun call member key => ?_⟩
    rw [asleep call member]
    rfl
  · refine ⟨[], (Session.after_nil _).symm, ?_, Monitor.entries_new _⟩
    exact ⟨fun _ => List.Pairwise.nil, fun _ => List.forall_mem_nil _⟩

end

/-- In every run of the monitor and for every peer, a restore that succeeds is followed by a pause
of half of the restore interval before the peer is restored again. -/
theorem restores_spaced (env : Env World) (clock : World → Int) (clocked : env.Clocked clock)
    (settings : Settings) (start session next : Session Call World) (rounds : List Unit)
    (monitor after : Monitor)
    (reached : Runs.run (Monitor.step settings env) (Monitor.new, start) rounds =
      some (monitor, session))
    (ran : monitor.check settings env session = .ok (after, next)) :
    ∃ calls, next = start.after env.answer calls ∧
      ∀ key, Spaced (settings.restoreInterval.tdiv 2)
        (env.restores clock key start.world calls) := by
  obtain ⟨made, rfl, history⟩ := history_run clocked reached
  obtain ⟨calls, same, moved⟩ := history.check clocked ran
  exact ⟨calls, same, moved.spaced⟩

/-! ### A peer that stays stale -/

/-- A world that is a clock, with one peer. -/
def stalePeerEnv (peer : PeerInfo) : Env Int where
  answer := fun call clock => match call with
    | .listPeers => (some [peer], clock)
    | other => timerEnv.answer other clock
  order := fun _ keys => keys
  order_perm := fun _ keys => List.Perm.refl keys

theorem clocked_stalePeerEnv (peer : PeerInfo) : (stalePeerEnv peer).Clocked id where
  forward call clock := by
    cases call with
    | listPeers => exact le_rfl
    | now => exact le_rfl
    | done => exact le_rfl
    | sleep duration => exact timerEnv_clocked.forward (.sleep duration) clock
    | setPeer site config => exact timerEnv_clocked.forward (.setPeer site config) clock
    | setEndpointFast site publicKey endpoint =>
      exact timerEnv_clocked.forward (.setEndpointFast site publicKey endpoint) clock
  now_ge clock := le_rfl
  now_le clock := le_rfl
  sleep duration clock := timerEnv_clocked.sleep duration clock

/-- A peer with a route that never completes a handshake. -/
def silentPeer : PeerInfo := roamingPeer (text "203.0.113.5:51820") (text "10.200.200.3/32") 0

/-- Two rounds of a new monitor and the check after them. -/
def thirdCheck : Option ((Monitor × Session Call Int) × (Monitor × Session Call Int)) := do
  let before ← Runs.run (Monitor.step unscanned (stalePeerEnv silentPeer))
    (Monitor.new, ⟨1000 * second, []⟩) [(), ()]
  let after ← (before.1.check unscanned (stalePeerEnv silentPeer) before.2).toOption
  return (before, after)

/-- The peer is restored twice, at two checks that are just far enough apart. -/
theorem restores_spaced_twice :
    ∃ monitor session after next,
      Runs.run (Monitor.step unscanned (stalePeerEnv silentPeer))
        (Monitor.new, ⟨1000 * second, []⟩) [(), ()] = some (monitor, session) ∧
      monitor.check unscanned (stalePeerEnv silentPeer) session = .ok (after, next) ∧
      ((stalePeerEnv silentPeer).restores id silentPeer.publicKey (1000 * second)
        next.calls).length = 2 ∧
      ∃ calls, next = Session.after (stalePeerEnv silentPeer).answer ⟨1000 * second, []⟩ calls ∧
        ∀ key, Spaced (150 * second)
          ((stalePeerEnv silentPeer).restores id key (1000 * second) calls) := by
  have counted : thirdCheck.map (fun states => ((stalePeerEnv silentPeer).restores id
      silentPeer.publicKey (1000 * second) states.2.2.calls).length) = some 2 := by
    decide +kernel
  obtain ⟨states, found, twice⟩ := Option.map_eq_some_iff.mp counted
  unfold thirdCheck at found
  obtain ⟨⟨monitor, session⟩, reached, found⟩ := Option.bind_eq_some_iff.mp found
  obtain ⟨⟨after, next⟩, checked, same⟩ := Option.bind_eq_some_iff.mp found
  cases same
  have ran := toOption_eq_some checked
  exact ⟨monitor, session, after, next, reached, ran, twice,
    restores_spaced (stalePeerEnv silentPeer) id (clocked_stalePeerEnv silentPeer) unscanned
      ⟨1000 * second, []⟩ session next [(), ()] monitor after reached ran⟩

end WgMesh.Meshd
