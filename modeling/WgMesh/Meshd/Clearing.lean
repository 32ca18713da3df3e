/-
This file settles when the monitor remembers that it failed to clear a route.

Phase 1 issues the clearing command of a stale peer and records the peer whatever
the answer is. A recorded peer is skipped from then on, so its command is not
issued again. A failure is therefore forgotten at once, and the entries of a run
can be trusted exactly when no clearing command of the run has failed.
-/

import WgMesh.Meshd.Tracking

namespace WgMesh.Meshd

open Go Uapi

variable {World : Type}

/-! ### What is to be remembered -/

/-- The clearing of a peer's route, with its answer. -/
def ClearAnswered (key : Text) (succeeded : Bool) : (call : Call) → Reply call → Prop
  | .setPeer site config, answered =>
    site = .clearRoute ∧ config.publicKey = key ∧ answered = succeeded
  | _, _ => False

/-- A successful command of phase 2 that gives a peer allowed IPs again. -/
def RouteRestored (key : Text) : (call : Call) → Reply call → Prop
  | .setPeer site config, answered =>
    site ≠ .clearRoute ∧ config.publicKey = key ∧ config.allowedIPs ≠ [] ∧ answered = true
  | _, _ => False

/-- The monitor after one of the two phases of a check. -/
inductive Stage (settings : Settings) (env : Env World) (before after : Monitor)
    (session : Session Call World) : Monitor → Prop
  | judged {peers : List PeerInfo} {judged : Monitor} {middle : Session Call World}
      (listed : (env.answer .listPeers session.world).1 = some peers)
      (ran : before.phase1 settings env (checkTime env session) peers
        (session.after env.answer [.listPeers, .now]) = .ok (judged, middle)) :
      Stage settings env before after session judged
  | ended : Stage settings env before after session after

/-- At the end of a check after some rounds, the failures to clear a route are remembered. -/
structure Remembers (settings : Settings) (env : Env World) (start : Session Call World)
    (rounds : List Unit) (before after : Monitor × Session Call World) : Prop where
  /-- A tracked peer with a route has had it cleared, unless it has been restored. -/
  cleared : after.1.Entries fun key saved => saved.allowedIPs ≠ [] →
    ∃ began, RecordedIn settings env start rounds key began ∧
      (¬ Session.Answered env.answer (RouteRestored key) began.2 after.2 →
        Session.Answered env.answer (ClearAnswered key true) began.2 after.2)
  /-- A peer whose route could not be cleared is left as it was. -/
  left : ∀ key, Session.Answered env.answer (ClearAnswered key false) before.2 after.2 →
    ∀ stage, Stage settings env before.1 after.1 before.2 stage →
      stage.savedPeers.lookup key = before.1.savedPeers.lookup key ∧
        stage.mesh.lookup key = before.1.mesh.lookup key

/-- Every check of a run has a property: those of its rounds, and one that may follow. -/
def EveryCheck (settings : Settings) (env : Env World) (start : Session Call World)
    (rounds : List Unit)
    (Holds : List Unit → Monitor × Session Call World → Monitor × Session Call World → Prop) :
    Prop :=
  ∀ earlier, earlier <+: rounds → ∀ monitor session after next,
    Runs.run (Monitor.step settings env) (Monitor.new, start) earlier = some (monitor, session) →
    monitor.check settings env session = .ok (after, next) →
    Holds earlier (monitor, session) (after, next)

/-- No clearing command of a check fails. -/
def ClearsSucceed (env : Env World) (_ : List Unit) (before after : Monitor × Session Call World) :
    Prop :=
  ∀ key, ¬ Session.Answered env.answer (ClearAnswered key false) before.2 after.2

/-! ### The clearing commands of phase 1 -/

section Phase1

variable {settings : Settings} {env : Env World} {now : Int} {peer : PeerInfo}
  {peers : List PeerInfo} {monitor after : Monitor} {session next : Session Call World}
  {key : Text}

theorem mem_record {removedAt seen : Int} :
    key ∈ (monitor.record peer removedAt seen).savedPeers ↔
      key = peer.publicKey ∨ key ∈ monitor.savedPeers := AList.mem_insert _

/-- A stale peer with a route has its clearing command answered, one way or the other. -/
theorem answered_clearCalls (route : normalizedAllowedIPs peer.allowedIPs ≠ []) :
    ∃ succeeded, Session.Answered env.answer (ClearAnswered peer.publicKey succeeded) session
      (session.after env.answer (clearCalls peer ++ [.now, .now])) := by
  rw [clearCalls, if_pos route]
  exact ⟨_, _, rfl, Or.inl ⟨rfl, rfl, rfl⟩⟩

/-- A clearing command is only issued for the peer that is judged. -/
theorem publicKey_of_answered {succeeded : Bool}
    (answered : Session.Answered env.answer (ClearAnswered key succeeded) session
      (session.after env.answer (clearCalls peer ++ [.now, .now]))) : key = peer.publicKey := by
  obtain ⟨calls, same, wanted⟩ := answered
  obtain rfl := Session.after_injective same
  obtain ⟨call, member, _, issued⟩ := wanted.exists_call
  rcases List.mem_append.mp member with clearing | reading
  · unfold clearCalls at clearing
    split at clearing
    · obtain rfl := List.mem_singleton.mp clearing
      exact issued.2.1.symm
    · exact absurd clearing List.not_mem_nil
  · obtain rfl : call = .now := by simpa using reading
    exact issued.elim

/-- A peer that phase 1 records with a route has had its clearing command answered. -/
theorem phase1_answered
    (ran : monitor.phase1 settings env now peers session = .ok (after, next)) :
    after.Entries fun key saved => key ∉ monitor.savedPeers → saved.allowedIPs ≠ [] →
      ∃ succeeded, Session.Answered env.answer (ClearAnswered key succeeded) session next := by
  induction peers generalizing monitor session with
  | nil =>
    obtain ⟨rfl, _⟩ := proc_pure_eq_ok.mp ran
    intro key saved found missing
    exact absurd (AList.lookup_isSome.mp (by rw [found]; rfl)) missing
  | cons peer rest inductionHypothesis =>
    intro key saved found missing route
    obtain ⟨judged, middle, first, continued⟩ := proc_bind_eq_ok.mp ran
    have emittedFirst := emits_phase1Peer _ _ _ _ _ _ _ _ first
    have emittedRest := emitted_of_phase1 continued
    by_cases recorded : key ∈ judged.savedPeers
    · rcases phase1Peer_eq_ok first with ⟨_, rfl, _⟩ | ⟨_, _, ⟨removedAt, seen, rfl⟩, rfl⟩
      · exact absurd recorded missing
      · obtain rfl := (mem_record.mp recorded).resolve_right missing
        -- The rest of the phase leaves the new entry alone.
        rw [phase1_lookup continued recorded] at found
        have entry := (AList.lookup_insert _).symm.trans found
        cases entry
        obtain ⟨succeeded, answered⟩ := @answered_clearCalls _ env peer session route
        exact ⟨succeeded, (Session.answered_iff emittedFirst emittedRest).mpr (Or.inl answered)⟩
    · obtain ⟨succeeded, answered⟩ :=
        inductionHypothesis continued key saved found recorded route
      exact ⟨succeeded, (Session.answered_iff emittedFirst emittedRest).mpr (Or.inr answered)⟩

/-- A peer whose clearing command was answered in phase 1 is recorded by it. -/
theorem tracked_of_answered {succeeded : Bool}
    (ran : monitor.phase1 settings env now peers session = .ok (after, next))
    (answered : Session.Answered env.answer (ClearAnswered key succeeded) session next) :
    key ∉ monitor.savedPeers ∧ key ∈ after.savedPeers := by
  constructor
  · obtain ⟨call, ofPhase1, _, issued⟩ := answered.exists_call (emitted_of_phase1 ran)
    cases call with
    | setPeer site config => exact issued.2.1 ▸ ofPhase1.2.1
    | _ => exact issued.elim
  · induction peers generalizing monitor session with
    | nil =>
      obtain ⟨_, rfl⟩ := proc_pure_eq_ok.mp ran
      exact absurd answered Session.not_answered_self
    | cons peer rest inductionHypothesis =>
      obtain ⟨judged, middle, first, continued⟩ := proc_bind_eq_ok.mp ran
      have emittedFirst := emits_phase1Peer _ _ _ _ _ _ _ _ first
      rcases (Session.answered_iff emittedFirst (emitted_of_phase1 continued)).mp answered with
        here | later
      · rcases phase1Peer_eq_ok first with ⟨_, _, rfl⟩ | ⟨_, _, ⟨removedAt, seen, rfl⟩, rfl⟩
        · exact absurd here Session.not_answered_self
        · have recorded : key ∈ (monitor.record peer removedAt seen).savedPeers :=
            mem_record.mpr (Or.inl (publicKey_of_answered here))
          exact mem_of_lookup_eq (phase1_lookup continued recorded) recorded
      · exact inductionHypothesis continued later

end Phase1

/-! ### The clearing commands of a check -/

section Check

variable {settings : Settings} {env : Env World} {monitor after : Monitor}
  {session next : Session Call World} {key : Text}

/-- The clearing commands of a check are those of its first phase. -/
theorem check_answered_iff {peers : List PeerInfo} {judged : Monitor}
    {middle : Session Call World} {keys : List Text} {now : Int} {succeeded : Bool}
    (first : monitor.phase1 settings env now peers (session.after env.answer [.listPeers, .now]) =
      .ok (judged, middle))
    (second : judged.phase2 settings env keys middle = .ok (after, next)) :
    Session.Answered env.answer (ClearAnswered key succeeded) session next ↔
      Session.Answered env.answer (ClearAnswered key succeeded)
        (session.after env.answer [.listPeers, .now]) middle := by
  have read : Session.Emitted env.answer Call.Reads session
      (session.after env.answer [.listPeers, .now]) := Session.emitted_after (by simp [Call.Reads])
  have judging := emitted_of_phase1 first
  have retrying := emitted_of_phase2 second
  have rest : Session.Emitted env.answer (fun _ => True)
      (session.after env.answer [.listPeers, .now]) next :=
    (judging.mono fun _ _ => trivial).trans (retrying.mono fun _ _ => trivial)
  rw [Session.answered_iff read rest, Session.answered_iff judging retrying]
  constructor
  · rintro (reading | answered | retried)
    · obtain ⟨call, reads, _, issued⟩ := reading.exists_call read
      cases call with
      | setPeer _ _ => exact reads.elim
      | _ => exact issued.elim
    · exact answered
    · obtain ⟨call, ofPhase2, _, issued⟩ := retried.exists_call retrying
      cases call with
      | setPeer _ _ => exact absurd issued.1 ofPhase2
      | _ => exact issued.elim
  · exact fun answered => Or.inr (Or.inl answered)

/-- If no clearing command of a check fails, a peer that the check records with a route has had
its route cleared. -/
theorem cleared_of_recorded {rounds : List Unit} {saved : SavedPeer}
    (succeed : ClearsSucceed env rounds (monitor, session) (after, next))
    (ran : monitor.check settings env session = .ok (after, next))
    (missing : key ∉ monitor.savedPeers) (found : after.savedPeers.lookup key = some saved)
    (route : saved.allowedIPs ≠ []) :
    Session.Answered env.answer (ClearAnswered key true) session next := by
  rcases check_phases ran with
    ⟨_, rfl, _⟩ | ⟨peers, judged, middle, keys, _, first, second⟩
  · exact absurd (AList.lookup_isSome.mp (by rw [found]; rfl)) missing
  -- Phase 2 keeps the allowed IPs of the entries that phase 1 leaves.
  have answered := phase2_invariant (fun state _ => state.Entries fun key saved =>
    key ∉ monitor.savedPeers → saved.allowedIPs ≠ [] → ∃ succeeded, Session.Answered env.answer
      (ClearAnswered key succeeded) (session.after env.answer [.listPeers, .now]) middle)
    (fun _ _ _ _ _ _ entries tracked moved _ =>
      entries_of_retries entries (fun _ holds => holds) tracked moved)
    (phase1_answered first) second
  obtain ⟨succeeded, issued⟩ := answered key saved found missing route
  have issuedInCheck := (check_answered_iff first second).mpr issued
  cases succeeded with
  | true => exact issuedInCheck
  | false => exact absurd issuedInCheck (succeed key)

/-- A peer whose route a check failed to clear is recorded by its first phase. -/
theorem exists_stage_of_failed
    (ran : monitor.check settings env session = .ok (after, next))
    (failed : Session.Answered env.answer (ClearAnswered key false) session next) :
    ∃ stage, Stage settings env monitor after session stage ∧ key ∉ monitor.savedPeers ∧
      key ∈ stage.savedPeers := by
  rcases check_phases ran with
    ⟨_, _, rfl⟩ | ⟨peers, judged, middle, keys, listed, first, second⟩
  · have read : Session.Emitted env.answer Call.Reads session
        (session.after env.answer [.listPeers]) := Session.emitted_after (by simp [Call.Reads])
    obtain ⟨call, reads, _, issued⟩ := failed.exists_call read
    cases call with
    | setPeer _ _ => exact reads.elim
    | _ => exact issued.elim
  · exact ⟨judged, .judged listed first,
      tracked_of_answered first ((check_answered_iff first second).mp failed)⟩

end Check

/-! ### When failures are remembered -/

/-- A check that remembers its failures has none. -/
theorem clearsSucceed_of_remembers {settings : Settings} {env : Env World}
    {start session next : Session Call World} {rounds : List Unit} {monitor after : Monitor}
    (ran : monitor.check settings env session = .ok (after, next))
    (remembers : Remembers settings env start rounds (monitor, session) (after, next)) :
    ClearsSucceed env rounds (monitor, session) (after, next) := by
  intro key failed
  obtain ⟨stage, isStage, missing, recorded⟩ := exists_stage_of_failed ran failed
  have same := (remembers.left key failed stage isStage).1
  exact missing (mem_of_lookup_eq same.symm recorded)

/-- When failures to clear a route are remembered: in every run, every check remembers them if and
only if there are none. -/
theorem remembers_iff (settings : Settings) (env : Env World) (start : Session Call World)
    (rounds : List Unit) :
    EveryCheck settings env start rounds (Remembers settings env start) ↔
      EveryCheck settings env start rounds (ClearsSucceed env) := by
  constructor
  · intro remembers earlier initial monitor session after next reached ran
    exact clearsSucceed_of_remembers ran (remembers earlier initial _ _ _ _ reached ran)
  · intro succeed earlier initial monitor session after next reached ran
    refine ⟨?_, fun key failed => absurd failed (succeed earlier initial _ _ _ _ reached ran key)⟩
    have cleared := recorded_of_check
      (fun began last key allowedIPs => allowedIPs ≠ [] →
        Session.Answered env.answer (ClearAnswered key true) began.2 last)
      (fun before shorter _ _ _ _ _ _ reachedToo checked missing found route =>
        cleared_of_recorded (succeed before (shorter.trans initial) _ _ _ _ reachedToo checked)
          checked missing found route)
      (fun _ _ _ _ _ holds first second route =>
        (Session.answered_iff first second).mpr (Or.inl (holds route))) reached ran
    intro key saved found route
    obtain ⟨began, recorded, _, answered⟩ := cleared key saved found
    exact ⟨began, recorded, fun _ => answered route⟩

/-- A clock and one peer. The command that clears a route fails. -/
def uncleared (peer : PeerInfo) : Env Int where
  answer := fun call clock => match call with
    | .now => (clock, clock)
    | .done => (false, clock)
    | .sleep duration => (false, clock + duration)
    | .listPeers => (some [peer], clock)
    | .setPeer site _ => (decide (site ≠ .clearRoute), clock)
    | .setEndpointFast _ _ _ => (true, clock)
  order := fun _ keys => keys
  order_perm := fun _ keys => List.Perm.refl keys

/-- One round of a new monitor in this world, at 1000 s, and the check after it. -/
def unclearedChecks (peer : PeerInfo) :
    Option ((Monitor × Session Call Int) × (Monitor × Session Call Int)) := do
  let before ← Runs.run (Monitor.step (Settings.default (text "hub")) (uncleared peer))
    (Monitor.new, ⟨1000 * second, []⟩) [()]
  let after ← (before.1.check (Settings.default (text "hub")) (uncleared peer) before.2).toOption
  return (before, after)

/-- The clearing of the route fails at 1000 s, and the peer is recorded with its route and counts
as disconnected. The check at 1015 s does not try again. -/
theorem uncleared_forgotten :
    let peer := roamingPeer (text "203.0.113.5:51820") (text "10.200.200.3/32") 0
    let settings := Settings.default (text "hub")
    ¬ EveryCheck settings (uncleared peer) ⟨1000 * second, []⟩ []
        (Remembers settings (uncleared peer) ⟨1000 * second, []⟩) ∧
      ∃ monitor session after next,
        Runs.run (Monitor.step settings (uncleared peer)) (Monitor.new, ⟨1000 * second, []⟩)
          [()] = some (monitor, session) ∧
        monitor.check settings (uncleared peer) session = .ok (after, next) ∧
        session.calls = [.listPeers, .now, .setPeer .clearRoute (clearedConfig peer), .now, .now,
          .now, .sleep (15 * second)] ∧
        (monitor.savedPeers.lookup peer.publicKey).map SavedPeer.allowedIPs =
          some (text "10.200.200.3/32") ∧
        (monitor.mesh.lookup peer.publicKey).map PeerState.isConnected = some false ∧
        next.calls.drop session.calls.length = [.listPeers, .now, .now] := by
  intro peer settings
  constructor
  · intro remembers
    have first : ∃ after next, Monitor.new.check settings (uncleared peer) ⟨1000 * second, []⟩ =
          .ok (after, next) ∧
        Session.Answered (uncleared peer).answer (ClearAnswered peer.publicKey false)
          ⟨1000 * second, []⟩ next := by
      have evaluated : (Monitor.new.check settings (uncleared peer)
          ⟨1000 * second, []⟩).toOption.map (fun checked => (checked.2.world, checked.2.calls)) =
          some (1000 * second, [.listPeers, .now, .setPeer .clearRoute (clearedConfig peer), .now,
            .now, .now]) := by
        decide +kernel
      obtain ⟨⟨after, world, calls⟩, found, same⟩ := Option.map_eq_some_iff.mp evaluated
      cases same
      refine ⟨after, _, toOption_eq_some found, [.listPeers, .now,
        .setPeer .clearRoute (clearedConfig peer), .now, .now, .now], rfl, ?_⟩
      exact Or.inr (Or.inr (Or.inl ⟨rfl, rfl, rfl⟩))
    obtain ⟨after, next, ran, failed⟩ := first
    exact clearsSucceed_of_remembers ran
      (remembers [] (List.prefix_refl _) _ _ _ _ rfl ran) peer.publicKey failed
  · have evaluated : (unclearedChecks peer).map (fun checks =>
        (checks.1.2.calls, (checks.1.1.savedPeers.lookup peer.publicKey).map SavedPeer.allowedIPs,
          (checks.1.1.mesh.lookup peer.publicKey).map PeerState.isConnected,
          checks.2.2.calls.drop checks.1.2.calls.length)) =
        some ([.listPeers, .now, .setPeer .clearRoute (clearedConfig peer), .now, .now, .now,
          .sleep (15 * second)], some (text "10.200.200.3/32"), some false,
          [.listPeers, .now, .now]) := by
      decide +kernel
    obtain ⟨⟨⟨monitor, session⟩, ⟨after, next⟩⟩, ended, same⟩ :=
      Option.map_eq_some_iff.mp evaluated
    simp only [unclearedChecks, Option.bind_eq_bind, Option.bind_eq_some_iff] at ended
    obtain ⟨_, reached, _, ran, ⟨⟩⟩ := ended
    obtain ⟨calls, saved, connected, again⟩ := by simpa only [Prod.mk.injEq] using same
    exact ⟨monitor, session, after, next, reached, toOption_eq_some ran, calls, saved, connected,
      again⟩

end WgMesh.Meshd
