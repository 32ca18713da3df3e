/-
This file proves that what the monitor tracks and what the mesh state says agree
after every check.

A peer is tracked and marked as disconnected in one move of phase 1, and given up
and marked as connected in one move of phase 2, and nothing else writes the mesh
state. An entry is written by phase 1 from the listing of its check, for a peer
that was not tracked, and phase 2 only starts its clock again or deletes it. Since
phase 1 comes first, a peer that is tracked before and after a check was tracked
throughout it. So the entry of a tracked peer goes back to the last check that
began without it.
-/

import WgMesh.Meshd.Recovery

namespace WgMesh.Meshd

open Go Uapi

variable {World : Type}

/-! ### The two stores -/

/-- The tracked peers are those the mesh state has as disconnected. -/
structure Monitor.Agrees (monitor : Monitor) : Prop where
  tracked : ∀ key ∈ monitor.savedPeers, ∃ state, monitor.mesh.lookup key = some state ∧
    state.isConnected = false
  untracked : ∀ key state, monitor.mesh.lookup key = some state → key ∉ monitor.savedPeers →
    state.isConnected = true

theorem Monitor.agrees_new : Monitor.new.Agrees where
  tracked := fun key member => absurd member (AList.notMem_empty key)
  untracked := fun _ _ found => nomatch found

/-- The move that tracks a peer and marks it as disconnected. -/
theorem Monitor.Agrees.record {monitor : Monitor} (agrees : monitor.Agrees) (peer : PeerInfo)
    (removedAt seen : Int) : (monitor.record peer removedAt seen).Agrees := by
  constructor
  · intro key member
    by_cases same : key = peer.publicKey
    · subst same
      exact ⟨_, AList.lookup_insert _, rfl⟩
    · obtain ⟨state, found, disconnected⟩ :=
        agrees.tracked key (((AList.mem_insert _).mp member).resolve_left same)
      exact ⟨state, (AList.lookup_insert_ne same).trans found, disconnected⟩
  · intro key state found missing
    have same : key ≠ peer.publicKey := fun same =>
      missing ((AList.mem_insert _).mpr (Or.inl same))
    rw [Monitor.record, MeshState.upsertPeer, AList.lookup_insert_ne same] at found
    exact agrees.untracked key state found fun member =>
      missing ((AList.mem_insert _).mpr (Or.inr member))

/-- The move that gives a peer up and marks it as connected. -/
theorem Monitor.Agrees.recover {monitor : Monitor} (agrees : monitor.Agrees) (gone : Text)
    (seen : Int) : (monitor.recover gone seen).Agrees := by
  constructor
  · intro key member
    obtain ⟨same, member⟩ := AList.mem_erase.mp member
    obtain ⟨state, found, disconnected⟩ := agrees.tracked key member
    exact ⟨state, (AList.lookup_insert_ne same).trans found, disconnected⟩
  · intro key state found missing
    by_cases same : key = gone
    · subst same
      rw [Monitor.recover, MeshState.upsertPeer, AList.lookup_insert] at found
      cases found
      rfl
    · rw [Monitor.recover, MeshState.upsertPeer, AList.lookup_insert_ne same] at found
      exact agrees.untracked key state found fun member =>
        missing (AList.mem_erase.mpr ⟨same, member⟩)

theorem Monitor.Agrees.postpone {monitor : Monitor} (agrees : monitor.Agrees) {key : Text}
    {saved : SavedPeer} (tracked : monitor.savedPeers.lookup key = some saved) (removedAt : Int) :
    (monitor.postpone key saved removedAt).Agrees := by
  have same : ∀ other, other ∈ (monitor.postpone key saved removedAt).savedPeers ↔
      other ∈ monitor.savedPeers := by
    intro other
    refine (AList.mem_insert _).trans (or_iff_right_of_imp ?_)
    rintro rfl
    rw [← AList.lookup_isSome, tracked]
    rfl
  constructor
  · exact fun other member => agrees.tracked other ((same other).mp member)
  · exact fun other state found missing => agrees.untracked other state found fun member =>
      missing ((same other).mpr member)

theorem agrees_of_judges {settings : Settings} {now : Int} {peer : PeerInfo}
    {monitor after : Monitor} (agrees : monitor.Agrees)
    (judged : Judges settings now peer monitor after) : after.Agrees := by
  cases judged with
  | passed _ => exact agrees
  | recorded _ _ removedAt seen => exact agrees.record peer removedAt seen

theorem agrees_of_retries {session next : Session Call World} {key : Text} {saved : SavedPeer}
    {monitor after : Monitor} (agrees : monitor.Agrees)
    (tracked : monitor.savedPeers.lookup key = some saved)
    (retried : Retries session next key saved monitor after) : after.Agrees := by
  cases retried with
  | waited => exact agrees
  | postponed removedAt => exact agrees.postpone tracked removedAt
  | recovered seen _ => exact agrees.recover key seen

/-! ### The entries -/

/-- An entry as phase 1 writes it: under its own key, with an endpoint, and for a peer that is
not a relay. -/
structure SavedPeer.Sound (key : Text) (saved : SavedPeer) : Prop where
  publicKey : saved.publicKey = key
  endpoint : saved.endpoint ≠ [] ∧ saved.endpoint ≠ text "(none)"
  allowedIPs : saved.allowedIPs ≠ text "(none)" ∧ contains saved.allowedIPs (text "/24") = false

theorem normalizedAllowedIPs_ne_none (allowed : Text) :
    normalizedAllowedIPs allowed ≠ text "(none)" := by
  unfold normalizedAllowedIPs
  split
  · decide
  · rename_i other
    exact fun none => other (Or.inr none)

theorem contains_normalizedAllowedIPs {allowed : Text}
    (plain : contains allowed (text "/24") = false) :
    contains (normalizedAllowedIPs allowed) (text "/24") = false := by
  unfold normalizedAllowedIPs
  split
  · decide
  · exact plain

theorem sound_of_judges {settings : Settings} {now : Int} {peer : PeerInfo}
    {monitor after : Monitor} (sound : monitor.Entries SavedPeer.Sound)
    (judged : Judges settings now peer monitor after) : after.Entries SavedPeer.Sound := by
  refine entries_of_judges sound (fun removedAt unskipped => ?_) judged
  obtain ⟨_, addressed, plain, _⟩ := by simpa only [Monitor.Skips, not_or] using unskipped
  exact
    { publicKey := rfl
      endpoint := addressed
      allowedIPs := ⟨normalizedAllowedIPs_ne_none _,
        contains_normalizedAllowedIPs (Bool.eq_false_iff.mpr plain)⟩ }

theorem sound_of_retries {session next : Session Call World} {key : Text} {saved : SavedPeer}
    {monitor after : Monitor} (sound : monitor.Entries SavedPeer.Sound)
    (tracked : monitor.savedPeers.lookup key = some saved)
    (retried : Retries session next key saved monitor after) : after.Entries SavedPeer.Sound :=
  entries_of_retries sound
    (fun _ holds => ⟨holds.publicKey, holds.endpoint, holds.allowedIPs⟩) tracked retried

/-! ### Where an entry comes from -/

/-- The listing of a check has the peer with these allowed IPs, as they are normalized. -/
def ListedAs (env : Env World) (session : Session Call World) (key allowedIPs : Text) : Prop :=
  ∃ peers, (env.answer .listPeers session.world).1 = some peers ∧
    ∃ peer ∈ peers, peer.publicKey = key ∧ allowedIPs = normalizedAllowedIPs peer.allowedIPs

/-- The entry was there before a check, or its peer was not tracked then and is in the check's
listing. -/
def Monitor.Source (monitor : Monitor) (env : Env World) (session : Session Call World)
    (key : Text) (saved : SavedPeer) : Prop :=
  (∃ old, monitor.savedPeers.lookup key = some old ∧ saved.allowedIPs = old.allowedIPs) ∨
    (key ∉ monitor.savedPeers ∧ ListedAs env session key saved.allowedIPs)

theorem source_of_check {settings : Settings} {env : Env World} {monitor after : Monitor}
    {session next : Session Call World}
    (ran : monitor.check settings env session = .ok (after, next)) :
    after.Entries (monitor.Source env session) := by
  rcases check_cases ran with
    ⟨_, rfl, _⟩ | ⟨peers, began, judged, middle, keys, listed, _, first, second⟩
  · exact fun _ saved found => Or.inl ⟨saved, found, rfl⟩
  · refine phase2_invariant (fun state _ => state.Entries (monitor.Source env session)) ?_ ?_ second
    · exact fun _ _ _ _ _ _ entries tracked moved _ =>
        entries_of_retries entries (fun _ holds => holds) tracked moved
    · have holds := phase1_invariant (fun state _ =>
        (∀ key ∈ monitor.savedPeers, key ∈ state.savedPeers) ∧
          state.Entries (monitor.Source env session)) ?_
        ⟨fun _ tracked => tracked, fun _ saved found => Or.inl ⟨saved, found, rfl⟩⟩ first
      · exact holds.2
      rintro state next _ _ peer member ⟨kept, entries⟩ moved _
      refine ⟨fun key tracked => mem_of_lookup_eq (moved.lookup_eq (kept key tracked))
        (kept key tracked), entries_of_judges entries (fun _ unskipped => ?_) moved⟩
      refine Or.inr ⟨fun tracked => unskipped (Monitor.skips_of_tracked (kept _ tracked)), ?_⟩
      exact ⟨peers, listed, peer, member, rfl, rfl⟩

/-- The check in which a peer was last added listed it with these allowed IPs: the check began
without the peer, and the peer was tracked in every state since. -/
def AddedAs (settings : Settings) (env : Env World) (start : Session Call World)
    (rounds : List Unit) (key allowedIPs : Text) : Prop :=
  ∃ earlier later before session, rounds = earlier ++ later ∧
    Runs.run (Monitor.step settings env) (Monitor.new, start) earlier = some (before, session) ∧
    key ∉ before.savedPeers ∧ ListedAs env session key allowedIPs ∧
    ∀ between, between ≠ [] → between <+: later → ∀ state,
      Runs.run (Monitor.step settings env) (before, session) between = some state →
        key ∈ state.1.savedPeers

/-- The state in which the check began that recorded a peer: the check began without the peer, and
the peer was tracked in every state since. -/
def RecordedIn (settings : Settings) (env : Env World) (start : Session Call World)
    (rounds : List Unit) (key : Text) (began : Monitor × Session Call World) : Prop :=
  ∃ earlier later, rounds = earlier ++ later ∧
    Runs.run (Monitor.step settings env) (Monitor.new, start) earlier = some began ∧
    key ∉ began.1.savedPeers ∧
    ∀ between, between ≠ [] → between <+: later → ∀ state,
      Runs.run (Monitor.step settings env) began between = some state → key ∈ state.1.savedPeers

section Recorded

variable {settings : Settings} {env : Env World} {start session next : Session Call World}
  {rounds : List Unit} {key : Text} {monitor after : Monitor}

/-- A check that begins without a peer is the one that records it, if any. -/
theorem recordedIn_of_untracked
    (reached : Runs.run (Monitor.step settings env) (Monitor.new, start) rounds =
      some (monitor, session)) (missing : key ∉ monitor.savedPeers) :
    RecordedIn settings env start rounds key (monitor, session) := by
  refine ⟨rounds, [], (List.append_nil _).symm, reached, missing, ?_⟩
  intro between nonempty initial
  exact absurd (List.prefix_nil.mp initial) nonempty

/-- A peer that is still tracked one round later was recorded by the same check. -/
theorem RecordedIn.snoc {turn : Unit} {began : Monitor × Session Call World}
    (recorded : RecordedIn settings env start rounds key began)
    (reached : Runs.run (Monitor.step settings env) (Monitor.new, start) (rounds ++ [turn]) =
      some (monitor, session)) (tracked : key ∈ monitor.savedPeers) :
    RecordedIn settings env start (rounds ++ [turn]) key began := by
  obtain ⟨earlier, later, rfl, ran, missing, since⟩ := recorded
  refine ⟨earlier, later ++ [turn], List.append_assoc _ _ _, ran, missing, ?_⟩
  intro between nonempty initial state ended
  rcases List.prefix_concat_iff.mp initial with rfl | shorter
  · rw [List.append_assoc] at reached
    obtain ⟨_, again, remaining⟩ := Runs.run_append.mp reached
    rw [ran] at again
    cases again
    rw [remaining] at ended
    cases ended
    exact tracked
  · exact since between nonempty shorter state ended

/-- A peer that a check records is in the listing of the check. -/
theorem listedAs_of_recorded {saved : SavedPeer}
    (ran : monitor.check settings env session = .ok (after, next))
    (missing : key ∉ monitor.savedPeers) (found : after.savedPeers.lookup key = some saved) :
    ListedAs env session key saved.allowedIPs := by
  rcases source_of_check ran key saved found with ⟨old, kept, _⟩ | ⟨_, listed⟩
  · exact absurd (AList.lookup_isSome.mp (by rw [kept]; rfl)) missing
  · exact listed

theorem emitted_of_check (ran : monitor.check settings env session = .ok (after, next)) :
    Session.Emitted env.answer (fun _ => True) session next := by
  rcases check_cases ran with
    ⟨_, _, read⟩ | ⟨peers, began, judged, middle, keys, _, read, first, second⟩
  · exact read.mono fun _ _ => trivial
  · have judging := (emitted_of_phase1 first).mono fun _ _ => trivial
    have retrying := (emitted_of_phase2 second).mono fun _ _ => trivial
    exact (read.mono fun _ _ => trivial).trans (judging.trans retrying)

/-- In every run, what a check makes true of the peers it records, and what later calls keep, is
true of every entry since the check that recorded it. -/
theorem recorded_of_check
    (Holds : Monitor × Session Call World → Session Call World → Text → Text → Prop)
    (records : ∀ earlier, earlier <+: rounds → ∀ monitor session after next key saved,
      Runs.run (Monitor.step settings env) (Monitor.new, start) earlier = some (monitor, session) →
      monitor.check settings env session = .ok (after, next) → key ∉ monitor.savedPeers →
      after.savedPeers.lookup key = some saved →
      Holds (monitor, session) next key saved.allowedIPs)
    (keeps : ∀ began middle last key allowedIPs, Holds began middle key allowedIPs →
      Session.Emitted env.answer (fun _ => True) began.2 middle →
      Session.Emitted env.answer (fun _ => True) middle last → Holds began last key allowedIPs)
    (reached : Runs.run (Monitor.step settings env) (Monitor.new, start) rounds =
      some (monitor, session))
    (ran : monitor.check settings env session = .ok (after, next)) :
    after.Entries fun key saved => ∃ began, RecordedIn settings env start rounds key began ∧
      Session.Emitted env.answer (fun _ => True) began.2 next ∧
      Holds began next key saved.allowedIPs := by
  -- What a run has reached is the outcome of its last check.
  induction rounds using List.reverseRecOn generalizing monitor session after next with
  | nil =>
    intro key saved found
    rcases source_of_check ran key saved found with ⟨_, old, _⟩ | ⟨missing, _⟩
    · cases reached
      cases old
    · exact ⟨_, recordedIn_of_untracked reached missing, emitted_of_check ran,
        records [] (List.prefix_refl _) _ _ _ _ _ _ reached ran missing found⟩
  | append_singleton rounds turn inductionHypothesis =>
    intro key saved found
    rcases source_of_check ran key saved found with ⟨old, kept, same⟩ | ⟨missing, _⟩
    · obtain ⟨⟨before, asleep⟩, earlier, last⟩ := Runs.run_append.mp reached
      obtain ⟨_, stepped, ⟨⟩⟩ := Runs.run_cons.mp last
      obtain ⟨checked, checking, slept⟩ := check_of_step stepped
      obtain ⟨began, recorded, emitted, holds⟩ := inductionHypothesis
        (fun earlier initial => records earlier (initial.trans (List.prefix_append _ _)))
        earlier checking key old kept
      have since : Session.Emitted env.answer (fun _ => True) checked next :=
        (slept.mono fun _ _ => trivial).trans (emitted_of_check ran)
      have tracked : key ∈ monitor.savedPeers := by
        rw [← AList.lookup_isSome, kept]
        rfl
      rw [same]
      exact ⟨began, recorded.snoc reached tracked, emitted.trans since,
        keeps began checked next key old.allowedIPs holds emitted since⟩
    · exact ⟨_, recordedIn_of_untracked reached missing, emitted_of_check ran,
        records _ (List.prefix_refl _) _ _ _ _ _ _ reached ran missing found⟩

end Recorded

/-- In every run, an entry has the allowed IPs that were listed when its peer was last added. -/
theorem addedAs_of_check {settings : Settings} {env : Env World}
    {start session next : Session Call World} {rounds : List Unit} {monitor after : Monitor}
    (reached : Runs.run (Monitor.step settings env) (Monitor.new, start) rounds =
      some (monitor, session))
    (ran : monitor.check settings env session = .ok (after, next)) :
    after.Entries fun key saved => AddedAs settings env start rounds key saved.allowedIPs := by
  have listed := recorded_of_check
    (fun began _ key allowedIPs => ListedAs env began.2 key allowedIPs)
    (fun _ _ _ _ _ _ _ _ _ checked missing found => listedAs_of_recorded checked missing found)
    (fun _ _ _ _ _ holds _ _ => holds) reached ran
  intro key saved found
  obtain ⟨⟨before, began⟩, ⟨earlier, later, split, reachedToo, missing, since⟩, _, holds⟩ :=
    listed key saved found
  exact ⟨earlier, later, before, began, split, reachedToo, missing, holds, since⟩

/-! ### Agreement after every check -/

/-- In every run and in every world, after every check the tracked peers are those the mesh state
has as disconnected, and every entry is sound and has the allowed IPs that were listed when its
peer was last added. -/
theorem tracking_agrees {settings : Settings} {env : Env World}
    {start session next : Session Call World} {rounds : List Unit} {monitor after : Monitor}
    (reached : Runs.run (Monitor.step settings env) (Monitor.new, start) rounds =
      some (monitor, session))
    (ran : monitor.check settings env session = .ok (after, next)) :
    after.Agrees ∧ after.Entries SavedPeer.Sound ∧
      after.Entries fun key saved => AddedAs settings env start rounds key saved.allowedIPs := by
  have agrees : monitor.Agrees := monitor_invariant Monitor.Agrees
    (fun _ _ _ _ => agrees_of_judges) (fun _ _ _ _ _ _ => agrees_of_retries)
    Monitor.agrees_new reached
  have sound := monitor_invariant (fun state => state.Entries SavedPeer.Sound)
    (fun _ _ _ _ => sound_of_judges) (fun _ _ _ _ _ _ => sound_of_retries)
    (Monitor.entries_new _) reached
  refine ⟨?_, ?_, addedAs_of_check reached ran⟩
  · exact check_invariant Monitor.Agrees (fun _ _ _ _ => agrees_of_judges)
      (fun _ _ _ _ _ _ => agrees_of_retries) agrees ran
  · exact check_invariant (fun state => state.Entries SavedPeer.Sound)
      (fun _ _ _ _ => sound_of_judges) (fun _ _ _ _ _ _ => sound_of_retries) sound ran

/-- A stale peer is added by the first check and is still tracked after the second. -/
theorem tracking_agrees_roaming :
    let peer := roamingPeer (text "203.0.113.5:51820") (text "10.200.200.3/32") 0
    ∃ monitor session after next,
      Runs.run (Monitor.step unscanned (clockEnv fun _ => peer))
        (Monitor.new, ⟨1000 * second, []⟩) [()] = some (monitor, session) ∧
      monitor.check unscanned (clockEnv fun _ => peer) session = .ok (after, next) ∧
      after.savedPeers.keys = [peer.publicKey] ∧ after.Agrees ∧
      after.Entries SavedPeer.Sound := by
  intro peer
  obtain ⟨monitor, session, after, next, reached, ran, tracked⟩ :=
    @of_secondCheck (fun _ => peer) (by decide +kernel)
      (fun checks => checks.2.1.savedPeers.keys = [peer.publicKey]) (by decide +kernel)
  obtain ⟨agrees, sound, _⟩ := tracking_agrees reached ran
  exact ⟨monitor, session, after, next, reached, ran, tracked, agrees, sound⟩

end WgMesh.Meshd
