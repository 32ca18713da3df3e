/-
This file gives the rule for the commands of the monitor.

A check issues commands in three places: phase 1 clears the routes of listed
peers, phase 2 restores tracked peers, and its scans install candidates for them.
What is known of the listed peers is handed on to the entries that phase 1
records, and from there to the later checks. So a property of calls holds
throughout a run once listed peers and entries vouch for the commands in these
three places.
-/

import WgMesh.Meshd.Monitor

namespace WgMesh.Meshd

open Go Uapi

variable {World : Type}

/-- Listed peers and tracked entries of this kind vouch for the commands that are issued for
them. -/
structure Vouches (settings : Settings) (Listed : PeerInfo → Prop) (Entry : SavedPeer → Prop)
    (Allowed : Call → Prop) : Prop where
  others : ∀ call : Call, call.isCommand = false → Allowed call
  clears : ∀ peer, Listed peer → peer.publicKey ≠ settings.vpsHubPubKey →
    Allowed (.setPeer .clearRoute (clearedConfig peer))
  records : ∀ peer removedAt, Listed peer → peer.publicKey ≠ settings.vpsHubPubKey →
    Entry ⟨peer.publicKey, peer.endpoint, normalizedAllowedIPs peer.allowedIPs,
      peer.persistentKeepalive, peer.transferRx, removedAt⟩
  postpones : ∀ saved removedAt, Entry saved → Entry { saved with removedAt := removedAt }
  restores : ∀ saved, Entry saved → Allowed (.setPeer .restore saved.config)
  scans : ∀ saved host center, Entry saved →
    (saved.scanArgs settings).center = some (host, center) → ∀ index, ∀ port ∈ prioritizedPorts
      center (saved.scanArgs settings).effectiveCount,
        Allowed ((saved.scanArgs settings).command index (joinHostPort host (itoa port)))

section

variable {settings : Settings} {Listed : PeerInfo → Prop} {Entry : SavedPeer → Prop}
  {Allowed : Call → Prop} {env : Env World}

theorem emits_setCandidate_of {args : ScanArgs} {index : Nat} {endpoint : Text}
    (allowed : Allowed (args.command index endpoint)) :
    Emits env.answer Allowed (setCandidate env args index endpoint) := by
  unfold ScanArgs.command at allowed
  unfold setCandidate
  split
  · rename_i first
    rw [if_pos first] at allowed
    exact emits_perform allowed
  · rename_i later
    rw [if_neg later] at allowed
    exact emits_perform allowed

variable (vouches : Vouches settings Listed Entry Allowed)
include vouches

theorem Vouches.emits_scan {saved : SavedPeer} (entry : Entry saved) :
    Emits env.answer Allowed (saved.scan settings env) := by
  refine emits_ite (fun _ => ?_) fun _ => emits_pure _
  unfold blindScanEndpoint
  split
  · exact emits_pure _
  · rename_i host center started
    refine emits_bind (emits_perform (vouches.others _ rfl)) fun _ =>
      emits_bind (emits_lift _) fun _ => ?_
    exact emits_scanLoop_of env _ host _ (vouches.others _ rfl) (vouches.others _ rfl)
      (fun _ => vouches.others _ rfl) (vouches.others _ rfl) fun index _ port member =>
        emits_setCandidate_of (vouches.scans saved host center entry started index port member)

theorem Vouches.emits_retry (monitor : Monitor) (key : Text) {saved : SavedPeer}
    (entry : Entry saved) :
    Emits env.answer Allowed (monitor.retry settings env key saved) := by
  have now : Emits env.answer Allowed (env.call .now) := emits_perform (vouches.others _ rfl)
  refine emits_bind now fun _ => emits_ite (fun _ => emits_pure _) fun _ => ?_
  refine emits_bind (vouches.emits_scan entry) fun found => emits_ite (fun _ => ?_) fun _ => ?_
  · exact emits_bind (emits_lift _) fun _ => emits_bind now fun _ => emits_pure _
  · refine emits_bind (emits_lift _) fun _ =>
      emits_bind (emits_perform (vouches.restores saved entry)) fun _ => ?_
    exact emits_ite (fun _ => emits_bind now fun _ => emits_pure _) fun _ => emits_pure _

theorem Vouches.emits_phase1 (now : Int) {peers : List PeerInfo}
    (listed : ∀ peer ∈ peers, Listed peer) (monitor : Monitor) :
    Emits env.answer Allowed (monitor.phase1 settings env now peers) := by
  induction peers generalizing monitor with
  | nil => exact emits_pure _
  | cons peer rest inductionHypothesis =>
    obtain ⟨first, others⟩ := List.forall_mem_cons.mp listed
    have clock : Emits env.answer Allowed (env.call .now) := emits_perform (vouches.others _ rfl)
    refine emits_bind ?_ fun next => inductionHypothesis others next
    refine emits_ite (fun _ => emits_pure _) fun unskipped => ?_
    refine emits_ite (fun _ => ?_) fun _ => emits_pure _
    have other : peer.publicKey ≠ settings.vpsHubPubKey := fun hub => unskipped (Or.inl hub)
    refine emits_bind (emits_lift _) fun _ => emits_bind ?_ fun _ => ?_
    · exact emits_ite (fun _ => emits_perform (vouches.clears peer first other))
        fun _ => emits_pure _
    · exact emits_bind clock fun _ => emits_bind clock fun _ => emits_pure _

theorem Vouches.phase2 {keys : List Text} {monitor after : Monitor}
    {session next : Session Call World} (entries : monitor.Entries fun _ saved => Entry saved)
    (ran : monitor.phase2 settings env keys session = .ok (after, next)) :
    (after.Entries fun _ saved => Entry saved) ∧
      Session.Emitted env.answer Allowed session next := by
  induction keys generalizing monitor session with
  | nil =>
    obtain ⟨rfl, rfl⟩ := proc_pure_eq_ok.mp ran
    exact ⟨entries, Relation.ReflTransGen.refl⟩
  | cons key rest inductionHypothesis =>
    unfold Monitor.phase2 at ran
    cases tracked : monitor.savedPeers.lookup key with
    | none =>
      rw [tracked] at ran
      exact inductionHypothesis entries ran
    | some saved =>
      rw [tracked] at ran
      obtain ⟨retried, middle, first, continued⟩ := proc_bind_eq_ok.mp ran
      have kept := entries_of_retries entries (fun removedAt => vouches.postpones saved removedAt)
        tracked (retries_of_retry first)
      obtain ⟨last, emitted⟩ := inductionHypothesis kept continued
      have began := vouches.emits_retry monitor key (entries key saved tracked) _ _ _ first
      exact ⟨last, began.trans emitted⟩

/-- A check lists the peers first, and then keeps to what the listing and the entries vouch
for. -/
theorem Vouches.check_after {monitor after : Monitor} {session next : Session Call World}
    (listed : ∀ peers, (env.answer .listPeers session.world).1 = some peers →
      ∀ peer ∈ peers, Listed peer)
    (entries : monitor.Entries fun _ saved => Entry saved)
    (ran : monitor.check settings env session = .ok (after, next)) :
    (after.Entries fun _ saved => Entry saved) ∧ ∃ rest,
      next = session.after env.answer (.listPeers :: rest) ∧ ∀ call ∈ rest, Allowed call := by
  rcases check_phases ran with
    ⟨_, rfl, rfl⟩ | ⟨peers, judged, middle, keys, shown, first, second⟩
  · exact ⟨entries, [], rfl, List.forall_mem_nil _⟩
  · have known := listed peers shown
    have recorded : judged.Entries fun _ saved => Entry saved :=
      phase1_invariant (fun state _ => state.Entries fun _ saved => Entry saved)
        (fun _ _ _ _ peer member kept moved _ => entries_of_judges kept
          (fun removedAt unskipped => vouches.records peer removedAt (known peer member)
            fun hub => unskipped (Or.inl hub)) moved) entries first
    have judging := vouches.emits_phase1 _ known monitor _ _ _ first
    obtain ⟨kept, retrying⟩ := vouches.phase2 recorded second
    obtain ⟨calls, rfl, allowed⟩ := (judging.trans retrying).exists_after
    refine ⟨kept, .now :: calls, (Session.after_append _ _ _).symm, ?_⟩
    exact List.forall_mem_cons.mpr ⟨vouches.others _ rfl, allowed⟩

theorem Vouches.check {monitor after : Monitor} {session next : Session Call World}
    (listed : ∀ peers, (env.answer .listPeers session.world).1 = some peers →
      ∀ peer ∈ peers, Listed peer)
    (entries : monitor.Entries fun _ saved => Entry saved)
    (ran : monitor.check settings env session = .ok (after, next)) :
    (after.Entries fun _ saved => Entry saved) ∧
      Session.Emitted env.answer Allowed session next := by
  obtain ⟨kept, rest, rfl, allowed⟩ := vouches.check_after listed entries ran
  refine ⟨kept, Session.emitted_after ?_⟩
  exact List.forall_mem_cons.mpr ⟨vouches.others _ rfl, allowed⟩

/-- Every run keeps to what all the listings vouch for. -/
theorem Vouches.run {start session : Session Call World} {rounds : List Unit} {monitor : Monitor}
    (listed : ∀ world peers, (env.answer .listPeers world).1 = some peers →
      ∀ peer ∈ peers, Listed peer)
    (reached : Runs.run (Monitor.step settings env) (Monitor.new, start) rounds =
      some (monitor, session)) :
    (monitor.Entries fun _ saved => Entry saved) ∧
      Session.Emitted env.answer Allowed start session := by
  refine Runs.run_invariant (fun state => (state.1.Entries fun _ saved => Entry saved) ∧
    Session.Emitted env.answer Allowed start state.2) ?_ ?_ reached
  · rintro ⟨before, asleep⟩ _ ⟨after, awake⟩ ⟨entries, began⟩ stepped
    obtain ⟨checked, ran, slept⟩ := check_of_step stepped
    obtain ⟨kept, checking⟩ := vouches.check (listed _) entries ran
    have sleeping : ∀ call, call = Call.sleep settings.interval → Allowed call := by
      rintro _ rfl
      exact vouches.others _ rfl
    exact ⟨kept, began.trans (checking.trans (slept.mono sleeping))⟩
  · exact ⟨Monitor.entries_new _, Relation.ReflTransGen.refl⟩

end

end WgMesh.Meshd
