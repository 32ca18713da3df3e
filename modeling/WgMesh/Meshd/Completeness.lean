/-
This file settles when a blind scan finds a peer that has answered.

The device keeps a record of the peer: the time of its latest handshake and the
bytes received never decrease, and its endpoint only moves by the commands of the
scan. A handshake that is recorded stays recorded, and at a sampled candidate the
listing also shows the candidate as the endpoint. So every sample that is taken
after a handshake ends the scan. But the handshakes after the last sample are
never looked at: the scan finds what happens during a candidate exactly when a
later candidate is sampled.
-/

import WgMesh.Meshd.Soundness

namespace WgMesh.Meshd

open Go Uapi

variable {World : Type}

/-! ### The device -/

/-- A device that keeps a record of the peer. A listing shows the record as it is at some moment
while it is taken. -/
structure Env.Keeps (env : Env World) (publicKey : Text) (view : World → PeerView) : Prop where
  handshake : ∀ call world, (view world).handshake ≤ (view (env.answer call world).2).handshake
  rx : ∀ call world, (view world).rx ≤ (view (env.answer call world).2).rx
  endpoint : ∀ call world, ¬ call.SetsEndpoint publicKey →
    (view (env.answer call world).2).endpoint = (view world).endpoint
  setPeer : ∀ site config world, config.publicKey = publicKey →
    (env.answer (.setPeer site config) world).1 = true →
    (view (env.answer (.setPeer site config) world).2).endpoint = config.endpoint
  setEndpointFast : ∀ site endpoint world,
    (env.answer (.setEndpointFast site publicKey endpoint) world).1 = true →
    (view (env.answer (.setEndpointFast site publicKey endpoint) world).2).endpoint = endpoint
  listPeers : ∀ world peers, (env.answer .listPeers world).1 = some peers →
    ∃ peer ∈ peers, peer.publicKey = publicKey ∧ peer.endpoint = (view world).endpoint ∧
      (view world).handshake ≤ peer.latestHandshake ∧
      peer.latestHandshake ≤ (view (env.answer .listPeers world).2).handshake ∧
      (view world).rx ≤ peer.transferRx ∧
      peer.transferRx ≤ (view (env.answer .listPeers world).2).rx

/-- The record shows a handshake since the scan began, and traffic. -/
def PeerView.Records (args : ScanArgs) (scanStarted : Int) (view : PeerView) : Prop :=
  unix scanStarted ≤ view.handshake ∧ args.baselineRx < view.rx

/-- The number of candidates that these calls have installed. -/
def installed (calls : List Call) : Nat := calls.countP Call.isCommand

/-- In every world with such a device, an undisturbed scan reports an endpoint if the device
records a handshake while the candidate with this index is installed. -/
def ScanComplete (args : ScanArgs) (index : Nat) : Prop :=
  ∀ (World : Type) (env : Env World) (view : World → PeerView) (session : Session Call World)
    (earlier later : List Call) (result : Option Text),
    env.Keeps args.publicKey view →
    blindScanEndpoint env args session =
      .ok (result, session.after env.answer (earlier ++ later)) →
    AllAnswered env.answer
      (Undisturbed ((env.answer .now session.world).1 + args.effectiveBudget)) session.world
      (earlier ++ later) →
    installed earlier = index + 1 →
    (view (replay env.answer session.world earlier)).Records args
      (env.answer .now session.world).1 →
    result.isSome

/-! ### A recorded handshake is found -/

theorem Env.Keeps.records_replay {env : Env World} {args : ScanArgs} {view : World → PeerView}
    (keeps : env.Keeps args.publicKey view) {scanStarted : Int} {world : World}
    (recorded : (view world).Records args scanStarted) (calls : List Call) :
    (view (replay env.answer world calls)).Records args scanStarted := by
  refine replay_invariant (fun world => (view world).Records args scanStarted) ?_ recorded calls
  rintro call before ⟨recent, more⟩
  exact ⟨recent.trans (keeps.handshake call before), more.trans_le (keeps.rx call before)⟩

/-- A command that succeeds installs its endpoint. -/
theorem Env.Keeps.endpoint_command {env : Env World} {args : ScanArgs} {view : World → PeerView}
    (keeps : env.Keeps args.publicKey view) {index : Nat} {endpoint : Text} {world : World}
    (succeeded : env.succeeds (args.command index endpoint) world = true) :
    (view (env.answer (args.command index endpoint) world).2).endpoint = endpoint := by
  unfold ScanArgs.command at succeeded ⊢
  split at succeeded
  · rw [if_pos ‹_›]
    exact keeps.setPeer _ _ world rfl succeeded
  · rw [if_neg ‹_›]
    exact keeps.setEndpointFast _ _ world succeeded

/-- A listing after a handshake and a command shows the handshake with the command's endpoint. -/
theorem Env.Keeps.shows {env : Env World} {args : ScanArgs} {view : World → PeerView}
    (keeps : env.Keeps args.publicKey view) {scanStarted : Int} {endpoint : Text} {world : World}
    (recorded : (view world).Records args scanStarted) (there : (view world).endpoint = endpoint)
    (listed : (env.answer .listPeers world).1.isSome) :
    env.shows args scanStarted endpoint world = true := by
  obtain ⟨peers, answered⟩ := Option.isSome_iff_exists.mp listed
  obtain ⟨peer, member, key, address, recent, _, more, _⟩ := keeps.listPeers world peers answered
  have found : handshaken args.publicKey endpoint (unix scanStarted) args.baselineRx peer =
      true := by
    refine decide_eq_true ⟨key, address.trans there, recorded.1.trans recent, ?_⟩
    exact recorded.2.trans_le more
  rw [Env.shows, answered]
  exact List.any_eq_true.mpr ⟨peer, member, found⟩

theorem installed_append (first second : List Call) :
    installed (first ++ second) = installed first + installed second := List.countP_append

theorem installed_install (args : ScanArgs) (index : Nat) (endpoint : Text) :
    installed (args.install index endpoint) = 1 := by
  have command := args.isCommand_command index endpoint
  rw [installed, ScanArgs.install, List.countP_cons, List.countP_cons, List.countP_singleton,
    if_pos command]
  rfl

theorem installed_untilWait (args : ScanArgs) (index : Nat) (endpoint : Text) (duration : Int) :
    installed (args.untilWait index endpoint ++ [.sleep duration]) = 1 := by
  have sample : installed (sampleCalls index) = 0 := by
    unfold sampleCalls
    split
    · rfl
    · rfl
  rw [ScanArgs.untilWait, installed_append, installed_append, installed_append,
    installed_install, sample]
  rfl

/-- The listing of an undisturbed round succeeds. -/
theorem listed_of_undisturbed {env : Env World} {args : ScanArgs} {index : Nat} {endpoint : Text}
    {deadline duration : Int} {world : World} (sampled : Sampled index)
    (undisturbed : AllAnswered env.answer (Undisturbed deadline) world
      (args.untilWait index endpoint ++ [.sleep duration])) :
    (env.answer .listPeers (replay env.answer world (args.install index endpoint))).1.isSome := by
  rw [ScanArgs.untilWait, sampleCalls, if_pos sampled] at undisturbed
  obtain ⟨⟨⟨_, listed⟩, _⟩, _⟩ := by simpa only [allAnswered_append] using undisturbed
  exact listed.1

/-- If an undisturbed loop finds nothing, then no handshake was recorded when it installed a
candidate that it sampled. -/
theorem scanLoop_unrecorded {env : Env World} {args : ScanArgs} {view : World → PeerView}
    (keeps : env.Keeps args.publicKey view) {host : Text} {scanStarted : Int} {index sample : Nat}
    {ports : List Nat} {session : Session Call World} {calls : List Call} (sampled : Sampled sample)
    (reached : index ≤ sample) (within : sample < index + ports.length)
    (ran : scanLoop env args host scanStarted index ports session =
      .ok (none, session.after env.answer calls))
    (undisturbed : AllAnswered env.answer (Undisturbed (scanStarted + args.effectiveBudget))
      session.world calls) :
    ∃ before after, calls = before ++ after ∧ index + installed before = sample + 1 ∧
      ¬ (view (replay env.answer session.world before)).Records args scanStarted := by
  induction ports generalizing index session calls with
  | nil => exact absurd within (not_lt.mpr reached)
  | cons port rest inductionHypothesis =>
    rw [List.length_cons] at within
    rcases scanLoop_round ran with ⟨ended, round, same⟩ | ⟨made, round, continued⟩
    · obtain rfl := Session.after_injective same
      exact absurd rfl (round.of_undisturbed undisturbed).1
    obtain ⟨more, rfl, remaining⟩ := (emits_scanLoop _ _ _ _ _ _).exists_append continued
    obtain ⟨undisturbedRound, undisturbedRest⟩ := allAnswered_append.mp undisturbed
    obtain ⟨⟨duration, rfl⟩, succeeded, unshown⟩ :=
      (round.of_undisturbed undisturbedRound).2 rfl
    rcases Nat.eq_or_lt_of_le reached with rfl | later
    · -- This round looks at the device right after it has installed its candidate.
      refine ⟨args.install index (joinHostPort host (itoa port)),
        sampleCalls index ++ [.now] ++ [.sleep duration] ++ more, ?_, ?_, ?_⟩
      · simp only [ScanArgs.untilWait, List.append_assoc]
      · rw [installed_install]
      · intro recorded
        have shown := keeps.shows recorded (keeps.endpoint_command succeeded)
          (listed_of_undisturbed sampled undisturbedRound)
        exact absurd ((unshown sampled).symm.trans shown) Bool.false_ne_true
    · have unrecorded := inductionHypothesis later (by omega) remaining
      obtain ⟨before, after, rfl, counted, unrecorded⟩ := unrecorded undisturbedRest
      refine ⟨args.untilWait index (joinHostPort host (itoa port)) ++ [.sleep duration] ++ before,
        after, (List.append_assoc _ _ _).symm, ?_, ?_⟩
      · rw [installed_append, installed_untilWait]
        omega
      · rwa [replay_append]

/-- A moment with fewer installed candidates is an earlier one. -/
theorem prefix_of_installed_lt {earlier before calls : List Call} (began : earlier <+: calls)
    (beganToo : before <+: calls) (fewer : installed earlier < installed before) :
    earlier <+: before := by
  rcases List.prefix_or_prefix_of_prefix began beganToo with first | second
  · exact first
  · exact absurd (second.sublist.countP_le) (not_le.mpr fewer)

/-- A scan finds a handshake that is recorded before it samples a candidate. -/
theorem scanComplete_of_sampled {args : ScanArgs} {host : Text} {center : Int}
    (started : args.center = some (host, center)) {index sample : Nat} (sampled : Sampled sample)
    (later : index < sample) (within : sample < min args.count.toNat 65535) :
    ScanComplete args index := by
  intro World env view session earlier later result keeps ran undisturbed counted recorded
  obtain ⟨_, looped⟩ := (blindScanEndpoint_eq_ok started).mp ran
  obtain ⟨calls, same, looped⟩ := (emits_scanLoop _ _ _ _ _ _).exists_append looped
  have length := length_prioritizedPorts center args.effectiveCount
  rw [args.candidateCount_effective (args.center_eq_some started).2.2] at length
  cases result with
  | some endpoint => rfl
  | none =>
    rw [same] at undisturbed
    have unrecorded := scanLoop_unrecorded keeps sampled (Nat.zero_le _) (by omega) looped
    obtain ⟨before, after, rfl, countedToo, unrecorded⟩ :=
      unrecorded (allAnswered_append.mp undisturbed).2
    have began : [.now] ++ before <+: earlier ++ later := ⟨after, by rw [same, List.append_assoc]⟩
    have fewer : installed earlier < installed ([.now] ++ before) := by
      rw [installed_append, counted, show installed [.now] = 0 from rfl]
      omega
    obtain ⟨between, joined⟩ := prefix_of_installed_lt (List.prefix_append _ _) began fewer
    have recordedToo := keeps.records_replay recorded between
    rw [← replay_append, joined, replay_append] at recordedToo
    exact absurd recordedToo unrecorded

theorem ScanRound.installed_le {env : Env World} {args : ScanArgs} {scanStarted : Int} {index : Nat}
    {endpoint : Text} {world : World} {calls : List Call} {outcome : Option (Option Text)}
    (round : ScanRound env args scanStarted index endpoint world calls outcome) :
    installed calls ≤ 1 := by
  cases round with
  | timedOut _ => exact Nat.zero_le 1
  | cancelled _ => exact Nat.zero_le 1
  | refused _ => exact (installed_install _ _ _).le
  | found _ _ _ =>
    rw [installed_append, installed_install]
    exact Nat.le_refl 1
  | stopped duration _ => exact (installed_untilWait _ _ _ _).le
  | passed duration _ _ => exact (installed_untilWait _ _ _ _).le

/-- The loop installs each of its candidates at most once. -/
theorem installed_scanLoop_le {env : Env World} {args : ScanArgs} {host : Text} {scanStarted : Int}
    {index : Nat} {ports : List Nat} {session : Session Call World} {calls : List Call}
    {result : Option Text}
    (ran : scanLoop env args host scanStarted index ports session =
      .ok (result, session.after env.answer calls)) :
    installed calls ≤ ports.length := by
  induction ports generalizing index session calls with
  | nil =>
    have unchanged : session.after env.answer calls = session.after env.answer [] :=
      (proc_pure_eq_ok.mp ran).2.trans session.after_nil.symm
    rw [Session.after_injective unchanged]
    exact Nat.le_refl 0
  | cons port rest inductionHypothesis =>
    rw [List.length_cons]
    rcases scanLoop_round ran with ⟨made, round, same⟩ | ⟨made, round, continued⟩
    · rw [Session.after_injective same]
      exact round.installed_le.trans (Nat.le_add_left 1 _)
    · obtain ⟨more, rfl, remaining⟩ := (emits_scanLoop _ _ _ _ _ _).exists_append continued
      rw [installed_append, Nat.add_comm]
      exact Nat.add_le_add (inductionHypothesis remaining) round.installed_le

theorem installed_blindScanEndpoint_le {env : Env World} {args : ScanArgs} {host : Text}
    {center : Int} (started : args.center = some (host, center)) {session : Session Call World}
    {calls : List Call} {result : Option Text}
    (ran : blindScanEndpoint env args session = .ok (result, session.after env.answer calls)) :
    installed calls ≤ min args.count.toNat 65535 := by
  obtain ⟨_, looped⟩ := (blindScanEndpoint_eq_ok started).mp ran
  obtain ⟨more, rfl, remaining⟩ := (emits_scanLoop _ _ _ _ _ _).exists_append looped
  rw [installed_append, show installed [.now] = 0 from rfl,
    Nat.zero_add, ← args.candidateCount_effective (args.center_eq_some started).2.2,
    ← length_prioritizedPorts center]
  exact installed_scanLoop_le remaining

theorem scanComplete_of_refused {args : ScanArgs} (refused : args.center = none) (index : Nat) :
    ScanComplete args index := by
  intro World env view session earlier later result _ ran _ counted _
  have unchanged : session.after env.answer (earlier ++ later) = session.after env.answer [] :=
    (blindScanEndpoint_of_refused refused ran).2.trans session.after_nil.symm
  rw [(List.append_eq_nil_iff.mp (Session.after_injective unchanged)).1] at counted
  cases counted

/-! ### A handshake after the last sample -/

theorem Shaky.records {args : ScanArgs} {world : Shaky} (shaken : world.shaken = true) :
    (world.view args).Records args second := by
  have began : unix second = 1 := by decide
  unfold PeerView.Records Shaky.view
  rw [began, shaken]
  exact ⟨Int.le_refl 1, Int.lt_succ args.baselineRx⟩

/-- A peer that shakes hands while one of the candidates is installed. -/
structure Late extends Shaky where
  installs : Nat
  deriving DecidableEq, Repr

def Late.install (endpoint : Text) (world : Late) : Late :=
  { world with endpoint := endpoint, installs := world.installs + 1 }

/-- One second after the epoch, every command succeeds and nothing is cancelled. The handshake
completes while the scan waits with the candidate of this index installed. -/
def lateEnv (args : ScanArgs) (index : Nat) : Env Late where
  answer := fun call world => match call with
    | .now => (second, world)
    | .done => (false, world)
    | .sleep _ => (false,
        { world with shaken := world.shaken || decide (world.installs = index + 1) })
    | .listPeers => (some [world.info args], world)
    | .setPeer _ config => (true,
        if config.publicKey = args.publicKey then world.install config.endpoint else world)
    | .setEndpointFast _ publicKey endpoint => (true,
        if publicKey = args.publicKey then world.install endpoint else world)
  order := fun _ keys => keys
  order_perm := fun _ keys => List.Perm.refl keys

def Late.view (args : ScanArgs) (world : Late) : PeerView := world.toShaky.view args

/-- The counters do not decrease while the handshake is kept. -/
theorem Late.view_le {args : ScanArgs} {world next : Late}
    (kept : world.shaken = true → next.shaken = true) :
    (world.view args).handshake ≤ (next.view args).handshake ∧
      (world.view args).rx ≤ (next.view args).rx := by
  unfold Late.view Shaky.view
  cases shaken : world.shaken with
  | true => simp [kept shaken]
  | false =>
    cases next.shaken with
    | true => simp
    | false => simp

theorem shaken_lateEnv (args : ScanArgs) (index : Nat) (call : Call) (world : Late)
    (shaken : world.shaken = true) : ((lateEnv args index).answer call world).2.shaken = true := by
  have installed : ∀ (condition : Prop) [Decidable condition] endpoint,
      (if condition then world.install endpoint else world).shaken = true := by
    intro condition _ endpoint
    split
    · exact shaken
    · exact shaken
  cases call with
  | now => exact shaken
  | done => exact shaken
  | sleep _ => exact Bool.or_eq_true_iff.mpr (.inl shaken)
  | listPeers => exact shaken
  | setPeer _ config => exact installed _ _
  | setEndpointFast _ publicKey _ => exact installed _ _

theorem lateEnv_keeps (args : ScanArgs) (index : Nat) :
    (lateEnv args index).Keeps args.publicKey (Late.view args) where
  handshake := fun call world => (Late.view_le (shaken_lateEnv args index call world)).1
  rx := fun call world => (Late.view_le (shaken_lateEnv args index call world)).2
  endpoint := by
    intro call world other
    cases call with
    | now => rfl
    | done => rfl
    | sleep _ => rfl
    | listPeers => rfl
    | setPeer _ config => exact congrArg (fun next => (Late.view args next).endpoint) (if_neg other)
    | setEndpointFast _ _ _ =>
      exact congrArg (fun next => (Late.view args next).endpoint) (if_neg other)
  setPeer := by
    intro site config world same _
    simp only [lateEnv, if_pos same]
    rfl
  setEndpointFast := by
    intro site endpoint world _
    simp only [lateEnv, if_true]
    rfl
  listPeers := by
    intro world peers listed
    cases listed
    exact ⟨world.info args, List.mem_singleton_self _, rfl, rfl, Int.le_refl _, Int.le_refl _,
      Int.le_refl _, Int.le_refl _⟩

theorem lateEnv_undisturbed (args : ScanArgs) (index : Nat) (world : Late) (calls : List Call) :
    AllAnswered (lateEnv args index).answer (Undisturbed (second + args.effectiveBudget)) world
      calls := by
  refine allAnswered_of_forall (fun call _ world => ?_) world
  cases call with
  | now => exact Int.le_add_of_nonneg_right args.effectiveBudget_pos.le
  | done => rfl
  | sleep _ => rfl
  | listPeers => rfl
  | setPeer _ _ => rfl
  | setEndpointFast _ _ _ => rfl

theorem replay_install_late (args : ScanArgs) (target index : Nat) (endpoint : Text)
    (world : Late) :
    replay (lateEnv args target).answer world (args.install index endpoint) =
      world.install endpoint := by
  unfold ScanArgs.install ScanArgs.command
  split
  · exact if_pos rfl
  · exact if_pos rfl

/-- A round installs its candidate, and the handshake completes at the end of the chosen one. -/
theorem replay_untilWait_late (args : ScanArgs) (target index : Nat) (endpoint : Text)
    (duration : Int) (world : Late) :
    replay (lateEnv args target).answer world
        (args.untilWait index endpoint ++ [.sleep duration]) =
      ⟨⟨endpoint, world.shaken || decide (world.installs + 1 = target + 1)⟩,
        world.installs + 1⟩ := by
  have sample : ∀ looked : Late,
      replay (lateEnv args target).answer looked (sampleCalls index) = looked := by
    intro looked
    unfold sampleCalls
    split
    · rfl
    · rfl
  rw [ScanArgs.untilWait, replay_append, replay_append, replay_append, replay_install_late, sample]
  rfl

theorem shows_late (args : ScanArgs) (target : Nat) (endpoint : Text) (world : Late) :
    (lateEnv args target).shows args second endpoint (world.install endpoint) = world.shaken :=
  lists_info args (world.install endpoint).toShaky

/-- Until the handshake, every round passes. -/
theorem scanLoop_late {args : ScanArgs} {host : Text} {target index port : Nat} {rest : List Nat}
    {session next : Session Call Late} {result : Option Text}
    (unshaken : session.world.shaken = false)
    (ran : scanLoop (lateEnv args target) args host second index (port :: rest) session =
      .ok (result, next)) :
    ∃ duration, scanLoop (lateEnv args target) args host second (index + 1) rest
      (session.after (lateEnv args target).answer
        (args.untilWait index (joinHostPort host (itoa port)) ++ [.sleep duration])) =
          .ok (result, next) := by
  rcases scanLoop_undisturbed (lateEnv_undisturbed args target) ran with
    ⟨_, shown, _⟩ | ⟨_, continued⟩
  · rw [replay_install_late, shows_late, unshaken] at shown
    cases shown
  · exact continued

/-- If no candidate is sampled after the chosen one, the loop finds nothing, and the handshake is
recorded all the same. -/
theorem scanLoop_misses {args : ScanArgs} {host : Text} {target index : Nat} {ports : List Nat}
    {session next : Session Call Late} {result : Option Text}
    (installs : session.world.installs = index) (unshaken : session.world.shaken = false)
    (reached : index ≤ target) (within : target < index + ports.length)
    (unsampled : ∀ candidate, target < candidate → candidate < index + ports.length →
      ¬ Sampled candidate)
    (ran : scanLoop (lateEnv args target) args host second index ports session =
      .ok (result, next)) :
    result = none ∧ ∃ earlier later,
      next = session.after (lateEnv args target).answer (earlier ++ later) ∧
        index + installed earlier = target + 1 ∧
        (replay (lateEnv args target).answer session.world earlier).shaken = true := by
  induction ports generalizing index session with
  | nil => exact absurd within (not_lt.mpr reached)
  | cons port rest inductionHypothesis =>
    rw [List.length_cons] at within unsampled
    obtain ⟨duration, continued⟩ := scanLoop_late unshaken ran
    have world := replay_untilWait_late args target index (joinHostPort host (itoa port)) duration
      session.world
    have counted := installed_untilWait args index (joinHostPort host (itoa port)) duration
    generalize args.untilWait index (joinHostPort host (itoa port)) ++ [.sleep duration] = round
      at continued world counted
    rw [installs, unshaken, Bool.false_or] at world
    rcases Nat.eq_or_lt_of_le reached with rfl | before
    · refine ⟨scanLoop_unsampled (fun candidate passed bound =>
        unsampled candidate passed (by omega)) continued, round, ?_⟩
      obtain ⟨more, grown, _⟩ := (emits_scanLoop _ _ _ _ _ _ _ _ _ continued).exists_after
      refine ⟨more, grown.trans (Session.after_append _ _ _).symm, by rw [counted], ?_⟩
      rw [world]
      exact decide_eq_true rfl
    · have installsNext : (session.after (lateEnv args target).answer round).world.installs =
          index + 1 := by rw [Session.after, world]
      have unshakenNext : (session.after (lateEnv args target).answer round).world.shaken =
          false := by
        rw [Session.after, world]
        exact decide_eq_false (by omega)
      obtain ⟨missed, earlier, later, ended, countedToo, shaken⟩ :=
        inductionHypothesis installsNext unshakenNext before (by omega)
          (fun candidate passed bound => unsampled candidate passed (by omega)) continued
      refine ⟨missed, round ++ earlier, later, ?_, ?_, ?_⟩
      · rw [ended, List.append_assoc, ← Session.after_append]
      · rw [installed_append, counted]
        omega
      · rwa [replay_append]

/-- A scan that misses a handshake in this world. -/
theorem blindScanEndpoint_misses {args : ScanArgs} {host : Text} {center : Int}
    (started : args.center = some (host, center)) (long : 16 ≤ args.publicKey.length)
    {target : Nat} (within : target < min args.count.toNat 65535)
    (unsampled : ∀ candidate, target < candidate → candidate < min args.count.toNat 65535 →
      candidate % 16 ≠ 0) (endpoint : Text) :
    ∃ earlier later, blindScanEndpoint (lateEnv args target) args ⟨⟨⟨endpoint, false⟩, 0⟩, []⟩ =
        .ok (none, Session.after (lateEnv args target).answer ⟨⟨⟨endpoint, false⟩, 0⟩, []⟩
          (earlier ++ later)) ∧
      installed earlier = target + 1 ∧
      ((replay (lateEnv args target).answer ⟨⟨endpoint, false⟩, 0⟩ earlier).view args).Records args
        second := by
  have length := length_prioritizedPorts center args.effectiveCount
  rw [args.candidateCount_effective (args.center_eq_some started).2.2] at length
  have unsampledToo : ∀ candidate, target < candidate →
      candidate < 0 + (prioritizedPorts center args.effectiveCount).length →
      ¬ Sampled candidate := by
    intro candidate later bound sampled
    have notSampled := unsampled candidate later (by omega)
    omega
  obtain ⟨result, next, looped⟩ := total_scanLoop (lateEnv args target) args host second 0
    (prioritizedPorts center args.effectiveCount)
    (Session.after (lateEnv args target).answer ⟨⟨⟨endpoint, false⟩, 0⟩, []⟩ [.now])
  have installs : (Session.after (lateEnv args target).answer ⟨⟨⟨endpoint, false⟩, 0⟩, []⟩
      [.now]).world.installs = 0 := rfl
  obtain ⟨rfl, earlier, later, rfl, counted, shaken⟩ :=
    scanLoop_misses installs rfl (Nat.zero_le target) (by omega) unsampledToo looped
  refine ⟨[.now] ++ earlier, later, ?_, ?_, ?_⟩
  · rw [List.append_assoc, Session.after_append]
    exact (blindScanEndpoint_eq_ok started).mpr ⟨long, looped⟩
  · rw [installed_append, ← counted]
    rfl
  · rw [replay_append]
    exact Shaky.records shaken

theorem not_scanComplete {args : ScanArgs} {host : Text} {center : Int}
    (started : args.center = some (host, center)) (long : 16 ≤ args.publicKey.length)
    {index : Nat} (within : index < min args.count.toNat 65535)
    (unsampled : ∀ candidate, index < candidate → candidate < min args.count.toNat 65535 →
      candidate % 16 ≠ 0) : ¬ ScanComplete args index := by
  intro complete
  obtain ⟨earlier, later, ran, counted, recorded⟩ :=
    blindScanEndpoint_misses started long within unsampled []
  have found := complete Late (lateEnv args index) (Late.view args) _ earlier later none
    (lateEnv_keeps args index) ran (lateEnv_undisturbed args index _ _) counted recorded
  cases found

/-- When the scan is complete: it returns unless its key is too short, and it finds every handshake
that is recorded while the candidate with this index is installed if and only if there is no such
moment, or a later candidate is sampled. -/
theorem scanComplete_iff (args : ScanArgs) (index : Nat) :
    (∀ (World : Type) (env : Env World) (session : Session Call World),
        Returns (blindScanEndpoint env args session) ↔
          args.center = none ∨ 16 ≤ args.publicKey.length) ∧
      (ScanComplete args index ↔
        args.center = none ∨ args.publicKey.length < 16 ∨ min args.count.toNat 65535 ≤ index ∨
          ∃ sample, index < sample ∧ sample < min args.count.toNat 65535 ∧ sample % 16 = 0) := by
  refine ⟨fun _ env session => returns_blindScanEndpoint env args session, ?_, ?_⟩
  · intro complete
    by_contra other
    simp only [not_or, not_exists, not_and, not_lt, not_le] at other
    obtain ⟨accepted, long, within, unsampled⟩ := other
    obtain ⟨⟨host, center⟩, started⟩ := Option.ne_none_iff_exists'.mp accepted
    exact not_scanComplete started long within unsampled complete
  · intro condition
    cases started : args.center with
    | none => exact scanComplete_of_refused started index
    | some pair =>
      obtain ⟨host, center⟩ := pair
      rcases condition with refused | short | beyond | ⟨sample, later, within, sampled⟩
      · rw [refused] at started
        cases started
      · intro World env view session earlier later result _ ran
        have long := ((blindScanEndpoint_eq_ok started).mp ran).1
        omega
      · intro World env view session earlier later result _ ran _ counted
        have few := installed_blindScanEndpoint_le started ran
        rw [installed_append] at few
        omega
      · exact scanComplete_of_sampled started (Or.inr sampled) later within

/-- The default scan, with one candidate. -/
def singleScan : ScanArgs := { defaultScan with count := 1 }

theorem prioritizedPorts_one {center : Int} (valid : ValidPort center) :
    prioritizedPorts center 1 = [center.toNat] := by
  have length := length_prioritizedPorts center 1
  obtain ⟨rest, ports⟩ := prioritizedPorts_cons valid 1
  rw [ports, List.length_cons, show candidateCount 1 = 0 + 1 from rfl] at length
  rw [ports, List.length_eq_zero_iff.mp (Nat.succ.inj length)]

/-- The default scan misses a handshake that completes while its last candidate is installed. A
scan with one candidate misses a handshake that completes after its only sample. -/
theorem defaultScan_misses :
    ¬ ScanComplete defaultScan 65534 ∧ ¬ ScanComplete singleScan 0 ∧
      ∃ next, blindScanEndpoint (lateEnv singleScan 0) singleScan ⟨⟨⟨[], false⟩, 0⟩, []⟩ =
          .ok (none, next) ∧
        next.world = ⟨⟨text "203.0.113.5:51820", true⟩, 1⟩ := by
  have startedDefault : defaultScan.center = some (text "203.0.113.5", 51820) := by
    decide +kernel
  have started : singleScan.center = some (text "203.0.113.5", 51820) := by decide +kernel
  have long : 16 ≤ defaultScan.publicKey.length := by decide
  refine ⟨?_, ?_, ?_⟩
  · refine not_scanComplete startedDefault long (by decide) fun candidate later within => ?_
    have bound : candidate < 65535 := within
    omega
  · refine not_scanComplete started long (by decide) fun candidate later within => ?_
    have bound : candidate < 1 := within
    omega
  · have looped : ((scanLoop (lateEnv singleScan 0) singleScan (text "203.0.113.5") second 0 [51820]
        ⟨⟨⟨[], false⟩, 0⟩, [.now]⟩).toOption.map fun pair => (pair.1, pair.2.world)) =
          some (none, ⟨⟨text "203.0.113.5:51820", true⟩, 1⟩) := by decide +kernel
    obtain ⟨⟨result, next⟩, ran, same⟩ := Option.map_eq_some_iff.mp looped
    obtain ⟨rfl, world⟩ := Prod.mk.inj same
    refine ⟨next, (blindScanEndpoint_eq_ok started).mpr ⟨long, ?_⟩, world⟩
    rw [show singleScan.effectiveCount = 1 from rfl, prioritizedPorts_one (by decide)]
    exact toOption_eq_some ran

end WgMesh.Meshd
