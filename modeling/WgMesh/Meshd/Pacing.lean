/-
This file proves that the blind scan keeps to its rate and its budget, on any clock
that does not run backwards and with timers that do not fire early.

A candidate that is refused costs no wait but still counts for the time of the
next one, since the wait is until the candidate's index is due. So the number of
candidates installed is never more than the index, and the time has come at least
as far as that number asks.
-/

import WgMesh.Meshd.Soundness

namespace WgMesh.Meshd

open Go Uapi

variable {World : Type}

/-- The world has a clock that never goes back. `time.Now` reads it, and a timer that is not
cancelled fires no earlier than asked. -/
structure Env.Clocked (env : Env World) (clock : World → Int) : Prop where
  forward : ∀ call world, clock world ≤ clock (env.answer call world).2
  now_ge : ∀ world, clock world ≤ (env.answer .now world).1
  now_le : ∀ world, (env.answer .now world).1 ≤ clock (env.answer .now world).2
  sleep : ∀ duration world, (env.answer (.sleep duration) world).1 = false →
    clock world + duration ≤ clock (env.answer (.sleep duration) world).2

/-- The number of commands that succeed among some calls. -/
def Env.successes (env : Env World) : World → List Call → Nat
  | _, [] => 0
  | world, call :: rest =>
    (if env.succeeds call world then 1 else 0) + env.successes (env.answer call world).2 rest

/-- A scan that has made these calls has kept to its rate and to its budget. -/
structure KeepsPace (env : Env World) (clock : World → Int) (args : ScanArgs) (scanStarted : Int)
    (world : World) (calls : List Call) : Prop where
  /-- The command that is the `m`-th to succeed is not issued before `m - 1` are due. -/
  rate : ∀ earlier command later (m : Nat), calls = earlier ++ command :: later →
    env.succeeds command (replay env.answer world earlier) = true →
    env.successes world (earlier ++ [command]) = m →
      scanStarted + ((m - 1 : Int) * second) / args.effectiveRate ≤
        clock (replay env.answer world earlier)
  /-- A command is issued in a round that has read the clock before the deadline. -/
  budget : ∀ earlier command later, calls = earlier ++ command :: later →
    command.isCommand = true →
      ∃ before, earlier = before ++ [.now, .done] ∧
        (env.answer .now (replay env.answer world before)).1 ≤ scanStarted + args.effectiveBudget

/-! ### Commands among calls -/

/-- What holds of the calls before each command. -/
def EachIssued (Holds : List Call → Prop) (calls : List Call) : Prop :=
  ∀ earlier command later, calls = earlier ++ command :: later → command.isCommand = true →
    Holds earlier

theorem EachIssued.append {Holds : List Call → Prop} {first second : List Call}
    (inFirst : EachIssued Holds first)
    (inSecond : EachIssued (fun earlier => Holds (first ++ earlier)) second) :
    EachIssued Holds (first ++ second) := by
  intro earlier command later split isCommand
  rcases List.append_eq_append_iff.mp split with ⟨rest, rfl, same⟩ | ⟨rest, rfl, same⟩
  · exact inSecond rest command later same isCommand
  · cases rest with
    | nil =>
      have reached := inSecond [] command later same.symm isCommand
      rwa [List.append_nil, List.append_nil] at reached
    | cons other rest =>
      cases same
      exact inFirst earlier command rest rfl isCommand

theorem eachIssued_of_none {Holds : List Call → Prop} {calls : List Call}
    (none : ∀ call ∈ calls, call.isCommand = false) : EachIssued Holds calls := by
  rintro earlier command later rfl isCommand
  have other := none command (List.mem_append_right _ List.mem_cons_self)
  rw [isCommand] at other
  cases other

theorem eachIssued_singleton {Holds : List Call → Prop} {command : Call} (holds : Holds []) :
    EachIssued Holds [command] := by
  intro earlier other later split _
  cases earlier with
  | nil => exact holds
  | cons first rest =>
    rw [List.cons_append, List.cons.injEq] at split
    exact absurd split.2.symm (List.append_ne_nil_of_right_ne_nil _ (List.cons_ne_nil _ _))

/-- A round issues its command after it has read the clock and looked whether it is cancelled. -/
theorem eachIssued_install {Holds : List Call → Prop} (args : ScanArgs) (index : Nat)
    (endpoint : Text) {more : List Call} (holds : Holds [.now, .done])
    (none : ∀ call ∈ more, call.isCommand = false) :
    EachIssued Holds (args.install index endpoint ++ more) := by
  have command : EachIssued (fun earlier => Holds ([.now, .done] ++ earlier))
      ([args.command index endpoint] ++ more) :=
    (eachIssued_singleton holds).append (eachIssued_of_none none)
  have polled : EachIssued Holds [.now, .done] := eachIssued_of_none (by decide)
  exact polled.append command

theorem isCommand_of_succeeds {env : Env World} {call : Call} {world : World}
    (succeeded : env.succeeds call world = true) : call.isCommand = true := by
  cases call with
  | setPeer site config => rfl
  | setEndpointFast site publicKey endpoint => rfl
  | now => cases succeeded
  | done => cases succeeded
  | sleep duration => cases succeeded
  | listPeers => cases succeeded

section Counting

variable (env : Env World)

theorem Env.successes_append (world : World) (first second : List Call) :
    env.successes world (first ++ second) =
      env.successes world first + env.successes (replay env.answer world first) second := by
  induction first generalizing world with
  | nil => exact (Nat.zero_add _).symm
  | cons call rest inductionHypothesis =>
    rw [List.cons_append, Env.successes, Env.successes, inductionHypothesis, Nat.add_assoc]
    rfl

theorem Env.successes_eq_zero (world : World) {calls : List Call}
    (none : ∀ call ∈ calls, call.isCommand = false) : env.successes world calls = 0 := by
  induction calls generalizing world with
  | nil => rfl
  | cons call rest inductionHypothesis =>
    obtain ⟨first, others⟩ := List.forall_mem_cons.mp none
    have fails : env.succeeds call world = false :=
      Bool.eq_false_iff.mpr fun succeeded =>
        Bool.eq_false_iff.mp first (isCommand_of_succeeds succeeded)
    rw [Env.successes, fails, inductionHypothesis _ others]
    rfl

/-- A round installs its candidate or does not. -/
theorem Env.successes_install (args : ScanArgs) (index : Nat) (endpoint : Text) (world : World)
    {more : List Call} (none : ∀ call ∈ more, call.isCommand = false) :
    env.successes world (args.install index endpoint ++ more) =
      if env.succeeds (args.command index endpoint) (replay env.answer world [.now, .done])
        then 1 else 0 := by
  rw [Env.successes_append, env.successes_eq_zero _ none, Nat.add_zero]
  exact (Nat.zero_add _).trans (Nat.zero_add _)

end Counting

/-! ### Time -/

theorem ScanArgs.effectiveRate_pos (args : ScanArgs) : 0 < args.effectiveRate := by
  unfold ScanArgs.effectiveRate
  split
  · decide
  · omega

/-- The time when some number of candidates has been due. -/
def ScanArgs.due (args : ScanArgs) (scanStarted : Int) (count : Nat) : Int :=
  scanStarted + (count * second) / args.effectiveRate

theorem ScanArgs.due_mono (args : ScanArgs) (scanStarted : Int) {first second : Nat}
    (ordered : first ≤ second) : args.due scanStarted first ≤ args.due scanStarted second := by
  refine Int.add_le_add_left (Int.ediv_le_ediv args.effectiveRate_pos ?_) scanStarted
  exact Int.mul_le_mul_of_nonneg_right (Int.ofNat_le.mpr ordered) (by decide)

section Time

variable {env : Env World} {clock : World → Int} {args : ScanArgs} {scanStarted : Int}
  {index : Nat} {endpoint : Text} {world : World} {calls : List Call}
  {outcome : Option (Option Text)}

theorem Env.Clocked.replay (clocked : env.Clocked clock) (world : World) (calls : List Call) :
    clock world ≤ clock (replay env.answer world calls) := by
  induction calls generalizing world with
  | nil => exact Int.le_refl _
  | cons call rest inductionHypothesis =>
    exact (clocked.forward call world).trans (inductionHypothesis _)

/-- After a wait that was not cancelled, the time of the candidate is over. -/
theorem Env.Clocked.due_of_waited (clocked : env.Clocked clock) {duration : Int}
    (waited : duration = args.wait scanStarted index (env.answer .now world).1)
    (going : (env.answer (.sleep duration) (env.answer .now world).2).1 = false) :
    args.due scanStarted (index + 1) ≤
      clock (env.answer (.sleep duration) (env.answer .now world).2).2 := by
  have reading := clocked.now_le world
  have slept := clocked.sleep duration _ going
  have target : ((index + 1 : Int) * second).tdiv args.effectiveRate =
      (index + 1 : Int) * second / args.effectiveRate :=
    Int.tdiv_eq_ediv_of_nonneg (by positivity)
  have enough : (index + 1 : Int) * second / args.effectiveRate -
      ((env.answer .now world).1 - scanStarted) ≤ duration := by
    rw [waited, ScanArgs.wait, target]
    exact Int.le_max_right _ _
  calc args.due scanStarted (index + 1)
      = scanStarted + (index + 1 : Int) * second / args.effectiveRate := by
        rw [ScanArgs.due, Nat.cast_succ]
    _ ≤ (env.answer .now world).1 + duration := by omega
    _ ≤ clock (env.answer .now world).2 + duration := Int.add_le_add_right reading duration
    _ ≤ clock (env.answer (.sleep duration) (env.answer .now world).2).2 := slept

/-- What is known when a round begins: not more candidates have been installed than tried, and
their time is over. -/
structure OnSchedule (clock : World → Int) (args : ScanArgs) (scanStarted : Int)
    (index count : Nat) (world : World) : Prop where
  counted : count ≤ index
  due : args.due scanStarted count ≤ clock world

/-- What is known when a command is issued after some calls. -/
structure Issue (env : Env World) (clock : World → Int) (args : ScanArgs) (scanStarted : Int)
    (count : Nat) (world : World) (earlier : List Call) : Prop where
  due : args.due scanStarted (count + env.successes world earlier) ≤
    clock (replay env.answer world earlier)
  inTime : ∃ before, earlier = before ++ [.now, .done] ∧
    (env.answer .now (replay env.answer world before)).1 ≤ scanStarted + args.effectiveBudget

/-- An issue in a later round is one in the whole run. -/
theorem Issue.shift {count : Nat} {first earlier : List Call}
    (issue : Issue env clock args scanStarted (count + env.successes world first)
      (Go.replay env.answer world first) earlier) :
    Issue env clock args scanStarted count world (first ++ earlier) := by
  refine ⟨?_, ?_⟩
  · rw [env.successes_append, replay_append, ← Nat.add_assoc]
    exact issue.due
  · obtain ⟨before, rfl, early⟩ := issue.inTime
    refine ⟨first ++ before, (List.append_assoc _ _ _).symm, ?_⟩
    rwa [replay_append]

theorem isCommand_sampleCalls (index : Nat) :
    ∀ call ∈ sampleCalls index, call.isCommand = false := by
  unfold sampleCalls
  split
  · decide
  · decide

theorem ScanArgs.untilWait_eq (args : ScanArgs) (index : Nat) (endpoint : Text) (duration : Int) :
    args.untilWait index endpoint ++ [.sleep duration] =
      args.install index endpoint ++ (sampleCalls index ++ [.now, .sleep duration]) := by
  simp [ScanArgs.untilWait]

theorem isCommand_afterInstall (index : Nat) (duration : Int) :
    ∀ call ∈ sampleCalls index ++ [.now, .sleep duration], call.isCommand = false := by
  refine List.forall_mem_append.mpr ⟨isCommand_sampleCalls index, ?_⟩
  simp [Call.isCommand]

/-- A round issues its command on schedule and in time. -/
theorem ScanRound.eachIssued (clocked : env.Clocked clock) {count : Nat}
    (schedule : OnSchedule clock args scanStarted index count world)
    (round : ScanRound env args scanStarted index endpoint world calls outcome)
    (timing : RoundTiming env args scanStarted index endpoint world calls outcome) :
    EachIssued (Issue env clock args scanStarted count world) calls := by
  have issue : calls ≠ [.now] → Issue env clock args scanStarted count world [.now, .done] :=
    fun more => ⟨schedule.due.trans (clocked.replay world _), [], rfl, timing.inTime more⟩
  have installed : ∀ {more : List Call}, calls = args.install index endpoint ++ more →
      (∀ call ∈ more, call.isCommand = false) →
        EachIssued (Issue env clock args scanStarted count world) calls := by
    rintro more rfl none
    exact eachIssued_install args index endpoint (issue (by simp [ScanArgs.install])) none
  cases round with
  | timedOut late => exact eachIssued_of_none (by decide)
  | cancelled closed => exact eachIssued_of_none (by decide)
  | refused failed => exact installed (List.append_nil _).symm (List.forall_mem_nil _)
  | found succeeded sampled shown => exact installed rfl (by decide)
  | stopped duration closed =>
    exact installed (args.untilWait_eq index endpoint duration) (isCommand_afterInstall _ _)
  | passed duration succeeded unshown =>
    exact installed (args.untilWait_eq index endpoint duration) (isCommand_afterInstall _ _)

/-- A round that the scan goes on after leaves it on schedule. -/
theorem ScanRound.onSchedule (clocked : env.Clocked clock) {count : Nat}
    (schedule : OnSchedule clock args scanStarted index count world)
    (round : ScanRound env args scanStarted index endpoint world calls none)
    (timing : RoundTiming env args scanStarted index endpoint world calls none) :
    OnSchedule clock args scanStarted (index + 1) (count + env.successes world calls)
      (Go.replay env.answer world calls) := by
  cases round with
  | refused failed =>
    have none : env.successes world (args.install index endpoint) = 0 := by
      rw [← List.append_nil (args.install index endpoint),
        env.successes_install args index endpoint world (by decide), failed]
      rfl
    rw [none]
    exact ⟨Nat.le_succ_of_le schedule.counted, schedule.due.trans (clocked.replay world _)⟩
  | passed duration succeeded unshown =>
    obtain ⟨waited, going⟩ := timing.waits duration rfl
    have one : env.successes world (args.untilWait index endpoint ++ [.sleep duration]) = 1 := by
      rw [ScanArgs.untilWait_eq, env.successes_install args index endpoint world
        (isCommand_afterInstall _ _), succeeded]
      rfl
    rw [one]
    refine ⟨Nat.succ_le_succ schedule.counted, ?_⟩
    refine (args.due_mono scanStarted (Nat.succ_le_succ schedule.counted)).trans ?_
    rw [ScanArgs.untilWait, replay_append] at going
    rw [replay_append, ScanArgs.untilWait, replay_append]
    exact clocked.due_of_waited waited (going rfl)

end Time

/-! ### The whole scan -/

/-- All commands of the loop are issued on schedule and in time. -/
theorem scanLoop_eachIssued {env : Env World} {clock : World → Int} (clocked : env.Clocked clock)
    {args : ScanArgs} {host : Text} {scanStarted : Int} {ports : List Nat} {index count : Nat}
    {session next : Session Call World} {result : Option Text}
    (schedule : OnSchedule clock args scanStarted index count session.world)
    (ran : scanLoop env args host scanStarted index ports session = .ok (result, next)) :
    ∃ calls, next = session.after env.answer calls ∧
      EachIssued (Issue env clock args scanStarted count session.world) calls := by
  induction ports generalizing index count session with
  | nil =>
    obtain ⟨_, rfl⟩ := proc_pure_eq_ok.mp ran
    exact ⟨[], (Session.after_nil _).symm, eachIssued_of_none (by decide)⟩
  | cons port rest inductionHypothesis =>
    rcases scanLoop_timed ran with ⟨calls, round, timing, ended⟩ | ⟨calls, round, timing, continued⟩
    · exact ⟨calls, ended, round.eachIssued clocked schedule timing⟩
    · obtain ⟨more, reached, issued⟩ :=
        inductionHypothesis (round.onSchedule clocked schedule timing) continued
      refine ⟨calls ++ more, reached.trans (session.after_append _ _).symm, ?_⟩
      refine (round.eachIssued clocked schedule timing).append ?_
      exact fun earlier command later split isCommand =>
        (issued earlier command later split isCommand).shift

/-- The reading that starts the scan comes before the calls of the loop. -/
theorem keepsPace_of_eachIssued {env : Env World} {clock : World → Int} {args : ScanArgs}
    {scanStarted : Int} {world : World} {calls : List Call}
    (issued : EachIssued (Issue env clock args scanStarted 0 (replay env.answer world [.now]))
      calls) :
    KeepsPace env clock args scanStarted world (.now :: calls) := by
  have whole : EachIssued (Issue env clock args scanStarted 0 world) ([.now] ++ calls) := by
    have first : EachIssued (Issue env clock args scanStarted 0 world) [.now] :=
      eachIssued_of_none (by decide)
    exact first.append fun earlier command later split isCommand =>
      Issue.shift (issued earlier command later split isCommand)
  refine ⟨fun earlier command later m split succeeded counted => ?_, ?_⟩
  · have issue := whole earlier command later split (isCommand_of_succeeds succeeded)
    have last : env.successes (replay env.answer world earlier) [command] = 1 := by
      rw [Env.successes, succeeded]
      rfl
    rw [env.successes_append, last] at counted
    have due := issue.due
    rw [Nat.zero_add, ScanArgs.due] at due
    rw [← counted, Nat.cast_add, Nat.cast_one, add_sub_cancel_right]
    exact due
  · exact fun earlier command later split isCommand =>
      (whole earlier command later split isCommand).inTime

theorem pacing_product_lt {args : ScanArgs} {host : Text} {center : Int}
    (started : args.center = some (host, center)) {index : Nat}
    (candidate : index < (prioritizedPorts center args.effectiveCount).length) :
    (index + 1 : Int) * second < 2 ^ 63 := by
  rw [length_prioritizedPorts,
    ScanArgs.candidateCount_effective (ScanArgs.center_eq_some started).2.2] at candidate
  have bound : (index : Int) + 1 ≤ 65535 := by omega
  calc (index + 1 : Int) * second
    _ ≤ 65535 * second := Int.mul_le_mul_of_nonneg_right bound (by decide)
    _ < 2 ^ 63 := by decide

/-- The blind scan keeps to its rate and its budget, whatever its arguments are and whatever the
commands return, on every clock that does not run backwards: the `m`-th update that succeeds is
issued no earlier than `m - 1` times the interval of the rate after the start, no update is issued
in a round that begins after the deadline, and the product that the wait is computed from is within
64 bits at every candidate. -/
theorem blindScanEndpoint_keepsPace {env : Env World} {clock : World → Int}
    (clocked : env.Clocked clock) (args : ScanArgs) {session next : Session Call World}
    {result : Option Text} (ran : blindScanEndpoint env args session = .ok (result, next)) :
    (∃ calls, next = session.after env.answer calls ∧
      KeepsPace env clock args (env.answer .now session.world).1 session.world calls) ∧
    ∀ host center, args.center = some (host, center) →
      ∀ index < (prioritizedPorts center args.effectiveCount).length,
        (index + 1 : Int) * second < 2 ^ 63 := by
  refine ⟨?_, fun host center started index candidate => pacing_product_lt started candidate⟩
  cases started : args.center with
  | none =>
    obtain ⟨_, rfl⟩ := blindScanEndpoint_of_refused started ran
    refine ⟨[], (Session.after_nil _).symm, ?_, ?_⟩
    · intro earlier command later m split
      exact absurd split.symm (List.append_ne_nil_of_right_ne_nil _ (List.cons_ne_nil _ _))
    · intro earlier command later split
      exact absurd split.symm (List.append_ne_nil_of_right_ne_nil _ (List.cons_ne_nil _ _))
  | some pair =>
    obtain ⟨host, center⟩ := pair
    obtain ⟨_, looped⟩ := (blindScanEndpoint_eq_ok started).mp ran
    have schedule : OnSchedule clock args (env.answer .now session.world).1 0 0
        (session.after env.answer [.now]).world := by
      refine ⟨Nat.le_refl 0, ?_⟩
      rw [ScanArgs.due, Nat.cast_zero, zero_mul, Int.zero_ediv, add_zero]
      exact clocked.now_le session.world
    obtain ⟨calls, reached, issued⟩ := scanLoop_eachIssued clocked schedule looped
    refine ⟨.now :: calls, reached.trans (session.after_append [.now] calls).symm, ?_⟩
    exact keepsPace_of_eachIssued issued

/-- A world that is a clock. Timers fire on time, every fourth nanosecond a command fails, and no
peer is ever listed. -/
def timerEnv : Env Int where
  answer := fun call clock => match call with
    | .now => (clock, clock)
    | .done => (false, clock)
    | .sleep duration => (false, clock + max 0 duration)
    | .listPeers => (some [], clock)
    | .setPeer _ _ => (true, clock + 1)
    | .setEndpointFast _ _ _ => (decide (clock % 4 ≠ 0), clock + 1)
  order := fun _ keys => keys
  order_perm := fun _ keys => List.Perm.refl keys

theorem timerEnv_clocked : timerEnv.Clocked id where
  forward call clock := by
    cases call with
    | sleep duration => exact Int.le_add_of_nonneg_right (Int.le_max_left 0 duration)
    | setPeer site config => exact Int.le_add_of_nonneg_right (by decide)
    | setEndpointFast site publicKey endpoint => exact Int.le_add_of_nonneg_right (by decide)
    | now => exact Int.le_refl clock
    | done => exact Int.le_refl clock
    | listPeers => exact Int.le_refl clock
  now_ge clock := Int.le_refl clock
  now_le clock := Int.le_refl clock
  sleep duration clock _ := Int.add_le_add_left (Int.le_max_right 0 duration) clock

/-- The default scan, with commands that fail now and then. -/
theorem blindScanEndpoint_keepsPace_default :
    ∃ result next, blindScanEndpoint timerEnv defaultScan ⟨0, []⟩ = .ok (result, next) ∧
      ∃ calls, next = Session.after timerEnv.answer ⟨0, []⟩ calls ∧
        KeepsPace timerEnv id defaultScan 0 0 calls := by
  obtain ⟨⟨result, next⟩, ran⟩ :=
    (returns_blindScanEndpoint timerEnv defaultScan ⟨0, []⟩).mpr (.inr (by decide))
  exact ⟨result, next, ran, (blindScanEndpoint_keepsPace timerEnv_clocked defaultScan ran).1⟩

end WgMesh.Meshd
