/-
This file settles how a punch plan is executed in time, on a clock that does not
go back and with timers that do not fire early.

The process waits for the start of the plan, short of it by 25 ms at first and
then to the end, and takes a baseline. Then it sets one candidate after the other
and polls the listing for a window after each that could be set. So it ends, no
command comes before the start, a candidate that was set is kept for its window,
and all candidates are tried in their order unless a handshake is seen.

A wait of more than the longest duration is cut down to it, so a plan whose start
is far ahead takes more turns of the first loop, and how many depends on it.
-/

import WgMesh.Meshd.Attempts
import WgMesh.Meshd.Punch

namespace WgMesh.Meshd

open Go Uapi Dht

variable {World : Type}

/-- Nothing cancels a sleep, as for `time.Sleep`. -/
def Env.Uncancelled (env : Env World) : Prop :=
  ∀ duration world, (env.answer (.sleep duration) world).1 = false

/-- How long a call has to take. -/
def Call.duration : Call → Int
  | .sleep duration => max 0 duration
  | _ => 0

/-- No call takes longer than it has to by more than this. -/
def Env.Prompt (env : Env World) (clock : World → Int) (late : Int) : Prop :=
  ∀ call world, clock (env.answer call world).2 ≤ clock world + call.duration + late

/-! ### Waiting for the start -/

/-- How long the loop sleeps when this much time remains. -/
def startPause (remaining : Int) : Int :=
  if 50 * millisecond < remaining then remaining - 25 * millisecond else remaining

/-- The time until the start that so many turns after the next can bridge. -/
def waitBound : Nat → Int
  | 0 => 0
  | turns + 1 => turns * (2 ^ 63 - 1 - 25 * millisecond) + 50 * millisecond

theorem exists_waitBound (remaining : Int) : ∃ turns, remaining ≤ waitBound turns := by
  refine ⟨remaining.toNat + 1, ?_⟩
  have bridged : (remaining.toNat : Int) * 1 ≤
      remaining.toNat * (2 ^ 63 - 1 - 25 * millisecond) :=
    Int.mul_le_mul_of_nonneg_left (by decide) (by omega)
  simp only [waitBound, millisecond] at bridged ⊢
  omega

/-- Every sleep brings the start closer. -/
theorem wait_shrinks {start now later : Int} {turns : Nat}
    (near : start - now ≤ waitBound (turns + 1)) (ahead : 0 < timeUntil start now)
    (slept : now + startPause (timeUntil start now) ≤ later) :
    start - later ≤ waitBound turns := by
  have bounded : timeUntil start now = min (2 ^ 63 - 1) (start - now) := by
    unfold timeUntil at ahead ⊢
    omega
  rw [bounded] at ahead slept
  cases turns with
  | zero =>
    simp only [waitBound, startPause, millisecond] at near slept ⊢
    split at slept <;> omega
  | succ turns =>
    simp only [waitBound, startPause, millisecond] at near slept ⊢
    rw [Nat.cast_succ, add_mul, one_mul] at near
    have positive : 0 ≤ (turns : Int) * (2 ^ 63 - 1 - 25 * 1000000) :=
      Int.mul_nonneg (Int.natCast_nonneg turns) (by decide)
    generalize (turns : Int) * (2 ^ 63 - 1 - 25 * 1000000) = bridged at near positive ⊢
    split at slept <;> omega

theorem startPause_le {start now : Int} (ahead : 0 < timeUntil start now) :
    max 0 (startPause (timeUntil start now)) ≤ start - now := by
  have bounded : timeUntil start now ≤ start - now := by
    unfold timeUntil at ahead ⊢
    omega
  simp only [startPause, millisecond]
  split <;> omega

/-- What a process has done when the start of its plan has come. -/
structure Awaited (env : Env World) (clock : World → Int) (start : Int) (world : World)
    (calls : List Call) : Prop where
  silent : ∀ call ∈ calls, call.isCommand = false
  started : start ≤ clock (replay env.answer world calls)
  prompt : ∀ late, env.Prompt clock late →
    clock (replay env.answer world calls) ≤ max (clock world) (start + 2 * late) + late

section

variable {env : Env World} {clock : World → Int} {start : Int} {world : World}

theorem Awaited.now (clocked : env.Clocked clock)
    (come : timeUntil start (env.answer .now world).1 ≤ 0) :
    Awaited env clock start world [.now] where
  silent := by simp [Call.isCommand]
  started := by
    have past : start ≤ (env.answer .now world).1 := by
      unfold timeUntil at come
      omega
    exact past.trans (clocked.now_le world)
  prompt late prompt := by
    have read : clock (env.answer .now world).2 ≤ clock world + 0 + late := prompt .now world
    rw [add_zero] at read
    exact read.trans (add_le_add_left (le_max_left _ _) _)

theorem Awaited.sleep (clocked : env.Clocked clock) {calls : List Call}
    (ahead : 0 < timeUntil start (env.answer .now world).1)
    (awaited : Awaited env clock start (replay env.answer world
      [.now, .sleep (startPause (timeUntil start (env.answer .now world).1))]) calls) :
    Awaited env clock start world
      ([.now, .sleep (startPause (timeUntil start (env.answer .now world).1))] ++ calls) where
  silent := by
    intro call member
    rcases List.mem_append.mp member with first | later
    · rcases List.mem_pair.mp first with rfl | rfl <;> rfl
    · exact awaited.silent call later
  started := by
    rw [replay_append]
    exact awaited.started
  prompt late prompt := by
    rw [replay_append]
    refine (awaited.prompt late prompt).trans (add_le_add_left (max_le ?_ (le_max_right _ _)) _)
    refine le_trans ?_ (le_max_right _ _)
    -- The clock is read late and the timer fires late, both from the reading on.
    have read : clock (env.answer .now world).2 ≤ clock world + 0 + late := prompt .now world
    have slept := prompt (.sleep (startPause (timeUntil start (env.answer .now world).1)))
      (env.answer .now world).2
    rw [Call.duration] at slept
    have bound := startPause_le ahead
    have before : clock world ≤ (env.answer .now world).1 := clocked.now_ge world
    exact le_trans slept (by linarith)

/-- A process goes on with the answer to its call. -/
theorem Env.call_bind {Value : Type} (env : Env World) (call : Call)
    (rest : Reply call → Process World Value) (session : Session Call World) :
    (env.call call >>= rest) session =
      rest (env.answer call session.world).1 (session.after env.answer [call]) :=
  proc_bind_of_ok (perform_eq_after.mpr ⟨rfl, rfl⟩)

theorem awaitStart_of_come (rounds : Nat) {session : Session Call World}
    (come : timeUntil start (env.answer .now session.world).1 ≤ 0) :
    awaitStart env start (rounds + 1) session = .ok (.met, session.after env.answer [.now]) := by
  rw [awaitStart, Env.call_bind, if_pos come]
  rfl

theorem awaitStart_of_ahead (rounds : Nat) {session : Session Call World}
    (ahead : 0 < timeUntil start (env.answer .now session.world).1) :
    awaitStart env start (rounds + 1) session =
      awaitStart env start rounds (session.after env.answer
        [.now, .sleep (startPause (timeUntil start (env.answer .now session.world).1))]) := by
  rw [awaitStart, Env.call_bind, if_neg (not_le.mpr ahead), Env.call_bind, ← Session.after_append]
  rfl

/-- The loop ends once the start has come, after enough rounds. -/
theorem awaitStart_settles (clocked : env.Clocked clock) (uncancelled : env.Uncancelled)
    (turns : Nat) (session : Session Call World)
    (near : start - clock session.world ≤ waitBound turns) :
    ∃ calls, Awaited env clock start session.world calls ∧ ∀ rounds, turns < rounds →
      awaitStart env start rounds session = .ok (.met, session.after env.answer calls) := by
  induction turns generalizing session with
  | zero =>
    have before : clock session.world ≤ (env.answer .now session.world).1 := clocked.now_ge _
    have come : timeUntil start (env.answer .now session.world).1 ≤ 0 := by
      unfold timeUntil
      rw [waitBound] at near
      omega
    refine ⟨[.now], .now clocked come, fun rounds enough => ?_⟩
    obtain ⟨rounds, rfl⟩ := Nat.exists_eq_succ_of_ne_zero (Nat.ne_zero_of_lt enough)
    exact awaitStart_of_come rounds come
  | succ turns inductionHypothesis =>
    by_cases come : timeUntil start (env.answer .now session.world).1 ≤ 0
    · refine ⟨[.now], .now clocked come, fun rounds enough => ?_⟩
      obtain ⟨rounds, rfl⟩ := Nat.exists_eq_succ_of_ne_zero (Nat.ne_zero_of_lt enough)
      exact awaitStart_of_come rounds come
    · have ahead := not_le.mp come
      have before : clock session.world ≤ (env.answer .now session.world).1 := clocked.now_ge _
      have after := clocked.now_le session.world
      have slept := clocked.sleep
        (startPause (timeUntil start (env.answer .now session.world).1))
        (env.answer .now session.world).2 (uncancelled _ _)
      have closer := wait_shrinks (by linarith) ahead (le_trans (by linarith) slept)
      obtain ⟨calls, awaited, settled⟩ := inductionHypothesis (session.after env.answer
        [.now, .sleep (startPause (timeUntil start (env.answer .now session.world).1))]) closer
      refine ⟨_, awaited.sleep clocked ahead, fun rounds enough => ?_⟩
      obtain ⟨rounds, rfl⟩ := Nat.exists_eq_succ_of_ne_zero (Nat.ne_zero_of_lt enough)
      rw [awaitStart_of_ahead rounds ahead, Session.after_append]
      exact settled rounds (Nat.lt_of_succ_lt_succ enough)

/-! ### Polling for a handshake -/

/-- What a process has done when it stops polling for one candidate. -/
structure Polled (env : Env World) (clock : World → Int) (found : PeerInfo → Bool)
    (deadline : Int) (world : World) (calls : List Call) (waited : Waited) : Prop where
  silent : ∀ call ∈ calls, call.isCommand = false
  ended : waited = .met ∨ waited = .over
  expired : waited = .over → deadline ≤ clock (replay env.answer world calls)
  met : waited = .met → ∃ earlier, calls = earlier ++ [.listPeers] ∧
    lists found (env.answer .listPeers (replay env.answer world earlier)).1 = true

variable {found : PeerInfo → Bool} {deadline : Int}

theorem Polled.late (clocked : env.Clocked clock)
    (late : ¬ (env.answer .now world).1 < deadline) :
    Polled env clock found deadline world [.now] .over where
  silent := by simp [Call.isCommand]
  ended := Or.inr rfl
  expired _ := (not_lt.mp late).trans (clocked.now_le world)
  met := by
    intro met
    cases met

theorem Polled.listed
    (listed : lists found (env.answer .listPeers (env.answer .now world).2).1 = true) :
    Polled env clock found deadline world [.now, .listPeers] .met where
  silent := by simp [Call.isCommand]
  ended := Or.inl rfl
  expired := by
    intro expired
    cases expired
  met _ := ⟨[.now], rfl, listed⟩

theorem Polled.sleep {duration : Int} {calls : List Call} {waited : Waited}
    (polled : Polled env clock found deadline
      (replay env.answer world [Call.now, .listPeers, .sleep duration]) calls waited) :
    Polled env clock found deadline world ([Call.now, .listPeers, .sleep duration] ++ calls)
      waited where
  silent := by
    rw [List.forall_mem_append]
    exact ⟨by simp [Call.isCommand], polled.silent⟩
  ended := polled.ended
  expired expired := by
    rw [replay_append]
    exact polled.expired expired
  met met := by
    obtain ⟨earlier, rfl, listed⟩ := polled.met met
    refine ⟨[Call.now, .listPeers, .sleep duration] ++ earlier, (List.append_assoc _ _ _).symm, ?_⟩
    rw [replay_append]
    exact listed

theorem pollWindow_of_late (rounds : Nat) {session : Session Call World}
    (late : ¬ (env.answer .now session.world).1 < deadline) :
    pollWindow env found deadline (rounds + 1) session =
      .ok (.over, session.after env.answer [.now]) := by
  rw [pollWindow, Env.call_bind, if_neg late]
  rfl

theorem pollWindow_of_early (rounds : Nat) {session : Session Call World}
    (early : (env.answer .now session.world).1 < deadline) :
    pollWindow env found deadline (rounds + 1) session =
      if lists found (env.answer .listPeers (env.answer .now session.world).2).1 then
        .ok (.met, session.after env.answer [.now, .listPeers])
      else pollWindow env found deadline rounds
        (session.after env.answer [.now, .listPeers, .sleep (50 * millisecond)]) := by
  rw [pollWindow, Env.call_bind, if_pos early, Env.call_bind, ← Session.after_append]
  show (if lists found (env.answer .listPeers (env.answer .now session.world).2).1 then _
    else _ : Process World Waited) _ = _
  split
  · rfl
  · rw [Env.call_bind, ← Session.after_append]
    rfl

/-- The loop ends with the window or with a handshake, after enough rounds. -/
theorem pollWindow_settles (clocked : env.Clocked clock) (uncancelled : env.Uncancelled)
    (found : PeerInfo → Bool) (deadline : Int) (polls : Nat) (session : Session Call World)
    (near : deadline - clock session.world ≤ polls * (50 * millisecond)) :
    ∃ calls waited, Polled env clock found deadline session.world calls waited ∧
      ∀ rounds, polls < rounds → pollWindow env found deadline rounds session =
        .ok (waited, session.after env.answer calls) := by
  induction polls generalizing session with
  | zero =>
    have before : clock session.world ≤ (env.answer .now session.world).1 := clocked.now_ge _
    have late : ¬ (env.answer .now session.world).1 < deadline := by
      refine not_lt.mpr (le_trans ?_ before)
      simpa using near
    refine ⟨_, .over, .late clocked late, fun rounds enough => ?_⟩
    obtain ⟨rounds, rfl⟩ := Nat.exists_eq_succ_of_ne_zero (Nat.ne_zero_of_lt enough)
    exact pollWindow_of_late rounds late
  | succ polls inductionHypothesis =>
    by_cases late : ¬ (env.answer .now session.world).1 < deadline
    · refine ⟨_, .over, .late clocked late, fun rounds enough => ?_⟩
      obtain ⟨rounds, rfl⟩ := Nat.exists_eq_succ_of_ne_zero (Nat.ne_zero_of_lt enough)
      exact pollWindow_of_late rounds late
    · have early := not_not.mp late
      by_cases listed : lists found
          (env.answer .listPeers (env.answer .now session.world).2).1 = true
      · refine ⟨_, .met, .listed listed, fun rounds enough => ?_⟩
        obtain ⟨rounds, rfl⟩ := Nat.exists_eq_succ_of_ne_zero (Nat.ne_zero_of_lt enough)
        rw [pollWindow_of_early rounds early, if_pos listed]
      · have waited := clocked.replay session.world [.now, .listPeers]
        have slept := clocked.sleep (50 * millisecond)
          (replay env.answer session.world [.now, .listPeers]) (uncancelled _ _)
        have closer : deadline - clock (session.after env.answer
            [.now, .listPeers, .sleep (50 * millisecond)]).world ≤ polls * (50 * millisecond) := by
          rw [Nat.cast_succ, add_mul, one_mul] at near
          refine le_trans (sub_le_sub_left slept deadline) ?_
          linarith
        obtain ⟨calls, outcome, polled, settled⟩ := inductionHypothesis _ closer
        refine ⟨_, outcome, polled.sleep, fun rounds enough => ?_⟩
        obtain ⟨rounds, rfl⟩ := Nat.exists_eq_succ_of_ne_zero (Nat.ne_zero_of_lt enough)
        rw [pollWindow_of_early rounds early, if_neg listed, Session.after_append]
        exact settled rounds (Nat.lt_of_succ_lt_succ enough)

/-! ### Trying the candidates -/

/-- The calls try these candidates, one after the other and each for its window. -/
structure Tries (env : Env World) (clock : World → Int) (publicKey : Text) (window : Int)
    (world : World) (calls : List Call) (tried : List Text) : Prop where
  commands : calls.filter Call.isCommand = tried.map (.setEndpointFast .punch publicKey ·)
  spaced : Spaced window (env.attempts clock Call.isCommand world calls)
  atOnce : ∀ first rest, env.attempts clock Call.isCommand world calls = first :: rest →
    first.began = clock world

variable {publicKey : Text} {window startedAt baseline : Int} {calls : List Call}

theorem tries_nil : Tries env clock publicKey window world [] [] where
  commands := rfl
  spaced := List.Pairwise.nil
  atOnce := by
    intro first rest none
    cases none

/-- A candidate in front, with what is done until the next one. -/
theorem Tries.cons {endpoint : Text} {tried : List Text}
    {between : List Call} (silent : ∀ call ∈ between, call.isCommand = false)
    (kept : (env.answer (.setEndpointFast .punch publicKey endpoint) world).1 = true →
      ∀ later ∈ env.attempts clock Call.isCommand (replay env.answer world
          (.setEndpointFast .punch publicKey endpoint :: between)) calls,
        clock (env.answer (.setEndpointFast .punch publicKey endpoint) world).2 + window ≤
          later.began)
    (tries : Tries env clock publicKey window
      (replay env.answer world (.setEndpointFast .punch publicKey endpoint :: between)) calls
      tried) :
    Tries env clock publicKey window world
      (.setEndpointFast .punch publicKey endpoint :: between ++ calls) (endpoint :: tried) := by
  have split : env.attempts clock Call.isCommand world
      (.setEndpointFast .punch publicKey endpoint :: between ++ calls) =
      env.attempt clock (.setEndpointFast .punch publicKey endpoint) world ::
        env.attempts clock Call.isCommand (replay env.answer world
          (.setEndpointFast .punch publicKey endpoint :: between)) calls := by
    rw [Env.attempts_append, Env.attempts, Env.attempts_eq_nil silent]
    rfl
  refine ⟨?_, ?_, ?_⟩
  · rw [List.filter_append, List.filter_cons_of_pos rfl, tries.commands,
      List.filter_eq_nil_iff.mpr fun call member => Bool.not_eq_true _ ▸ silent call member]
    rfl
  · rw [split]
    exact List.pairwise_cons.mpr
      ⟨fun later member succeeded => kept succeeded later member, tries.spaced⟩
  · intro first rest same
    rw [split] at same
    cases same
    rfl

/-- The loop has tried a beginning of the candidates, and all of them unless it has seen a
handshake for the last one. -/
structure Tried (env : Env World) (clock : World → Int) (publicKey : Text)
    (window startedAt baseline : Int) (candidates : List Text) (world : World) (calls : List Call)
    (tried : List Text) : Prop extends Tries env clock publicKey window world calls tried where
  beginning : tried <+: candidates
  complete : tried = candidates ∨ ∃ endpoint earlier, tried.getLast? = some endpoint ∧
    calls = earlier ++ [.listPeers] ∧
    lists (handshaken publicKey endpoint startedAt baseline)
      (env.answer .listPeers (replay env.answer world earlier)).1 = true

theorem Tried.cons (clocked : env.Clocked clock) {endpoint : Text} {candidates tried : List Text}
    {between : List Call} (silent : ∀ call ∈ between, call.isCommand = false)
    (kept : (env.answer (.setEndpointFast .punch publicKey endpoint) world).1 = true →
      clock (env.answer (.setEndpointFast .punch publicKey endpoint) world).2 + window ≤
        clock (replay env.answer world (.setEndpointFast .punch publicKey endpoint :: between)))
    (rest : Tried env clock publicKey window startedAt baseline candidates
      (replay env.answer world (.setEndpointFast .punch publicKey endpoint :: between)) calls
      tried) :
    Tried env clock publicKey window startedAt baseline (endpoint :: candidates) world
      (.setEndpointFast .punch publicKey endpoint :: between ++ calls) (endpoint :: tried) where
  toTries := rest.toTries.cons silent fun succeeded later member =>
    (kept succeeded).trans (clocked.began_ge later member)
  beginning := (List.prefix_cons_inj endpoint).mpr rest.beginning
  complete := by
    refine rest.complete.imp (congrArg (endpoint :: ·)) ?_
    rintro ⟨last, earlier, isLast, rfl, listed⟩
    refine ⟨last, .setEndpointFast .punch publicKey endpoint :: between ++ earlier, ?_,
      (List.append_assoc _ _ _).symm, ?_⟩
    · rw [List.getLast?_cons, isLast]
      rfl
    · rw [replay_append]
      exact listed

theorem tryCandidates_of_refused (rounds : Nat) {endpoint : Text} (rest : List Text)
    {session : Session Call World}
    (refused : (env.answer (.setEndpointFast .punch publicKey endpoint) session.world).1 = false) :
    tryCandidates env rounds publicKey window startedAt baseline (endpoint :: rest) session =
      tryCandidates env rounds publicKey window startedAt baseline rest
        (session.after env.answer [.setEndpointFast .punch publicKey endpoint]) := by
  rw [tryCandidates, Env.call_bind, refused]
  rfl

theorem tryCandidates_of_set (rounds : Nat) {endpoint : Text} (rest : List Text)
    {session : Session Call World} {waited : Waited}
    (set : (env.answer (.setEndpointFast .punch publicKey endpoint) session.world).1 = true)
    (polled : pollWindow env (handshaken publicKey endpoint startedAt baseline)
      ((env.answer .now (env.answer (.setEndpointFast .punch publicKey endpoint)
        session.world).2).1 + window) rounds
      (session.after env.answer [.setEndpointFast .punch publicKey endpoint, .now]) =
        .ok (waited, (session.after env.answer
          [.setEndpointFast .punch publicKey endpoint, .now]).after env.answer calls)) :
    tryCandidates env rounds publicKey window startedAt baseline (endpoint :: rest) session =
      if waited = .over then
        tryCandidates env rounds publicKey window startedAt baseline rest (session.after env.answer
          (.setEndpointFast .punch publicKey endpoint :: .now :: calls))
      else .ok ((), session.after env.answer
        (.setEndpointFast .punch publicKey endpoint :: .now :: calls)) := by
  rw [tryCandidates, Env.call_bind, set, if_pos rfl, Env.call_bind, ← Session.after_append]
  refine (proc_bind_of_ok polled).trans ?_
  rw [← Session.after_append]
  split <;> rfl

/-- The loop over the candidates ends, after enough rounds of polling. -/
theorem tryCandidates_settles (clocked : env.Clocked clock) (uncancelled : env.Uncancelled)
    {polls : Nat} (near : window ≤ polls * (50 * millisecond)) (candidates : List Text)
    (session : Session Call World) :
    ∃ calls tried, Tried env clock publicKey window startedAt baseline candidates session.world
        calls tried ∧
      ∀ rounds, polls < rounds →
        tryCandidates env rounds publicKey window startedAt baseline candidates session =
          .ok ((), session.after env.answer calls) := by
  induction candidates generalizing session with
  | nil =>
    refine ⟨[], [], ⟨tries_nil, List.nil_prefix, Or.inl rfl⟩, fun rounds _ => ?_⟩
    rw [Session.after_nil]
    rfl
  | cons endpoint rest inductionHypothesis =>
    cases set : (env.answer (.setEndpointFast .punch publicKey endpoint) session.world).1 with
    | false =>
      obtain ⟨calls, tried, holds, settled⟩ := inductionHypothesis
        (session.after env.answer [.setEndpointFast .punch publicKey endpoint])
      refine ⟨_, _, holds.cons clocked (List.forall_mem_nil _) fun succeeded => ?_,
        fun rounds enough => ?_⟩
      · rw [set] at succeeded
        cases succeeded
      · rw [tryCandidates_of_refused rounds rest set, settled rounds enough,
          ← Session.after_append]
    | true =>
      have before := clocked.now_ge
        (env.answer (.setEndpointFast .punch publicKey endpoint) session.world).2
      have after := clocked.now_le
        (env.answer (.setEndpointFast .punch publicKey endpoint) session.world).2
      obtain ⟨polling, waited, polled, settledPoll⟩ := pollWindow_settles clocked uncancelled
        (handshaken publicKey endpoint startedAt baseline) (_ + window) polls
        (session.after env.answer [.setEndpointFast .punch publicKey endpoint, .now])
        (sub_le_iff_le_add'.mpr (add_le_add after near))
      have silent : ∀ call ∈ Call.now :: polling, call.isCommand = false :=
        List.forall_mem_cons.mpr ⟨rfl, polled.silent⟩
      rcases polled.ended with rfl | rfl
      · obtain ⟨earlier, rfl, listed⟩ := polled.met rfl
        refine ⟨_, [endpoint], ⟨tries_nil.cons silent fun _ => List.forall_mem_nil _,
          (List.prefix_cons_inj endpoint).mpr List.nil_prefix, Or.inr ?_⟩, fun rounds enough => ?_⟩
        · exact ⟨endpoint, .setEndpointFast .punch publicKey endpoint :: .now :: earlier, rfl,
            List.append_nil _, listed⟩
        · rw [tryCandidates_of_set rounds rest set (settledPoll rounds enough),
            if_neg (by decide), List.append_nil]
      · obtain ⟨calls, tried, holds, settled⟩ := inductionHypothesis (session.after env.answer
          (.setEndpointFast .punch publicKey endpoint :: .now :: polling))
        refine ⟨_, _, holds.cons clocked silent fun _ => ?_, fun rounds enough => ?_⟩
        · exact (add_le_add_left before window).trans (polled.expired rfl)
        · rw [tryCandidates_of_set rounds rest set (settledPoll rounds enough), if_pos rfl,
            settled rounds enough, ← Session.after_append]

/-! ### The whole plan -/

/-- What makes a process stop before its last candidate: there is no baseline, or a handshake was
completed through the last candidate since the start of the plan. -/
inductive Stops (plan : DhtMessage) : List Text → Option (List PeerInfo) → Prop
  | unlisted : Stops plan [] none
  | handshake {tried : List Text} {listing : Option (List PeerInfo)} {endpoint : Text}
      {startedAt baseline : Int} (last : tried.getLast? = some endpoint)
      (since : unix (plan.punchStartUnix * millisecond) ≤ startedAt)
      (seen : lists (handshaken plan.targetPublicKey endpoint startedAt baseline) listing = true) :
      Stops plan tried listing

/-- A plan is executed in order and in time by these calls. -/
structure Executed (env : Env World) (clock : World → Int) (plan : DhtMessage) (world : World)
    (calls : List Call) (tried : List Text) : Prop where
  beginning : tried <+: plan.punchPorts
  commands : calls.filter Call.isCommand =
    tried.map (.setEndpointFast .punch plan.targetPublicKey ·)
  notEarly : ∀ attempt ∈ env.attempts clock Call.isCommand world calls,
    plan.punchStartUnix * millisecond ≤ attempt.began
  spaced : Spaced (punchWindow plan) (env.attempts clock Call.isCommand world calls)
  complete : tried = plan.punchPorts ∨ ∃ earlier, calls = earlier ++ [.listPeers] ∧
    Stops plan tried (env.answer .listPeers (replay env.answer world earlier)).1
  prompt : ∀ late, env.Prompt clock late → ∀ first rest,
    env.attempts clock Call.isCommand world calls = first :: rest → first.began ≤
      max (clock world) (plan.punchStartUnix * millisecond + 2 * late) + 3 * late

theorem Awaited.unlisted {plan : DhtMessage}
    (awaited : Awaited env clock (plan.punchStartUnix * millisecond) world calls)
    (failed : (env.answer .listPeers (replay env.answer world calls)).1 = none) :
    Executed env clock plan world (calls ++ [Call.listPeers]) [] := by
  have silent : ∀ call ∈ calls ++ [.listPeers], call.isCommand = false :=
    List.forall_mem_append.mpr ⟨awaited.silent, List.forall_mem_singleton.mpr rfl⟩
  have none : env.attempts clock Call.isCommand world (calls ++ [Call.listPeers]) = [] :=
    Env.attempts_eq_nil silent world
  refine ⟨List.nil_prefix, ?_, none ▸ List.forall_mem_nil _, none ▸ List.Pairwise.nil,
    Or.inr ⟨calls, rfl, failed ▸ .unlisted⟩, ?_⟩
  · exact List.filter_eq_nil_iff.mpr fun call member => Bool.not_eq_true _ ▸ silent call member
  · intro late prompt first rest some
    cases none.symm.trans some

theorem Awaited.tried (clocked : env.Clocked clock) {plan : DhtMessage} {more : List Call}
    {tried : List Text}
    (awaited : Awaited env clock (plan.punchStartUnix * millisecond) world calls)
    (holds : Tried env clock plan.targetPublicKey (punchWindow plan)
      (unix (env.answer .now (replay env.answer world (calls ++ [Call.listPeers]))).1) baseline
      plan.punchPorts (replay env.answer world (calls ++ [Call.listPeers, .now])) more tried) :
    Executed env clock plan world (calls ++ [Call.listPeers, .now] ++ more) tried := by
  have silent : ∀ call ∈ calls ++ [Call.listPeers, .now], call.isCommand = false :=
    List.forall_mem_append.mpr ⟨awaited.silent, by simp [Call.isCommand]⟩
  have later : env.attempts clock Call.isCommand world (calls ++ [Call.listPeers, .now] ++ more) =
      env.attempts clock Call.isCommand
        (replay env.answer world (calls ++ [Call.listPeers, .now])) more := by
    rw [Env.attempts_append, Env.attempts_eq_nil silent, List.nil_append]
  have began : plan.punchStartUnix * millisecond ≤
      clock (replay env.answer world (calls ++ [Call.listPeers, .now])) := by
    rw [replay_append]
    exact awaited.started.trans (clocked.replay _ _)
  refine ⟨holds.beginning, ?_, ?_, later ▸ holds.spaced, ?_, ?_⟩
  · rw [List.filter_append, holds.commands,
      List.filter_eq_nil_iff.mpr fun call member => Bool.not_eq_true _ ▸ silent call member]
    rfl
  · rw [later]
    exact fun attempt member => began.trans (clocked.began_ge attempt member)
  · refine holds.complete.imp_right ?_
    rintro ⟨endpoint, earlier, last, rfl, seen⟩
    refine ⟨calls ++ [Call.listPeers, .now] ++ earlier, (List.append_assoc _ _ _).symm, ?_⟩
    rw [replay_append]
    refine .handshake last (Int.ediv_le_ediv (by decide) ?_) seen
    refine awaited.started.trans (le_trans ?_ (clocked.now_ge _))
    rw [replay_append]
    exact clocked.replay _ _
  · intro late prompt first rest same
    rw [later] at same
    rw [holds.atOnce first rest same, replay_append]
    have came := awaited.prompt late prompt
    have listed : _ ≤ _ + 0 + late := prompt .listPeers (replay env.answer world calls)
    have read : _ ≤ _ + 0 + late :=
      prompt .now (env.answer .listPeers (replay env.answer world calls)).2
    exact le_trans read (by linarith)

theorem runPunchPlan_of_met {plan : DhtMessage} {rounds : Nat} {session : Session Call World}
    (awaited : awaitStart env (plan.punchStartUnix * millisecond) rounds session =
      .ok (.met, session.after env.answer calls)) :
    runPunchPlan env rounds plan session =
      match (env.answer .listPeers (replay env.answer session.world calls)).1 with
      | none => .ok ((), session.after env.answer (calls ++ [Call.listPeers]))
      | some peers => tryCandidates env rounds plan.targetPublicKey (punchWindow plan)
          (unix (env.answer .now
            (replay env.answer session.world (calls ++ [Call.listPeers]))).1)
          (baselineRx plan.targetPublicKey peers) plan.punchPorts
          (session.after env.answer (calls ++ [Call.listPeers, .now])) := by
  rw [runPunchPlan, proc_bind_of_ok awaited, if_pos rfl, Env.call_bind, ← Session.after_append]
  show (match (env.answer .listPeers (replay env.answer session.world calls)).1 with
    | none => _
    | some peers => _ : Process World Unit) _ = _
  cases (env.answer .listPeers (replay env.answer session.world calls)).1 with
  | none => rfl
  | some peers =>
    dsimp only
    rw [Env.call_bind, ← Session.after_append, List.append_assoc]
    rfl

end

/-- The process ends with the plan executed, after enough rounds of the waiting loops. -/
theorem executed_runPunchPlan {env : Env World} {clock : World → Int}
    (clocked : env.Clocked clock) (uncancelled : env.Uncancelled) (plan : DhtMessage)
    (session : Session Call World) :
    ∃ enough calls tried, Executed env clock plan session.world calls tried ∧
      ∀ rounds, enough ≤ rounds →
        runPunchPlan env rounds plan session = .ok ((), session.after env.answer calls) := by
  obtain ⟨turns, near⟩ :=
    exists_waitBound (plan.punchStartUnix * millisecond - clock session.world)
  obtain ⟨calls, awaited, settled⟩ := awaitStart_settles clocked uncancelled turns session near
  cases listed : (env.answer .listPeers (replay env.answer session.world calls)).1 with
  | none =>
    refine ⟨turns + 1, _, [], awaited.unlisted listed, fun rounds enough => ?_⟩
    rw [runPunchPlan_of_met (settled rounds enough), listed]
  | some peers =>
    obtain ⟨polls, near⟩ : ∃ polls : Nat, punchWindow plan ≤ polls * (50 * millisecond) := by
      refine ⟨(punchWindow plan).toNat, ?_⟩
      simp only [millisecond]
      omega
    obtain ⟨more, tried, holds, settledToo⟩ := tryCandidates_settles clocked uncancelled near
      plan.punchPorts (session.after env.answer (calls ++ [Call.listPeers, .now]))
    refine ⟨turns + polls + 1, _, tried, awaited.tried clocked holds, fun rounds enough => ?_⟩
    rw [runPunchPlan_of_met (settled rounds (by omega)), listed, Session.after_append _ _ more]
    exact settledToo rounds (by omega)

theorem timerEnv_uncancelled : timerEnv.Uncancelled := fun _ _ => rfl

end WgMesh.Meshd
