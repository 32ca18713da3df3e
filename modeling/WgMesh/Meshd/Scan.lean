/-
This file models `blindScanEndpoint`, the search for a port on which a peer that
has gone silent can be reached.

The scan walks over the candidates. For each it reads the clock, looks whether it
is cancelled and installs the candidate: with `SetPeer` for the first one and
`SetEndpointFast` for the others. At every sixteenth candidate it lists the peers
and ends when the listing shows a handshake. A round is described with the exact
list of its calls, and everything about a scan is read off its rounds.
-/

import WgMesh.Meshd.Calls
import WgMesh.Meshd.Ports

namespace WgMesh.Meshd

open Go Uapi

variable {World : Type}

/-- The arguments of `blindScanEndpoint`. -/
structure ScanArgs where
  publicKey : Text
  oldEndpoint : Text
  allowedIPs : Text
  keepAlive : Int
  baselineRx : Int
  count : Int
  rate : Int
  budget : Int
  deriving DecidableEq, Repr

/-- The host to scan and the port to start from, unless the arguments are refused. -/
def ScanArgs.center (args : ScanArgs) : Option (Text × Int) := do
  let (host, portText) ← splitHostPort args.oldEndpoint
  let center ← atoi portText
  if center < 1 ∨ 65535 < center ∨ args.count ≤ 0 then none
  else return (host, center)

def ScanArgs.effectiveCount (args : ScanArgs) : Int :=
  if 65535 < args.count then 65535 else args.count

def ScanArgs.effectiveRate (args : ScanArgs) : Int :=
  if args.rate ≤ 0 then 200 else args.rate

def ScanArgs.effectiveBudget (args : ScanArgs) : Int :=
  if args.budget ≤ 0 then 330 * second else args.budget

/-- Install a candidate. The first one also carries the routing attributes. -/
def setCandidate (env : Env World) (args : ScanArgs) (index : Nat) (endpoint : Text) :
    Process World Bool :=
  if index = 0 then
    env.call (.setPeer .scan
      { publicKey := args.publicKey
        endpoint := endpoint
        allowedIPs := args.allowedIPs
        keepAlive := args.keepAlive })
  else env.call (.setEndpointFast .scan args.publicKey endpoint)

/-- Look for a handshake, at every sixteenth candidate. -/
def sampleCandidate (env : Env World) (args : ScanArgs) (startedAt : Int) (index : Nat)
    (endpoint : Text) : Process World Bool :=
  if index = 0 ∨ index % 16 = 0 then do
    let listing ← env.call .listPeers
    return lists (handshaken args.publicKey endpoint startedAt args.baselineRx) listing
  else return false

/-- Wait until the next candidate is due, and tell whether the scan was cancelled. -/
def pace (env : Env World) (args : ScanArgs) (scanStarted : Int) (index : Nat) :
    Process World Bool := do
  let now ← env.call .now
  let target := ((index + 1 : Int) * second).tdiv args.effectiveRate
  env.call (.sleep (max 0 (target - (now - scanStarted))))

/-- The loop over the candidates. -/
def scanLoop (env : Env World) (args : ScanArgs) (host : Text) (scanStarted : Int) :
    Nat → List Nat → Process World (Option Text)
  | _, [] => return none
  | index, port :: rest => do
    let now ← env.call .now
    if scanStarted + args.effectiveBudget < now then return none
    else do
      let cancelled ← env.call .done
      if cancelled then return none
      else do
        let endpoint := joinHostPort host (itoa port)
        let set ← setCandidate env args index endpoint
        if set then do
          let found ← sampleCandidate env args (unix scanStarted) index endpoint
          if found then return some endpoint
          else do
            let cancelled ← pace env args scanStarted index
            if cancelled then return none
            else scanLoop env args host scanStarted (index + 1) rest
        else scanLoop env args host scanStarted (index + 1) rest

def blindScanEndpoint (env : Env World) (args : ScanArgs) : Process World (Option Text) :=
  match args.center with
  | none => return none
  | some (host, center) => do
    let scanStarted ← env.call .now
    let _ ← upTo args.publicKey 16
    scanLoop env args host scanStarted 0 (prioritizedPorts center args.effectiveCount)

/-! ### The arguments -/

theorem ScanArgs.effectiveBudget_pos (args : ScanArgs) : 0 < args.effectiveBudget := by
  unfold ScanArgs.effectiveBudget
  split
  · decide
  · omega

theorem ScanArgs.center_eq_some {args : ScanArgs} {host : Text} {center : Int}
    (started : args.center = some (host, center)) :
    (∃ portText, splitHostPort args.oldEndpoint = some (host, portText)) ∧ ValidPort center ∧
      0 < args.count := by
  simp only [ScanArgs.center, Option.bind_eq_bind, Option.bind_eq_some_iff] at started
  obtain ⟨⟨address, portText⟩, split, parsed, _, started⟩ := started
  simp only [Option.ite_none_left_eq_some, not_or, not_lt, not_le] at started
  obtain ⟨⟨positive, bounded, asked⟩, ⟨⟩⟩ := started
  exact ⟨⟨portText, split⟩, ⟨positive, bounded⟩, asked⟩

theorem ScanArgs.candidateCount_effective {args : ScanArgs} (asked : 0 < args.count) :
    candidateCount args.effectiveCount = min args.count.toNat 65535 := by
  unfold candidateCount ScanArgs.effectiveCount
  split_ifs
  all_goals omega

/-! ### The calls of the scan -/

/-- The scan only reads the clock, lists, and sets the endpoint of its peer. -/
def Call.OfScan (publicKey : Text) : Call → Prop
  | .setPeer site config => site = .scan ∧ config.publicKey = publicKey
  | .setEndpointFast site key _ => site = .scan ∧ key = publicKey
  | _ => True

/-- The loop makes no calls but its own and the commands of its candidates. -/
theorem emits_scanLoop_of {Allowed : Call → Prop} (env : Env World) (args : ScanArgs) (host : Text)
    (scanStarted : Int) {index : Nat} (now : Allowed .now) (done : Allowed .done)
    (sleep : ∀ duration, Allowed (.sleep duration)) (listPeers : Allowed .listPeers)
    {ports : List Nat} (commands : ∀ candidate, index ≤ candidate → ∀ port ∈ ports,
      Emits env.answer Allowed (setCandidate env args candidate (joinHostPort host (itoa port)))) :
    Emits env.answer Allowed (scanLoop env args host scanStarted index ports) := by
  induction ports generalizing index with
  | nil => exact emits_pure _
  | cons port rest inductionHypothesis =>
    have later := inductionHypothesis fun candidate reached port member =>
      commands candidate (Nat.le_of_succ_le reached) port (List.mem_cons_of_mem _ member)
    have sample : Emits env.answer Allowed (sampleCandidate env args (unix scanStarted) index
        (joinHostPort host (itoa port))) :=
      emits_ite (fun _ => emits_bind (emits_perform listPeers) fun _ => emits_pure _)
        fun _ => emits_pure _
    have pace : Emits env.answer Allowed (pace env args scanStarted index) :=
      emits_bind (emits_perform now) fun _ => emits_perform (sleep _)
    refine emits_bind (emits_perform now) fun _ => emits_ite (fun _ => emits_pure _) fun _ => ?_
    refine emits_bind (emits_perform done) fun _ => emits_ite (fun _ => emits_pure _) fun _ => ?_
    refine emits_bind (commands index (Nat.le_refl _) port List.mem_cons_self) fun _ =>
      emits_ite (fun _ => ?_) fun _ => later
    refine emits_bind sample fun _ => emits_ite (fun _ => emits_pure _) fun _ => ?_
    exact emits_bind pace fun _ => emits_ite (fun _ => emits_pure _) fun _ => later

theorem emits_setCandidate (env : Env World) (args : ScanArgs) (index : Nat) (endpoint : Text) :
    Emits env.answer (Call.OfScan args.publicKey) (setCandidate env args index endpoint) :=
  emits_ite (fun _ => emits_perform ⟨rfl, rfl⟩) fun _ => emits_perform ⟨rfl, rfl⟩

theorem emits_scanLoop (env : Env World) (args : ScanArgs) (host : Text) (scanStarted : Int)
    (index : Nat) (ports : List Nat) :
    Emits env.answer (Call.OfScan args.publicKey)
      (scanLoop env args host scanStarted index ports) :=
  emits_scanLoop_of env args host scanStarted trivial trivial (fun _ => trivial) trivial
    fun candidate _ _ _ => emits_setCandidate env args candidate _

theorem emits_blindScanEndpoint (env : Env World) (args : ScanArgs) :
    Emits env.answer (Call.OfScan args.publicKey) (blindScanEndpoint env args) := by
  unfold blindScanEndpoint
  split
  · exact emits_pure _
  · exact emits_bind (emits_perform trivial) fun _ => emits_bind (emits_lift _) fun _ =>
      emits_scanLoop _ _ _ _ _ _

/-- The loop does not fault. -/
theorem total_scanLoop (env : Env World) (args : ScanArgs) (host : Text) (scanStarted : Int)
    (index : Nat) (ports : List Nat) : Total (scanLoop env args host scanStarted index ports) := by
  induction ports generalizing index with
  | nil => exact total_pure _
  | cons port rest inductionHypothesis =>
    refine total_bind (total_perform _) fun _ => total_ite (total_pure _) ?_
    refine total_bind (total_perform _) fun _ => total_ite (total_pure _) ?_
    refine total_bind (total_ite (total_perform _) (total_perform _)) fun _ =>
      total_ite ?_ (inductionHypothesis _)
    refine total_bind (total_ite (total_bind (total_perform _) fun _ => total_pure _)
      (total_pure _)) fun _ => total_ite (total_pure _) ?_
    exact total_bind (total_bind (total_perform _) fun _ => total_perform _) fun _ =>
      total_ite (total_pure _) (inductionHypothesis _)

/-! ### One round of the scan -/

/-- The candidates at which the scan looks for a handshake. -/
abbrev Sampled (index : Nat) : Prop := index = 0 ∨ index % 16 = 0

/-- The command that installs a candidate. -/
def ScanArgs.command (args : ScanArgs) (index : Nat) (endpoint : Text) : Call :=
  if index = 0 then
    .setPeer .scan
      { publicKey := args.publicKey
        endpoint := endpoint
        allowedIPs := args.allowedIPs
        keepAlive := args.keepAlive }
  else .setEndpointFast .scan args.publicKey endpoint

/-- Whether a command succeeds. -/
def Env.succeeds (env : Env World) (call : Call) (world : World) : Bool :=
  match call with
  | .setPeer site config => (env.answer (.setPeer site config) world).1
  | .setEndpointFast site publicKey endpoint =>
    (env.answer (.setEndpointFast site publicKey endpoint) world).1
  | _ => false

/-- The calls of a round until its candidate is installed. -/
def ScanArgs.install (args : ScanArgs) (index : Nat) (endpoint : Text) : List Call :=
  [.now, .done, args.command index endpoint]

/-- The listing of a round, if it has one. -/
def sampleCalls (index : Nat) : List Call := if Sampled index then [.listPeers] else []

/-- The calls of a round until it waits for the next one. -/
def ScanArgs.untilWait (args : ScanArgs) (index : Nat) (endpoint : Text) : List Call :=
  args.install index endpoint ++ sampleCalls index ++ [.now]

/-- The listing at a candidate shows a handshake. -/
def Env.shows (env : Env World) (args : ScanArgs) (scanStarted : Int) (endpoint : Text)
    (world : World) : Bool :=
  lists (handshaken args.publicKey endpoint (unix scanStarted) args.baselineRx)
    (env.answer .listPeers world).1

/-- What one round does: its calls, and the result if the scan ends with it. -/
inductive ScanRound (env : Env World) (args : ScanArgs) (scanStarted : Int) (index : Nat)
    (endpoint : Text) (world : World) : List Call → Option (Option Text) → Prop
  | timedOut (late : scanStarted + args.effectiveBudget < (env.answer .now world).1) :
      ScanRound env args scanStarted index endpoint world [.now] (some none)
  | cancelled (closed : (env.answer .done (replay env.answer world [.now])).1 = true) :
      ScanRound env args scanStarted index endpoint world [.now, .done] (some none)
  | refused (failed : env.succeeds (args.command index endpoint)
        (replay env.answer world [.now, .done]) = false) :
      ScanRound env args scanStarted index endpoint world (args.install index endpoint) none
  | found (succeeded : env.succeeds (args.command index endpoint)
        (replay env.answer world [.now, .done]) = true) (sampled : Sampled index)
      (shown : env.shows args scanStarted endpoint
        (replay env.answer world (args.install index endpoint)) = true) :
      ScanRound env args scanStarted index endpoint world
        (args.install index endpoint ++ [.listPeers]) (some (some endpoint))
  | stopped (duration : Int)
      (closed : (env.answer (.sleep duration)
        (replay env.answer world (args.untilWait index endpoint))).1 = true) :
      ScanRound env args scanStarted index endpoint world
        (args.untilWait index endpoint ++ [.sleep duration]) (some none)
  | passed (duration : Int) (succeeded : env.succeeds (args.command index endpoint)
        (replay env.answer world [.now, .done]) = true)
      (unshown : Sampled index → env.shows args scanStarted endpoint
        (replay env.answer world (args.install index endpoint)) = false) :
      ScanRound env args scanStarted index endpoint world
        (args.untilWait index endpoint ++ [.sleep duration]) none

theorem setCandidate_eq_ok {env : Env World} {args : ScanArgs} {index : Nat} {endpoint : Text}
    {set : Bool} {session next : Session Call World}
    (ran : setCandidate env args index endpoint session = .ok (set, next)) :
    set = env.succeeds (args.command index endpoint) session.world ∧
      next = session.after env.answer [args.command index endpoint] := by
  unfold setCandidate at ran
  unfold ScanArgs.command
  split at ran
  · rw [if_pos ‹_›]
    exact perform_eq_after.mp ran
  · rw [if_neg ‹_›]
    exact perform_eq_after.mp ran

theorem sampleCandidate_eq_ok {env : Env World} {args : ScanArgs} {scanStarted : Int} {index : Nat}
    {endpoint : Text} {found : Bool} {session next : Session Call World}
    (ran : sampleCandidate env args (unix scanStarted) index endpoint session =
      .ok (found, next)) :
    (found = true ↔ Sampled index ∧ env.shows args scanStarted endpoint session.world = true) ∧
      next = session.after env.answer (sampleCalls index) := by
  unfold sampleCandidate at ran
  unfold sampleCalls
  split at ran
  · rename_i sampled
    obtain ⟨listing, listed, asked, ran⟩ := proc_bind_eq_ok.mp ran
    obtain ⟨rfl, rfl⟩ := perform_eq_after.mp asked
    obtain ⟨rfl, rfl⟩ := proc_pure_eq_ok.mp ran
    rw [if_pos sampled]
    exact ⟨(and_iff_right sampled).symm, rfl⟩
  · rename_i unsampled
    obtain ⟨rfl, rfl⟩ := proc_pure_eq_ok.mp ran
    rw [if_neg unsampled, Session.after_nil]
    exact ⟨iff_of_false Bool.false_ne_true fun sampled => unsampled sampled.1, rfl⟩

/-- How long a round waits that has read this time. -/
def ScanArgs.wait (args : ScanArgs) (scanStarted : Int) (index : Nat) (now : Int) : Int :=
  max 0 (((index + 1 : Int) * second).tdiv args.effectiveRate - (now - scanStarted))

/-- A round that does more than read the clock is in time, and it waits until its candidate's time
is over. -/
structure RoundTiming (env : Env World) (args : ScanArgs) (scanStarted : Int) (index : Nat)
    (endpoint : Text) (world : World) (calls : List Call) (outcome : Option (Option Text)) :
    Prop where
  inTime : calls ≠ [.now] → (env.answer .now world).1 ≤ scanStarted + args.effectiveBudget
  waits : ∀ duration, calls = args.untilWait index endpoint ++ [.sleep duration] →
    duration = args.wait scanStarted index (env.answer .now (replay env.answer world
        (args.install index endpoint ++ sampleCalls index))).1 ∧
      (outcome = none → (env.answer (.sleep duration)
        (replay env.answer world (args.untilWait index endpoint))).1 = false)

theorem pace_eq_ok {env : Env World} {args : ScanArgs} {scanStarted : Int} {index : Nat}
    {cancelled : Bool} {session next : Session Call World}
    (ran : pace env args scanStarted index session = .ok (cancelled, next)) :
    ∃ duration, duration = args.wait scanStarted index (env.answer .now session.world).1 ∧
      next = session.after env.answer ([.now] ++ [.sleep duration]) ∧
      cancelled = (env.answer (.sleep duration) (replay env.answer session.world [.now])).1 := by
  obtain ⟨now, afterNow, asked, ran⟩ := proc_bind_eq_ok.mp ran
  obtain ⟨rfl, rfl⟩ := perform_eq_after.mp asked
  obtain ⟨rfl, rfl⟩ := perform_eq_after.mp ran
  exact ⟨_, rfl, (session.after_append _ _).symm, rfl⟩

/-- The calls of a round that does not come to its wait. -/
theorem ScanArgs.ne_untilWait_of_short {args : ScanArgs} {index : Nat} {endpoint : Text}
    {calls : List Call} (short : calls.length < 5) (duration : Int) :
    calls ≠ args.untilWait index endpoint ++ [.sleep duration] := by
  intro same
  rw [same] at short
  simp only [ScanArgs.untilWait, ScanArgs.install, List.length_append, List.length_cons,
    List.length_nil] at short
  omega

theorem RoundTiming.of_short {env : Env World} {args : ScanArgs} {scanStarted : Int} {index : Nat}
    {endpoint : Text} {world : World} {calls : List Call} {outcome : Option (Option Text)}
    (short : calls.length < 5)
    (inTime : calls ≠ [.now] → (env.answer .now world).1 ≤ scanStarted + args.effectiveBudget) :
    RoundTiming env args scanStarted index endpoint world calls outcome :=
  ⟨inTime, fun duration same => absurd same (ScanArgs.ne_untilWait_of_short short duration)⟩

/-- What one round of the loop can do and when: the scan ends with it, or goes on with the next
candidate. -/
theorem scanLoop_timed {env : Env World} {args : ScanArgs} {host : Text} {scanStarted : Int}
    {index port : Nat} {rest : List Nat} {result : Option Text}
    {session next : Session Call World}
    (ran : scanLoop env args host scanStarted index (port :: rest) session = .ok (result, next)) :
    (∃ calls, ScanRound env args scanStarted index (joinHostPort host (itoa port)) session.world
        calls (some result) ∧
        RoundTiming env args scanStarted index (joinHostPort host (itoa port)) session.world calls
          (some result) ∧ next = session.after env.answer calls) ∨
      ∃ calls, ScanRound env args scanStarted index (joinHostPort host (itoa port)) session.world
          calls none ∧
        RoundTiming env args scanStarted index (joinHostPort host (itoa port)) session.world calls
          none ∧
        scanLoop env args host scanStarted (index + 1) rest (session.after env.answer calls) =
          .ok (result, next) := by
  obtain ⟨now, afterNow, asked, ran⟩ := proc_bind_eq_ok.mp ran
  obtain ⟨rfl, rfl⟩ := perform_eq_after.mp asked
  split at ran
  · rename_i late
    obtain ⟨rfl, rfl⟩ := proc_pure_eq_ok.mp ran
    exact .inl ⟨_, .timedOut late, .of_short (by simp) (fun more => absurd rfl more), rfl⟩
  rename_i early
  have inTime := not_lt.mp early
  obtain ⟨cancelled, afterDone, polled, ran⟩ := proc_bind_eq_ok.mp ran
  obtain ⟨rfl, rfl⟩ := perform_eq_after.mp polled
  rw [← Session.after_append] at ran
  split at ran
  · rename_i closed
    obtain ⟨rfl, rfl⟩ := proc_pure_eq_ok.mp ran
    exact .inl ⟨_, .cancelled closed, .of_short (by simp) fun _ => inTime, rfl⟩
  obtain ⟨set, afterSet, installed, ran⟩ := proc_bind_eq_ok.mp ran
  obtain ⟨rfl, rfl⟩ := setCandidate_eq_ok installed
  rw [← Session.after_append] at ran
  split at ran
  · rename_i succeeded
    obtain ⟨found, afterSample, sample, ran⟩ := proc_bind_eq_ok.mp ran
    obtain ⟨accepted, rfl⟩ := sampleCandidate_eq_ok sample
    rw [← Session.after_append] at ran
    split at ran
    · rename_i isFound
      obtain ⟨sampled, shown⟩ := accepted.mp isFound
      obtain ⟨rfl, rfl⟩ := proc_pure_eq_ok.mp ran
      rw [sampleCalls, if_pos sampled]
      exact .inl ⟨_, .found succeeded sampled shown,
        .of_short (by simp [ScanArgs.install]) fun _ => inTime, rfl⟩
    · rename_i notFound
      have unshown : Sampled index → env.shows args scanStarted (joinHostPort host (itoa port))
          (replay env.answer session.world (args.install index (joinHostPort host (itoa port)))) =
            false := fun sampled =>
        Bool.eq_false_iff.mpr fun shown => notFound (accepted.mpr ⟨sampled, shown⟩)
      obtain ⟨closed, afterPace, paced, ran⟩ := proc_bind_eq_ok.mp ran
      obtain ⟨duration, waited, rfl, rfl⟩ := pace_eq_ok paced
      rw [← Session.after_append, ← List.append_assoc] at ran
      split at ran
      · rename_i closed
        obtain ⟨rfl, rfl⟩ := proc_pure_eq_ok.mp ran
        refine .inl ⟨_, .stopped duration ?_, ⟨fun _ => inTime, fun other same => ?_⟩, rfl⟩
        · rwa [ScanArgs.untilWait, replay_append]
        · cases List.append_cancel_left same
          exact ⟨waited, fun ended => nomatch ended⟩
      · rename_i going
        refine .inr ⟨_, .passed duration succeeded unshown,
          ⟨fun _ => inTime, fun other same => ?_⟩, ran⟩
        cases List.append_cancel_left same
        refine ⟨waited, fun _ => ?_⟩
        rw [ScanArgs.untilWait, replay_append]
        exact Bool.eq_false_iff.mpr going
  · rename_i failed
    exact .inr ⟨_, .refused (Bool.eq_false_iff.mpr failed),
      .of_short (by simp [ScanArgs.install]) fun _ => inTime, ran⟩

/-- What one round of the loop can do: the scan ends with it, or goes on with the next
candidate. -/
theorem scanLoop_round {env : Env World} {args : ScanArgs} {host : Text} {scanStarted : Int}
    {index port : Nat} {rest : List Nat} {result : Option Text}
    {session next : Session Call World}
    (ran : scanLoop env args host scanStarted index (port :: rest) session = .ok (result, next)) :
    (∃ calls, ScanRound env args scanStarted index (joinHostPort host (itoa port)) session.world
        calls (some result) ∧ next = session.after env.answer calls) ∨
      ∃ calls, ScanRound env args scanStarted index (joinHostPort host (itoa port)) session.world
          calls none ∧
        scanLoop env args host scanStarted (index + 1) rest (session.after env.answer calls) =
          .ok (result, next) := by
  rcases scanLoop_timed ran with ⟨calls, round, _, ended⟩ | ⟨calls, round, _, continued⟩
  · exact .inl ⟨calls, round, ended⟩
  · exact .inr ⟨calls, round, continued⟩

theorem ScanArgs.ofScan_command (args : ScanArgs) (index : Nat) (endpoint : Text) :
    (args.command index endpoint).OfScan args.publicKey := by
  unfold ScanArgs.command
  split
  · exact ⟨rfl, rfl⟩
  · exact ⟨rfl, rfl⟩

theorem ScanArgs.setsEndpoint_command (args : ScanArgs) (index : Nat) (endpoint : Text) :
    (args.command index endpoint).SetsEndpoint args.publicKey := by
  unfold ScanArgs.command
  split
  · exact rfl
  · exact rfl

section Rounds

variable {env : Env World} {args : ScanArgs} {host : Text} {scanStarted : Int} {index port : Nat}
  {endpoint : Text} {rest : List Nat} {session next : Session Call World}

/-- A round makes calls of the scan only. -/
theorem ScanRound.ofScan {world : World} {calls : List Call} {outcome : Option (Option Text)}
    (round : ScanRound env args scanStarted index endpoint world calls outcome) :
    ∀ call ∈ calls, call.OfScan args.publicKey := by
  have install : ∀ call ∈ args.install index endpoint, call.OfScan args.publicKey := by
    simp only [ScanArgs.install, List.forall_mem_cons]
    exact ⟨trivial, trivial, args.ofScan_command index endpoint,
      List.forall_mem_nil _⟩
  have sample : ∀ call ∈ sampleCalls index, call.OfScan args.publicKey := by
    unfold sampleCalls
    split
    · simp [Call.OfScan]
    · simp
  have paced : ∀ duration, ∀ call ∈ args.untilWait index endpoint ++ [.sleep duration],
      call.OfScan args.publicKey := by
    intro duration
    simp only [ScanArgs.untilWait, List.forall_mem_append, List.forall_mem_singleton]
    exact ⟨⟨⟨install, sample⟩, trivial⟩, trivial⟩
  cases round with
  | timedOut _ => simp [Call.OfScan]
  | cancelled _ => simp [Call.OfScan]
  | refused _ => exact install
  | found _ _ _ =>
    simp only [List.forall_mem_append, List.forall_mem_singleton]
    exact ⟨install, trivial⟩
  | stopped duration _ => exact paced duration
  | passed duration _ _ => exact paced duration

/-- A scan reports the candidate of a round that installed and sampled it. -/
theorem scanLoop_reports {reported : Text}
    (ran : scanLoop env args host scanStarted index (port :: rest) session =
      .ok (some reported, next)) :
    (reported = joinHostPort host (itoa port) ∧ Sampled index ∧
        env.succeeds (args.command index (joinHostPort host (itoa port)))
          (replay env.answer session.world [.now, .done]) = true ∧
        next = session.after env.answer
          (args.install index (joinHostPort host (itoa port)) ++ [.listPeers])) ∨
      ∃ calls, ScanRound env args scanStarted index (joinHostPort host (itoa port)) session.world
          calls none ∧
        scanLoop env args host scanStarted (index + 1) rest (session.after env.answer calls) =
          .ok (some reported, next) := by
  rcases scanLoop_round ran with ⟨calls, round, ended⟩ | continued
  · cases round with
    | found succeeded sampled _ => exact .inl ⟨rfl, sampled, succeeded, ended⟩
  · exact .inr continued

/-- A scan that reports an endpoint has issued a command for its peer. -/
theorem made_scanLoop {ports : List Nat} {reported : Text}
    (ran : scanLoop env args host scanStarted index ports session = .ok (some reported, next)) :
    session.Made (Call.SetsEndpoint args.publicKey) next := by
  induction ports generalizing index session with
  | nil => cases (proc_pure_eq_ok.mp ran).1
  | cons port rest inductionHypothesis =>
    rcases scanLoop_reports ran with ⟨_, _, _, rfl⟩ | ⟨calls, round, continued⟩
    · exact ⟨_, rfl, args.command index (joinHostPort host (itoa port)),
        by simp [ScanArgs.install], args.setsEndpoint_command _ _⟩
    · exact (inductionHypothesis continued).after (Session.emitted_after round.ofScan)

/-- Without a sampled candidate, nothing is reported. -/
theorem scanLoop_unsampled {ports : List Nat}
    (unsampled : ∀ candidate, index ≤ candidate → candidate < index + ports.length →
      ¬ Sampled candidate) {result : Option Text}
    (ran : scanLoop env args host scanStarted index ports session = .ok (result, next)) :
    result = none := by
  induction ports generalizing index session with
  | nil => exact (proc_pure_eq_ok.mp ran).1
  | cons port rest inductionHypothesis =>
    rw [List.length_cons] at unsampled
    cases result with
    | none => rfl
    | some reported =>
      rcases scanLoop_reports ran with ⟨_, sampled, _⟩ | ⟨calls, _, continued⟩
      · exact absurd sampled (unsampled index (Nat.le_refl _) (by omega))
      · exact inductionHypothesis (fun candidate reached within =>
          unsampled candidate (by omega) (by omega)) continued

/-- With at most sixteen candidates, only the first one can be reported. -/
theorem scanLoop_few {reported : Text} (few : rest.length < 16)
    (ran : scanLoop env args host scanStarted 0 (port :: rest) session =
      .ok (some reported, next)) :
    reported = joinHostPort host (itoa port) ∧
      env.succeeds (args.command 0 (joinHostPort host (itoa port)))
        (replay env.answer session.world [.now, .done]) = true ∧
      next = session.after env.answer
        (args.install 0 (joinHostPort host (itoa port)) ++ [.listPeers]) := by
  rcases scanLoop_reports ran with ⟨first, _, succeeded, ended⟩ | ⟨calls, _, continued⟩
  · exact ⟨first, succeeded, ended⟩
  · have unsampled : ∀ candidate, 0 + 1 ≤ candidate → candidate < 0 + 1 + rest.length →
        ¬ Sampled candidate := by
      intro candidate reached within sampled
      omega
    cases scanLoop_unsampled unsampled continued

end Rounds

/-! ### Undisturbed scans -/

/-- Every command succeeds, nothing is cancelled and the time does not run out. -/
def Undisturbed (deadline : Int) : (call : Call) → Reply call → Prop
  | .now, now => now ≤ deadline
  | .done, cancelled => cancelled = false
  | .sleep _, cancelled => cancelled = false
  | .listPeers, listing => listing.isSome
  | .setPeer _ _, succeeded => succeeded = true
  | .setEndpointFast _ _ _, succeeded => succeeded = true

def Call.isCommand : Call → Bool
  | .setPeer _ _ => true
  | .setEndpointFast _ _ _ => true
  | _ => false

theorem ScanArgs.isCommand_command (args : ScanArgs) (index : Nat) (endpoint : Text) :
    (args.command index endpoint).isCommand = true := by
  unfold ScanArgs.command
  split
  · rfl
  · rfl

theorem succeeds_of_undisturbed {env : Env World} {call : Call} (command : call.isCommand = true)
    {deadline : Int} {world : World}
    (undisturbed : Undisturbed deadline call (env.answer call world).1) :
    env.succeeds call world = true := by
  cases call with
  | setPeer site config => exact undisturbed
  | setEndpointFast site publicKey endpoint => exact undisturbed
  | now => cases command
  | done => cases command
  | sleep duration => cases command
  | listPeers => cases command

/-- An undisturbed round does not give up, and when the scan goes on after it, its candidate was
installed and no handshake was shown. -/
theorem ScanRound.of_undisturbed {env : Env World} {args : ScanArgs} {scanStarted : Int}
    {index : Nat} {endpoint : Text} {world : World} {calls : List Call}
    {outcome : Option (Option Text)}
    (round : ScanRound env args scanStarted index endpoint world calls outcome)
    (undisturbed : AllAnswered env.answer (Undisturbed (scanStarted + args.effectiveBudget)) world
      calls) :
    outcome ≠ some none ∧ (outcome = none →
      (∃ duration, calls = args.untilWait index endpoint ++ [.sleep duration]) ∧
        env.succeeds (args.command index endpoint) (replay env.answer world [.now, .done]) = true ∧
        (Sampled index → env.shows args scanStarted endpoint
          (replay env.answer world (args.install index endpoint)) = false)) := by
  cases round with
  | timedOut late => exact absurd undisturbed.1 (not_le.mpr late)
  | cancelled closed =>
    have going := undisturbed.2.1
    exact absurd (going.symm.trans closed) Bool.false_ne_true
  | refused failed =>
    have succeeded := succeeds_of_undisturbed (args.isCommand_command _ _) undisturbed.2.2.1
    exact absurd (failed.symm.trans succeeded) Bool.false_ne_true
  | found _ _ _ => exact ⟨by simp, fun ended => absurd ended (Option.some_ne_none _)⟩
  | stopped duration closed =>
    have going := (allAnswered_append.mp undisturbed).2.1
    exact absurd (going.symm.trans closed) Bool.false_ne_true
  | passed duration succeeded unshown =>
    exact ⟨by simp, fun _ => ⟨⟨duration, rfl⟩, succeeded, unshown⟩⟩

/-- If nothing disturbs the scan, a round reports its candidate when its listing shows a handshake,
and goes on with the next one otherwise. -/
theorem scanLoop_undisturbed {env : Env World} {args : ScanArgs} {host : Text} {scanStarted : Int}
    {index port : Nat} {rest : List Nat} {session next : Session Call World}
    {result : Option Text}
    (undisturbed : ∀ world calls, AllAnswered env.answer
      (Undisturbed (scanStarted + args.effectiveBudget)) world calls)
    (ran : scanLoop env args host scanStarted index (port :: rest) session = .ok (result, next)) :
    (Sampled index ∧ env.shows args scanStarted (joinHostPort host (itoa port))
        (replay env.answer session.world
          (args.install index (joinHostPort host (itoa port)))) = true ∧
        result = some (joinHostPort host (itoa port))) ∨
      (Sampled index → env.shows args scanStarted (joinHostPort host (itoa port))
        (replay env.answer session.world
          (args.install index (joinHostPort host (itoa port)))) = false) ∧
        ∃ duration, scanLoop env args host scanStarted (index + 1) rest
          (session.after env.answer
            (args.untilWait index (joinHostPort host (itoa port)) ++ [.sleep duration])) =
              .ok (result, next) := by
  rcases scanLoop_round ran with ⟨calls, round, _⟩ | ⟨calls, round, continued⟩
  · have going := (round.of_undisturbed (undisturbed _ _)).1
    cases round with
    | found _ sampled shown => exact Or.inl ⟨sampled, shown, rfl⟩
    | timedOut _ => exact absurd rfl going
    | cancelled _ => exact absurd rfl going
    | stopped _ _ => exact absurd rfl going
  · obtain ⟨⟨duration, rfl⟩, _, unshown⟩ := (round.of_undisturbed (undisturbed _ _)).2 rfl
    exact Or.inr ⟨unshown, duration, continued⟩

/-! ### The whole scan -/

/-- A scan that has not been refused has logged a part of the key and runs its loop. -/
theorem blindScanEndpoint_eq_ok {env : Env World} {args : ScanArgs} {host : Text} {center : Int}
    {result : Option Text} {session next : Session Call World}
    (started : args.center = some (host, center)) :
    blindScanEndpoint env args session = .ok (result, next) ↔
      16 ≤ args.publicKey.length ∧
        scanLoop env args host (env.answer .now session.world).1 0
          (prioritizedPorts center args.effectiveCount) (session.after env.answer [.now]) =
            .ok (result, next) := by
  unfold blindScanEndpoint
  rw [started]
  constructor
  · intro ran
    obtain ⟨scanStarted, _, asked, ran⟩ := proc_bind_eq_ok.mp ran
    obtain ⟨rfl, rfl⟩ := perform_eq_after.mp asked
    obtain ⟨_, middle, logged, looped⟩ := proc_bind_eq_ok.mp ran
    obtain ⟨sliced, rfl⟩ := proc_lift_eq_ok.mp logged
    exact ⟨(returns_upTo args.publicKey 16).mp ⟨_, sliced⟩, looped⟩
  · rintro ⟨long, looped⟩
    obtain ⟨sliced, cut⟩ := (returns_upTo args.publicKey 16).mpr long
    refine proc_bind_eq_ok.mpr ⟨_, _, perform_eq_after.mpr ⟨rfl, rfl⟩, ?_⟩
    exact proc_bind_eq_ok.mpr ⟨_, _, proc_lift_eq_ok.mpr ⟨cut, rfl⟩, looped⟩

theorem blindScanEndpoint_of_refused {env : Env World} {args : ScanArgs} {result : Option Text}
    {session next : Session Call World} (refused : args.center = none)
    (ran : blindScanEndpoint env args session = .ok (result, next)) :
    result = none ∧ next = session := by
  unfold blindScanEndpoint at ran
  rw [refused] at ran
  exact proc_pure_eq_ok.mp ran

/-- A scan returns unless the key that it logs is too short. -/
theorem returns_blindScanEndpoint (env : Env World) (args : ScanArgs)
    (session : Session Call World) :
    Returns (blindScanEndpoint env args session) ↔
      args.center = none ∨ 16 ≤ args.publicKey.length := by
  cases started : args.center with
  | none =>
    have returned : blindScanEndpoint env args session = .ok (none, session) := by
      unfold blindScanEndpoint
      rw [started]
      rfl
    exact iff_of_true ⟨_, returned⟩ (Or.inl rfl)
  | some pair =>
    obtain ⟨host, center⟩ := pair
    constructor
    · rintro ⟨⟨result, next⟩, ran⟩
      exact Or.inr ((blindScanEndpoint_eq_ok started).mp ran).1
    · rintro (refused | long)
      · cases refused
      · obtain ⟨result, next, looped⟩ := total_scanLoop env args host
          (env.answer .now session.world).1 0 (prioritizedPorts center args.effectiveCount)
          (session.after env.answer [.now])
        exact ⟨_, (blindScanEndpoint_eq_ok started).mpr ⟨long, looped⟩⟩

/-- A scan that reports an endpoint has accepted its arguments and run its loop. -/
theorem blindScanEndpoint_eq_some {env : Env World} {args : ScanArgs} {endpoint : Text}
    {session next : Session Call World}
    (ran : blindScanEndpoint env args session = .ok (some endpoint, next)) :
    ∃ host center, args.center = some (host, center) ∧ 16 ≤ args.publicKey.length ∧
      scanLoop env args host (env.answer .now session.world).1 0
        (prioritizedPorts center args.effectiveCount) (session.after env.answer [.now]) =
          .ok (some endpoint, next) := by
  cases started : args.center with
  | none => cases (blindScanEndpoint_of_refused started ran).1
  | some pair =>
    obtain ⟨host, center⟩ := pair
    obtain ⟨long, looped⟩ := (blindScanEndpoint_eq_ok started).mp ran
    exact ⟨host, center, rfl, long, looped⟩

theorem made_blindScanEndpoint {env : Env World} {args : ScanArgs} {endpoint : Text}
    {session next : Session Call World}
    (ran : blindScanEndpoint env args session = .ok (some endpoint, next)) :
    session.Made (Call.SetsEndpoint args.publicKey) next := by
  obtain ⟨_, _, _, _, looped⟩ := blindScanEndpoint_eq_some ran
  have began : Session.Emitted env.answer (fun _ => True) session
      (session.after env.answer [.now]) := Session.emitted_after fun _ _ => trivial
  exact (made_scanLoop looped).after began

end WgMesh.Meshd
