/-
This file follows the predictor as it goes through its targets.

Every `Probe` that has a socket takes the next target of the list, whether it
succeeds or not, and `Reset` leaves the position where it is. So the targets are
taken in turn. But only a probe that succeeds leaves a sample: after failures that
bring the position round to the target of the last sample, the next sample comes
from the same target. Two samples in a row come from different targets in exactly
the runs in which this does not happen.
-/

import WgMesh.Traversal.Targets

namespace WgMesh.Traversal

open Go Pieces

/-! ### The target of a probe -/

/-- What `Probe` reads from the target list, or nothing if it has no socket. -/
def PortPredictor.address (predictor : PortPredictor) : Except Panic (Option Text) :=
  if predictor.conn then
    match predictor.stunAddrs[predictor.probeIdx % predictor.stunAddrs.length]? with
    | some addr => .ok (some addr)
    | none => .error .indexOutOfRange
  else .ok none

/-- The call is a `Probe`. -/
def PredictorCall.isProbe : PredictorCall → Bool
  | .probe _ => true
  | _ => false

/-- What a probe changes. -/
inductive PortPredictor.Rotates (predictor : PortPredictor) (exchange : Exchange) :
    PortPredictor → Prop
  | closed (noSocket : predictor.conn = false) : Rotates predictor exchange predictor
  | failed (conn : predictor.conn = true) (nothing : exchange.port = .ok none) :
      Rotates predictor exchange { predictor with probeIdx := predictor.probeIdx + 1 }
  | sampled {port : Nat} (conn : predictor.conn = true)
      (mapped : exchange.port = .ok (some port)) :
      Rotates predictor exchange { predictor with
        probeIdx := predictor.probeIdx + 1
        samples := predictor.samples ++ [(port : Int)] }

theorem PortPredictor.rotates_of_call {predictor next : PortPredictor} {exchange : Exchange}
    (called : predictor.call (.probe exchange) = some next) : predictor.Rotates exchange next := by
  obtain ⟨⟨after, success⟩, probed, kept⟩ := Option.bind_eq_some_iff.mp called
  cases kept
  have returned := toOption_eq_some probed
  unfold PortPredictor.probe at returned
  split at returned
  · rename_i conn
    obtain ⟨mapped, port, continued⟩ := bind_eq_ok.mp returned
    cases mapped with
    | none =>
      cases continued
      exact .failed conn port
    | some number =>
      cases continued
      exact .sampled conn port
  · rename_i closed
    cases returned
    exact .closed (Bool.eq_false_iff.mpr closed)

/-- `Analyze` changes nothing but the step. -/
theorem PortPredictor.analyze_eq (predictor : PortPredictor) :
    ∃ step, predictor.analyze.1 = { predictor with step := step } := by
  rcases predictor.analyze_cases with forgot | ⟨step, derived, _⟩
  · exact ⟨0, by rw [forgot]⟩
  · exact ⟨step, by rw [derived]⟩

/-! ### Whole runs -/

/-- What a predictor keeps, and how far it has gone after some probes. -/
structure PortPredictor.Advanced (predictor last : PortPredictor) (probes : Nat) : Prop where
  stunAddrs : last.stunAddrs = predictor.stunAddrs
  conn : last.conn = predictor.conn
  probeIdx : predictor.conn = true → last.probeIdx = predictor.probeIdx + probes

theorem PortPredictor.advanced_of_call {predictor next : PortPredictor} {call : PredictorCall}
    (called : predictor.call call = some next) :
    predictor.Advanced next (if call.isProbe then 1 else 0) := by
  cases call with
  | probe exchange =>
    cases PortPredictor.rotates_of_call called with
    | closed noSocket =>
      refine ⟨rfl, rfl, fun conn => ?_⟩
      rw [noSocket] at conn
      cases conn
    | failed => exact ⟨rfl, rfl, fun _ => rfl⟩
    | sampled => exact ⟨rfl, rfl, fun _ => rfl⟩
  | analyze =>
    obtain ⟨step, analyzed⟩ := predictor.analyze_eq
    cases called
    rw [analyzed]
    exact ⟨rfl, rfl, fun _ => rfl⟩
  | reset =>
    cases called
    exact ⟨rfl, rfl, fun _ => rfl⟩

/-- The position moves on by the number of probes, whatever becomes of them. -/
theorem PortPredictor.advanced_of_run {predictor last : PortPredictor}
    {calls : List PredictorCall}
    (ran : Runs.run PortPredictor.call predictor calls = some last) :
    predictor.Advanced last (calls.countP PredictorCall.isProbe) := by
  induction calls generalizing predictor with
  | nil =>
    cases ran
    exact ⟨rfl, rfl, fun _ => rfl⟩
  | cons call rest inductionHypothesis =>
    obtain ⟨next, called, continued⟩ := Runs.run_cons.mp ran
    have first := PortPredictor.advanced_of_call called
    have others := inductionHypothesis continued
    refine ⟨others.stunAddrs.trans first.stunAddrs, others.conn.trans first.conn, fun conn => ?_⟩
    rw [others.probeIdx (first.conn.trans conn), first.probeIdx conn, List.countP_cons]
    omega

theorem PortPredictor.probeIdx_new (items : List Text) (conn : Bool) :
    (PortPredictor.new items conn).probeIdx = 0 ∧ (PortPredictor.new items conn).conn = conn ∧
      (PortPredictor.new items conn).samples = [] := by
  unfold PortPredictor.new
  split
  · exact ⟨rfl, rfl, rfl⟩
  · exact ⟨rfl, rfl, rfl⟩

/-- There is a target at every position, taken round the list. -/
theorem PortPredictor.isSome_target (predictor : PortPredictor) (position : Nat) :
    (predictor.stunAddrs[position % predictor.stunAddrs.length]?).isSome := by
  rw [List.getElem?_eq_getElem
    (Nat.mod_lt position (List.length_pos_iff.mpr predictor.targets))]
  rfl

/-- The list of targets is tokenized exactly and rotated safely. The tokens of valid UTF-8 are its
maximal runs without a comma or a space, and tokens joined with any such separators are found
again. There is always a target; and after any calls, a `Probe` that has a socket takes the target
at the position that the number of earlier probes has round the list. Before `2 ^ 63` probes the
counter is what a 64-bit integer holds of it. -/
theorem targets_exact (s : Text) (valid : ValidUTF8 s) :
    Words isSeparator s (splitList s) ∧
      (∀ mixes : Nat → Mix,
        splitList (weave (splitList s) fun index => (mixes index).bytes) = splitList s) ∧
      ∀ (conn : Bool) (targets : List Text), targets = (newPortPredictor s conn).stunAddrs →
        targets = (if splitList s = [] then [defaultStunServer] else splitList s) ∧
        0 < targets.length ∧
        ∀ (calls : List PredictorCall) (last : PortPredictor),
          Runs.run PortPredictor.call (newPortPredictor s conn) calls = some last →
            (targets[calls.countP PredictorCall.isProbe % targets.length]?).isSome ∧
            last.address = .ok (if conn then
              targets[calls.countP PredictorCall.isProbe % targets.length]? else none) ∧
            (conn = true → calls.countP PredictorCall.isProbe < 2 ^ 63 →
              (last.probeIdx : Int).bmod (2 ^ 64) = last.probeIdx) := by
  refine ⟨(splitList_words valid).1, splitList_weave valid, ?_⟩
  rintro conn _ rfl
  have present := (newPortPredictor s conn).targets
  refine ⟨stunAddrs_newPortPredictor valid conn, List.length_pos_iff.mpr present, ?_⟩
  intro calls last ran
  have some_target := (newPortPredictor s conn).isSome_target (calls.countP PredictorCall.isProbe)
  have advanced := PortPredictor.advanced_of_run ran
  obtain ⟨start, socket, _⟩ := PortPredictor.probeIdx_new (splitList s) conn
  obtain ⟨target, found⟩ := Option.isSome_iff_exists.mp some_target
  change (newPortPredictor s conn).probeIdx = 0 at start
  change (newPortPredictor s conn).conn = conn at socket
  refine ⟨some_target, ?_, fun socketed few => ?_⟩
  · unfold PortPredictor.address
    rw [advanced.conn, advanced.stunAddrs, socket]
    cases conn with
    | false => rfl
    | true =>
      rw [if_pos rfl, if_pos rfl, advanced.probeIdx socket, start, Nat.zero_add, found]
  · have position := advanced.probeIdx (socket.trans socketed)
    rw [start, Nat.zero_add] at position
    rw [position]
    exact Int.bmod_eq_of_le (by omega) (by omega)

/-- Two targets, the third probe: it takes the first target again. -/
theorem targets_exact_third :
    ValidUTF8 (text "stun.a:3478, stun.b:3478") ∧
      ∀ last, Runs.run PortPredictor.call (newPortPredictor (text "stun.a:3478, stun.b:3478") true)
          [.probe .unread, .reset, .probe .unresolved] = some last →
        last.address = .ok (some (text "stun.a:3478")) := by
  have valid : ValidUTF8 (text "stun.a:3478, stun.b:3478") :=
    ⟨"stun.a:3478, stun.b:3478".toList, by decide⟩
  refine ⟨valid, fun last ran => ?_⟩
  have tokens : (newPortPredictor (text "stun.a:3478, stun.b:3478") true).stunAddrs =
      [text "stun.a:3478", text "stun.b:3478"] := by decide +kernel
  have third := ((targets_exact _ valid).2.2 true _ tokens.symm).2.2 _ last ran
  exact third.2.1

/-! ### Samples and their targets -/

/-- A predictor, with a record of where its samples come from. -/
structure Rotation where
  predictor : PortPredictor
  /-- The samples held, each with the target that its probe was sent to. -/
  taken : List (Text × Int)
  /-- The probes that have failed since the last sample or `Reset`. -/
  failures : Nat

/-- One call. -/
def Rotation.step (rotation : Rotation) (call : PredictorCall) : Option Rotation := do
  let next ← rotation.predictor.call call
  let new := next.samples.drop rotation.predictor.samples.length
  return match call with
    | .probe _ => {
        predictor := next
        taken := rotation.taken ++ new.map (rotation.predictor.target, ·)
        failures := if new = [] then rotation.failures + 1 else 0 }
    | .analyze => { rotation with predictor := next }
    | .reset => { predictor := next, taken := [], failures := 0 }

/-- A new predictor. -/
def Rotation.start (items : List Text) (conn : Bool) : Rotation where
  predictor := PortPredictor.new items conn
  taken := []
  failures := 0

/-- Each sample held comes from another target than the sample before it. -/
structure Rotation.Alternates (rotation : Rotation) : Prop where
  samples : rotation.taken.map Prod.snd = rotation.predictor.samples
  chain : rotation.taken.IsChain fun earlier later => earlier.1 ≠ later.1

/-- A probe that takes a further sample does so after a number of failed probes that does not
bring the position round to the target of the sample before. -/
def Rotation.Moves (rotation : Rotation) : PredictorCall → Prop
  | .probe exchange => rotation.predictor.conn = true →
      (∃ port, exchange.port = .ok (some port)) → rotation.taken ≠ [] →
        ¬ rotation.predictor.stunAddrs.length ∣ rotation.failures + 1
  | _ => True

/-- The last sample was taken one probe and the failures ago. -/
structure Rotation.Tracked (rotation : Rotation) : Prop where
  distinct : rotation.predictor.stunAddrs.Nodup
  alternates : rotation.Alternates
  last : ∀ entry, rotation.taken.getLast? = some entry →
    rotation.failures + 1 ≤ rotation.predictor.probeIdx ∧
      rotation.predictor.stunAddrs[(rotation.predictor.probeIdx - (rotation.failures + 1)) %
        rotation.predictor.stunAddrs.length]? = some entry.1
  conn : rotation.taken ≠ [] → rotation.predictor.conn = true

theorem PortPredictor.getElem?_target (predictor : PortPredictor) :
    predictor.stunAddrs[predictor.probeIdx % predictor.stunAddrs.length]? =
      some predictor.target :=
  List.getElem?_eq_getElem _

/-- The next target is the last sample's exactly when the list has been gone round. -/
theorem Rotation.Tracked.same_target_iff {rotation : Rotation} (tracked : rotation.Tracked)
    {entry : Text × Int} (last : rotation.taken.getLast? = some entry) :
    entry.1 = rotation.predictor.target ↔
      rotation.predictor.stunAddrs.length ∣ rotation.failures + 1 := by
  obtain ⟨earlier, found⟩ := tracked.last entry last
  have positive := List.length_pos_iff.mpr rotation.predictor.targets
  have next := rotation.predictor.getElem?_target
  constructor
  · intro same
    rw [← same, ← found] at next
    have positions := (List.getElem?_inj (Nat.mod_lt _ positive) tracked.distinct).mp next
    have divides := (Nat.modEq_iff_dvd' (Nat.sub_le _ _)).mp positions.symm
    rwa [Nat.sub_sub_self earlier] at divides
  · intro divides
    have positions : (rotation.predictor.probeIdx - (rotation.failures + 1)) %
        rotation.predictor.stunAddrs.length =
          rotation.predictor.probeIdx % rotation.predictor.stunAddrs.length := by
      refine (Nat.modEq_iff_dvd' (Nat.sub_le _ _)).mpr ?_
      rwa [Nat.sub_sub_self earlier]
    rw [positions, next] at found
    exact (Option.some.inj found).symm

/-- What a step leads to. -/
inductive Rotation.Steps (rotation : Rotation) : PredictorCall → Rotation → Prop
  | closed (exchange : Exchange) (noSocket : rotation.predictor.conn = false) :
      Steps rotation (.probe exchange) { rotation with failures := rotation.failures + 1 }
  | failed (exchange : Exchange) (nothing : exchange.port = .ok none) :
      Steps rotation (.probe exchange) { rotation with
        predictor := { rotation.predictor with probeIdx := rotation.predictor.probeIdx + 1 }
        failures := rotation.failures + 1 }
  | sampled (exchange : Exchange) (port : Nat) (conn : rotation.predictor.conn = true)
      (mapped : exchange.port = .ok (some port)) :
      Steps rotation (.probe exchange) {
        predictor := { rotation.predictor with
          probeIdx := rotation.predictor.probeIdx + 1
          samples := rotation.predictor.samples ++ [(port : Int)] }
        taken := rotation.taken ++ [(rotation.predictor.target, (port : Int))]
        failures := 0 }
  | analyzed (step : Int) :
      Steps rotation .analyze { rotation with
        predictor := { rotation.predictor with step := step } }
  | reset :
      Steps rotation .reset { predictor := rotation.predictor.reset, taken := [], failures := 0 }

theorem Rotation.steps_of_step {rotation next : Rotation} {call : PredictorCall}
    (stepped : rotation.step call = some next) : rotation.Steps call next := by
  obtain ⟨predictor, called, kept⟩ := Option.bind_eq_some_iff.mp stepped
  cases kept
  cases call with
  | probe exchange =>
    cases PortPredictor.rotates_of_call called with
    | closed noSocket =>
      simp only [List.drop_length, List.map_nil, List.append_nil, if_true]
      exact .closed exchange noSocket
    | failed conn nothing =>
      simp only [List.drop_length, List.map_nil, List.append_nil, if_true]
      exact .failed exchange nothing
    | @sampled port conn mapped =>
      simp only [List.drop_left, List.map_cons, List.map_nil, List.cons_ne_nil, if_false]
      exact .sampled exchange port conn mapped
  | analyze =>
    obtain ⟨step, analyzed⟩ := rotation.predictor.analyze_eq
    cases called
    simp only [analyzed]
    exact .analyzed step
  | reset =>
    cases called
    exact .reset

/-- A further sample alternates exactly when the position has not come round. -/
theorem Rotation.Tracked.chain_append_iff {rotation : Rotation} (tracked : rotation.Tracked)
    (sample : Int) :
    (rotation.taken ++ [(rotation.predictor.target, sample)]).IsChain
        (fun earlier later => earlier.1 ≠ later.1) ↔
      (rotation.taken ≠ [] →
        ¬ rotation.predictor.stunAddrs.length ∣ rotation.failures + 1) := by
  rw [List.isChain_append]
  cases last : rotation.taken.getLast? with
  | none =>
    have empty := List.getLast?_eq_none_iff.mp last
    simp [empty]
  | some entry =>
    have nonempty : rotation.taken ≠ [] := by
      intro empty
      rw [empty] at last
      cases last
    have differs := not_congr (tracked.same_target_iff last)
    simp [tracked.alternates.chain, nonempty, ← differs]

/-- The record stays true in a step that moves. -/
theorem Rotation.Tracked.step {rotation next : Rotation} {call : PredictorCall}
    (tracked : rotation.Tracked) (moves : rotation.Moves call)
    (stepped : rotation.step call = some next) : next.Tracked := by
  obtain ⟨distinct, ⟨samples, chain⟩, last, conn⟩ := tracked
  cases Rotation.steps_of_step stepped with
  | closed exchange noSocket =>
    have none : rotation.taken = [] := by
      by_contra some
      rw [conn some] at noSocket
      cases noSocket
    refine ⟨distinct, ⟨samples, chain⟩, fun entry found => ?_, conn⟩
    rw [none] at found
    cases found
  | failed exchange nothing =>
    refine ⟨distinct, ⟨samples, chain⟩, fun entry found => ?_, conn⟩
    obtain ⟨earlier, target⟩ := last entry found
    refine ⟨Nat.succ_le_succ earlier, ?_⟩
    rw [Nat.add_sub_add_right]
    exact target
  | sampled exchange port socket mapped =>
    refine ⟨distinct, ⟨?_, ?_⟩, fun entry found => ?_, fun _ => socket⟩
    · rw [List.map_append, samples]
      rfl
    · exact (Rotation.Tracked.chain_append_iff ⟨distinct, ⟨samples, chain⟩, last, conn⟩ port).mpr
        (moves socket ⟨port, mapped⟩)
    · rw [List.getLast?_concat] at found
      cases found
      exact ⟨Nat.le_add_left 1 _, rotation.predictor.getElem?_target⟩
  | analyzed step => exact ⟨distinct, ⟨samples, chain⟩, last, conn⟩
  | reset =>
    refine ⟨distinct, ⟨rfl, List.isChain_nil⟩, fun entry found => ?_, fun some => ?_⟩
    · cases found
    · exact absurd rfl some

/-- In a run from a new predictor with different targets, two samples in a row always come from
different targets exactly when no sample is taken after failed probes that have brought the
position round to the target of the sample before. -/
theorem alternates_iff_moves (items : List Text) (conn : Bool)
    (distinct : (PortPredictor.new items conn).stunAddrs.Nodup) (calls : List PredictorCall)
    (enabled : (Runs.run Rotation.step (Rotation.start items conn) calls).isSome) :
    Runs.Always Rotation.step Rotation.Alternates (Rotation.start items conn) calls ↔
      Runs.Along Rotation.step Rotation.Moves (Rotation.start items conn) calls := by
  have start : (Rotation.start items conn).Tracked := by
    refine ⟨distinct, ⟨?_, List.isChain_nil⟩, fun entry found => ?_, fun some => absurd rfl some⟩
    · exact (PortPredictor.probeIdx_new items conn).2.2.symm
    · cases found
  refine Runs.always_iff_along Rotation.Tracked (fun _ tracked => tracked.alternates) ?_ ?_
    start enabled
  · intro rotation call next tracked moves stepped
    exact tracked.step moves stepped
  · intro rotation call next tracked stays stepped alternates
    refine stays ?_
    cases Rotation.steps_of_step stepped with
    | closed exchange noSocket =>
      intro socket
      rw [noSocket] at socket
      cases socket
    | failed exchange nothing =>
      rintro _ ⟨port, mapped⟩
      rw [nothing] at mapped
      cases mapped
    | sampled exchange port socket mapped =>
      intro _ _
      exact (tracked.chain_append_iff port).mp alternates.chain
    | analyzed step => trivial
    | reset => trivial

/-! ### A failed probe in between -/

/-- Two targets, and a probe of the second one that is not answered. -/
def skipping : List PredictorCall := [toldPort 40000, .probe .unread, toldPort 40001]

def stunPair : List Text := [text "stun.a:3478", text "stun.b:3478"]

theorem skipping_last : ∃ last,
    Runs.run Rotation.step (Rotation.start stunPair true) skipping = some last ∧
      last.taken = [(text "stun.a:3478", 40000), (text "stun.a:3478", 40001)] := by
  have evaluated : (Runs.run Rotation.step (Rotation.start stunPair true) skipping).map
      Rotation.taken = some [(text "stun.a:3478", 40000), (text "stun.a:3478", 40001)] := by
    decide +kernel
  exact Option.map_eq_some_iff.mp evaluated

theorem not_alternates_of_skipping {rotation : Rotation}
    (taken : rotation.taken = [(text "stun.a:3478", 40000), (text "stun.a:3478", 40001)]) :
    ¬ rotation.Alternates := by
  intro alternates
  have chain := alternates.chain
  rw [taken] at chain
  revert chain
  decide

/-- Both samples come from the first target. -/
theorem skipping_not_alternates :
    (PortPredictor.new stunPair true).stunAddrs = stunPair ∧ stunPair.Nodup ∧
      2 ≤ stunPair.length ∧
      ¬ Runs.Always Rotation.step Rotation.Alternates (Rotation.start stunPair true)
        skipping := by
  obtain ⟨last, ran, taken⟩ := skipping_last
  refine ⟨by decide, by decide, by decide, fun always => ?_⟩
  exact not_alternates_of_skipping taken (always.last ran)

theorem alternates_iff_moves_skipping :
    ¬ Runs.Along Rotation.step Rotation.Moves (Rotation.start stunPair true) skipping := by
  obtain ⟨last, ran, taken⟩ := skipping_last
  have enabled : (Runs.run Rotation.step (Rotation.start stunPair true) skipping).isSome :=
    Option.isSome_iff_exists.mpr ⟨last, ran⟩
  intro along
  have always := (alternates_iff_moves stunPair true (by decide) skipping enabled).mpr along
  exact not_alternates_of_skipping taken (always.last ran)

end WgMesh.Traversal
