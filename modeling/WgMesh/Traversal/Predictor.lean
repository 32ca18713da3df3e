/-
This file models the port predictor: it samples the ports a NAT assigns to probes
of different targets, derives the step between them, and extrapolates.

The step is derived by `Analyze` and kept until the next `Analyze` or `Reset`,
while `Probe` goes on appending samples. So a guess agrees with the samples held
exactly in the runs in which every sample taken while a step is known continues
it.
-/

import WgMesh.Runs
import WgMesh.Traversal.Response

namespace WgMesh.Traversal

open Go

/-- `defaultStunServer`. -/
def defaultStunServer : Text := text "stun.l.google.com:19302"

/-- A predictor. There is always a target to probe. -/
structure PortPredictor where
  stunAddrs : List Text
  targets : stunAddrs ≠ []
  /-- Whether there is a socket to probe with. -/
  conn : Bool
  samples : List Int
  step : Int
  /-- An `int` of 64 bits in the source, which holds the number of probes up to `2 ^ 63`. -/
  probeIdx : Nat

/-- `NewPortPredictor`, given the items of the target list. -/
def PortPredictor.new (items : List Text) (conn : Bool) : PortPredictor :=
  if present : items.filter (· ≠ []) ≠ [] then
    { stunAddrs := items.filter (· ≠ []), targets := present, conn := conn
      samples := [], step := 0, probeIdx := 0 }
  else
    { stunAddrs := [defaultStunServer], targets := List.cons_ne_nil _ _, conn := conn
      samples := [], step := 0, probeIdx := 0 }

/-- The target of the next probe. -/
def PortPredictor.target (predictor : PortPredictor) : Text :=
  predictor.stunAddrs.get ⟨predictor.probeIdx % predictor.stunAddrs.length,
    Nat.mod_lt _ (List.length_pos_iff.mpr predictor.targets)⟩

/-- How far a probe gets: the target does not resolve, the request is not written, no reply is
read in time, or a datagram is read. -/
inductive Exchange where
  | unresolved
  | unsent
  | unread
  | received (datagram : List UInt8)
  deriving DecidableEq, Repr

/-- The port a probe gets out of an exchange, or nothing when it fails. -/
def Exchange.port : Exchange → Except Panic (Option Nat)
  | .received datagram => do
    let res ← parseStunResponse datagram
    return if res.publicPort = 0 then none else some res.publicPort
  | _ => return none

/-- `Probe`, and whether it succeeds. -/
def PortPredictor.probe (predictor : PortPredictor) (exchange : Exchange) :
    Except Panic (PortPredictor × Bool) :=
  if predictor.conn then do
    match ← exchange.port with
    | none => return ({ predictor with probeIdx := predictor.probeIdx + 1 }, false)
    | some port => return ({ predictor with
        probeIdx := predictor.probeIdx + 1
        samples := predictor.samples ++ [(port : Int)] }, true)
  else return (predictor, false)

/-- The loop of `Analyze`: every sample from here on differs from the one before by `delta`. -/
def stable (delta previous : Int) : List Int → Bool
  | [] => true
  | sample :: rest => if sample - previous ≠ delta then false else stable delta sample rest

/-- `Analyze`. -/
def PortPredictor.analyze (predictor : PortPredictor) : PortPredictor × Bool :=
  match predictor.samples with
  | first :: second :: rest =>
    if ¬ stable (second - first) second rest ∨ second - first = 0 then
      ({ predictor with step := 0 }, false)
    else ({ predictor with step := second - first }, true)
  | _ => ({ predictor with step := 0 }, false)

/-- `LastSample`. -/
def PortPredictor.lastSample (predictor : PortPredictor) : Int :=
  predictor.samples.getLast?.getD 0

/-- A port, unless it is out of the range worth trying. -/
def inRange (next : Int) : Int := if 65535 < next ∨ next < 1024 then 0 else next

/-- `Predict`. -/
def PortPredictor.predict (predictor : PortPredictor) : Int :=
  if predictor.step = 0 ∨ predictor.samples = [] then 0
  else inRange (predictor.lastSample + predictor.step)

/-- `PredictForTarget`, in 64-bit arithmetic. -/
def PortPredictor.predictForTarget (predictor : PortPredictor) (offset : Int) : Int :=
  if predictor.step = 0 ∨ predictor.samples = [] then 0
  else inRange ((predictor.lastSample + predictor.step * offset).bmod (2 ^ 64))

/-- `Reset`. -/
def PortPredictor.reset (predictor : PortPredictor) : PortPredictor :=
  { predictor with samples := [], step := 0 }

/-- `Predictable`. -/
def PortPredictor.predictable (predictor : PortPredictor) : Bool := predictor.step ≠ 0

/-! ### Runs -/

/-- The calls that change a predictor. -/
inductive PredictorCall where
  | probe (exchange : Exchange)
  | analyze
  | reset
  deriving DecidableEq, Repr

/-- One call. A fault ends the process. -/
def PortPredictor.call (predictor : PortPredictor) : PredictorCall → Option PortPredictor
  | .probe exchange => do
    let (next, _) ← (predictor.probe exchange).toOption
    return next
  | .analyze => some predictor.analyze.1
  | .reset => some predictor.reset

/-- There are two samples or more and each follows the one before by the step, which is not
zero. -/
structure PortPredictor.Regular (predictor : PortPredictor) : Prop where
  enough : 2 ≤ predictor.samples.length
  chain : predictor.samples.IsChain fun previous sample => sample - previous = predictor.step
  moving : predictor.step ≠ 0

/-- Whatever the predictor says about a next port agrees with the samples it holds. -/
def PortPredictor.Sound (predictor : PortPredictor) : Prop :=
  (predictor.predictable = true ∨ predictor.predict ≠ 0 ∨
    ∃ offset, predictor.predictForTarget offset ≠ 0) → predictor.Regular

/-- A sample taken while a step is known continues it. -/
def PortPredictor.Continues (predictor : PortPredictor) : PredictorCall → Prop
  | .probe exchange => predictor.conn = true → predictor.step ≠ 0 →
      ∀ port : Nat, exchange.port = .ok (some port) →
        (port : Int) = predictor.lastSample + predictor.step
  | _ => True

/-! ### What a call does -/

/-- The predictors a probe can lead to. -/
inductive PortPredictor.Probes (predictor : PortPredictor) (exchange : Exchange) :
    PortPredictor → Bool → Prop
  | fails (probeIdx : Nat) (nothing : predictor.conn = true → exchange.port = .ok none) :
      Probes predictor exchange { predictor with probeIdx := probeIdx } false
  | succeeds {port : Nat} (conn : predictor.conn = true)
      (mapped : exchange.port = .ok (some port)) :
      Probes predictor exchange { predictor with
        probeIdx := predictor.probeIdx + 1
        samples := predictor.samples ++ [(port : Int)] } true

theorem PortPredictor.probes_of_probe {predictor next : PortPredictor} {exchange : Exchange}
    {success : Bool} (probed : predictor.probe exchange = .ok (next, success)) :
    predictor.Probes exchange next success := by
  unfold PortPredictor.probe at probed
  split at probed
  · rename_i conn
    obtain ⟨mapped, port, continued⟩ := bind_eq_ok.mp probed
    cases mapped with
    | none =>
      cases continued
      exact .fails _ fun _ => port
    | some number =>
      cases continued
      exact .succeeds conn port
  · rename_i closed
    cases probed
    exact .fails predictor.probeIdx fun conn => absurd conn closed

theorem stable_iff (delta previous : Int) (rest : List Int) :
    stable delta previous rest = true ↔
      (previous :: rest).IsChain fun earlier sample => sample - earlier = delta := by
  induction rest generalizing previous with
  | nil => simp [stable]
  | cons sample rest inductionHypothesis =>
    rw [stable, List.isChain_cons_cons, ← inductionHypothesis]
    by_cases same : sample - previous = delta
    · simp [same]
    · simp [same]

/-- `Analyze` forgets the step, or derives one that the samples have. -/
theorem PortPredictor.analyze_cases (predictor : PortPredictor) :
    predictor.analyze = ({ predictor with step := 0 }, false) ∨
      ∃ step, predictor.analyze = ({ predictor with step := step }, true) ∧
        { predictor with step := step : PortPredictor }.Regular := by
  unfold PortPredictor.analyze
  split
  · rename_i first second rest held
    split
    · exact .inl rfl
    · rename_i derived
      rw [not_or, not_not] at derived
      obtain ⟨regular, moving⟩ := derived
      refine .inr ⟨second - first, rfl, ?_, ?_, moving⟩
      · rw [held]
        exact Nat.le_add_left 2 rest.length
      · rw [held, List.isChain_cons_cons]
        exact ⟨rfl, (stable_iff _ _ _).mp regular⟩
  · exact .inl rfl

/-- A guess is made only when a step is known. -/
theorem PortPredictor.sound_iff (predictor : PortPredictor) :
    predictor.Sound ↔ (predictor.step ≠ 0 → predictor.Regular) := by
  constructor
  · intro sound moving
    exact sound (.inl (decide_eq_true moving))
  · intro regular guess
    refine regular fun still => ?_
    rcases guess with known | predicted | ⟨offset, predicted⟩
    · exact of_decide_eq_true known still
    · exact predicted (if_pos (.inl still))
    · exact predicted (if_pos (.inl still))

theorem isChain_append_singleton (relation : Int → Int → Prop) {samples : List Int}
    (sample : Int) (nonempty : samples ≠ []) :
    (samples ++ [sample]).IsChain relation ↔
      samples.IsChain relation ∧ relation (samples.getLast?.getD 0) sample := by
  rw [List.isChain_append, List.getLast?_eq_some_getLast nonempty]
  simp

/-- A sample appended while a step is known keeps the samples regular exactly when it continues
the step. -/
theorem PortPredictor.Regular.append_iff {predictor : PortPredictor}
    (regular : predictor.Regular) (probeIdx : Nat) (port : Int) :
    { predictor with probeIdx := probeIdx, samples := predictor.samples ++ [port] }.Regular ↔
      port = predictor.lastSample + predictor.step := by
  have nonempty : predictor.samples ≠ [] := by
    intro empty
    have enough := regular.enough
    rw [empty] at enough
    cases enough
  have extended := isChain_append_singleton
    (fun previous sample => sample - previous = predictor.step) port nonempty
  constructor
  · intro after
    have follows : port - predictor.lastSample = predictor.step := (extended.mp after.chain).2
    omega
  · intro follows
    refine ⟨?_, extended.mpr ⟨regular.chain, ?_⟩, regular.moving⟩
    · have enough := regular.enough
      simp only [List.length_append, List.length_singleton]
      omega
    · change port - predictor.lastSample = predictor.step
      omega

/-- A probe keeps what the predictor says in agreement with the samples exactly when the sample it
takes, if it takes one, continues the step. -/
theorem PortPredictor.Probes.sound_iff {predictor next : PortPredictor} {exchange : Exchange}
    {success : Bool} (probes : predictor.Probes exchange next success)
    (sound : predictor.Sound) : next.Sound ↔ predictor.Continues (.probe exchange) := by
  rw [PortPredictor.sound_iff] at sound ⊢
  cases probes with
  | fails probeIdx nothing =>
    refine iff_of_true (fun moving => ?_) fun conn _ port mapped => ?_
    · exact ⟨(sound moving).enough, (sound moving).chain, moving⟩
    · rw [nothing conn] at mapped
      cases mapped
  | @succeeds port conn mapped =>
    constructor
    · intro regular _ moving other mapped'
      rw [mapped] at mapped'
      cases mapped'
      exact ((sound moving).append_iff _ _).mp (regular moving)
    · exact fun continues moving =>
        ((sound moving).append_iff _ _).mpr (continues conn moving port mapped)

/-- A predictor without a step says nothing. -/
theorem PortPredictor.sound_of_step_eq_zero {predictor : PortPredictor}
    (still : predictor.step = 0) : predictor.Sound := by
  rw [PortPredictor.sound_iff]
  exact fun moving => absurd still moving

theorem PortPredictor.sound_analyze (predictor : PortPredictor) : predictor.analyze.1.Sound := by
  rcases predictor.analyze_cases with forgot | ⟨step, derived, regular⟩
  · rw [forgot]
    exact sound_of_step_eq_zero rfl
  · rw [derived]
    exact fun _ => regular

/-- What a call leads to. -/
theorem PortPredictor.Sound.call_iff {predictor next : PortPredictor} {call : PredictorCall}
    (sound : predictor.Sound) (called : predictor.call call = some next) :
    next.Sound ↔ predictor.Continues call := by
  cases call with
  | probe exchange =>
    obtain ⟨⟨after, success⟩, probed, kept⟩ := Option.bind_eq_some_iff.mp called
    cases kept
    exact (PortPredictor.probes_of_probe (toOption_eq_some probed)).sound_iff sound
  | analyze =>
    cases called
    exact iff_of_true predictor.sound_analyze trivial
  | reset =>
    cases called
    exact iff_of_true (sound_of_step_eq_zero rfl) trivial

theorem PortPredictor.sound_new (items : List Text) (conn : Bool) :
    (PortPredictor.new items conn).Sound := by
  refine sound_of_step_eq_zero ?_
  unfold PortPredictor.new
  split
  · rfl
  · rfl

/-- In a run of a predictor, what it says about a next port always agrees with the samples it
holds, exactly when every sample taken while a step is known continues the step. -/
theorem predictor_sound_iff (items : List Text) (conn : Bool) (calls : List PredictorCall)
    (enabled : (Runs.run PortPredictor.call (PortPredictor.new items conn) calls).isSome) :
    Runs.Always PortPredictor.call PortPredictor.Sound (PortPredictor.new items conn) calls ↔
      Runs.Along PortPredictor.call PortPredictor.Continues (PortPredictor.new items conn)
        calls := by
  refine Runs.always_iff_along PortPredictor.Sound (fun predictor sound => sound) ?_ ?_
    (PortPredictor.sound_new items conn) enabled
  · intro predictor call next sound continues called
    exact (sound.call_iff called).mpr continues
  · intro predictor call next sound breaks called after
    exact breaks ((sound.call_iff called).mp after)

/-- A response without other attributes that carries this port. -/
def plainBinding (port : Nat) : Binding where
  address := [203, 0, 113, 9]
  port := port
  transaction := buildStunRequest.drop 8
  before := []
  after := []

/-- A probe that is told this port. -/
def toldPort (port : Nat) : PredictorCall := .probe (.received (plainBinding port).encode)

/-- Two samples two apart are analysed, and a third one is far away. -/
def drifting : List PredictorCall :=
  [toldPort 40000, toldPort 40002, .analyze, toldPort 50000]

theorem drifting_last : ∃ last, Runs.run PortPredictor.call (PortPredictor.new [] true) drifting =
    some last ∧ last.samples = [40000, 40002, 50000] ∧ last.step = 2 := by
  have evaluated : (Runs.run PortPredictor.call (PortPredictor.new [] true) drifting).map
      (fun last => (last.samples, last.step)) = some ([40000, 40002, 50000], 2) := by
    decide +kernel
  obtain ⟨last, ran, values⟩ := Option.map_eq_some_iff.mp evaluated
  cases last
  cases values
  exact ⟨_, ran, rfl, rfl⟩

theorem not_sound_of_drifting {predictor : PortPredictor}
    (samples : predictor.samples = [40000, 40002, 50000]) (step : predictor.step = 2) :
    ¬ predictor.Sound := by
  rw [PortPredictor.sound_iff]
  intro sound
  have chain := (sound (by rw [step]; decide)).chain
  rw [samples, step] at chain
  revert chain
  decide

/-- The predictor keeps guessing from a step that the samples no longer have. -/
theorem drifting_unsound :
    ¬ Runs.Always PortPredictor.call PortPredictor.Sound (PortPredictor.new [] true) drifting := by
  obtain ⟨last, ran, samples, step⟩ := drifting_last
  exact fun always => not_sound_of_drifting samples step (always.last ran)

theorem predictor_sound_iff_drifting :
    ¬ Runs.Along PortPredictor.call PortPredictor.Continues (PortPredictor.new [] true)
      drifting := by
  obtain ⟨last, ran, samples, step⟩ := drifting_last
  have enabled : (Runs.run PortPredictor.call (PortPredictor.new [] true) drifting).isSome :=
    Option.isSome_iff_exists.mpr ⟨last, ran⟩
  intro along
  have always := (predictor_sound_iff [] true drifting enabled).mpr along
  exact not_sound_of_drifting samples step (always.last ran)

end WgMesh.Traversal
