/-
This file proves that the port predictor extrapolates linearly.

The loop of `Analyze` compares neighbouring samples. It succeeds exactly when the
samples are an arithmetic progression that moves, and the step is that of the
progression. A guess is then the member of the progression at the offset asked
for, unless it is out of the range worth trying. A guess for the next port is what
the next sample is if the NAT goes on like this: taken as a sample, it changes
neither the step nor any later member.
-/

import WgMesh.Traversal.Predictor

namespace WgMesh.Traversal

/-- Two samples or more, each of which is where the step leads to from the first one. -/
structure Progression (samples : List Int) (step : Int) : Prop where
  enough : 2 ≤ samples.length
  moving : step ≠ 0
  linear : ∀ (index : Nat) (sample : Int), samples[index]? = some sample →
    sample = samples.headD 0 + index * step

/-- The member of a progression this far after its last sample. -/
def ahead (samples : List Int) (step offset : Int) : Int :=
  samples.headD 0 + ((samples.length : Int) - 1 + offset) * step

/-- The predictor once a step is derived. -/
abbrev PortPredictor.withStep (predictor : PortPredictor) (step : Int) : PortPredictor :=
  { predictor with step := step }

/-- The predictor once it holds one more sample. -/
def PortPredictor.extend (predictor : PortPredictor) (port : Int) : PortPredictor :=
  { predictor with samples := predictor.samples ++ [port] }

/-! ### Neighbours and the first sample -/

/-- Samples follow each other by the step exactly when each is that many steps from the first. -/
theorem isChain_iff_linear (step first : Int) (rest : List Int) :
    ((first :: rest).IsChain fun previous sample => sample - previous = step) ↔
      ∀ (index : Nat) (sample : Int), (first :: rest)[index]? = some sample →
        sample = first + index * step := by
  induction rest generalizing first with
  | nil =>
    refine iff_of_true (List.isChain_singleton _) ?_
    intro index sample found
    obtain ⟨zero, rfl⟩ := List.getElem?_eq_some_iff.mp found
    obtain rfl : index = 0 := by simpa using zero
    simp
  | cons second rest inductionHypothesis =>
    rw [List.isChain_cons_cons, inductionHypothesis]
    constructor
    · rintro ⟨follows, linear⟩ index sample found
      cases index with
      | zero =>
        cases found
        simp
      | succ index =>
        rw [linear index sample found]
        push_cast
        linarith
    · intro linear
      have follows := linear 1 second rfl
      rw [Nat.cast_one, one_mul] at follows
      refine ⟨by linarith, fun index sample found => ?_⟩
      rw [linear (index + 1) sample found]
      push_cast
      linarith

theorem progression_iff_regular (predictor : PortPredictor) :
    Progression predictor.samples predictor.step ↔ predictor.Regular := by
  cases held : predictor.samples with
  | nil =>
    refine iff_of_false (fun progression => absurd progression.enough (by decide)) ?_
    exact fun regular => absurd regular.enough (by rw [held]; decide)
  | cons first rest =>
    have linear := isChain_iff_linear predictor.step first rest
    constructor
    · intro progression
      exact ⟨held ▸ progression.enough, held ▸ linear.mpr progression.linear, progression.moving⟩
    · intro regular
      exact ⟨held ▸ regular.enough, regular.moving, linear.mp (held ▸ regular.chain)⟩

theorem Progression.nonempty {samples : List Int} {step : Int}
    (progression : Progression samples step) : samples ≠ [] := by
  have enough := progression.enough
  exact List.length_pos_iff.mp (by omega)

theorem Progression.lastSample {predictor : PortPredictor} {step : Int}
    (progression : Progression predictor.samples step) :
    predictor.lastSample =
      predictor.samples.headD 0 + ((predictor.samples.length : Int) - 1) * step := by
  have enough := progression.enough
  have last : predictor.samples[predictor.samples.length - 1]? = some predictor.lastSample := by
    rw [PortPredictor.lastSample, ← List.getLast?_eq_getElem?,
      List.getLast?_eq_some_getLast progression.nonempty, Option.getD_some]
  rw [progression.linear _ _ last]
  push_cast [Nat.cast_sub (show 1 ≤ predictor.samples.length by omega)]
  ring

/-! ### What `Analyze` finds -/

theorem PortPredictor.analyze_of_progression {predictor : PortPredictor} {step : Int}
    (progression : Progression predictor.samples step) :
    predictor.analyze = (predictor.withStep step, true) := by
  have regular := (progression_iff_regular (predictor.withStep step)).mp progression
  have chain : predictor.samples.IsChain fun previous sample => sample - previous = step :=
    regular.chain
  unfold PortPredictor.analyze
  split
  · rename_i first second rest held
    rw [held, List.isChain_cons_cons] at chain
    obtain ⟨follows, chain⟩ := chain
    rw [follows, (stable_iff _ _ _).mpr chain, if_neg]
    exact fun refused => refused.elim (fun unstable => unstable rfl) progression.moving
  · rename_i short
    have enough := progression.enough
    match held : predictor.samples, enough with
    | first :: second :: rest, _ => exact absurd held (short first second rest)

/-- `Analyze` succeeds exactly on a progression. -/
theorem PortPredictor.analyze_iff_progression (predictor : PortPredictor) :
    predictor.analyze.2 = true ↔ ∃ step, Progression predictor.samples step := by
  constructor
  · intro derived
    rcases predictor.analyze_cases with forgot | ⟨step, _, regular⟩
    · rw [forgot] at derived
      cases derived
    · exact ⟨step, (progression_iff_regular (predictor.withStep step)).mpr regular⟩
  · rintro ⟨step, progression⟩
    rw [predictor.analyze_of_progression progression]

/-! ### What is guessed -/

/-- A port within 64 bits of a sampled one wraps around only when it is out of range anyway. -/
theorem inRange_bmod {last shift : Int} (port : 1 ≤ last ∧ last ≤ 65535)
    (bounded : -2 ^ 63 ≤ shift ∧ shift < 2 ^ 63) :
    inRange ((last + shift).bmod (2 ^ 64)) = inRange (last + shift) := by
  unfold inRange
  rw [Int.bmod_def]
  split_ifs
  all_goals omega

theorem inRange_eq (next : Int) :
    inRange next = if 1024 ≤ next ∧ next ≤ 65535 then next else 0 := by
  unfold inRange
  split_ifs
  all_goals omega

section Guesses

variable {predictor : PortPredictor} {step : Int}
  (progression : Progression predictor.samples step)
  (sampled : ∀ sample ∈ predictor.samples, 1 ≤ sample ∧ sample ≤ 65535)

include progression

/-- Once the step is known, a guess goes on from the last sample. -/
theorem Progression.predictForTarget_eq (offset : Int) :
    (predictor.withStep step).predictForTarget offset =
      inRange ((predictor.lastSample + step * offset).bmod (2 ^ 64)) :=
  if_neg fun refused => refused.elim progression.moving progression.nonempty

theorem Progression.predict_eq :
    (predictor.withStep step).predict = inRange (predictor.lastSample + step) :=
  if_neg fun refused => refused.elim progression.moving progression.nonempty

/-- A guess that is taken as a sample continues the progression. -/
theorem Progression.analyze_extend {port : Int} (follows : port = predictor.lastSample + step) :
    ((predictor.withStep step).extend port).analyze =
      ((predictor.withStep step).extend port, true) := by
  have regular := (progression_iff_regular (predictor.withStep step)).mp progression
  have extended : ((predictor.withStep step).extend port).Regular :=
    (regular.append_iff predictor.probeIdx port).mpr follows
  exact PortPredictor.analyze_of_progression ((progression_iff_regular _).mpr extended)

/-- The guesses go on from the new sample. -/
theorem Progression.predictForTarget_extend {port : Int}
    (follows : port = predictor.lastSample + step) (offset : Int) :
    ((predictor.withStep step).extend port).predictForTarget offset =
      (predictor.withStep step).predictForTarget (offset + 1) := by
  have last : ((predictor.withStep step).extend port).lastSample = port := by
    simp [PortPredictor.lastSample, PortPredictor.extend]
  have kept : ((predictor.withStep step).extend port).predictForTarget offset =
      inRange ((port + step * offset).bmod (2 ^ 64)) := by
    rw [PortPredictor.predictForTarget, last]
    exact if_neg fun refused => refused.elim progression.moving (by simp [PortPredictor.extend])
  rw [kept, progression.predictForTarget_eq, follows, mul_add, mul_one, add_assoc, add_comm step]

include sampled

theorem Progression.port_lastSample : 1 ≤ predictor.lastSample ∧ predictor.lastSample ≤ 65535 := by
  refine sampled _ ?_
  rw [PortPredictor.lastSample, List.getLast?_eq_some_getLast progression.nonempty]
  exact List.getLast_mem progression.nonempty

/-- The guess at an offset is the member of the progression there, if it is in range. -/
theorem Progression.predictForTarget {offset : Int}
    (bounded : -2 ^ 63 ≤ step * offset ∧ step * offset < 2 ^ 63) :
    (predictor.withStep step).predictForTarget offset =
      inRange (ahead predictor.samples step offset) := by
  rw [progression.predictForTarget_eq,
    inRange_bmod (progression.port_lastSample sampled) bounded, progression.lastSample, ahead]
  ring_nf

/-- The step between two ports is small. -/
theorem Progression.bounded_step : -2 ^ 63 ≤ step * 1 ∧ step * 1 < 2 ^ 63 := by
  have enough := progression.enough
  match held : predictor.samples, enough with
  | first :: second :: rest, _ =>
    have follows := progression.linear 1 second (by rw [held]; rfl)
    rw [held] at follows sampled
    have portFirst := sampled first (by simp)
    have portSecond := sampled second (by simp)
    simp only [List.headD_cons, Nat.cast_one, one_mul] at follows
    omega

theorem Progression.predict_eq_predictForTarget :
    (predictor.withStep step).predict = (predictor.withStep step).predictForTarget 1 := by
  have bounded := progression.bounded_step sampled
  rw [progression.predict_eq, progression.predictForTarget_eq,
    inRange_bmod (progression.port_lastSample sampled) bounded, mul_one]

end Guesses

/-- `Analyze` succeeds exactly on a progression and derives its step. The guesses are then the
members of the progression as far as they are in range. A guess for the next port that is taken as
a sample keeps the step and moves the other guesses up by one. -/
theorem predictor_extrapolates (predictor : PortPredictor)
    (sampled : ∀ sample ∈ predictor.samples, 1 ≤ sample ∧ sample ≤ 65535) :
    (predictor.analyze.2 = true ↔ ∃ step, Progression predictor.samples step) ∧
      ∀ step, Progression predictor.samples step →
        predictor.analyze = (predictor.withStep step, true) ∧
        (∀ offset, -2 ^ 63 ≤ step * offset ∧ step * offset < 2 ^ 63 →
          predictor.analyze.1.predictForTarget offset =
            if 1024 ≤ ahead predictor.samples step offset ∧
                ahead predictor.samples step offset ≤ 65535 then
              ahead predictor.samples step offset
            else 0) ∧
        predictor.analyze.1.predict = predictor.analyze.1.predictForTarget 1 ∧
        ∀ port, predictor.analyze.1.predict = port → port ≠ 0 →
          (predictor.analyze.1.extend port).analyze = (predictor.analyze.1.extend port, true) ∧
          ∀ offset, (predictor.analyze.1.extend port).predictForTarget offset =
            predictor.analyze.1.predictForTarget (offset + 1) := by
  refine ⟨predictor.analyze_iff_progression, fun step progression => ?_⟩
  rw [predictor.analyze_of_progression progression]
  refine ⟨rfl, ?_, progression.predict_eq_predictForTarget sampled, ?_⟩
  · intro offset bounded
    rw [← inRange_eq]
    exact progression.predictForTarget sampled bounded
  · intro port predicted nonzero
    have follows : port = predictor.lastSample + step := by
      have guess := progression.predict_eq
      rw [predicted, inRange] at guess
      split_ifs at guess
      · exact absurd guess nonzero
      · exact guess
    exact ⟨progression.analyze_extend follows, progression.predictForTarget_extend follows⟩

/-- Three samples two apart. -/
def evenSamples : PortPredictor :=
  { PortPredictor.new [] true with samples := [40000, 40002, 40004] }

theorem predictor_extrapolates_even :
    Progression evenSamples.samples 2 ∧ evenSamples.analyze.1.predictForTarget 3 = 40010 ∧
      evenSamples.analyze.1.predictForTarget (-20000) = 0 := by
  have progression : Progression evenSamples.samples 2 :=
    ⟨by decide, by decide, (isChain_iff_linear 2 40000 [40002, 40004]).mp (by decide)⟩
  obtain ⟨_, guesses⟩ := predictor_extrapolates evenSamples (by decide)
  obtain ⟨_, guess, _⟩ := guesses 2 progression
  exact ⟨progression, guess 3 (by decide), guess (-20000) (by decide)⟩

end WgMesh.Traversal
