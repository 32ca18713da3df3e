/-
This file builds runs of a partial step function. A label carries every choice
that is not the system's own: which party moves, what the network delivers, what
a command returns. A step that is not enabled has no result, and a run is a list
of labels that are enabled one after another.

`Always` says that a property holds in every state of a run and `Along` that
every step of a run meets a condition in the state it starts from. When a
condition is exactly what keeps an invariant, the two are the same.
-/

import Mathlib

namespace Runs

variable {State Label : Type}

/-- The state after a list of steps, if all of them are enabled. -/
def run (step : State → Label → Option State) (state : State) (labels : List Label) :
    Option State :=
  labels.foldlM step state

/-- A property holds in every state of a run. -/
def Always (step : State → Label → Option State) (Holds : State → Prop) :
    State → List Label → Prop
  | state, [] => Holds state
  | state, label :: rest => Holds state ∧
      ∀ next, step state label = some next → Always step Holds next rest

/-- Every step of a run meets a condition. -/
def Along (step : State → Label → Option State) (Good : State → Label → Prop) :
    State → List Label → Prop
  | _, [] => True
  | state, label :: rest => Good state label ∧
      ∀ next, step state label = some next → Along step Good next rest

variable {step : State → Label → Option State}

instance Along.decidable {Good : State → Label → Prop} [∀ state, DecidablePred (Good state)] :
    (state : State) → (labels : List Label) → Decidable (Along step Good state labels)
  | _, [] => isTrue trivial
  | state, label :: rest =>
    match stepped : step state label with
    | none => decidable_of_iff (Good state label)
        ⟨fun good => ⟨good, fun _ other => by rw [stepped] at other; cases other⟩, And.left⟩
    | some next =>
      have : Decidable (Along step Good next rest) := Along.decidable next rest
      decidable_of_iff (Good state label ∧ Along step Good next rest)
        ⟨fun both => ⟨both.1, fun _ other => by
            rw [stepped] at other
            cases other
            exact both.2⟩,
          fun along => ⟨along.1, along.2 next stepped⟩⟩

theorem run_cons {state last : State} {label : Label} {rest : List Label} :
    run step state (label :: rest) = some last ↔
      ∃ next, step state label = some next ∧ run step next rest = some last := by
  rw [run, List.foldlM_cons]
  exact Option.bind_eq_some_iff

theorem run_append {state last : State} {first second : List Label} :
    run step state (first ++ second) = some last ↔
      ∃ middle, run step state first = some middle ∧ run step middle second = some last := by
  rw [run, List.foldlM_append]
  exact Option.bind_eq_some_iff

/-- What every step preserves holds at the end of every run. -/
theorem run_invariant (Inv : State → Prop)
    (preserved : ∀ state label next, Inv state → step state label = some next → Inv next)
    {state last : State} {labels : List Label} (start : Inv state)
    (ran : run step state labels = some last) : Inv last := by
  induction labels generalizing state with
  | nil =>
    cases ran
    exact start
  | cons label rest inductionHypothesis =>
    obtain ⟨next, stepped, remaining⟩ := run_cons.mp ran
    exact inductionHypothesis (preserved state label next start stepped) remaining

/-- What holds throughout a run holds at its end. -/
theorem Always.last {Holds : State → Prop} {state last : State} {labels : List Label}
    (always : Always step Holds state labels) (ran : run step state labels = some last) :
    Holds last := by
  induction labels generalizing state with
  | nil =>
    cases ran
    exact always
  | cons label rest inductionHypothesis =>
    obtain ⟨next, stepped, remaining⟩ := run_cons.mp ran
    exact inductionHypothesis (always.2 next stepped) remaining

/-- A condition that keeps an invariant, and whose failure breaks the property the invariant
implies, holds along a run exactly when the property holds throughout it. -/
theorem always_iff_along (Inv : State → Prop) {Holds : State → Prop}
    {Good : State → Label → Prop}
    (holds : ∀ state, Inv state → Holds state)
    (kept : ∀ state label next, Inv state → Good state label →
      step state label = some next → Inv next)
    (broken : ∀ state label next, Inv state → ¬ Good state label →
      step state label = some next → ¬ Holds next)
    {state : State} {labels : List Label} (start : Inv state)
    (enabled : (run step state labels).isSome) :
    Always step Holds state labels ↔ Along step Good state labels := by
  induction labels generalizing state with
  | nil => exact iff_of_true (holds state start) trivial
  | cons label rest inductionHypothesis =>
    obtain ⟨last, ran⟩ := Option.isSome_iff_exists.mp enabled
    obtain ⟨next, stepped, remaining⟩ := run_cons.mp ran
    have only : ∀ other, step state label = some other → other = next := by
      intro other stepped'
      rw [stepped] at stepped'
      exact (Option.some.inj stepped').symm
    rw [Always, Along]
    constructor
    · rintro ⟨_, always⟩
      have good : Good state label := by
        by_contra bad
        refine broken state label next start bad stepped ?_
        cases rest with
        | nil => exact always next stepped
        | cons _ _ => exact (always next stepped).1
      refine ⟨good, fun other stepped' => ?_⟩
      rw [only other stepped']
      exact (inductionHypothesis (kept state label next start good stepped)
        (by rw [remaining]; rfl)).mp (always next stepped)
    · rintro ⟨good, along⟩
      refine ⟨holds state start, fun other stepped' => ?_⟩
      rw [only other stepped']
      exact (inductionHypothesis (kept state label next start good stepped)
        (by rw [remaining]; rfl)).mpr (along next stepped)

end Runs
