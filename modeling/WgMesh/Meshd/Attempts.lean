/-
This file times the commands of a process. Each command of some kind that a
process has made becomes an attempt: when it was made, when it returned, and
whether it succeeded. That a process pauses between its commands is then a
statement about a list of attempts.
-/

import WgMesh.Meshd.Pacing

namespace WgMesh.Meshd

open Go Uapi

variable {World : Type}

/-- A command between two readings of the clock. -/
structure Attempt where
  began : Int
  ended : Int
  succeeded : Bool
  deriving DecidableEq, Repr

def Env.attempt (env : Env World) (clock : World → Int) (call : Call) (world : World) :
    Attempt where
  began := clock world
  ended := clock (env.answer call world).2
  succeeded := env.succeeds call world

/-- The commands of a kind among some calls. -/
def Env.attempts (env : Env World) (clock : World → Int) (wanted : Call → Bool) :
    World → List Call → List Attempt
  | _, [] => []
  | world, call :: rest =>
    (if wanted call then [env.attempt clock call world] else []) ++
      env.attempts clock wanted (env.answer call world).2 rest

/-- An attempt that succeeds is followed by a pause. -/
def Spaced (pause : Int) (attempts : List Attempt) : Prop :=
  attempts.Pairwise fun first second => first.succeeded = true →
    first.ended + pause ≤ second.began

/-- All attempts that succeeded had ended by this time. -/
def EndBy (time : Int) (attempts : List Attempt) : Prop :=
  ∀ attempt ∈ attempts, attempt.succeeded = true → attempt.ended ≤ time

theorem EndBy.mono {earlier later : Int} {attempts : List Attempt} (le : earlier ≤ later)
    (endBy : EndBy earlier attempts) : EndBy later attempts :=
  fun attempt member succeeded => (endBy attempt member succeeded).trans le

variable {env : Env World} {clock : World → Int} {wanted : Call → Bool}

theorem Env.attempts_append (world : World) (first second : List Call) :
    env.attempts clock wanted world (first ++ second) =
      env.attempts clock wanted world first ++
        env.attempts clock wanted (replay env.answer world first) second := by
  induction first generalizing world with
  | nil => rfl
  | cons call rest inductionHypothesis =>
    rw [List.cons_append, Env.attempts, inductionHypothesis, ← List.append_assoc]
    rfl

theorem Env.attempts_eq_nil {calls : List Call} (none : ∀ call ∈ calls, wanted call = false)
    (world : World) : env.attempts clock wanted world calls = [] := by
  induction calls generalizing world with
  | nil => rfl
  | cons call rest inductionHypothesis =>
    rw [Env.attempts, none call List.mem_cons_self]
    exact inductionHypothesis (fun other member => none other (List.mem_cons_of_mem _ member)) _

theorem Env.attempts_append_of_none {calls more : List Call}
    (none : ∀ call ∈ more, wanted call = false) (world : World) :
    env.attempts clock wanted world (calls ++ more) = env.attempts clock wanted world calls := by
  rw [Env.attempts_append, Env.attempts_eq_nil none, List.append_nil]

/-- The commands of a process are made after it starts. -/
theorem Env.Clocked.began_ge (clocked : env.Clocked clock) {world : World} {calls : List Call} :
    ∀ attempt ∈ env.attempts clock wanted world calls, clock world ≤ attempt.began := by
  induction calls generalizing world with
  | nil => exact List.forall_mem_nil _
  | cons call rest inductionHypothesis =>
    intro attempt member
    rcases List.mem_append.mp member with first | later
    · split at first
      · rw [List.mem_singleton.mp first]
        exact le_rfl
      · cases first
    · exact (clocked.forward call world).trans (inductionHypothesis attempt later)

end WgMesh.Meshd
