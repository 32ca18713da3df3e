/-
This file follows the signals that ask a daemon to end.

`main` has one channel for them, with room for a single signal, and two receivers:
the refresh loop, which returns when it gets one, and `main` itself, which then
stops the protocols and returns. A signal is taken by one of the two. If it is the
refresh loop, the daemon stays up and serves its connections, but discovers
nothing any more: whatever happens to its network, it announces the endpoint that
was the latest when the signal came.
-/

import WgMesh.Meshd.Announcement

namespace WgMesh.Meshd

open Go Dht

/-- A daemon that is up, with its channel for signals. -/
structure Runtime where
  announcer : Announcer
  /-- The signal in the channel. -/
  pending : Bool
  /-- The refresh loop has not returned. -/
  refreshing : Bool
  /-- `main` has not got its signal. -/
  waiting : Bool

/-- The daemon once it is running. -/
def Runtime.start (announcer : Announcer) : Runtime where
  announcer := announcer
  pending := false
  refreshing := true
  waiting := true

/-- What happens to a daemon and its goroutines. -/
inductive Incident where
  | signal
  /-- The refresh loop takes the signal. -/
  | refreshEnds
  /-- `main` takes the signal. -/
  | mainEnds
  | occurs (occurrence : Occurrence)

/-- The refresh loop is needed for its ticks only. -/
def Occurrence.isTick : Occurrence → Bool
  | .refresh _ => true
  | _ => false

/-- One incident, if it can happen and does not fault. A signal that finds the channel full is
dropped. The other goroutines run until the process is gone. -/
def Runtime.step (flags : Flags) (process : Runtime) : Incident → Option Runtime
  | .signal => some { process with pending := true }
  | .refreshEnds =>
    if process.pending ∧ process.refreshing then
      some { process with pending := false, refreshing := false }
    else none
  | .mainEnds =>
    if process.pending ∧ process.waiting then
      some { process with pending := false, waiting := false }
    else none
  | .occurs occurrence =>
    if occurrence.isTick → process.refreshing then do
      let announcer ← (process.announcer.step flags occurrence).toOption
      return { process with announcer := announcer }
    else none

/-! ### What the incidents amount to -/

def Incident.isSignal : Incident → Bool
  | .signal => true
  | _ => false

def Incident.isRefreshEnd : Incident → Bool
  | .refreshEnds => true
  | _ => false

def Incident.occurrence : Incident → Option Occurrence
  | .occurs occurrence => some occurrence
  | _ => none

/-- The number of signals that were sent. -/
def signals (incidents : List Incident) : Nat := incidents.countP Incident.isSignal

/-- The occurrences before the refresh loop returned. -/
def refreshed (incidents : List Incident) : List Occurrence :=
  (incidents.takeWhile fun incident => !incident.isRefreshEnd).filterMap Incident.occurrence

/-- The number of receivers that have got their signal. -/
def Runtime.ended (process : Runtime) : Nat :=
  (!process.refreshing).toNat + (!process.waiting).toNat

variable {flags : Flags} {process next last : Runtime} {incidents : List Incident}

/-- What an incident does, with what it takes to happen. -/
inductive Runtime.Moves (flags : Flags) (process : Runtime) : Incident → Runtime → Prop
  | signal : Moves flags process .signal { process with pending := true }
  | refreshEnds (pending : process.pending = true) (refreshing : process.refreshing = true) :
    Moves flags process .refreshEnds { process with pending := false, refreshing := false }
  | mainEnds (pending : process.pending = true) (waiting : process.waiting = true) :
    Moves flags process .mainEnds { process with pending := false, waiting := false }
  | occurs {occurrence : Occurrence} {announcer : Announcer}
    (possible : occurrence.isTick = true → process.refreshing = true)
    (occurred : process.announcer.step flags occurrence = .ok announcer) :
    Moves flags process (.occurs occurrence) { process with announcer := announcer }

theorem Runtime.moves_of_step {incident : Incident}
    (stepped : process.step flags incident = some next) : process.Moves flags incident next := by
  cases incident with
  | signal =>
    cases stepped
    exact .signal
  | refreshEnds =>
    obtain ⟨⟨pending, refreshing⟩, same⟩ := Option.ite_none_right_eq_some.mp stepped
    cases same
    exact .refreshEnds pending refreshing
  | mainEnds =>
    obtain ⟨⟨pending, waiting⟩, same⟩ := Option.ite_none_right_eq_some.mp stepped
    cases same
    exact .mainEnds pending waiting
  | occurs occurrence =>
    obtain ⟨possible, stepped⟩ := Option.ite_none_right_eq_some.mp stepped
    obtain ⟨announcer, occurred, same⟩ := Option.bind_eq_some_iff.mp stepped
    cases same
    exact .occurs possible (toOption_eq_some occurred)

/-- Every receiver that has ended has used up a signal. -/
theorem Runtime.Moves.ended {incident : Incident} (moved : process.Moves flags incident next) :
    next.ended + next.pending.toNat ≤
      process.ended + process.pending.toNat + signals [incident] := by
  cases moved with
  | signal => exact Nat.add_le_add_right (Nat.le_add_right _ _) 1
  | refreshEnds pending refreshing =>
    simp only [Runtime.ended, pending, refreshing]
    show 1 + (!process.waiting).toNat + 0 ≤ 0 + (!process.waiting).toNat + 1 + 0
    omega
  | mainEnds pending waiting =>
    simp only [Runtime.ended, pending, waiting]
    exact le_rfl
  | occurs possible occurred => exact Nat.le_add_right _ _

end WgMesh.Meshd
