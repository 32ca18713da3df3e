/-
This file settles which commands a blind scan issues. They are one for each
candidate of a beginning of the priority list, in its order: the first installs
its candidate together with the routing attributes, the others set the endpoint.
The whole list is swept unless a handshake is found, the budget runs out or the
scan is cancelled, and what is reported is the candidate tried last.
-/

import WgMesh.Meshd.Pacing

namespace WgMesh.Meshd

open Go Uapi

variable {World : Type}

/-- The commands for some candidates, the first of which has this index. -/
def ScanArgs.sweep (args : ScanArgs) (host : Text) (index : Nat) (ports : List Nat) : List Call :=
  (ports.zipIdx index).map fun entry => args.command entry.2 (joinHostPort host (itoa entry.1))

/-- An answer that ends a scan early. -/
def Interrupts (deadline : Int) : (call : Call) → Reply call → Prop
  | .now, now => deadline < now
  | .done, cancelled => cancelled = true
  | .sleep _, cancelled => cancelled = true
  | _, _ => False

/-- How far a scan has come that has made these calls and returned this. -/
structure Swept (env : Env World) (args : ScanArgs) (host : Text) (scanStarted : Int) (index : Nat)
    (ports : List Nat) (world : World) (calls : List Call) (result : Option Text)
    (tried : List Nat) : Prop where
  beginning : tried <+: ports
  commands : calls.filter Call.isCommand = args.sweep host index tried
  /-- The candidate that is reported is the last one that was tried. -/
  reported : ∀ endpoint, result = some endpoint →
    ∃ port, tried.getLast? = some port ∧ endpoint = joinHostPort host (itoa port)
  /-- A scan that reports nothing and was not interrupted has tried all candidates. -/
  complete : result = none → tried = ports ∨
    SomeAnswered env.answer (Interrupts (scanStarted + args.effectiveBudget)) world calls

/-! ### The commands of one round -/

section

variable {env : Env World} {args : ScanArgs} {host : Text} {scanStarted : Int} {index : Nat}
  {endpoint : Text} {world : World} {calls : List Call}

theorem ScanArgs.sweep_cons (args : ScanArgs) (host : Text) (index port : Nat)
    (rest : List Nat) :
    args.sweep host index (port :: rest) =
      args.command index (joinHostPort host (itoa port)) :: args.sweep host (index + 1) rest :=
  rfl

/-- One more candidate in front. -/
theorem Swept.cons {port : Nat} {ports tried : List Nat} {more : List Call} {result : Option Text}
    (first : calls.filter Call.isCommand = [args.command index (joinHostPort host (itoa port))])
    (swept : Swept env args host scanStarted (index + 1) ports
      (replay env.answer world calls) more result tried) :
    Swept env args host scanStarted index (port :: ports) world (calls ++ more) result
      (port :: tried) where
  beginning := (List.prefix_cons_inj port).mpr swept.beginning
  commands := by
    rw [List.filter_append, first, swept.commands, args.sweep_cons]
    rfl
  reported := by
    intro endpoint reported
    obtain ⟨last, isLast, same⟩ := swept.reported endpoint reported
    refine ⟨last, ?_, same⟩
    rw [List.getLast?_cons, isLast]
    rfl
  complete := by
    intro none
    refine (swept.complete none).imp (congrArg (port :: ·)) fun interrupted => ?_
    exact someAnswered_append.mpr (Or.inr interrupted)

end

end WgMesh.Meshd
