/-
This file builds processes that talk to a world they do not control.

A process makes calls (it asks for the time, runs a command, sleeps) and the
world answers each of them and moves on. The world is a parameter of any type, so
a statement about all worlds covers every clock, every failure and every order of
events. The session records the calls made, in order, and a fault ends the
process.

`Emits` bounds the calls a process can make, and its rules follow the way
processes are put together. The world after some calls is a function of the calls,
so a run can also be described by its list of calls: what each of them was
answered, and what the world was like when it was made.
-/

import WgMesh.Go.Text

namespace Go

/-- A world, and the calls made to it so far. -/
structure Session (Call World : Type) where
  world : World
  calls : List Call

/-- A process that faults or returns a value. -/
abbrev Proc (Call World Value : Type) := StateT (Session Call World) (Except Panic) Value

variable {Call World First Second Value : Type} {Reply : Call → Type}

/-- Make a call and take the world's answer. -/
def perform (answer : (call : Call) → World → Reply call × World) (call : Call) :
    Proc Call World (Reply call) := fun session =>
  .ok ((answer call session.world).1,
    { world := (answer call session.world).2, calls := session.calls ++ [call] })

/-! ### Taking a process apart -/

theorem proc_bind_eq_ok {first : Proc Call World First} {rest : First → Proc Call World Second}
    {session : Session Call World} {result : Second × Session Call World} :
    (first >>= rest) session = .ok result ↔
      ∃ value middle, first session = .ok (value, middle) ∧ rest value middle = .ok result := by
  refine (@bind_eq_ok _ _ _ (first session) (fun pair => rest pair.1 pair.2) _).trans ⟨?_, ?_⟩
  · rintro ⟨⟨value, middle⟩, began, continued⟩
    exact ⟨value, middle, began, continued⟩
  · rintro ⟨value, middle, began, continued⟩
    exact ⟨(value, middle), began, continued⟩

/-- A process goes on from where its first part returned. -/
theorem proc_bind_of_ok {first : Proc Call World First} {rest : First → Proc Call World Second}
    {session middle : Session Call World} {value : First}
    (returned : first session = .ok (value, middle)) :
    (first >>= rest) session = rest value middle := by
  change (first session >>= fun pair => rest pair.1 pair.2) = rest value middle
  rw [returned]
  rfl

theorem proc_pure_eq_ok {value other : Value} {session next : Session Call World} :
    (pure value : Proc Call World Value) session = .ok (other, next) ↔
      other = value ∧ next = session := by
  constructor
  · intro equal
    cases equal
    exact ⟨rfl, rfl⟩
  · rintro ⟨rfl, rfl⟩
    rfl

theorem proc_lift_eq_ok {computation : Except Panic Value} {value : Value}
    {session next : Session Call World} :
    (liftM computation : Proc Call World Value) session = .ok (value, next) ↔
      computation = .ok value ∧ next = session := by
  refine (@bind_eq_ok _ _ _ computation (fun value => pure (value, session)) _).trans ⟨?_, ?_⟩
  · rintro ⟨other, returned, equal⟩
    cases equal
    exact ⟨returned, rfl⟩
  · rintro ⟨returned, rfl⟩
    exact ⟨value, returned, rfl⟩

theorem perform_eq_ok {answer : (call : Call) → World → Reply call × World} {call : Call}
    {reply : Reply call} {session next : Session Call World} :
    perform answer call session = .ok (reply, next) ↔
      reply = (answer call session.world).1 ∧
        next = { world := (answer call session.world).2, calls := session.calls ++ [call] } := by
  constructor
  · intro equal
    cases equal
    exact ⟨rfl, rfl⟩
  · rintro ⟨rfl, rfl⟩
    rfl

/-! ### Replaying calls -/

/-- The world after it has answered these calls. -/
def replay (answer : (call : Call) → World → Reply call × World) (world : World)
    (calls : List Call) : World :=
  calls.foldl (fun world call => (answer call world).2) world

/-- The session after these calls. -/
def Session.after (answer : (call : Call) → World → Reply call × World)
    (session : Session Call World) (calls : List Call) : Session Call World where
  world := replay answer session.world calls
  calls := session.calls ++ calls

/-- Every call gets a good answer. -/
def AllAnswered (answer : (call : Call) → World → Reply call × World)
    (Good : (call : Call) → Reply call → Prop) : World → List Call → Prop
  | _, [] => True
  | world, call :: rest => Good call (answer call world).1 ∧
      AllAnswered answer Good (answer call world).2 rest

/-- Some call gets a wanted answer. -/
def SomeAnswered (answer : (call : Call) → World → Reply call × World)
    (Wanted : (call : Call) → Reply call → Prop) : World → List Call → Prop
  | _, [] => False
  | world, call :: rest => Wanted call (answer call world).1 ∨
      SomeAnswered answer Wanted (answer call world).2 rest

section Replay

variable {answer : (call : Call) → World → Reply call × World}
  {Good Wanted : (call : Call) → Reply call → Prop}

theorem replay_append (world : World) (first second : List Call) :
    replay answer world (first ++ second) = replay answer (replay answer world first) second :=
  List.foldl_append

theorem Session.after_nil (session : Session Call World) : session.after answer [] = session := by
  rw [Session.after, List.append_nil]
  rfl

theorem Session.after_append (session : Session Call World) (first second : List Call) :
    session.after answer (first ++ second) = (session.after answer first).after answer second := by
  rw [Session.after, Session.after, Session.after, replay_append, List.append_assoc]

/-- A session tells which calls it is after. -/
theorem Session.after_injective {session : Session Call World} {first second : List Call}
    (same : session.after answer first = session.after answer second) : first = second :=
  List.append_cancel_left (congrArg Session.calls same)

theorem allAnswered_append {world : World} {first second : List Call} :
    AllAnswered answer Good world (first ++ second) ↔
      AllAnswered answer Good world first ∧
        AllAnswered answer Good (replay answer world first) second := by
  induction first generalizing world with
  | nil => exact (true_and _).symm.to_iff
  | cons call rest inductionHypothesis =>
    rw [List.cons_append, AllAnswered, inductionHypothesis, AllAnswered, and_assoc]
    rfl

theorem someAnswered_append {world : World} {first second : List Call} :
    SomeAnswered answer Wanted world (first ++ second) ↔
      SomeAnswered answer Wanted world first ∨
        SomeAnswered answer Wanted (replay answer world first) second := by
  induction first generalizing world with
  | nil => exact (false_or _).symm.to_iff
  | cons call rest inductionHypothesis =>
    rw [List.cons_append, SomeAnswered, inductionHypothesis, SomeAnswered, or_assoc]
    rfl

theorem allAnswered_of_forall {calls : List Call}
    (good : ∀ call ∈ calls, ∀ world, Good call (answer call world).1) (world : World) :
    AllAnswered answer Good world calls := by
  induction calls generalizing world with
  | nil => exact trivial
  | cons call rest inductionHypothesis =>
    obtain ⟨goodFirst, goodRest⟩ := List.forall_mem_cons.mp good
    exact ⟨goodFirst world, inductionHypothesis goodRest _⟩

theorem SomeAnswered.exists_call {world : World} {calls : List Call}
    (some : SomeAnswered answer Wanted world calls) :
    ∃ call ∈ calls, ∃ asked, Wanted call (answer call asked).1 := by
  induction calls generalizing world with
  | nil => exact some.elim
  | cons call rest inductionHypothesis =>
    rcases some with first | later
    · exact ⟨call, List.mem_cons_self, world, first⟩
    · obtain ⟨other, member, wanted⟩ := inductionHypothesis later
      exact ⟨other, List.mem_cons_of_mem _ member, wanted⟩

/-- What the answers to all calls preserve is preserved. -/
theorem replay_invariant (Inv : World → Prop)
    (preserved : ∀ call world, Inv world → Inv (answer call world).2) {world : World}
    (start : Inv world) (calls : List Call) : Inv (replay answer world calls) := by
  induction calls generalizing world with
  | nil => exact start
  | cons call rest inductionHypothesis => exact inductionHypothesis (preserved call world start)

theorem perform_eq_after {call : Call} {reply : Reply call} {session next : Session Call World} :
    perform answer call session = .ok (reply, next) ↔
      reply = (answer call session.world).1 ∧ next = session.after answer [call] :=
  perform_eq_ok

end Replay

/-! ### The calls a process makes -/

/-- Between two sessions, only calls of one kind were made, and the world answered them. -/
def Session.Emitted (answer : (call : Call) → World → Reply call × World) (Allowed : Call → Prop) :
    Session Call World → Session Call World → Prop :=
  Relation.ReflTransGen fun session next => ∃ call, Allowed call ∧
    next = { world := (answer call session.world).2, calls := session.calls ++ [call] }

section

variable {answer : (call : Call) → World → Reply call × World} {Allowed : Call → Prop}
  {session middle next : Session Call World}

theorem Session.Emitted.trans (first : Session.Emitted answer Allowed session middle)
    (second : Session.Emitted answer Allowed middle next) :
    Session.Emitted answer Allowed session next :=
  Relation.ReflTransGen.trans first second

theorem Session.Emitted.mono {Permitted : Call → Prop}
    (weaker : ∀ call, Allowed call → Permitted call)
    (emitted : Session.Emitted answer Allowed session next) :
    Session.Emitted answer Permitted session next := by
  induction emitted with
  | refl => exact Relation.ReflTransGen.refl
  | tail _ last inductionHypothesis =>
    obtain ⟨call, allowed, answered⟩ := last
    exact inductionHypothesis.tail ⟨call, weaker call allowed, answered⟩

/-- The session is the earlier one after the calls that were made. -/
theorem Session.Emitted.exists_after (emitted : Session.Emitted answer Allowed session next) :
    ∃ calls, next = session.after answer calls ∧ ∀ call ∈ calls, Allowed call := by
  induction emitted with
  | refl => exact ⟨[], session.after_nil.symm, List.forall_mem_nil _⟩
  | tail _ last inductionHypothesis =>
    obtain ⟨calls, rfl, allowed⟩ := inductionHypothesis
    obtain ⟨call, allowedToo, rfl⟩ := last
    refine ⟨calls ++ [call], (session.after_append calls [call]).symm, fun other member => ?_⟩
    rcases List.mem_append.mp member with earlier | same
    · exact allowed other earlier
    · exact List.mem_singleton.mp same ▸ allowedToo

/-- The calls that were made come after the earlier ones. -/
theorem Session.Emitted.calls (emitted : Session.Emitted answer Allowed session next) :
    ∃ calls, next.calls = session.calls ++ calls ∧ ∀ call ∈ calls, Allowed call := by
  obtain ⟨calls, rfl, allowed⟩ := emitted.exists_after
  exact ⟨calls, rfl, allowed⟩

/-- A session after allowed calls. -/
theorem Session.emitted_after {calls : List Call} (allowed : ∀ call ∈ calls, Allowed call) :
    Session.Emitted answer Allowed session (session.after answer calls) := by
  induction calls generalizing session with
  | nil =>
    rw [Session.after_nil]
    exact Relation.ReflTransGen.refl
  | cons call rest inductionHypothesis =>
    obtain ⟨allowedFirst, allowedRest⟩ := List.forall_mem_cons.mp allowed
    have first : Session.Emitted answer Allowed session (session.after answer [call]) :=
      Relation.ReflTransGen.single ⟨call, allowedFirst, rfl⟩
    rw [show call :: rest = [call] ++ rest from rfl, Session.after_append]
    exact first.trans (inductionHypothesis allowedRest)

theorem Session.Emitted.drop (emitted : Session.Emitted answer Allowed session next) :
    ∀ call ∈ next.calls.drop session.calls.length, Allowed call := by
  obtain ⟨calls, grown, allowed⟩ := emitted.calls
  rw [grown, List.drop_left]
  exact allowed

/-- What the answers to all these calls preserve is preserved. -/
theorem Session.Emitted.world_invariant (Inv : World → Prop)
    (preserved : ∀ call world, Allowed call → Inv world → Inv (answer call world).2)
    (start : Inv session.world) (emitted : Session.Emitted answer Allowed session next) :
    Inv next.world := by
  induction emitted with
  | refl => exact start
  | tail _ last inductionHypothesis =>
    obtain ⟨call, allowed, rfl⟩ := last
    exact preserved call _ allowed inductionHypothesis

/-- Between two sessions, a call of some kind was made. -/
def Session.Made (Wanted : Call → Prop) (session next : Session Call World) : Prop :=
  ∃ calls, next.calls = session.calls ++ calls ∧ ∃ call ∈ calls, Wanted call

variable {Wanted : Call → Prop}

theorem Session.Made.after (emitted : Session.Emitted answer Allowed session middle)
    (made : middle.Made Wanted next) : session.Made Wanted next := by
  obtain ⟨earlier, grown, _⟩ := emitted.calls
  obtain ⟨calls, grownAgain, call, member, wanted⟩ := made
  exact ⟨earlier ++ calls, by rw [grownAgain, grown, List.append_assoc], call,
    List.mem_append_right _ member, wanted⟩

theorem Session.Made.before (made : session.Made Wanted middle)
    (emitted : Session.Emitted answer Allowed middle next) : session.Made Wanted next := by
  obtain ⟨calls, grown, call, member, wanted⟩ := made
  obtain ⟨later, grownAgain, _⟩ := emitted.calls
  exact ⟨calls ++ later, by rw [grownAgain, grown, List.append_assoc], call,
    List.mem_append_left _ member, wanted⟩

theorem Session.Made.drop (made : session.Made Wanted next) :
    ∃ call ∈ next.calls.drop session.calls.length, Wanted call := by
  obtain ⟨calls, grown, found⟩ := made
  rw [grown, List.drop_left]
  exact found

/-- Between two sessions, a call got a wanted answer. -/
def Session.Answered (answer : (call : Call) → World → Reply call × World)
    (Wanted : (call : Call) → Reply call → Prop) (session next : Session Call World) : Prop :=
  ∃ calls, next = session.after answer calls ∧ SomeAnswered answer Wanted session.world calls

section Answered

variable {Wanted : (call : Call) → Reply call → Prop}

theorem Session.Answered.exists_call (answered : Session.Answered answer Wanted session next)
    (emitted : Session.Emitted answer Allowed session next) :
    ∃ call, Allowed call ∧ ∃ world, Wanted call (answer call world).1 := by
  obtain ⟨calls, rfl, wanted⟩ := answered
  obtain ⟨others, same, allowed⟩ := emitted.exists_after
  obtain rfl := Session.after_injective same
  obtain ⟨call, member, found⟩ := wanted.exists_call
  exact ⟨call, allowed call member, found⟩

theorem Session.not_answered_self : ¬ Session.Answered answer Wanted session session := by
  rintro ⟨calls, same, wanted⟩
  rw [← Session.after_injective (session.after_nil.trans same)] at wanted
  exact wanted

/-- A wanted answer came in the first part or in the second. -/
theorem Session.answered_iff {Permitted : Call → Prop}
    (first : Session.Emitted answer Allowed session middle)
    (second : Session.Emitted answer Permitted middle next) :
    Session.Answered answer Wanted session next ↔
      Session.Answered answer Wanted session middle ∨
        Session.Answered answer Wanted middle next := by
  obtain ⟨earlier, rfl, _⟩ := first.exists_after
  obtain ⟨later, rfl, _⟩ := second.exists_after
  constructor
  · rintro ⟨calls, same, wanted⟩
    rw [← Session.after_append] at same
    rw [← Session.after_injective same, someAnswered_append] at wanted
    exact wanted.imp (fun found => ⟨earlier, rfl, found⟩) fun found => ⟨later, rfl, found⟩
  · intro wanted
    refine ⟨earlier ++ later, (Session.after_append _ _ _).symm, someAnswered_append.mpr ?_⟩
    refine wanted.imp ?_ ?_
    · rintro ⟨calls, same, found⟩
      rwa [Session.after_injective same]
    · rintro ⟨calls, same, found⟩
      rwa [Session.after_injective same]

end Answered

end

/-- A process only makes calls of one kind. -/
def Emits (answer : (call : Call) → World → Reply call × World) (Allowed : Call → Prop)
    (process : Proc Call World Value) : Prop :=
  ∀ session value next, process session = .ok (value, next) →
    Session.Emitted answer Allowed session next

variable {answer : (call : Call) → World → Reply call × World} {Allowed : Call → Prop}

/-- A process that runs after some calls adds its own to them. -/
theorem Emits.exists_append {process : Proc Call World Value} (emits : Emits answer Allowed process)
    {session : Session Call World} {value : Value} {made calls : List Call}
    (ran : process (session.after answer made) = .ok (value, session.after answer calls)) :
    ∃ more, calls = made ++ more ∧ process (session.after answer made) =
      .ok (value, (session.after answer made).after answer more) := by
  obtain ⟨more, grown, _⟩ := (emits _ _ _ ran).exists_after
  refine ⟨more, ?_, by rw [ran, grown]⟩
  rw [← Session.after_append] at grown
  exact Session.after_injective grown

theorem emits_pure (value : Value) :
    Emits answer Allowed (pure value : Proc Call World Value) := by
  intro session other next returned
  obtain ⟨_, rfl⟩ := proc_pure_eq_ok.mp returned
  exact Relation.ReflTransGen.refl

theorem emits_lift (computation : Except Panic Value) :
    Emits answer Allowed (liftM computation : Proc Call World Value) := by
  intro session value next returned
  obtain ⟨_, rfl⟩ := proc_lift_eq_ok.mp returned
  exact Relation.ReflTransGen.refl

theorem emits_perform {call : Call} (allowed : Allowed call) :
    Emits answer Allowed (perform answer call) := by
  intro session reply next returned
  obtain ⟨_, rfl⟩ := perform_eq_ok.mp returned
  exact Relation.ReflTransGen.single ⟨call, allowed, rfl⟩

theorem emits_bind {first : Proc Call World First} {rest : First → Proc Call World Second}
    (began : Emits answer Allowed first) (continues : ∀ value, Emits answer Allowed (rest value)) :
    Emits answer Allowed (first >>= rest) := by
  intro session value next returned
  obtain ⟨reply, middle, ran, continued⟩ := proc_bind_eq_ok.mp returned
  exact (began session reply middle ran).trans (continues reply middle value next continued)

theorem emits_ite {condition : Prop} [Decidable condition] {first second : Proc Call World Value}
    (whenTrue : condition → Emits answer Allowed first)
    (whenFalse : ¬ condition → Emits answer Allowed second) :
    Emits answer Allowed (if condition then first else second) := by
  split
  · exact whenTrue ‹_›
  · exact whenFalse ‹_›

/-! ### Processes that never fault -/

/-- A process returns in every session. -/
def Total (process : Proc Call World Value) : Prop :=
  ∀ session, ∃ value next, process session = .ok (value, next)

theorem total_pure (value : Value) : Total (pure value : Proc Call World Value) :=
  fun session => ⟨value, session, rfl⟩

theorem total_perform (call : Call) : Total (perform answer call) := fun _ => ⟨_, _, rfl⟩

theorem total_bind {first : Proc Call World First} {rest : First → Proc Call World Second}
    (began : Total first) (continues : ∀ value, Total (rest value)) : Total (first >>= rest) := by
  intro session
  obtain ⟨value, middle, ran⟩ := began session
  obtain ⟨last, next, continued⟩ := continues value middle
  exact ⟨last, next, (proc_bind_of_ok ran).trans continued⟩

theorem total_ite {condition : Prop} [Decidable condition] {first second : Proc Call World Value}
    (whenTrue : Total first) (whenFalse : Total second) :
    Total (if condition then first else second) := by
  split
  · exact whenTrue
  · exact whenFalse

end Go
