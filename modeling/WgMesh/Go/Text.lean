/-
This file models the strings of the source language and the faults that end one
of its processes.

A Go string is a sequence of bytes. Nothing makes it valid UTF-8: a string that
arrives over the network may hold any bytes, and slicing it counts bytes. An
index or slice expression out of range ends the process, so a function that
contains one returns in `Except Panic`; a fault in a callee ends the caller too,
which is the bind of that monad. `Returns` says that a computation does not
fault, and its rules take a composed computation apart.
-/

import Mathlib

namespace Go

/-- A Go string: any sequence of bytes. -/
abbrev Text := List UInt8

/-- The bytes of an ASCII literal. -/
def text (literal : String) : Text :=
  literal.toList.map fun char => UInt8.ofNat char.toNat

/-- The run-time faults that end a process. -/
inductive Panic where
  | indexOutOfRange
  | sliceOutOfRange
  deriving DecidableEq, Repr

/-- The slice expression `s[:count]`. -/
def upTo (s : Text) (count : Nat) : Except Panic Text :=
  if count ≤ s.length then .ok (s.take count) else .error .sliceOutOfRange

/-- The slice expression `s[low:high]`. -/
def slice (s : Text) (low high : Nat) : Except Panic Text :=
  if low ≤ high ∧ high ≤ s.length then .ok ((s.take high).drop low) else .error .sliceOutOfRange

/-- The index expression `data[index]`. -/
def byteAt (data : List UInt8) (index : Nat) : Except Panic UInt8 :=
  match data[index]? with
  | some byte => .ok byte
  | none => .error .indexOutOfRange

/-- `strings.Contains`. -/
def contains (s part : Text) : Bool :=
  s.tails.any fun rest => part.isPrefixOf rest

/-! ### Computations that return -/

/-- A computation returns when no fault ends it. -/
def Returns {Value : Type} (computation : Except Panic Value) : Prop :=
  ∃ value, computation = .ok value

@[simp] theorem returns_ok {Value : Type} (value : Value) :
    Returns (.ok value : Except Panic Value) := ⟨value, rfl⟩

@[simp] theorem returns_pure {Value : Type} (value : Value) :
    Returns (pure value : Except Panic Value) := ⟨value, rfl⟩

@[simp] theorem not_returns_error {Value : Type} (panic : Panic) :
    ¬ Returns (.error panic : Except Panic Value) := by
  rintro ⟨value, equal⟩
  cases equal

theorem toOption_eq_some {Value : Type} {result : Except Panic Value} {value : Value}
    (returned : result.toOption = some value) : result = .ok value := by
  cases result with
  | error fault => cases returned
  | ok other =>
    cases returned
    rfl

theorem returns_upTo (s : Text) (count : Nat) : Returns (upTo s count) ↔ count ≤ s.length := by
  unfold upTo
  split
  · simp [*]
  · simp [*]

/-- A slice between two cuts is what stands between them. -/
theorem slice_append (before middle after : Text) :
    slice (before ++ middle ++ after) before.length (before ++ middle).length = .ok middle := by
  have bounds : before.length ≤ (before ++ middle).length ∧
      (before ++ middle).length ≤ (before ++ middle ++ after).length := by
    simp only [List.length_append]
    omega
  rw [slice, if_pos bounds, List.take_left, List.drop_left]

theorem byteAt_eq_ok {data : List UInt8} {index : Nat} {byte : UInt8} :
    byteAt data index = .ok byte ↔ data[index]? = some byte := by
  unfold byteAt
  cases data[index]? with
  | none => simp
  | some other => simp

theorem bind_eq_ok {Fault First Second : Type} {computation : Except Fault First}
    {continuation : First → Except Fault Second} {result : Second} :
    computation >>= continuation = .ok result ↔
      ∃ value, computation = .ok value ∧ continuation value = .ok result := by
  cases computation with
  | error fault =>
    constructor
    · intro equal
      cases equal
    · rintro ⟨value, equal, _⟩
      cases equal
  | ok value =>
    constructor
    · intro equal
      exact ⟨value, rfl, equal⟩
    · rintro ⟨value', equal, continued⟩
      cases equal
      exact continued

theorem returns_bind {First Second : Type} {computation : Except Panic First}
    {continuation : First → Except Panic Second} :
    Returns (computation >>= continuation) ↔
      ∃ value, computation = .ok value ∧ Returns (continuation value) := by
  constructor
  · rintro ⟨result, equal⟩
    obtain ⟨value, first, second⟩ := bind_eq_ok.mp equal
    exact ⟨value, first, result, second⟩
  · rintro ⟨value, first, result, second⟩
    exact ⟨result, bind_eq_ok.mpr ⟨value, first, second⟩⟩

/-- A computation whose result is dropped only matters through its faults. -/
theorem returns_bind_const {First Second : Type} {computation : Except Panic First}
    {continuation : Except Panic Second} :
    Returns (computation >>= fun _ => continuation) ↔
      Returns computation ∧ Returns continuation := by
  rw [returns_bind]
  constructor
  · rintro ⟨value, first, second⟩
    exact ⟨⟨value, first⟩, second⟩
  · rintro ⟨⟨value, first⟩, second⟩
    exact ⟨value, first, second⟩

/-! ### A computation for each item of a list -/

theorem mapM_of_ok {Item Value : Type} {computation : Item → Except Panic Value}
    {value : Item → Value} {items : List Item}
    (returned : ∀ item ∈ items, computation item = .ok (value item)) :
    items.mapM computation = .ok (items.map value) := by
  induction items with
  | nil => rfl
  | cons item rest inductionHypothesis =>
    obtain ⟨first, others⟩ := List.forall_mem_cons.mp returned
    rw [List.mapM_cons, first, inductionHypothesis others]
    rfl

theorem returns_mapM {Item Value : Type} {computation : Item → Except Panic Value}
    {items : List Item} :
    Returns (items.mapM computation) ↔ ∀ item ∈ items, Returns (computation item) := by
  induction items with
  | nil => exact iff_of_true (returns_pure _) (by simp)
  | cons item rest inductionHypothesis =>
    rw [List.mapM_cons, List.forall_mem_cons, ← inductionHypothesis, returns_bind]
    refine ⟨?_, ?_⟩
    · rintro ⟨value, returned, others⟩
      obtain ⟨values, returnedOthers, _⟩ := returns_bind.mp others
      exact ⟨⟨value, returned⟩, values, returnedOthers⟩
    · rintro ⟨⟨value, returned⟩, values, returnedOthers⟩
      exact ⟨value, returned, returns_bind.mpr ⟨values, returnedOthers, returns_pure _⟩⟩

theorem exists_of_mapM_eq_ok {Item Value : Type} [Nonempty Value]
    {computation : Item → Except Panic Value} {items : List Item} {results : List Value}
    (returned : items.mapM computation = .ok results) :
    ∃ value : Item → Value,
      (∀ item ∈ items, computation item = .ok (value item)) ∧ results = items.map value := by
  choose! value each using returns_mapM.mp ⟨results, returned⟩
  refine ⟨value, each, ?_⟩
  rw [mapM_of_ok each] at returned
  exact (Except.ok.inj returned).symm

end Go
