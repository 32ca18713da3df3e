/-
This file models `sort.Slice` with a comparison that may fault.

The library leaves the order of the comparisons and of elements that compare
equal open. The model is the insertion sort the library runs on short ranges:
each element in turn is moved down past the larger ones before it. The result is
a permutation of the input. When a comparison returns exactly if both of its
arguments are good, the sort returns exactly if there is nothing to compare or
every element is good: a sort cannot place an element it has never compared.
When the comparison is that of ranks in a linear order, the result is sorted.
-/

import WgMesh.Go.Text

namespace Go

variable {Element : Type}

/-- Move one element down a sorted range, held with its largest element first. -/
def sinkInto (less : Element → Element → Except Panic Bool) (element : Element) :
    List Element → Except Panic (List Element)
  | [] => .ok [element]
  | top :: rest => do
    if ← less element top then
      return top :: (← sinkInto less element rest)
    else
      return element :: top :: rest

/-- `sort.Slice`. -/
def sortSlice (less : Element → Element → Except Panic Bool) (elements : List Element) :
    Except Panic (List Element) := do
  let sorted ← elements.foldlM (fun range element => sinkInto less element range) []
  return sorted.reverse

variable {less : Element → Element → Except Panic Bool}

/-! ### The result is a permutation -/

theorem sinkInto_perm {element : Element} {range result : List Element}
    (sunk : sinkInto less element range = .ok result) : result.Perm (element :: range) := by
  induction range generalizing result with
  | nil =>
    cases sunk
    exact List.Perm.refl _
  | cons top rest inductionHypothesis =>
    obtain ⟨smaller, _, branch⟩ := bind_eq_ok.mp sunk
    cases smaller with
    | true =>
      obtain ⟨moved, sunkRest, equal⟩ := bind_eq_ok.mp branch
      cases equal
      exact ((inductionHypothesis sunkRest).cons top).trans (List.Perm.swap element top rest)
    | false =>
      cases branch
      exact List.Perm.refl _

theorem foldlM_sinkInto_perm {elements range result : List Element}
    (folded : elements.foldlM (fun range element => sinkInto less element range) range =
      .ok result) : result.Perm (range ++ elements) := by
  induction elements generalizing range with
  | nil =>
    cases folded
    rw [List.append_nil]
  | cons element rest inductionHypothesis =>
    rw [List.foldlM_cons] at folded
    obtain ⟨next, sunk, remaining⟩ := bind_eq_ok.mp folded
    refine (inductionHypothesis remaining).trans ?_
    refine ((sinkInto_perm sunk).append_right rest).trans ?_
    exact List.perm_middle.symm

theorem sortSlice_perm {elements sorted : List Element}
    (returned : sortSlice less elements = .ok sorted) : sorted.Perm elements := by
  obtain ⟨folded, ran, equal⟩ := bind_eq_ok.mp returned
  cases equal
  exact (List.reverse_perm folded).trans (foldlM_sinkInto_perm ran)

/-! ### When the sort returns -/

section Good

variable {Good : Element → Prop}

theorem good_of_mem_sinkInto {element : Element} {range result : List Element}
    (sunk : sinkInto less element range = .ok result) (good : Good element)
    (allGood : ∀ other ∈ range, Good other) : ∀ other ∈ result, Good other := by
  intro other member
  rcases List.mem_cons.mp ((sinkInto_perm sunk).mem_iff.mp member) with rfl | old
  · exact good
  · exact allGood other old

variable
  (returnsLess : ∀ first second, Returns (less first second) ↔ Good first ∧ Good second)

include returnsLess

theorem returns_sinkInto_of_good {element : Element} {range : List Element}
    (good : Good element) (allGood : ∀ other ∈ range, Good other) :
    Returns (sinkInto less element range) := by
  induction range with
  | nil => exact returns_ok _
  | cons top rest inductionHypothesis =>
    obtain ⟨smaller, compared⟩ :=
      (returnsLess element top).mpr ⟨good, allGood top List.mem_cons_self⟩
    refine returns_bind.mpr ⟨smaller, compared, ?_⟩
    cases smaller with
    | true =>
      obtain ⟨moved, sunk⟩ := inductionHypothesis fun other member =>
        allGood other (List.mem_cons_of_mem _ member)
      exact returns_bind.mpr ⟨moved, sunk, returns_pure _⟩
    | false => exact returns_pure _

theorem good_of_sinkInto {element top : Element} {rest : List Element}
    (returned : Returns (sinkInto less element (top :: rest))) : Good element ∧ Good top := by
  obtain ⟨smaller, compared, _⟩ := returns_bind.mp returned
  exact (returnsLess element top).mp ⟨smaller, compared⟩

/-- A range of at most one element is good as soon as another element was compared with it. -/
theorem good_of_sinkInto_seen {element top : Element} {others result : List Element}
    (seen : (top :: others).length ≤ 1 ∨ ∀ other ∈ top :: others, Good other)
    (sunk : sinkInto less element (top :: others) = .ok result) :
    ∀ other ∈ top :: others, Good other := by
  rcases seen with short | allGood
  · have empty : others = [] := by
      simp only [List.length_cons] at short
      exact List.length_eq_zero_iff.mp (by omega)
    intro other member
    rw [empty, List.mem_singleton] at member
    exact member ▸ (good_of_sinkInto returnsLess ⟨result, sunk⟩).2
  · exact allGood

/-- The range sorted so far holds at most one element, or only good ones: the sort has
compared each of them. -/
theorem returns_foldlM_sinkInto (elements range : List Element)
    (seen : range.length ≤ 1 ∨ ∀ other ∈ range, Good other) :
    Returns (elements.foldlM (fun range element => sinkInto less element range) range) ↔
      elements = [] ∨ range.length + elements.length ≤ 1 ∨
        ((∀ other ∈ range, Good other) ∧ ∀ other ∈ elements, Good other) := by
  induction elements generalizing range with
  | nil => simp
  | cons element rest inductionHypothesis =>
    rw [List.foldlM_cons, returns_bind]
    match range, seen with
    | [], _ =>
      simp only [sinkInto, Except.ok.injEq, exists_eq_left', List.length_nil, List.length_cons,
        List.not_mem_nil, false_implies, implies_true, true_and, reduceCtorEq, false_or]
      rw [inductionHypothesis [element] (Or.inl (by simp))]
      cases rest with
      | nil => simp
      | cons second others => simp
    | top :: others, seen =>
      have lengthLarge : ¬ (top :: others).length + (element :: rest).length ≤ 1 := by
        simp only [List.length_cons]
        omega
      simp only [reduceCtorEq, lengthLarge, false_or]
      constructor
      · rintro ⟨next, sunk, remaining⟩
        have elementGood := (good_of_sinkInto returnsLess ⟨next, sunk⟩).1
        have rangeGood := good_of_sinkInto_seen returnsLess seen sunk
        have nextGood := good_of_mem_sinkInto sunk elementGood rangeGood
        refine ⟨rangeGood, List.forall_mem_cons.mpr ⟨elementGood, ?_⟩⟩
        rcases (inductionHypothesis next (Or.inr nextGood)).mp remaining with
          rfl | short | ⟨_, restGood⟩
        · exact fun _ later => absurd later List.not_mem_nil
        · have nextLength := (sinkInto_perm sunk).length_eq
          simp only [List.length_cons] at nextLength
          omega
        · exact restGood
      · rintro ⟨rangeGood, elementsGood⟩
        obtain ⟨elementGood, restGood⟩ := List.forall_mem_cons.mp elementsGood
        obtain ⟨next, sunk⟩ := returns_sinkInto_of_good returnsLess elementGood rangeGood
        have nextGood := good_of_mem_sinkInto sunk elementGood rangeGood
        refine ⟨next, sunk, (inductionHypothesis next (Or.inr nextGood)).mpr ?_⟩
        exact Or.inr (Or.inr ⟨nextGood, restGood⟩)

/-- A sort returns exactly when there is nothing to compare or every element is good. -/
theorem returns_sortSlice (elements : List Element) :
    Returns (sortSlice less elements) ↔
      elements.length ≤ 1 ∨ ∀ element ∈ elements, Good element := by
  have folded := returns_foldlM_sinkInto returnsLess elements [] (Or.inl (by simp))
  have reversed : Returns (sortSlice less elements) ↔
      Returns (elements.foldlM (fun range element => sinkInto less element range) []) := by
    unfold sortSlice
    rw [returns_bind]
    constructor
    · rintro ⟨sorted, ran, _⟩
      exact ⟨sorted, ran⟩
    · rintro ⟨sorted, ran⟩
      exact ⟨sorted, ran, returns_pure _⟩
  rw [reversed, folded]
  cases elements with
  | nil => simp
  | cons element rest => simp

end Good

/-! ### The result is sorted -/

section Sorted

variable {Rank : Type} [LinearOrder Rank] {Good : Element → Prop} {rank : Element → Rank}
  (compares : ∀ first second, Good first → Good second →
    less first second = .ok (decide (rank first < rank second)))

include compares

/-- An element that is moved down keeps the range in order, the largest first. -/
theorem sinkInto_sorted {element : Element} {range result : List Element} (good : Good element)
    (allGood : ∀ other ∈ range, Good other)
    (sorted : range.Pairwise fun first second => rank second ≤ rank first)
    (sunk : sinkInto less element range = .ok result) :
    result.Pairwise fun first second => rank second ≤ rank first := by
  induction range generalizing result with
  | nil =>
    cases sunk
    exact List.pairwise_singleton _ _
  | cons top rest inductionHypothesis =>
    obtain ⟨topGood, restGood⟩ := List.forall_mem_cons.mp allGood
    obtain ⟨topLargest, restSorted⟩ := List.pairwise_cons.mp sorted
    obtain ⟨smaller, compared, branch⟩ := bind_eq_ok.mp sunk
    rw [compares element top good topGood, Except.ok.injEq] at compared
    cases smaller with
    | true =>
      obtain ⟨moved, sunkRest, equal⟩ := bind_eq_ok.mp branch
      cases equal
      refine List.pairwise_cons.mpr ⟨?_, inductionHypothesis restGood restSorted sunkRest⟩
      intro other member
      rcases List.mem_cons.mp ((sinkInto_perm sunkRest).mem_iff.mp member) with rfl | old
      · exact (of_decide_eq_true compared).le
      · exact topLargest other old
    | false =>
      cases branch
      have larger : rank top ≤ rank element := not_lt.mp (of_decide_eq_false compared)
      refine List.pairwise_cons.mpr ⟨?_, sorted⟩
      intro other member
      rcases List.mem_cons.mp member with rfl | old
      · exact larger
      · exact (topLargest other old).trans larger

theorem foldlM_sinkInto_sorted {elements range result : List Element}
    (allGood : ∀ element ∈ elements, Good element) (rangeGood : ∀ other ∈ range, Good other)
    (sorted : range.Pairwise fun first second => rank second ≤ rank first)
    (folded : elements.foldlM (fun range element => sinkInto less element range) range =
      .ok result) :
    result.Pairwise fun first second => rank second ≤ rank first := by
  induction elements generalizing range with
  | nil =>
    cases folded
    exact sorted
  | cons element rest inductionHypothesis =>
    obtain ⟨elementGood, restGood⟩ := List.forall_mem_cons.mp allGood
    rw [List.foldlM_cons] at folded
    obtain ⟨next, sunk, remaining⟩ := bind_eq_ok.mp folded
    exact inductionHypothesis restGood (good_of_mem_sinkInto sunk elementGood rangeGood)
      (sinkInto_sorted compares elementGood rangeGood sorted sunk) remaining

/-- When a comparison is that of ranks, the result is sorted by rank. -/
theorem sortSlice_sorted {elements sorted : List Element}
    (allGood : ∀ element ∈ elements, Good element)
    (returned : sortSlice less elements = .ok sorted) :
    sorted.Pairwise fun first second => rank first ≤ rank second := by
  obtain ⟨folded, ran, equal⟩ := bind_eq_ok.mp returned
  cases equal
  rw [List.pairwise_reverse]
  exact foldlM_sinkInto_sorted compares allGood (List.forall_mem_nil _)
    List.Pairwise.nil ran

end Sorted

end Go
