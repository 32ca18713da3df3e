/-
This file says what it is to split a list at a separator.

A scan from the left looks for the separator, cuts the list there and goes on
after it. The separator may have several elements and may overlap itself, so the
first place it occurs at decides. `Split` describes the pieces, and `occurrences`
counts the cuts. A separator of one element gives `List.splitOn`.
-/

import Mathlib.Data.List.Infix

namespace Pieces

variable {Item : Type} {separator : List Item}

/-- The first occurrence of the separator in the piece followed by the separator is at its end. -/
def FirstAtEnd (separator piece : List Item) : Prop :=
  ∀ before after : List Item, piece ++ separator = before ++ separator ++ after → after = []

/-- The separator does not occur in the list before this offset. -/
def NoneBefore (separator : List Item) (offset : Nat) (items : List Item) : Prop :=
  ∀ before after : List Item, items = before ++ separator ++ after → offset ≤ before.length

/-- The pieces that a scan from the left cuts a list into. -/
inductive Split (separator : List Item) : List Item → List (List Item) → Prop
  | last (piece : List Item) (absent : ¬ separator <:+: piece) : Split separator piece [piece]
  | cut (piece rest : List Item) (pieces : List (List Item)) (first : FirstAtEnd separator piece)
    (others : Split separator rest pieces) :
    Split separator (piece ++ separator ++ rest) (piece :: pieces)

/-- The number of occurrences that a scan from the left finds, each looked for after the last. The
number counts the elements still to be passed over. -/
def occurrences [DecidableEq Item] (separator : List Item) : List Item → Nat → Nat
  | [], _ => 0
  | _ :: rest, passing + 1 => occurrences separator rest passing
  | item :: rest, 0 =>
    if separator <+: item :: rest then occurrences separator rest (separator.length - 1) + 1
    else occurrences separator rest 0

/-! ### The first occurrence -/

theorem noneBefore_zero (items : List Item) : NoneBefore separator 0 items :=
  fun _ _ _ => Nat.zero_le _

/-- If the separator does not stand at this offset either, it does not occur before the next. -/
theorem NoneBefore.succ {piece rest : List Item}
    (none : NoneBefore separator piece.length (piece ++ rest))
    (elsewhere : ¬ separator <+: rest) :
    NoneBefore separator (piece.length + 1) (piece ++ rest) := by
  intro before after equal
  refine Nat.lt_of_le_of_ne (none before after equal) fun same => elsewhere ?_
  rw [List.append_assoc] at equal
  exact ⟨after, (List.append_inj_right equal same).symm⟩

theorem NoneBefore.firstAtEnd {piece rest : List Item}
    (none : NoneBefore separator piece.length (piece ++ (separator ++ rest))) :
    FirstAtEnd separator piece := by
  intro before after equal
  have whole : piece ++ (separator ++ rest) = before ++ separator ++ (after ++ rest) := by
    rw [← List.append_assoc, equal, List.append_assoc]
  have lengths := congrArg List.length equal
  simp only [List.length_append] at lengths
  have later := none before (after ++ rest) whole
  exact List.eq_nil_of_length_eq_zero (by omega)

/-- What follows the last place to look at is too short for the separator. -/
theorem NoneBefore.absent {piece rest : List Item}
    (none : NoneBefore separator piece.length (piece ++ rest))
    (short : rest.length < separator.length) : ¬ separator <:+: piece ++ rest := by
  rintro ⟨before, after, equal⟩
  have later := none before after equal.symm
  have lengths := congrArg List.length equal
  simp only [List.length_append] at lengths
  omega

/-! ### Counting -/

section Counting

variable [DecidableEq Item]

theorem occurrences_pass (passed rest : List Item) :
    occurrences separator (passed ++ rest) passed.length = occurrences separator rest 0 := by
  induction passed with
  | nil => rfl
  | cons item passed inductionHypothesis => exact inductionHypothesis

theorem occurrences_separator (nonempty : separator ≠ []) (rest : List Item) :
    occurrences separator (separator ++ rest) 0 = occurrences separator rest 0 + 1 := by
  obtain ⟨item, others, rfl⟩ := List.exists_cons_of_ne_nil nonempty
  have start : item :: others <+: item :: (others ++ rest) := List.prefix_append _ rest
  rw [List.cons_append, occurrences, if_pos start]
  exact congrArg (· + 1) (occurrences_pass others rest)

theorem occurrences_cons {item : Item} {rest : List Item}
    (elsewhere : ¬ separator <+: item :: rest) :
    occurrences separator (item :: rest) 0 = occurrences separator rest 0 := by
  rw [occurrences, if_neg elsewhere]

theorem occurrences_eq_zero {rest : List Item} (short : rest.length < separator.length) :
    occurrences separator rest 0 = 0 := by
  induction rest with
  | nil => rfl
  | cons item rest inductionHypothesis =>
    rw [occurrences_cons fun start => Nat.not_lt.mpr start.length_le short]
    exact inductionHypothesis (Nat.lt_of_succ_lt short)

end Counting

/-! ### The pieces -/

theorem Split.ne_nil {items : List Item} {pieces : List (List Item)}
    (split : Split separator items pieces) : pieces ≠ [] := by
  cases split with
  | last => exact List.cons_ne_nil _ _
  | cut => exact List.cons_ne_nil _ _

/-- Joining the pieces gives the list back. -/
theorem Split.intercalate {items : List Item} {pieces : List (List Item)}
    (split : Split separator items pieces) : separator.intercalate pieces = items := by
  induction split with
  | last piece _ => exact List.intercalate_singleton
  | cut piece rest pieces _ others inductionHypothesis =>
    rw [List.intercalate_cons_of_ne_nil others.ne_nil, inductionHypothesis]

theorem Split.firstAtEnd {items : List Item} {pieces : List (List Item)}
    (split : Split separator items pieces) :
    ∀ piece ∈ pieces.dropLast, FirstAtEnd separator piece := by
  induction split with
  | last piece _ => exact List.forall_mem_nil _
  | cut piece rest pieces first others inductionHypothesis =>
    rw [List.dropLast_cons_of_ne_nil others.ne_nil]
    exact List.forall_mem_cons.mpr ⟨first, inductionHypothesis⟩

theorem Split.exists_last {items : List Item} {pieces : List (List Item)}
    (split : Split separator items pieces) :
    ∃ last, pieces.getLast? = some last ∧ ¬ separator <:+: last := by
  induction split with
  | last piece absent => exact ⟨piece, rfl, absent⟩
  | cut piece rest pieces _ others inductionHypothesis =>
    obtain ⟨last, isLast, absent⟩ := inductionHypothesis
    exact ⟨last, by rw [List.getLast?_cons_of_ne_nil others.ne_nil, isLast], absent⟩

/-- The pieces are in what they are joined to. -/
theorem sublist_intercalate (separator : List Item) {pieces : List (List Item)}
    {piece : List Item} (member : piece ∈ pieces) :
    List.Sublist piece (separator.intercalate pieces) := by
  induction pieces with
  | nil => exact absurd member List.not_mem_nil
  | cons first rest inductionHypothesis =>
    cases rest with
    | nil => rw [List.mem_singleton.mp member, List.intercalate_singleton]
    | cons second rest =>
      rw [List.intercalate_cons_cons]
      rcases List.mem_cons.mp member with rfl | later
      · rw [List.append_assoc]
        exact List.sublist_append_left _ _
      · exact (inductionHypothesis later).trans (List.sublist_append_right _ _)

theorem mem_or_mem_of_mem_intercalate {pieces : List (List Item)} {item : Item}
    (member : item ∈ separator.intercalate pieces) :
    item ∈ separator ∨ ∃ piece ∈ pieces, item ∈ piece := by
  induction pieces with
  | nil => exact absurd member List.not_mem_nil
  | cons first rest inductionHypothesis =>
    cases rest with
    | nil =>
      rw [List.intercalate_singleton] at member
      exact .inr ⟨first, List.mem_cons_self, member⟩
    | cons second rest =>
      rw [List.intercalate_cons_cons, List.mem_append, List.mem_append] at member
      rcases member with (inFirst | inSeparator) | later
      · exact .inr ⟨first, List.mem_cons_self, inFirst⟩
      · exact .inl inSeparator
      · rcases inductionHypothesis later with inSeparator | ⟨piece, pieceMember, inside⟩
        · exact .inl inSeparator
        · exact .inr ⟨piece, List.mem_cons_of_mem _ pieceMember, inside⟩

/-! ### A separator of one element -/

theorem FirstAtEnd.not_mem {item : Item} {piece : List Item} (first : FirstAtEnd [item] piece) :
    item ∉ piece := by
  intro member
  obtain ⟨before, after, rfl⟩ := List.append_of_mem member
  have none := first before (after ++ [item]) (by simp)
  exact List.append_ne_nil_of_right_ne_nil after (List.cons_ne_nil item []) none

theorem Split.not_mem {item : Item} {items : List Item} {pieces : List (List Item)}
    (split : Split [item] items pieces) : ∀ piece ∈ pieces, item ∉ piece := by
  induction split with
  | last piece absent =>
    intro _ member occurs
    rw [List.mem_singleton.mp member] at occurs
    obtain ⟨before, after, equal⟩ := List.append_of_mem occurs
    exact absent ⟨before, after, by rw [equal, List.append_assoc, List.singleton_append]⟩
  | cut piece rest pieces first others inductionHypothesis =>
    exact List.forall_mem_cons.mpr ⟨first.not_mem, inductionHypothesis⟩

/-- The pieces of a split have nothing that was not there. -/
theorem sublist_of_mem_splitOn [DecidableEq Item] {item : Item} {items piece : List Item}
    (member : piece ∈ items.splitOn item) : List.Sublist piece items := by
  have inside := sublist_intercalate [item] member
  rwa [List.intercalate_splitOn] at inside

theorem not_mem_of_mem_splitOn [DecidableEq Item] {item : Item} {items piece : List Item}
    (member : piece ∈ items.splitOn item) : item ∉ piece := by
  induction items generalizing piece with
  | nil =>
    rw [List.splitOn_nil, List.mem_singleton] at member
    rw [member]
    exact List.not_mem_nil
  | cons head tail inductionHypothesis =>
    obtain ⟨first, rest, split⟩ := List.exists_cons_of_ne_nil (List.splitOn_ne_nil item tail)
    rw [List.splitOn_cons_eq_if_modifyHead, split] at member
    rw [split] at inductionHypothesis
    split at member
    · rcases List.mem_cons.mp member with rfl | later
      · exact List.not_mem_nil
      · exact inductionHypothesis later
    · rename_i other
      rcases List.mem_cons.mp member with rfl | later
      · rw [List.mem_cons, not_or]
        exact ⟨fun same => other (beq_iff_eq.mpr same.symm), inductionHypothesis List.mem_cons_self⟩
      · exact inductionHypothesis (List.mem_cons_of_mem _ later)

/-- Splitting at one element is `splitOn`. -/
theorem Split.eq_splitOn [DecidableEq Item] {item : Item} {items : List Item}
    {pieces : List (List Item)} (split : Split [item] items pieces) :
    pieces = items.splitOn item := by
  rw [← split.intercalate, List.splitOn_intercalate item split.not_mem split.ne_nil]

/-- There is one piece more than there are separating elements. -/
theorem length_splitOn [DecidableEq Item] (item : Item) (items : List Item) :
    (items.splitOn item).length = items.count item + 1 := by
  induction items with
  | nil => rfl
  | cons first rest inductionHypothesis =>
    rw [List.splitOn_cons_eq_if_modifyHead, List.count_cons]
    split
    · rw [List.length_cons, inductionHypothesis]
    · rw [List.length_modifyHead, inductionHypothesis]

end Pieces
