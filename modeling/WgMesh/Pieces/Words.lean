/-
This file says what the words of a list are: its maximal runs of elements that do
not separate, in order. `Words` takes a list apart into gaps and words, and the
words are determined by the list. Weaving words together with gaps that are not
empty gives a list with these words.
-/

import Mathlib.Data.List.Basic

namespace Pieces

variable {Item : Type} {separates : Item → Bool}

/-- The maximal runs of a list that have no separator, in order. A word ends where the list ends
or a separator follows. -/
inductive Words (separates : Item → Bool) : List Item → List (List Item) → Prop
  | gap (gap : List Item) (separators : ∀ item ∈ gap, separates item) : Words separates gap []
  | word (gap word rest : List Item) (words : List (List Item))
    (separators : ∀ item ∈ gap, separates item) (nonempty : word ≠ [])
    (solid : ∀ item ∈ word, ¬ separates item)
    (ends : ∀ item, rest.head? = some item → separates item)
    (others : Words separates rest words) : Words separates (gap ++ word ++ rest) (word :: words)

/-- The parts between separators that are not empty. -/
def words (separates : Item → Bool) (items : List Item) : List (List Item) :=
  (items.splitOnP separates).filter fun part => !part.isEmpty

/-- Words put together, each with the next gap after it, except for the last. -/
def weave : List (List Item) → (Nat → List Item) → List Item
  | [], _ => []
  | [word], _ => word
  | word :: next :: rest, gaps =>
    word ++ gaps 0 ++ weave (next :: rest) fun index => gaps (index + 1)

/-! ### Building words -/

/-- A separator in front changes nothing. -/
theorem Words.separator_cons {item : Item} {items : List Item} {words : List (List Item)}
    (separator : separates item) (others : Words separates items words) :
    Words separates (item :: items) words := by
  cases others with
  | gap gap separators => exact .gap _ (List.forall_mem_cons.mpr ⟨separator, separators⟩)
  | word gap word rest words separators nonempty solid ends others =>
    exact .word (item :: gap) word rest words (List.forall_mem_cons.mpr ⟨separator, separators⟩)
      nonempty solid ends others

theorem Words.separators_append {gap items : List Item} {words : List (List Item)}
    (separators : ∀ item ∈ gap, separates item) (others : Words separates items words) :
    Words separates (gap ++ items) words := by
  induction gap with
  | nil => exact others
  | cons item gap inductionHypothesis =>
    obtain ⟨first, rest⟩ := List.forall_mem_cons.mp separators
    exact (inductionHypothesis rest).separator_cons first

theorem Words.mem {items : List Item} {words : List (List Item)}
    (split : Words separates items words) :
    ∀ word ∈ words, word ≠ [] ∧ ∀ item ∈ word, ¬ separates item := by
  induction split with
  | gap => exact List.forall_mem_nil _
  | word gap word rest words separators nonempty solid ends others inductionHypothesis =>
    exact List.forall_mem_cons.mpr ⟨⟨nonempty, solid⟩, inductionHypothesis⟩

/-- Words that are woven together are the words of the result. -/
theorem words_weave {words : List (List Item)}
    (proper : ∀ word ∈ words, word ≠ [] ∧ ∀ item ∈ word, ¬ separates item)
    {gaps : Nat → List Item}
    (separators : ∀ index, gaps index ≠ [] ∧ ∀ item ∈ gaps index, separates item) :
    Words separates (weave words gaps) words := by
  induction words generalizing gaps with
  | nil => exact .gap [] (List.forall_mem_nil _)
  | cons word rest inductionHypothesis =>
    obtain ⟨⟨nonempty, solid⟩, properRest⟩ := List.forall_mem_cons.mp proper
    cases rest with
    | nil =>
      have none : Words separates [] [] := .gap [] (List.forall_mem_nil _)
      have alone := Words.word [] word [] [] (List.forall_mem_nil _)
        nonempty solid (fun _ head => nomatch head) none
      rwa [List.nil_append, List.append_nil] at alone
    | cons next rest =>
      have others := inductionHypothesis properRest fun index => separators (index + 1)
      obtain ⟨item, gap, gap_eq⟩ := List.exists_cons_of_ne_nil (separators 0).1
      have woven := Words.word [] word _ _ (List.forall_mem_nil _)
        nonempty solid ?_ (others.separators_append (separators 0).2)
      · rw [weave, List.append_assoc]
        exact woven
      · intro first head
        rw [gap_eq] at head
        cases head
        exact (separators 0).2 item (gap_eq ▸ List.mem_cons_self)

/-! ### The words are determined -/

theorem words_separator_cons {item : Item} (separator : separates item) (items : List Item) :
    words separates (item :: items) = words separates items := by
  rw [words, List.splitOnP_cons_eq_if_modifyHead, if_pos separator]
  rfl

theorem words_separators_append {gap : List Item} (separators : ∀ item ∈ gap, separates item)
    (items : List Item) : words separates (gap ++ items) = words separates items := by
  induction gap with
  | nil => rfl
  | cons item gap inductionHypothesis =>
    obtain ⟨first, rest⟩ := List.forall_mem_cons.mp separators
    rw [List.cons_append, words_separator_cons first, inductionHypothesis rest]

theorem words_word_append {word rest : List Item} (nonempty : word ≠ [])
    (solid : ∀ item ∈ word, ¬ separates item)
    (ends : ∀ item, rest.head? = some item → separates item) :
    words separates (word ++ rest) = word :: words separates rest := by
  have plain : ∀ item ∈ word, separates item = false :=
    fun item member => Bool.eq_false_iff.mpr (solid item member)
  have kept : (!word.isEmpty) = true := by simpa using nonempty
  cases rest with
  | nil =>
    rw [List.append_nil, words, List.splitOnP_eq_singleton plain, List.filter_cons, if_pos kept]
    rfl
  | cons item rest =>
    rw [words_separator_cons (ends item rfl), words,
      List.splitOnP_append_cons_of_forall_mem plain item (ends item rfl),
      List.filter_cons, if_pos kept]
    rfl

/-- A list has no other words than the parts between its separators. -/
theorem Words.eq_words {items : List Item} {split : List (List Item)}
    (cut : Words separates items split) : split = words separates items := by
  induction cut with
  | gap gap separators =>
    have all := words_separators_append separators []
    rw [List.append_nil] at all
    exact all.symm
  | word gap word rest words separators nonempty solid ends others inductionHypothesis =>
    rw [List.append_assoc, words_separators_append separators,
      words_word_append nonempty solid ends, ← inductionHypothesis]

end Pieces
