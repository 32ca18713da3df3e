/-
This file enumerates the pairs of a list: each element with every later one, as
two nested loops over the positions `i < j` visit them. Taken both ways round,
the pairs of a list without duplicates are the pairs of two different members,
each of them once.
-/

import Mathlib.Data.List.Nodup

namespace Pieces

variable {Item Key : Type}

/-- Each element with every later one. -/
def pairs : List Item → List (Item × Item)
  | [] => []
  | first :: rest => rest.map (first, ·) ++ pairs rest

/-- Each pair in both of its orders. -/
def bothWays (items : List Item) : List (Item × Item) :=
  (pairs items).flatMap fun pair => [pair, pair.swap]

/-! ### The members of the pairs -/

theorem mem_pairs_cons {first : Item} {rest : List Item} {pair : Item × Item} :
    pair ∈ pairs (first :: rest) ↔ (pair.1 = first ∧ pair.2 ∈ rest) ∨ pair ∈ pairs rest := by
  rw [pairs, List.mem_append, List.mem_map]
  refine or_congr_left ⟨?_, ?_⟩
  · rintro ⟨later, member, rfl⟩
    exact ⟨rfl, member⟩
  · rintro ⟨rfl, member⟩
    exact ⟨pair.2, member, rfl⟩

theorem mem_of_mem_pairs {items : List Item} {pair : Item × Item} (member : pair ∈ pairs items) :
    pair.1 ∈ items ∧ pair.2 ∈ items := by
  induction items with
  | nil => exact absurd member List.not_mem_nil
  | cons first rest inductionHypothesis =>
    rcases mem_pairs_cons.mp member with ⟨same, later⟩ | others
    · exact ⟨same ▸ List.mem_cons_self, List.mem_cons_of_mem _ later⟩
    · obtain ⟨left, right⟩ := inductionHypothesis others
      exact ⟨List.mem_cons_of_mem _ left, List.mem_cons_of_mem _ right⟩

/-- Two different members are a pair, in one of the two orders. -/
theorem mem_pairs_or_mem_pairs {items : List Item} {first second : Item}
    (firstMember : first ∈ items) (secondMember : second ∈ items) (different : first ≠ second) :
    (first, second) ∈ pairs items ∨ (second, first) ∈ pairs items := by
  induction items with
  | nil => exact absurd firstMember List.not_mem_nil
  | cons item rest inductionHypothesis =>
    rw [mem_pairs_cons, mem_pairs_cons]
    rcases List.mem_cons.mp firstMember with rfl | firstLater
    · have secondLater := (List.mem_cons.mp secondMember).resolve_left different.symm
      exact .inl (.inl ⟨rfl, secondLater⟩)
    · rcases List.mem_cons.mp secondMember with rfl | secondLater
      · exact .inr (.inl ⟨rfl, firstLater⟩)
      · exact (inductionHypothesis firstLater secondLater).imp .inr .inr

theorem ne_of_mem_pairs {items : List Item} (nodup : items.Nodup) {pair : Item × Item}
    (member : pair ∈ pairs items) : pair.1 ≠ pair.2 := by
  induction items with
  | nil => exact absurd member List.not_mem_nil
  | cons first rest inductionHypothesis =>
    obtain ⟨absent, nodupRest⟩ := List.nodup_cons.mp nodup
    rcases mem_pairs_cons.mp member with ⟨same, later⟩ | others
    · intro equal
      exact absent (same ▸ equal ▸ later)
    · exact inductionHypothesis nodupRest others

theorem mem_of_mem_bothWays {items : List Item} {pair : Item × Item}
    (member : pair ∈ bothWays items) : pair.1 ∈ items ∧ pair.2 ∈ items := by
  obtain ⟨origin, listed, oriented⟩ := List.mem_flatMap.mp member
  obtain ⟨left, right⟩ := mem_of_mem_pairs listed
  rcases List.mem_pair.mp oriented with rfl | rfl
  · exact ⟨left, right⟩
  · exact ⟨right, left⟩

/-! ### Maps and duplicates -/

theorem pairs_map (key : Item → Key) (items : List Item) :
    pairs (items.map key) = (pairs items).map (Prod.map key key) := by
  induction items with
  | nil => rfl
  | cons first rest inductionHypothesis =>
    rw [List.map_cons, pairs, pairs, inductionHypothesis, List.map_append, List.map_map,
      List.map_map]
    rfl

theorem bothWays_map (key : Item → Key) (items : List Item) :
    bothWays (items.map key) = (bothWays items).map (Prod.map key key) := by
  rw [bothWays, bothWays, pairs_map, List.flatMap_map, List.map_flatMap]
  rfl

theorem bothWays_cons (first : Item) (rest : List Item) :
    bothWays (first :: rest) =
      (rest.flatMap fun later => [(first, later), (later, first)]) ++ bothWays rest := by
  rw [bothWays, pairs, List.flatMap_append, List.flatMap_map]
  rfl

theorem nodup_bothWays {items : List Item} (nodup : items.Nodup) : (bothWays items).Nodup := by
  induction items with
  | nil => exact List.nodup_nil
  | cons first rest inductionHypothesis =>
    obtain ⟨absent, nodupRest⟩ := List.nodup_cons.mp nodup
    rw [bothWays_cons]
    refine List.Nodup.append ?_ (inductionHypothesis nodupRest) ?_
    · refine List.nodup_flatMap.mpr ⟨fun later member => ?_, ?_⟩
      · have different : first ≠ later := fun same => absent (same ▸ member)
        simp [different]
      · refine nodupRest.imp_of_mem fun {one other} oneMember otherMember different => ?_
        have oneDifferent : first ≠ one := fun same => absent (same ▸ oneMember)
        have otherDifferent : first ≠ other := fun same => absent (same ▸ otherMember)
        simp [Function.onFun, different.symm, oneDifferent, otherDifferent.symm]
    · -- A pair of `first` has it in one place, a later pair in none.
      intro pair ofFirst later
      obtain ⟨other, _, oriented⟩ := List.mem_flatMap.mp ofFirst
      obtain ⟨left, right⟩ := mem_of_mem_bothWays later
      rcases List.mem_pair.mp oriented with rfl | rfl
      · exact absent left
      · exact absent right

/-- A member is the only one with its key, if no key is used twice. -/
theorem filter_key_eq_singleton [DecidableEq Key] {key : Item → Key} {items : List Item}
    (nodup : (items.map key).Nodup) {item : Item} (member : item ∈ items) :
    items.filter (fun other => key other = key item) = [item] := by
  induction items with
  | nil => exact absurd member List.not_mem_nil
  | cons first rest inductionHypothesis =>
    obtain ⟨absent, nodupRest⟩ := List.nodup_cons.mp nodup
    rcases List.mem_cons.mp member with rfl | later
    · have none : rest.filter (fun other => key other = key item) = [] :=
        List.filter_eq_nil_iff.mpr fun other listed same =>
          absent (of_decide_eq_true same ▸ List.mem_map_of_mem listed)
      rw [List.filter_cons_of_pos (by simp), none]
    · have different : key first ≠ key item := fun same =>
        absent (same ▸ List.mem_map_of_mem later)
      rw [List.filter_cons_of_neg (by simpa using different), inductionHypothesis nodupRest later]

end Pieces
