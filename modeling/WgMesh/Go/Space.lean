/-
This file models `strings.TrimSpace`, which removes white space in the sense of
Unicode from both ends of a string. White space is the set of runes of
`unicode.IsSpace`, and a string is looked at as bytes: at its ends stands a rune
exactly when its encoding does.

A field is a string that is not empty and holds no white space. What begins and
ends with a field, and goes on with an ASCII byte after the one and before the
other, is not changed by trimming.
-/

import WgMesh.Go.Runes

namespace Go

/-- The runes of `unicode.IsSpace`. -/
def spaceCodes : List Nat :=
  [0x9, 0xA, 0xB, 0xC, 0xD, 0x20, 0x85, 0xA0, 0x1680, 0x2000, 0x2001, 0x2002, 0x2003, 0x2004,
    0x2005, 0x2006, 0x2007, 0x2008, 0x2009, 0x200A, 0x2028, 0x2029, 0x202F, 0x205F, 0x3000]

/-- Their encodings. -/
def spaces : List Text := spaceCodes.map fun code => encodeRune (Char.ofNat code)

/-- A mark stands in front of a string. -/
def stands (s mark : Text) : Bool := mark ≠ [] ∧ mark <+: s

theorem stands_iff {s mark : Text} : stands s mark = true ↔ mark ≠ [] ∧ mark <+: s :=
  decide_eq_true_iff

/-- Drop marks from the front as long as there is one. -/
def dropMarks (marks : List Text) (s : Text) : Text :=
  match _found : marks.find? (stands s) with
  | some mark => dropMarks marks (s.drop mark.length)
  | none => s
termination_by s.length
decreasing_by
  have chosen := stands_iff.mp (List.find?_some _found)
  have positive := List.length_pos_iff.mpr chosen.1
  have fits := chosen.2.length_le
  rw [List.length_drop]
  omega

def trimLeft (s : Text) : Text := dropMarks spaces s

def trimRight (s : Text) : Text := (dropMarks (spaces.map List.reverse) s.reverse).reverse

/-- `strings.TrimSpace`. -/
def trimSpace (s : Text) : Text := trimRight (trimLeft s)

example : trimSpace (text " \t a b \n" ++ [0xE2, 0x80, 0x83]) = text "a b" := by decide +kernel

/-! ### Dropping marks -/

theorem dropMarks_eq_self {marks : List Text} {s : Text}
    (none : ∀ mark ∈ marks, mark ≠ [] → ¬ mark <+: s) : dropMarks marks s = s := by
  rw [dropMarks]
  split
  · rename_i mark found
    have chosen := stands_iff.mp (List.find?_some found)
    exact absurd chosen.2 (none mark (List.mem_of_find?_eq_some found) chosen.1)
  · rfl

/-- A mark at the front is dropped, if no other mark can stand there. -/
theorem dropMarks_append {marks : List Text} {mark rest : Text} (member : mark ∈ marks)
    (nonempty : mark ≠ [])
    (only : ∀ other ∈ marks, other ≠ [] → other <+: mark ++ rest → other = mark) :
    dropMarks marks (mark ++ rest) = dropMarks marks rest := by
  rw [dropMarks]
  split
  · rename_i other found
    have chosen := stands_iff.mp (List.find?_some found)
    rw [only other (List.mem_of_find?_eq_some found) chosen.1 chosen.2, List.drop_left]
  · rename_i found
    have rejected := List.find?_eq_none.mp found mark member
    exact absurd (stands_iff.mpr ⟨nonempty, List.prefix_append mark rest⟩) rejected

/-! ### White space -/

theorem spaces_wide :
    (spaces.all fun space => space.length == 1 || space.all fun byte => 128 ≤ byte) = true := by
  decide +kernel

theorem spaces_invisible :
    (spaces.all fun space => space ≠ [] ∧ space.all fun byte => byte ≤ 32 ∨ 127 ≤ byte) = true := by
  decide +kernel

/-- White space of several bytes has no ASCII byte. -/
theorem eq_singleton_of_mem_space {space : Text} (member : space ∈ spaces) {byte : UInt8}
    (inside : byte ∈ space) (ascii : byte < 128) : space = [byte] := by
  have wide := List.all_eq_true.mp spaces_wide space member
  rw [Bool.or_eq_true, beq_iff_eq, List.all_eq_true] at wide
  rcases wide with single | several
  · obtain ⟨other, rfl⟩ := List.length_eq_one_iff.mp single
    rw [List.mem_singleton.mp inside]
  · exact absurd (of_decide_eq_true (several byte inside)) (UInt8.not_le.mpr ascii)

/-- No visible ASCII byte is part of white space. -/
theorem not_visible_of_mem_space {space : Text} (member : space ∈ spaces) {byte : UInt8}
    (inside : byte ∈ space) : ¬ (32 < byte ∧ byte < 127) := by
  have invisible := of_decide_eq_true (List.all_eq_true.mp spaces_invisible space member)
  rcases of_decide_eq_true (List.all_eq_true.mp invisible.2 byte inside) with low | high
  · exact fun visible => UInt8.not_le.mpr visible.1 low
  · exact fun visible => UInt8.not_le.mpr visible.2 high

theorem space_ne_nil {space : Text} (member : space ∈ spaces) : space ≠ [] :=
  (of_decide_eq_true (List.all_eq_true.mp spaces_invisible space member)).1

/-- A string that has no white space at its ends is not changed. -/
theorem trimSpace_eq_self {s : Text} (start : ∀ space ∈ spaces, ¬ space <+: s)
    (stop : ∀ space ∈ spaces, ¬ space <:+ s) : trimSpace s = s := by
  have left : trimLeft s = s := dropMarks_eq_self fun mark member _ => start mark member
  have right : trimRight s = s := by
    rw [trimRight, dropMarks_eq_self, List.reverse_reverse]
    intro mark member _ front
    obtain ⟨space, spaceMember, rfl⟩ := List.mem_map.mp member
    exact stop space spaceMember (List.reverse_prefix.mp front)
  rw [trimSpace, left, right]

/-- A newline at the end is removed. -/
theorem trimSpace_newline {s : Text} (start : ∀ space ∈ spaces, ¬ space <+: s ++ [10])
    (stop : ∀ space ∈ spaces, ¬ space <:+ s) : trimSpace (s ++ [10]) = s := by
  have left : trimLeft (s ++ [10]) = s ++ [10] :=
    dropMarks_eq_self fun mark member _ => start mark member
  have newline : [10] ∈ spaces.map List.reverse := by decide +kernel
  have right : trimRight (s ++ [10]) = s := by
    rw [trimRight, List.reverse_append, List.reverse_singleton,
      dropMarks_append newline (List.cons_ne_nil _ _), dropMarks_eq_self, List.reverse_reverse]
    · intro mark member _ front
      obtain ⟨space, spaceMember, rfl⟩ := List.mem_map.mp member
      exact stop space spaceMember (List.reverse_prefix.mp front)
    · intro mark member nonempty front
      obtain ⟨space, spaceMember, rfl⟩ := List.mem_map.mp member
      obtain ⟨byte, rest, reversed⟩ := List.exists_cons_of_ne_nil nonempty
      rw [reversed, List.singleton_append, List.cons_prefix_cons] at front
      have inside : (10 : UInt8) ∈ space := by
        rw [← List.mem_reverse, reversed, front.1]
        exact List.mem_cons_self
      rw [eq_singleton_of_mem_space spaceMember inside (by decide)]
      rfl
  rw [trimSpace, left, right]

/-! ### Fields -/

/-- A string that is not empty and has no white space in it. -/
structure Field where
  bytes : Text
  nonempty : bytes ≠ []
  solid : ∀ space ∈ spaces, ¬ space <:+: bytes

/-- A field of visible ASCII bytes. -/
def Field.ofVisible (s : Text) (nonempty : s ≠ [])
    (visible : ∀ byte ∈ s, 32 < byte ∧ byte < 127) : Field where
  bytes := s
  nonempty := nonempty
  solid := by
    rintro space member ⟨before, after, rfl⟩
    obtain ⟨byte, rest, rfl⟩ := List.exists_cons_of_ne_nil (space_ne_nil member)
    exact not_visible_of_mem_space member List.mem_cons_self (visible byte (by simp))

/-- A field, with an ASCII byte after it if anything. -/
def StartsSolid (s : Text) : Prop :=
  ∃ (field : Field) (rest : Text), s = field.bytes ++ rest ∧
    ∀ byte, rest.head? = some byte → byte < 128

/-- A field, with an ASCII byte before it if anything. -/
def EndsSolid (s : Text) : Prop :=
  ∃ (rest : Text) (field : Field), s = rest ++ field.bytes ∧
    ∀ byte, rest.getLast? = some byte → byte < 128

theorem Field.startsSolid (field : Field) : StartsSolid field.bytes :=
  ⟨field, [], (List.append_nil _).symm, fun _ head => nomatch head⟩

theorem Field.endsSolid (field : Field) : EndsSolid field.bytes :=
  ⟨[], field, rfl, fun _ last => nomatch last⟩

theorem Field.not_mem (field : Field) {byte : UInt8} (space : [byte] ∈ spaces) :
    byte ∉ field.bytes := by
  intro member
  obtain ⟨before, after, split⟩ := List.append_of_mem member
  refine field.solid [byte] space ⟨before, after, ?_⟩
  rw [split, List.append_assoc, List.singleton_append]

theorem StartsSolid.append {s : Text} (starts : StartsSolid s) {byte : UInt8} (ascii : byte < 128)
    (more : Text) : StartsSolid (s ++ byte :: more) := by
  obtain ⟨field, rest, rfl, next⟩ := starts
  refine ⟨field, rest ++ byte :: more, List.append_assoc _ _ _, fun first head => ?_⟩
  cases rest with
  | nil =>
    cases head
    exact ascii
  | cons other rest => exact next first head

theorem EndsSolid.append {s : Text} (ends : EndsSolid s) {byte : UInt8} (ascii : byte < 128)
    (more : Text) : EndsSolid (more ++ byte :: s) := by
  obtain ⟨rest, field, rfl, previous⟩ := ends
  refine ⟨more ++ byte :: rest, field, by simp, fun last found => ?_⟩
  cases rest using List.reverseRecOn with
  | nil =>
    rw [List.getLast?_concat] at found
    cases found
    exact ascii
  | append_singleton rest other =>
    refine previous last ?_
    rw [← List.cons_append, ← List.append_assoc, List.getLast?_concat] at found
    rw [List.getLast?_concat, found]

/-- No white space stands in front of a field. -/
theorem StartsSolid.not_at_start {s : Text} (starts : StartsSolid s) :
    ∀ space ∈ spaces, ¬ space <+: s := by
  intro space member front
  obtain ⟨field, rest, rfl, next⟩ := starts
  rcases List.prefix_or_prefix_of_prefix front (List.prefix_append field.bytes rest) with
    within | beyond
  · exact field.solid space member within.isInfix
  · -- A longer white space would hold the ASCII byte after the field.
    obtain ⟨extra, rfl⟩ := beyond
    have follows : extra <+: rest := (List.prefix_append_right_inj _).mp front
    cases extra with
    | nil => exact field.solid _ member ⟨[], [], by simp⟩
    | cons byte extra =>
      obtain ⟨others, rfl⟩ := follows
      have single := eq_singleton_of_mem_space member
        (List.mem_append_right _ List.mem_cons_self) (next byte rfl)
      have lengths := congrArg List.length single
      have positive := List.length_pos_iff.mpr field.nonempty
      simp only [List.length_append, List.length_cons, List.length_nil] at lengths
      omega

/-- No white space stands behind a field. -/
theorem EndsSolid.not_at_end {s : Text} (ends : EndsSolid s) :
    ∀ space ∈ spaces, ¬ space <:+ s := by
  intro space member back
  obtain ⟨rest, field, rfl, previous⟩ := ends
  rcases List.suffix_or_suffix_of_suffix back (List.suffix_append rest field.bytes) with
    within | beyond
  · exact field.solid space member within.isInfix
  · obtain ⟨extra, rfl⟩ := beyond
    have precedes : extra <:+ rest := List.suffix_append_self_iff.mp back
    cases extra using List.reverseRecOn with
    | nil => exact field.solid _ member ⟨[], [], by simp⟩
    | append_singleton extra byte =>
      obtain ⟨others, rfl⟩ := precedes
      have last : (others ++ (extra ++ [byte])).getLast? = some byte := by
        rw [← List.append_assoc, List.getLast?_concat]
      have single := eq_singleton_of_mem_space member
        (List.mem_append_left _ (List.mem_append_right _ List.mem_cons_self)) (previous byte last)
      have lengths := congrArg List.length single
      have positive := List.length_pos_iff.mpr field.nonempty
      simp only [List.length_append, List.length_cons, List.length_nil] at lengths
      omega

/-- A field is not changed by trimming. -/
theorem Field.trimSpace (field : Field) : Go.trimSpace field.bytes = field.bytes :=
  trimSpace_eq_self field.startsSolid.not_at_start field.endsSolid.not_at_end

end Go
