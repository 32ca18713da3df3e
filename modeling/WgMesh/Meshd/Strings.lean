/-
This file models the string helpers of `cmd/wg-meshd`: `split`, `stringsTrim` and
`splitAndTrim`.

`split` moves its loop variable past a separator it has found. Nothing in it
guards against an empty separator, at which it would stay for ever, so a run is
given a number of rounds and may not have ended when they are used up. For every
other separator it ends within one round more than the string has bytes, and what
it returns is the standard split.
-/

import Mathlib.Data.List.DropRight
import WgMesh.Go.Text
import WgMesh.Pieces.Split

namespace WgMesh.Meshd

open Go Pieces

/-- A computation that faults, returns, or has not ended within its rounds. -/
abbrev Loop (Value : Type) := OptionT (Except Panic) Value

/-- The loop of `split`, with the start of the open piece and the loop variable. -/
def splitLoop (s sep : Text) : (rounds start i : Nat) → List Text → Loop (List Text)
  | 0, _, _, _ => failure
  | rounds + 1, start, i, result =>
    if i + sep.length ≤ s.length then do
      let window ← slice s i (i + sep.length)
      if window = sep then
        let piece ← slice s start i
        -- The source sets `i` to one less, and the loop's increment follows.
        splitLoop s sep rounds (i + sep.length) (i + sep.length) (result ++ [piece])
      else splitLoop s sep rounds start (i + 1) result
    else do
      let piece ← slice s start s.length
      return result ++ [piece]

def split (rounds : Nat) (s sep : Text) : Loop (List Text) := splitLoop s sep rounds 0 0 []

/-- The bytes that `stringsTrim` removes. -/
def isBlank (byte : UInt8) : Bool := byte = 32 ∨ byte = 9 ∨ byte = 10

/-- The first loop of `stringsTrim`. -/
def trimStart (s : Text) (start last : Nat) : Except Panic Nat :=
  if start < last then do
    if isBlank (← byteAt s start) then trimStart s (start + 1) last else return start
  else return start
termination_by last - start

/-- The second loop of `stringsTrim`. -/
def trimEnd (s : Text) (start last : Nat) : Except Panic Nat :=
  if start < last then do
    if isBlank (← byteAt s (last - 1)) then trimEnd s start (last - 1) else return last
  else return last
termination_by last

def stringsTrim (s : Text) : Except Panic Text := do
  let start ← trimStart s 0 s.length
  let last ← trimEnd s start s.length
  slice s start last

/-- The loop of `splitAndTrim`. -/
def trimAll : List Text → Except Panic (List Text)
  | [] => return []
  | part :: rest => do
    let trimmed ← stringsTrim part
    let out ← trimAll rest
    return if trimmed ≠ [] then trimmed :: out else out

def splitAndTrim (rounds : Nat) (s sep : Text) : Loop (List Text) := do
  let parts ← split rounds s sep
  trimAll parts

/-! ### Splitting -/

/-- A computation that returns, run as one that might not end. -/
theorem liftM_ok {Value : Type} (value : Value) :
    (liftM (.ok value : Except Panic Value) : Loop Value) = pure value := rfl

section Step

variable {sep : Text} (before piece rest : Text) (rounds : Nat) (result : List Text)

/-- A round that finds the separator closes the open piece. -/
theorem splitLoop_cut :
    splitLoop (before ++ piece ++ (sep ++ rest)) sep (rounds + 1) before.length
        (before ++ piece).length result =
      splitLoop (before ++ piece ++ sep ++ [] ++ rest) sep rounds
        (before ++ piece ++ sep).length (before ++ piece ++ sep ++ []).length
        (result ++ [piece]) := by
  have inside : (before ++ piece).length + sep.length ≤
      (before ++ piece ++ (sep ++ rest)).length := by
    simp only [List.length_append]
    omega
  have window : slice (before ++ piece ++ (sep ++ rest)) (before ++ piece).length
      ((before ++ piece).length + sep.length) = .ok sep := by
    rw [← List.append_assoc, ← List.length_append]
    exact slice_append (before ++ piece) sep rest
  rw [splitLoop, if_pos inside, window, slice_append before piece (sep ++ rest), liftM_ok,
    liftM_ok, pure_bind, if_pos rfl, pure_bind, ← List.length_append, List.append_nil,
    List.append_assoc (before ++ piece)]

/-- A round that does not find it moves one byte on. -/
theorem splitLoop_move (byte : UInt8) (elsewhere : ¬ sep <+: byte :: rest)
    (inside : sep.length ≤ (byte :: rest).length) :
    splitLoop (before ++ piece ++ byte :: rest) sep (rounds + 1) before.length
        (before ++ piece).length result =
      splitLoop (before ++ (piece ++ [byte]) ++ rest) sep rounds before.length
        (before ++ (piece ++ [byte])).length result := by
  have within : (before ++ piece).length + sep.length ≤
      (before ++ piece ++ byte :: rest).length := by
    rw [@List.length_append _ (before ++ piece) (byte :: rest)]
    exact Nat.add_le_add_left inside _
  have window : slice (before ++ piece ++ byte :: rest) (before ++ piece).length
      ((before ++ piece).length + sep.length) = .ok ((byte :: rest).take sep.length) := by
    have cut := slice_append (before ++ piece) ((byte :: rest).take sep.length)
      ((byte :: rest).drop sep.length)
    rwa [List.append_assoc, List.take_append_drop, @List.length_append _ (before ++ piece),
      List.length_take_of_le inside] at cut
  have different : (byte :: rest).take sep.length ≠ sep :=
    fun same => elsewhere (List.prefix_iff_eq_take.mpr same.symm)
  have whole : before ++ (piece ++ [byte]) ++ rest = before ++ piece ++ byte :: rest := by
    simp only [List.append_assoc, List.singleton_append]
  have next : (before ++ (piece ++ [byte])).length = (before ++ piece).length + 1 := by
    simp only [List.length_append, List.length_singleton]
    omega
  rw [splitLoop, if_pos within, window, liftM_ok, pure_bind, if_neg different, whole, next]

/-- When the separator no longer fits, the open piece and the rest are the last piece. -/
theorem splitLoop_stop (short : rest.length < sep.length) :
    splitLoop (before ++ piece ++ rest) sep (rounds + 1) before.length
        (before ++ piece).length result = pure (result ++ [piece ++ rest]) := by
  have outside : ¬ (before ++ piece).length + sep.length ≤ (before ++ piece ++ rest).length := by
    simp only [List.length_append]
    omega
  have last : slice (before ++ piece ++ rest) before.length (before ++ piece ++ rest).length =
      .ok (piece ++ rest) := by
    have cut := slice_append before (piece ++ rest) []
    rwa [List.append_nil, ← List.append_assoc] at cut
  rw [splitLoop, if_neg outside, last, liftM_ok, pure_bind]

end Step

/-- The loop in the middle of a string: what is before the open piece, the open piece, and what
is still to be looked at. If the separator does not occur earlier, then what the loop adds is the
split of the open piece and the rest. -/
theorem splitLoop_split {sep : Text} (nonempty : sep ≠ []) (before piece rest : Text)
    (none : NoneBefore sep piece.length (piece ++ rest)) (result : List Text) :
    ∃ pieces : List Text,
      (∀ rounds, rest.length < rounds →
        splitLoop (before ++ piece ++ rest) sep rounds before.length (before ++ piece).length
          result = pure (result ++ pieces)) ∧
        Split sep (piece ++ rest) pieces ∧ pieces.length = occurrences sep rest 0 + 1 := by
  induction size : rest.length using Nat.strong_induction_on
    generalizing before piece rest result with
  | _ size inductionHypothesis =>
    subst size
    by_cases short : rest.length < sep.length
    · refine ⟨[piece ++ rest], fun rounds enough => ?_, .last _ (none.absent short), ?_⟩
      · obtain ⟨rounds, rfl⟩ := Nat.exists_eq_add_one_of_ne_zero (Nat.ne_zero_of_lt enough)
        exact splitLoop_stop before piece rest rounds result short
      · rw [occurrences_eq_zero short, List.length_singleton]
    · by_cases here : sep <+: rest
      · obtain ⟨others, rfl⟩ := here
        have positive : 0 < sep.length := List.length_pos_of_ne_nil nonempty
        have fewer : others.length < (sep ++ others).length := by
          rw [List.length_append]
          omega
        obtain ⟨pieces, returned, split, count⟩ := inductionHypothesis _ fewer
          (before ++ piece ++ sep) [] others (noneBefore_zero _) (result ++ [piece]) rfl
        refine ⟨piece :: pieces, fun rounds enough => ?_, ?_, ?_⟩
        · obtain ⟨rounds, rfl⟩ := Nat.exists_eq_add_one_of_ne_zero (Nat.ne_zero_of_lt enough)
          rw [splitLoop_cut, returned rounds (by omega), List.append_assoc, List.singleton_append]
        · rw [← List.append_assoc]
          exact .cut piece others pieces none.firstAtEnd split
        · rw [List.length_cons, count, occurrences_separator nonempty]
      · have nonemptyRest : rest ≠ [] := by
          rintro rfl
          exact short (List.length_pos_of_ne_nil nonempty)
        obtain ⟨byte, others, rfl⟩ := List.exists_cons_of_ne_nil nonemptyRest
        have whole : piece ++ byte :: others = piece ++ [byte] ++ others :=
          List.append_cons piece byte others
        have later : NoneBefore sep (piece ++ [byte]).length (piece ++ [byte] ++ others) := by
          rw [← whole, List.length_append]
          exact none.succ here
        obtain ⟨pieces, returned, split, count⟩ := inductionHypothesis _
          (Nat.lt_succ_self others.length) before (piece ++ [byte]) others later result rfl
        refine ⟨pieces, fun rounds enough => ?_, ?_, ?_⟩
        · obtain ⟨rounds, rfl⟩ := Nat.exists_eq_add_one_of_ne_zero (Nat.ne_zero_of_lt enough)
          rw [splitLoop_move before piece others rounds result byte here (Nat.le_of_not_lt short),
            returned rounds (Nat.lt_of_succ_lt_succ enough)]
        · rw [whole]
          exact split
        · rw [occurrences_cons here, count]

/-- What `split` returns for a separator that is not empty. -/
theorem exists_split {sep : Text} (nonempty : sep ≠ []) (s : Text) :
    ∃ pieces : List Text,
      (∀ rounds, s.length < rounds → split rounds s sep = pure pieces) ∧
        Split sep s pieces ∧ pieces.length = occurrences sep s 0 + 1 :=
  splitLoop_split nonempty [] [] s (noneBefore_zero s) []

/-- `split` ends and is the standard split: the pieces joined are the string, there is one more
of them than a scan from the left finds separators, and each piece but the last ends where the
separator first occurs. -/
theorem split_standard (s sep : Text) (nonempty : sep ≠ []) :
    ∃ pieces : List Text,
      (∀ rounds, s.length < rounds → split rounds s sep = pure pieces) ∧
        sep.intercalate pieces = s ∧
        pieces.length = occurrences sep s 0 + 1 ∧
        (∀ piece ∈ pieces.dropLast, FirstAtEnd sep piece) ∧
        ∃ last, pieces.getLast? = some last ∧ ¬ sep <:+: last := by
  obtain ⟨pieces, returned, split, count⟩ := exists_split nonempty s
  exact ⟨pieces, returned, split.intercalate, count, split.firstAtEnd, split.exists_last⟩

/-- A separator that overlaps itself is found from the left: `aaa` split at `aa`. -/
theorem split_standard_overlapping :
    text "aa" ≠ [] ∧ ∃ pieces : List Text,
      (∀ rounds, (text "aaa").length < rounds →
        split rounds (text "aaa") (text "aa") = pure pieces) ∧
        (text "aa").intercalate pieces = text "aaa" ∧
        pieces.length = occurrences (text "aa") (text "aaa") 0 + 1 ∧
        (∀ piece ∈ pieces.dropLast, FirstAtEnd (text "aa") piece) ∧
        ∃ last, pieces.getLast? = some last ∧ ¬ text "aa" <:+: last :=
  ⟨by decide, split_standard (text "aaa") (text "aa") (by decide)⟩

example : (split 4 (text "aaa") (text "aa")).run = .ok (some [[], text "a"]) := by decide

/-- At an empty separator the loop stays where it is. -/
theorem splitLoop_nil (s : Text) (rounds i : Nat) (inside : i ≤ s.length) (result : List Text) :
    splitLoop s [] rounds i i result = failure := by
  induction rounds generalizing result with
  | zero => rfl
  | succ rounds inductionHypothesis =>
    have window : slice s i i = .ok [] := by
      rw [slice, if_pos ⟨Nat.le_refl i, inside⟩, List.drop_eq_nil_of_le (List.length_take_le i s)]
    rw [splitLoop, List.length_nil, Nat.add_zero, if_pos inside, window, liftM_ok, pure_bind,
      if_pos rfl, pure_bind, inductionHypothesis]

/-- `split` never ends for an empty separator. -/
theorem split_nil (rounds : Nat) (s : Text) : split rounds s [] = failure :=
  splitLoop_nil s rounds 0 (Nat.zero_le _) []

/-- For a separator of one byte, `split` is `List.splitOn`. -/
theorem split_singleton (s : Text) (byte : UInt8) {rounds : Nat} (enough : s.length < rounds) :
    split rounds s [byte] = pure (s.splitOn byte) := by
  obtain ⟨pieces, returned, split, _⟩ := exists_split (List.cons_ne_nil byte []) s
  rw [returned rounds enough, split.eq_splitOn]

/-! ### Trimming -/

/-- A string without the blanks at its ends. -/
def strip (s : Text) : Text := (s.dropWhile isBlank).rdropWhile isBlank

theorem byteAt_append (before after : Text) (byte : UInt8) :
    byteAt (before ++ byte :: after) before.length = .ok byte := by
  rw [byteAt_eq_ok, List.getElem?_append_right (Nat.le_refl _), Nat.sub_self,
    List.getElem?_cons_zero]

theorem trimStart_append (before rest : Text) :
    trimStart (before ++ rest) before.length (before ++ rest).length =
      .ok (before ++ rest.takeWhile isBlank).length := by
  induction rest generalizing before with
  | nil =>
    rw [trimStart, List.append_nil, if_neg (Nat.lt_irrefl _), List.takeWhile_nil,
      List.append_nil]
    rfl
  | cons byte rest inductionHypothesis =>
    have inside : before.length < (before ++ byte :: rest).length := by
      rw [List.length_append, List.length_cons]
      omega
    rw [trimStart, if_pos inside, byteAt_append]
    show (if isBlank byte then _ else _) = _
    by_cases blank : isBlank byte
    · have next := inductionHypothesis (before ++ [byte])
      rw [← List.append_cons, @List.length_append _ before [byte], List.length_singleton,
        ← List.append_cons] at next
      rw [if_pos blank, List.takeWhile_cons_of_pos blank, next]
    · rw [if_neg blank, List.takeWhile_cons_of_neg blank, List.append_nil]
      rfl

theorem trimEnd_append (before middle after : Text) :
    trimEnd (before ++ middle ++ after) before.length (before ++ middle).length =
      .ok (before ++ middle.rdropWhile isBlank).length := by
  induction middle using List.reverseRecOn generalizing after with
  | nil =>
    rw [trimEnd, List.append_nil, if_neg (Nat.lt_irrefl _), List.rdropWhile_nil, List.append_nil]
    rfl
  | append_singleton middle byte inductionHypothesis =>
    have whole : before ++ (middle ++ [byte]) ++ after = before ++ middle ++ byte :: after := by
      simp only [List.append_assoc, List.singleton_append]
    have length : (before ++ (middle ++ [byte])).length = (before ++ middle).length + 1 := by
      rw [← List.append_assoc, List.length_append, List.length_singleton]
    have inside : before.length < (before ++ middle).length + 1 := by
      rw [List.length_append]
      omega
    rw [trimEnd, length, if_pos inside, Nat.add_sub_cancel, whole, byteAt_append]
    show (if isBlank byte then _ else _) = _
    by_cases blank : isBlank byte
    · rw [if_pos blank, inductionHypothesis (byte :: after),
        List.rdropWhile_concat_pos _ _ _ blank]
    · rw [if_neg blank, List.rdropWhile_concat_neg _ _ _ blank, length]
      rfl

/-! ### Stripped strings -/

theorem dropWhile_append_cons {left right : Text} {byte : UInt8} (solid : ¬ isBlank byte) :
    (left ++ byte :: right).dropWhile isBlank = left.dropWhile isBlank ++ byte :: right := by
  induction left with
  | nil => exact List.dropWhile_cons_of_neg solid
  | cons first left inductionHypothesis =>
    by_cases blank : isBlank first
    · rw [List.cons_append, List.dropWhile_cons_of_pos blank, List.dropWhile_cons_of_pos blank,
        inductionHypothesis]
    · rw [List.cons_append, List.dropWhile_cons_of_neg blank, List.dropWhile_cons_of_neg blank,
        List.cons_append]

theorem rdropWhile_append_cons {left right : Text} {byte : UInt8} (solid : ¬ isBlank byte) :
    (left ++ byte :: right).rdropWhile isBlank = left ++ byte :: right.rdropWhile isBlank := by
  rw [List.rdropWhile, List.reverse_append, List.reverse_cons, List.append_assoc,
    List.singleton_append, dropWhile_append_cons solid, List.reverse_append, List.reverse_cons,
    List.reverse_reverse, List.append_assoc, List.singleton_append]
  rfl

/-- Around a byte that is not blank, the two ends are stripped apart. -/
theorem strip_append_cons {left right : Text} {byte : UInt8} (solid : ¬ isBlank byte) :
    strip (left ++ byte :: right) = left.dropWhile isBlank ++ byte :: right.rdropWhile isBlank := by
  rw [strip, dropWhile_append_cons solid, rdropWhile_append_cons solid]

theorem strip_dropWhile (s : Text) : strip (s.dropWhile isBlank) = strip s := by
  rw [strip, List.dropWhile_idempotent, strip]

theorem strip_rdropWhile (s : Text) : strip (s.rdropWhile isBlank) = strip s := by
  by_cases blank : ∀ byte ∈ s, isBlank byte
  · rw [List.rdropWhile_eq_nil_iff.mpr blank, strip, strip, List.dropWhile_eq_nil_iff.mpr blank]
    rfl
  · push Not at blank
    obtain ⟨byte, member, solid⟩ := blank
    obtain ⟨left, right, rfl⟩ := List.append_of_mem member
    rw [rdropWhile_append_cons solid, strip_append_cons solid, strip_append_cons solid,
      List.rdropWhile_idempotent]

/-- Padding is stripped. -/
theorem strip_padded {before s after : Text} (blankBefore : ∀ byte ∈ before, isBlank byte)
    (blankAfter : ∀ byte ∈ after, isBlank byte) : strip (before ++ s ++ after) = strip s := by
  have trailing : (before ++ s ++ after).rdropWhile isBlank = (before ++ s).rdropWhile isBlank := by
    rw [List.rdropWhile, List.reverse_append, List.dropWhile_append_of_pos fun byte member =>
      blankAfter byte (List.mem_reverse.mp member)]
    rfl
  rw [← strip_rdropWhile, trailing, strip_rdropWhile, strip,
    List.dropWhile_append_of_pos blankBefore, strip]

/-- Stripping removes nothing but blanks. -/
theorem count_strip {byte : UInt8} (solid : ¬ isBlank byte) (s : Text) :
    (strip s).count byte = s.count byte := by
  have leading : (s.takeWhile isBlank).count byte = 0 :=
    List.count_eq_zero.mpr fun member => solid (List.mem_takeWhile_imp member)
  have trailing : ((s.dropWhile isBlank).rtakeWhile isBlank).count byte = 0 :=
    List.count_eq_zero.mpr fun member => solid (List.mem_rtakeWhile_imp member)
  calc (strip s).count byte
      = (strip s ++ (s.dropWhile isBlank).rtakeWhile isBlank).count byte := by
        rw [List.count_append, trailing, Nat.add_zero]
    _ = (s.dropWhile isBlank).count byte := by
        rw [strip, List.rdropWhile_append_rtakeWhile]
    _ = (s.takeWhile isBlank ++ s.dropWhile isBlank).count byte := by
        rw [List.count_append, leading, Nat.zero_add]
    _ = s.count byte := by rw [List.takeWhile_append_dropWhile]

/-! ### What the helpers return -/

/-- `stringsTrim` strips. -/
theorem stringsTrim_eq (s : Text) : stringsTrim s = .ok (strip s) := by
  have start := trimStart_append [] s
  rw [List.nil_append, List.nil_append, List.length_nil] at start
  have last := trimEnd_append (s.takeWhile isBlank) (s.dropWhile isBlank) []
  rw [List.append_nil, List.takeWhile_append_dropWhile] at last
  -- What is cut off at the end starts where the stripped string ends.
  obtain ⟨trailing, kept⟩ := List.rdropWhile_prefix isBlank (s.dropWhile isBlank)
  have whole : s = s.takeWhile isBlank ++ strip s ++ trailing := by
    rw [List.append_assoc, strip, kept, List.takeWhile_append_dropWhile]
  have cut := slice_append (s.takeWhile isBlank) (strip s) trailing
  rw [← whole] at cut
  rw [stringsTrim, start]
  show (trimEnd s _ _ >>= fun last => slice s _ last) = _
  rw [last]
  exact cut

theorem trimAll_eq (parts : List Text) :
    trimAll parts = .ok ((parts.map strip).filter (· ≠ [])) := by
  induction parts with
  | nil => rfl
  | cons part rest inductionHypothesis =>
    rw [trimAll, stringsTrim_eq, inductionHypothesis, List.map_cons, List.filter_cons]
    show Except.ok _ = _
    by_cases empty : strip part = []
    · simp [empty]
    · simp [empty]

/-- `splitAndTrim` at one byte. -/
theorem splitAndTrim_singleton (s : Text) (byte : UInt8) {rounds : Nat}
    (enough : s.length < rounds) :
    splitAndTrim rounds s [byte] =
      pure (((s.splitOn byte).map strip).filter (· ≠ [])) := by
  rw [splitAndTrim, split_singleton s byte enough, pure_bind, trimAll_eq]
  rfl

end WgMesh.Meshd
