/-
This file models how the predictor gets its list of targets from a string.

`splitList` goes through the string rune by rune, collects what is neither a comma
nor a space, and closes a token at each of these. For valid UTF-8 the tokens are
the maximal runs of other bytes. `NewPortPredictor` probes the tokens in turn, or
the default server if there are none.
-/

import WgMesh.Go.Runes
import WgMesh.Pieces.Words
import WgMesh.Traversal.Predictor

namespace WgMesh.Traversal

open Go Pieces

/-- The loop of `splitList`. -/
def splitListLoop (out : List Text) (cur : Text) : List Char → List Text
  | [] => if cur ≠ [] then out ++ [cur] else out
  | r :: rest =>
    if r = ',' ∨ r = ' ' then
      if cur ≠ [] then splitListLoop (out ++ [cur]) [] rest else splitListLoop out cur rest
    else splitListLoop out (cur ++ encodeRune r) rest

def splitList (s : Text) : List Text := splitListLoop [] [] (runes s)

/-- `NewPortPredictor`. -/
def newPortPredictor (stunAddrs : Text) (conn : Bool) : PortPredictor :=
  PortPredictor.new (splitList stunAddrs) conn

/-- The bytes of the two separators. -/
def isSeparator (byte : UInt8) : Bool := byte = 44 ∨ byte = 32

/-- Separators, at least one. -/
structure Mix where
  bytes : Text
  nonempty : bytes ≠ []
  separators : ∀ byte ∈ bytes, isSeparator byte

/-! ### Tokens -/

/-- The two separators are encoded as themselves. -/
theorem encodeRune_separator {r : Char} (separator : r = ',' ∨ r = ' ') :
    ∃ byte, isSeparator byte ∧ encodeRune r = [byte] := by
  rcases separator with rfl | rfl
  · exact ⟨44, by decide, by decide⟩
  · exact ⟨32, by decide, by decide⟩

/-- No other rune has a separator in its encoding. -/
theorem solid_encodeRune {r : Char} (other : ¬ (r = ',' ∨ r = ' ')) :
    ∀ byte ∈ encodeRune r, ¬ isSeparator byte := by
  intro byte member separator
  have cases : byte = 44 ∨ byte = 32 := of_decide_eq_true separator
  rcases cases with rfl | rfl
  · exact other (.inl (Char.toNat_inj.mp (toNat_of_mem_encodeRune (by decide) member)))
  · exact other (.inr (Char.toNat_inj.mp (toNat_of_mem_encodeRune (by decide) member)))

/-- The loop adds the words of the open token and the runes to come. -/
theorem splitListLoop_words (out : List Text) {cur : Text} (decoded : List Char)
    (solid : ∀ byte ∈ cur, ¬ isSeparator byte) (valid : ValidUTF8 cur) :
    ∃ tokens : List Text, splitListLoop out cur decoded = out ++ tokens ∧
      Words isSeparator (cur ++ encodeRunes decoded) tokens ∧
      ∀ token ∈ tokens, ValidUTF8 token := by
  have nothing : ∀ byte ∈ ([] : Text), isSeparator byte :=
    List.forall_mem_nil _
  induction decoded generalizing out cur with
  | nil =>
    rw [splitListLoop, encodeRunes, List.flatMap_nil]
    by_cases empty : cur = []
    · rw [if_neg (not_not.mpr empty), empty]
      exact ⟨[], (List.append_nil out).symm, .gap [] nothing,
        List.forall_mem_nil _⟩
    · rw [if_pos empty]
      refine ⟨[cur], rfl, .word [] cur [] [] nothing empty solid ?_ (.gap [] nothing),
        List.forall_mem_singleton.mpr valid⟩
      intro first head
      cases head
  | cons r rest inductionHypothesis =>
    rw [splitListLoop, encodeRunes, List.flatMap_cons]
    by_cases separator : r = ',' ∨ r = ' '
    · obtain ⟨byte, separates, encoded⟩ := encodeRune_separator separator
      rw [if_pos separator, encoded, List.singleton_append]
      have none : ∀ byte ∈ ([] : Text), ¬ isSeparator byte :=
        List.forall_mem_nil _
      by_cases empty : cur = []
      · obtain ⟨tokens, looped, words, validTokens⟩ := inductionHypothesis out none validUTF8_nil
        rw [if_neg (not_not.mpr empty), empty, List.nil_append]
        exact ⟨tokens, looped, words.separator_cons separates, validTokens⟩
      · obtain ⟨tokens, looped, words, validTokens⟩ :=
          inductionHypothesis (out ++ [cur]) none validUTF8_nil
        rw [if_pos empty, looped, List.append_assoc, List.singleton_append]
        refine ⟨cur :: tokens, rfl, .word [] cur _ tokens nothing empty solid ?_
          (words.separator_cons separates), List.forall_mem_cons.mpr ⟨valid, validTokens⟩⟩
        intro first head
        cases head
        exact separates
    · rw [if_neg separator, ← List.append_assoc]
      refine inductionHypothesis out ?_ (valid.append (validUTF8_encodeRune r))
      intro byte member
      rcases List.mem_append.mp member with held | new
      · exact solid byte held
      · exact solid_encodeRune separator byte new

/-- The tokens of valid UTF-8 are its words, and valid UTF-8 themselves. -/
theorem splitList_words {s : Text} (valid : ValidUTF8 s) :
    Words isSeparator s (splitList s) ∧ ∀ token ∈ splitList s, ValidUTF8 token := by
  obtain ⟨decoded, rfl⟩ := valid
  obtain ⟨tokens, looped, words, validTokens⟩ := splitListLoop_words [] decoded
    (List.forall_mem_nil _) validUTF8_nil
  rw [splitList, runes_encodeRunes, looped]
  exact ⟨words, validTokens⟩

theorem splitList_eq_of_words {s : Text} {tokens : List Text} (valid : ValidUTF8 s)
    (words : Words isSeparator s tokens) : splitList s = tokens := by
  rw [(splitList_words valid).1.eq_words, words.eq_words]

theorem validUTF8_separators {bytes : Text} (separators : ∀ byte ∈ bytes, isSeparator byte) :
    ValidUTF8 bytes := by
  induction bytes with
  | nil => exact validUTF8_nil
  | cons byte rest inductionHypothesis =>
    obtain ⟨first, others⟩ := List.forall_mem_cons.mp separators
    have encoded : ValidUTF8 [byte] := by
      have cases : byte = 44 ∨ byte = 32 := of_decide_eq_true first
      rcases cases with rfl | rfl
      · exact validUTF8_encodeRune ','
      · exact validUTF8_encodeRune ' '
    exact encoded.append (inductionHypothesis others)

theorem validUTF8_weave {tokens : List Text} (valid : ∀ token ∈ tokens, ValidUTF8 token)
    (mixes : Nat → Mix) : ValidUTF8 (weave tokens fun index => (mixes index).bytes) := by
  induction tokens generalizing mixes with
  | nil => exact validUTF8_nil
  | cons token rest inductionHypothesis =>
    obtain ⟨first, others⟩ := List.forall_mem_cons.mp valid
    cases rest with
    | nil => exact first
    | cons next rest =>
      exact (first.append (validUTF8_separators (mixes 0).separators)).append
        (inductionHypothesis others fun index => mixes (index + 1))

/-- Tokens that are joined with any mixes of separators are split again. -/
theorem splitList_weave {s : Text} (valid : ValidUTF8 s) (mixes : Nat → Mix) :
    splitList (weave (splitList s) fun index => (mixes index).bytes) = splitList s := by
  obtain ⟨words, validTokens⟩ := splitList_words valid
  refine splitList_eq_of_words (validUTF8_weave validTokens mixes) (words_weave words.mem ?_)
  exact fun index => ⟨(mixes index).nonempty, (mixes index).separators⟩

/-- The targets of a new predictor. -/
theorem stunAddrs_newPortPredictor {s : Text} (valid : ValidUTF8 s) (conn : Bool) :
    (newPortPredictor s conn).stunAddrs =
      if splitList s = [] then [defaultStunServer] else splitList s := by
  have kept : (splitList s).filter (· ≠ []) = splitList s := by
    refine List.filter_eq_self.mpr fun token member => decide_eq_true ?_
    exact ((splitList_words valid).1.mem token member).1
  unfold newPortPredictor PortPredictor.new
  by_cases none : splitList s = []
  · rw [dif_neg (not_not.mpr (kept.trans none)), if_pos none]
  · rw [dif_pos fun empty => none (kept.symm.trans empty), if_neg none]
    exact kept

end WgMesh.Traversal
