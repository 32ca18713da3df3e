/-
This file builds a format of attributes laid out one after another: a 16-bit
type, a 16-bit length, and a value of that length. There are two ways to lay out
such a list. In the padded one every value is filled up with zero bytes to a
multiple of four; in the other the next attribute follows the value at once.

`Walk` describes the reading of the second kind: an attribute is cut off the
front for as long as more than its header is left and the declared length is
there. Every byte string has exactly one such walk. On a padded layout the walk
finds the attributes that were laid out as long as no value needed padding.
-/

import WgMesh.Go.Text

namespace Tlv

/-- Two bytes as one number, most significant byte first. -/
def uint16 (high low : UInt8) : Nat := high.toNat <<< 8 ||| low.toNat

/-- The two bytes of a number below 65536. -/
def uint16Bytes (number : Nat) : List UInt8 :=
  [UInt8.ofNat (number / 256), UInt8.ofNat number]

theorem uint16_eq (high low : UInt8) : uint16 high low = high.toNat * 256 + low.toNat := by
  have below : low.toNat < 2 ^ 8 := low.toNat_lt
  rw [uint16, ← Nat.shiftLeft_add_eq_or_of_lt below, Nat.shiftLeft_eq]

theorem uint16_uint16Bytes {number : Nat} (small : number < 65536) :
    uint16 (UInt8.ofNat (number / 256)) (UInt8.ofNat number) = number := by
  rw [uint16_eq, UInt8.toNat_ofNat', UInt8.toNat_ofNat']
  omega

/-! ### Layouts -/

/-- An attribute. -/
structure Attribute where
  kind : Nat
  value : List UInt8
  deriving DecidableEq, Repr

/-- The zero bytes that fill a value of this length up to a multiple of four. -/
def padding (length : Nat) : List UInt8 := List.replicate ((4 - length % 4) % 4) 0

/-- The padded layout of an attribute. -/
def Attribute.encode (field : Attribute) : List UInt8 :=
  uint16Bytes field.kind ++ uint16Bytes field.value.length ++ field.value ++
    padding field.value.length

/-- The padded layout of a list of attributes. -/
def encodeAll (attributes : List Attribute) : List UInt8 := attributes.flatMap Attribute.encode

/-- An attribute that needs no padding. -/
def Attribute.Aligned (field : Attribute) : Prop := field.value.length % 4 = 0

instance (field : Attribute) : Decidable field.Aligned :=
  inferInstanceAs (Decidable (_ = _))

/-! ### Walks -/

/-- An attribute met on a walk: its type and length, and everything from the first byte of its
value to the end of the data. -/
structure Seen where
  kind : Nat
  length : Nat
  tail : List UInt8
  deriving DecidableEq, Repr

/-- The attributes met when the data is read as attributes that follow each other at once. -/
inductive Walk : List UInt8 → List Seen → Prop
  | ends {data : List UInt8} (short : data.length ≤ 4) : Walk data []
  | breaks {kindHigh kindLow lengthHigh lengthLow : UInt8} {tail : List UInt8}
      (overlong : tail.length < uint16 lengthHigh lengthLow) :
      Walk (kindHigh :: kindLow :: lengthHigh :: lengthLow :: tail) []
  | reads {kindHigh kindLow lengthHigh lengthLow : UInt8} {tail : List UInt8}
      {later : List Seen} (more : tail ≠ [])
      (within : uint16 lengthHigh lengthLow ≤ tail.length)
      (walk : Walk (tail.drop (uint16 lengthHigh lengthLow)) later) :
      Walk (kindHigh :: kindLow :: lengthHigh :: lengthLow :: tail)
        (⟨uint16 kindHigh kindLow, uint16 lengthHigh lengthLow, tail⟩ :: later)

/-- Data that is long enough has a header. -/
theorem exists_header {data : List UInt8} (long : 4 < data.length) :
    ∃ kindHigh kindLow lengthHigh lengthLow tail,
      data = kindHigh :: kindLow :: lengthHigh :: lengthLow :: tail ∧ tail ≠ [] := by
  match data, long with
  | kindHigh :: kindLow :: lengthHigh :: lengthLow :: byte :: rest, _ =>
    exact ⟨kindHigh, kindLow, lengthHigh, lengthLow, byte :: rest, rfl, List.cons_ne_nil _ _⟩

/-- What is left behind a header that is all there is. -/
theorem nil_of_short {kindHigh kindLow lengthHigh lengthLow : UInt8} {tail : List UInt8}
    (short : (kindHigh :: kindLow :: lengthHigh :: lengthLow :: tail).length ≤ 4) : tail = [] := by
  simp only [List.length_cons] at short
  exact List.length_eq_zero_iff.mp (by omega)

theorem exists_walk (data : List UInt8) : ∃ seen, Walk data seen := by
  induction bound : data.length using Nat.strong_induction_on generalizing data with
  | _ size inductionHypothesis =>
    by_cases long : 4 < data.length
    · obtain ⟨kindHigh, kindLow, lengthHigh, lengthLow, tail, rfl, more⟩ := exists_header long
      by_cases within : uint16 lengthHigh lengthLow ≤ tail.length
      · have shorter : (tail.drop (uint16 lengthHigh lengthLow)).length < size := by
          simp only [List.length_cons] at bound
          rw [List.length_drop]
          omega
        obtain ⟨later, walk⟩ := inductionHypothesis _ shorter _ rfl
        exact ⟨_, .reads more within walk⟩
      · exact ⟨[], .breaks (Nat.lt_of_not_le within)⟩
    · exact ⟨[], .ends (Nat.le_of_not_lt long)⟩

theorem Walk.unique {data : List UInt8} {first second : List Seen} (one : Walk data first)
    (other : Walk data second) : first = second := by
  induction one generalizing second with
  | ends short =>
    cases other with
    | ends _ => rfl
    | breaks _ => rfl
    | reads more _ _ => exact absurd (nil_of_short short) more
  | breaks overlong =>
    cases other with
    | ends _ => rfl
    | breaks _ => rfl
    | reads _ within _ => exact absurd within (Nat.not_le_of_lt overlong)
  | reads more within _ inductionHypothesis =>
    cases other with
    | ends short => exact absurd (nil_of_short short) more
    | breaks overlong => exact absurd within (Nat.not_le_of_lt overlong)
    | reads _ _ walk => rw [inductionHypothesis walk]

/-! ### Walks over padded layouts -/

/-- An attribute as a walk meets it in front of `rest`. -/
def Attribute.seenBefore (field : Attribute) (rest : List UInt8) : Seen :=
  ⟨field.kind, field.value.length, field.value ++ padding field.value.length ++ rest⟩

theorem padding_of_aligned {field : Attribute} (aligned : field.Aligned) :
    padding field.value.length = [] := by
  unfold Attribute.Aligned at aligned
  rw [padding, aligned]
  rfl

theorem encodeAll_cons (field : Attribute) (rest : List Attribute) :
    encodeAll (field :: rest) = field.encode ++ encodeAll rest := rfl

theorem encodeAll_append (first second : List Attribute) :
    encodeAll (first ++ second) = encodeAll first ++ encodeAll second := List.flatMap_append

theorem length_le_encodeAll {field : Attribute} {fields : List Attribute}
    (member : field ∈ fields) : field.value.length ≤ (encodeAll fields).length := by
  obtain ⟨before, after, rfl⟩ := List.append_of_mem member
  rw [encodeAll_append, encodeAll_cons, Attribute.encode]
  simp only [List.length_append]
  omega

/-- A walk passes the value of an attribute and goes on with its padding. -/
theorem Walk.encode_append {field : Attribute} {rest : List UInt8} {later : List Seen}
    (kindSmall : field.kind < 65536) (lengthSmall : field.value.length < 65536)
    (more : field.value ++ padding field.value.length ++ rest ≠ [])
    (walk : Walk (padding field.value.length ++ rest) later) :
    Walk (field.encode ++ rest) (field.seenBefore rest :: later) := by
  have within : field.value.length ≤
      (field.value ++ padding field.value.length ++ rest).length := by
    simp only [List.length_append]
    omega
  have passed := @Walk.reads (UInt8.ofNat (field.kind / 256)) (UInt8.ofNat field.kind)
    (UInt8.ofNat (field.value.length / 256)) (UInt8.ofNat field.value.length)
    (field.value ++ padding field.value.length ++ rest) later more
  rw [uint16_uint16Bytes kindSmall, uint16_uint16Bytes lengthSmall, List.append_assoc,
    List.drop_left, ← List.append_assoc] at passed
  exact passed within walk

/-- A walk over a padded layout whose attributes, the last one apart, need no padding meets
attributes of the types laid out only. -/
theorem exists_walk_encodeAll {fields : List Attribute}
    (aligned : ∀ field ∈ fields.dropLast, field.Aligned)
    (small : ∀ field ∈ fields, field.kind < 65536 ∧ field.value.length < 65536) :
    ∃ seen, Walk (encodeAll fields) seen ∧
      ∀ met ∈ seen, ∃ field ∈ fields, met.kind = field.kind := by
  induction fields with
  | nil => exact ⟨[], .ends (Nat.zero_le 4), by simp⟩
  | cons field rest inductionHypothesis =>
    obtain ⟨kindSmall, lengthSmall⟩ := small field List.mem_cons_self
    have next : ∃ seen, Walk (padding field.value.length ++ encodeAll rest) seen ∧
        ∀ met ∈ seen, ∃ field ∈ rest, met.kind = field.kind := by
      cases rest with
      | nil =>
        refine ⟨[], .ends ?_, by simp⟩
        simp only [encodeAll, padding, List.flatMap_nil, List.append_nil, List.length_replicate]
        omega
      | cons second others =>
        rw [padding_of_aligned (aligned field List.mem_cons_self), List.nil_append]
        exact inductionHypothesis
          (fun other member => aligned other (List.mem_cons_of_mem _ member))
          fun other member => small other (List.mem_cons_of_mem _ member)
    obtain ⟨seen, walk, kinds⟩ := next
    by_cases more : field.value ++ padding field.value.length ++ encodeAll rest = []
    · refine ⟨[], .ends ?_, by simp⟩
      rw [encodeAll_cons, Attribute.encode, List.append_assoc, List.append_assoc,
        ← List.append_assoc field.value, more]
      rfl
    · refine ⟨_, .encode_append kindSmall lengthSmall more walk, ?_⟩
      rw [List.forall_mem_cons]
      refine ⟨⟨field, List.mem_cons_self, rfl⟩, fun met member => ?_⟩
      obtain ⟨other, among, same⟩ := kinds met member
      exact ⟨other, List.mem_cons_of_mem _ among, same⟩

/-- A walk over attributes that need no padding meets them and goes on behind them. -/
theorem exists_walk_encodeAll_append {fields : List Attribute} {rest : List UInt8}
    {later : List Seen} (aligned : ∀ field ∈ fields, field.Aligned)
    (small : ∀ field ∈ fields, field.kind < 65536 ∧ field.value.length < 65536)
    (more : rest ≠ []) (walk : Walk rest later) :
    ∃ seen, Walk (encodeAll fields ++ rest) (seen ++ later) ∧
      ∀ met ∈ seen, ∃ field ∈ fields, met.kind = field.kind := by
  induction fields with
  | nil => exact ⟨[], walk, by simp⟩
  | cons field others inductionHypothesis =>
    obtain ⟨seen, passed, kinds⟩ := inductionHypothesis
      (fun other member => aligned other (List.mem_cons_of_mem _ member))
      fun other member => small other (List.mem_cons_of_mem _ member)
    obtain ⟨kindSmall, lengthSmall⟩ := small field List.mem_cons_self
    have none := padding_of_aligned (aligned field List.mem_cons_self)
    refine ⟨field.seenBefore (encodeAll others ++ rest) :: seen, ?_, ?_⟩
    · rw [encodeAll_cons, List.append_assoc]
      refine .encode_append kindSmall lengthSmall (by simp [more]) ?_
      rw [none]
      exact passed
    · rw [List.forall_mem_cons]
      refine ⟨⟨field, List.mem_cons_self, rfl⟩, fun met member => ?_⟩
      obtain ⟨other, among, same⟩ := kinds met member
      exact ⟨other, List.mem_cons_of_mem _ among, same⟩

end Tlv
