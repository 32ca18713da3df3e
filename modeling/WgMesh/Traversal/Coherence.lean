/-
This file settles when a STUN result is all of one attribute or nothing.

The port of a result is that of the last address attribute the parser meets, of
whatever family. The address is that of the last one whose family is known. A
result is therefore put together from two attributes, or has a port and no
address, unless an attribute with a known family happens to carry both: the
address of the last such attribute and the port of the last one of all. A
datagram whose last address attribute has a known family is always read that way.
-/

import WgMesh.Traversal.Response

namespace WgMesh.Traversal

open Go

/-! ### Results and the attributes they come from -/

/-- The result says nothing, or what one address attribute of the walk says. -/
def StunResult.Whole (data : List UInt8) (result : StunResult) : Prop :=
  result = {} ∨ ∃ seen, Tlv.Walk (data.drop 20) seen ∧ ∃ field ∈ seen,
    (maskedIP (data.drop 4) field).isSome ∧ maskedIP (data.drop 4) field = result.publicIP ∧
      maskedPort (data.drop 4) field = result.publicPort

/-- There is no address attribute, or one of a known family has the address of the last such
attribute and the port of the last address attribute of all. -/
def OneCarriesAll (mask : List UInt8) (seen : List Tlv.Seen) : Prop :=
  (∀ field ∈ seen, ¬ IsAddress field) ∨ ∃ field ∈ seen, (maskedIP mask field).isSome ∧
    (seen.filterMap (maskedIP mask)).getLast? = maskedIP mask field ∧
    (seen.filter fun field => IsAddress field).getLast?.map (maskedPort mask) =
      some (maskedPort mask field)

instance (mask : List UInt8) (seen : List Tlv.Seen) : Decidable (OneCarriesAll mask seen) :=
  inferInstanceAs (Decidable (_ ∨ _))

/-! ### When a result is whole -/

/-- A known family makes an address attribute. -/
theorem isAddress_of_isSome {mask : List UInt8} {field : Tlv.Seen}
    (known : (maskedIP mask field).isSome) : IsAddress field := by
  by_contra other
  rw [maskedIP, if_neg other] at known
  cases known

/-- What the parser returns, field by field. -/
theorem fields_of_parsed {data : List UInt8} {seen : List Tlv.Seen} {result : StunResult}
    (walk : Tlv.Walk (data.drop 20) seen) (parsed : parseStunResponse data = .ok result) :
    result.publicIP = (seen.filterMap (maskedIP (data.drop 4))).getLast? ∧
      result.publicPort = ((seen.filter fun field => IsAddress field).getLast?.map
        (maskedPort (data.drop 4))).getD 0 ∧
      result.natType = if (seen.filter fun field => IsAddress field) = [] then .unknown
        else .cone := by
  rw [parseStunResponse_eq walk] at parsed
  obtain ⟨_, folded⟩ := foldlM_absorb_eq_ok.mp parsed
  rw [← folded, publicIP_foldl, publicPort_foldl, natType_foldl]
  exact ⟨Option.or_none, rfl, rfl⟩

/-- A walk without address attributes leaves the result as it was. -/
theorem eq_default_iff_of_walk {data : List UInt8} {seen : List Tlv.Seen} {result : StunResult}
    (walk : Tlv.Walk (data.drop 20) seen) (parsed : parseStunResponse data = .ok result) :
    result = {} ↔ ∀ field ∈ seen, ¬ IsAddress field := by
  obtain ⟨ip, port, natType⟩ := fields_of_parsed walk parsed
  have empty : (seen.filter fun field => IsAddress field) = [] ↔
      ∀ field ∈ seen, ¬ IsAddress field := by
    simp only [List.filter_eq_nil_iff, decide_eq_true_eq]
  rw [← empty]
  constructor
  · rintro rfl
    by_contra nonempty
    rw [if_neg nonempty] at natType
    cases natType
  · intro none
    have unknown : seen.filterMap (maskedIP (data.drop 4)) = [] :=
      List.filterMap_eq_nil_iff.mpr fun field member => if_neg (empty.mp none field member)
    rw [unknown] at ip
    rw [none] at port natType
    cases result
    cases ip
    cases port
    cases natType
    rfl

theorem whole_iff_of_walk {data : List UInt8} {seen : List Tlv.Seen} {result : StunResult}
    (walk : Tlv.Walk (data.drop 20) seen) (parsed : parseStunResponse data = .ok result) :
    result.Whole data ↔ OneCarriesAll (data.drop 4) seen := by
  obtain ⟨ip, port, _⟩ := fields_of_parsed walk parsed
  refine or_congr (eq_default_iff_of_walk walk parsed) ?_
  constructor
  · rintro ⟨others, walk', field, member, known, address, number⟩
    rw [walk'.unique walk] at member
    refine ⟨field, member, known, ip.symm.trans address.symm, ?_⟩
    have nonempty : (seen.filter fun field => IsAddress field) ≠ [] :=
      List.ne_nil_of_mem (List.mem_filter.mpr
        ⟨member, decide_eq_true (isAddress_of_isSome known)⟩)
    rw [List.getLast?_eq_some_getLast nonempty] at port ⊢
    rw [number, port]
    rfl
  · rintro ⟨field, member, known, address, number⟩
    refine ⟨seen, walk, field, member, known, address.symm.trans ip.symm, ?_⟩
    rw [port, number]
    rfl

/-- The parser's result is all of one attribute or nothing exactly when one attribute says all of
it, or none says any of it. -/
theorem result_whole_iff (data : List UInt8) (result : StunResult)
    (parsed : parseStunResponse data = .ok result) :
    result.Whole data ↔
      ∃ seen, Tlv.Walk (data.drop 20) seen ∧ OneCarriesAll (data.drop 4) seen := by
  constructor
  · intro whole
    obtain ⟨seen, walk⟩ := Tlv.exists_walk (data.drop 20)
    exact ⟨seen, walk, (whole_iff_of_walk walk parsed).mp whole⟩
  · rintro ⟨seen, walk, one⟩
    exact (whole_iff_of_walk walk parsed).mpr one

/-- If the last address attribute has a known family, it carries all of the result. -/
theorem oneCarriesAll_of_last {mask : List UInt8} {seen later : List Tlv.Seen} {field : Tlv.Seen}
    (known : (maskedIP mask field).isSome) (others : ∀ other ∈ later, ¬ IsAddress other) :
    OneCarriesAll mask (seen ++ field :: later) := by
  have noAddress : (later.filter fun other => IsAddress other) = [] := by
    simpa only [List.filter_eq_nil_iff, decide_eq_true_eq] using others
  have noIP : later.filterMap (maskedIP mask) = [] :=
    List.filterMap_eq_nil_iff.mpr fun other member => if_neg (others other member)
  obtain ⟨ip, carried⟩ := Option.isSome_iff_exists.mp known
  refine .inr ⟨field, List.mem_append_right _ List.mem_cons_self, known, ?_, ?_⟩
  · rw [List.filterMap_append, List.filterMap_cons_some carried, noIP, List.getLast?_concat,
      carried]
  · have address : decide (IsAddress field) = true := decide_eq_true (isAddress_of_isSome known)
    rw [List.filter_append, List.filter_cons, if_pos address, noAddress, List.getLast?_concat]
    rfl

/-- The attribute that carries an address of this family and port after a header, under a mask of
the cookie and zeros. -/
def addressOf (family : UInt8) (port : Nat) : List UInt8 :=
  [0x00, 0x20, 0x00, 0x08, 0x00, family] ++
    List.zipWith (· ^^^ ·) (Tlv.uint16Bytes port) magicCookie ++
    List.zipWith (· ^^^ ·) [203, 0, 113, 9] magicCookie

/-- A response with these attributes. -/
def responseOf (attributes : List UInt8) : List UInt8 :=
  [0x01, 0x01] ++ Tlv.uint16Bytes attributes.length ++ magicCookie ++ List.replicate 12 0 ++
    attributes

/-- The walk over such attributes. -/
theorem walk_addressOf (family : UInt8) (port : Nat) {rest : List UInt8} {later : List Tlv.Seen}
    (walk : Tlv.Walk rest later) :
    Tlv.Walk (addressOf family port ++ rest)
      (⟨0x0020, 8, (addressOf family port).drop 4 ++ rest⟩ :: later) :=
  .reads (List.cons_ne_nil _ _) (Nat.le_add_left 8 rest.length) walk

theorem result_whole_iff_known :
    ∃ result, parseStunResponse (responseOf (addressOf 0x01 40000)) = .ok result ∧
      result.Whole (responseOf (addressOf 0x01 40000)) := by
  refine ⟨{ publicIP := some [203, 0, 113, 9], publicPort := 40000, natType := .cone },
    by decide +kernel, ?_⟩
  refine (result_whole_iff _ _ (by decide +kernel)).mpr
    ⟨_, walk_addressOf 0x01 40000 (.ends (Nat.zero_le 4)), ?_⟩
  exact @oneCarriesAll_of_last _ [] [] _ (by decide +kernel) fun _ none => by cases none

/-- An attribute of an unknown family leads to a port without an address, and to the port of one
attribute with the address of another. -/
theorem unknownFamily_mixed :
    parseStunResponse (responseOf (addressOf 0x03 40000)) =
        .ok { publicIP := none, publicPort := 40000, natType := .cone } ∧
      parseStunResponse (responseOf (addressOf 0x01 40000 ++ addressOf 0x03 50000)) =
        .ok { publicIP := some [203, 0, 113, 9], publicPort := 50000, natType := .cone } ∧
      ¬ StunResult.Whole (responseOf (addressOf 0x03 40000))
        { publicIP := none, publicPort := 40000, natType := .cone } ∧
      ¬ StunResult.Whole (responseOf (addressOf 0x01 40000 ++ addressOf 0x03 50000))
        { publicIP := some [203, 0, 113, 9], publicPort := 50000, natType := .cone } := by
  have portOnly : parseStunResponse (responseOf (addressOf 0x03 40000)) =
      .ok { publicIP := none, publicPort := 40000, natType := .cone } := by
    decide +kernel
  have mixed : parseStunResponse (responseOf (addressOf 0x01 40000 ++ addressOf 0x03 50000)) =
      .ok { publicIP := some [203, 0, 113, 9], publicPort := 50000, natType := .cone } := by
    decide +kernel
  have ends : Tlv.Walk [] [] := .ends (Nat.zero_le 4)
  have single : Tlv.Walk ((responseOf (addressOf 0x03 40000)).drop 20) _ :=
    walk_addressOf 0x03 40000 ends
  have double :
      Tlv.Walk ((responseOf (addressOf 0x01 40000 ++ addressOf 0x03 50000)).drop 20) _ :=
    walk_addressOf 0x01 40000 (walk_addressOf 0x03 50000 ends)
  refine ⟨portOnly, mixed, ?_, ?_⟩
  · rw [whole_iff_of_walk single portOnly]
    decide +kernel
  · rw [whole_iff_of_walk double mixed]
    decide +kernel

end WgMesh.Traversal
