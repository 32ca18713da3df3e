/-
This file models the STUN client: the binding request it sends and the parser of
the response. The parser walks over the attributes with an index of its own, adds
the declared length of each value and nothing else, and copies what an
XOR-MAPPED-ADDRESS attribute says into the result as it goes.

The walk is the one of `Tlv.Walk`, so what the parser returns is a fold over the
attributes met there: a fault when an IPv6 address reaches past the end of the
datagram, otherwise the port of the last address attribute and the address of the
last one whose family is known.
-/

import WgMesh.Go.Tlv

namespace WgMesh.Traversal

open Go

/-! ### The client -/

/-- The kinds of NAT a result can name. -/
inductive NATType where
  | cone
  | unknown
  deriving DecidableEq, Repr

/-- What a STUN query tells. -/
structure StunResult where
  publicIP : Option (List UInt8) := none
  publicPort : Nat := 0
  natType : NATType := .unknown
  deriving DecidableEq, Repr

/-- The magic cookie of the protocol. -/
def magicCookie : List UInt8 := [0x21, 0x12, 0xA4, 0x42]

/-- `buildStunRequest`: a binding request without attributes. -/
def buildStunRequest : List UInt8 :=
  [0x00, 0x01, 0x00, 0x00] ++ magicCookie ++
    (List.range 12).map fun offset => UInt8.ofNat ((8 + offset) * 37)

/-- The loop over the address bytes: the first `count` of them, unmasked. -/
def xorAddress (data : List UInt8) (i : Nat) : Nat → Except Panic (List UInt8)
  | 0 => return []
  | count + 1 => do
    let ip ← xorAddress data i count
    let byte ← byteAt data (i + 4 + count)
    let mask ← byteAt data (4 + count)
    return ip ++ [byte ^^^ mask]

/-- The address attribute whose value starts at `i`. -/
def readAddress (data : List UInt8) (i : Nat) (result : StunResult) :
    Except Panic StunResult := do
  let family ← byteAt data (i + 1)
  let high ← byteAt data (i + 2)
  let maskHigh ← byteAt data 4
  let low ← byteAt data (i + 3)
  let maskLow ← byteAt data 5
  let port := Tlv.uint16 (high ^^^ maskHigh) (low ^^^ maskLow)
  if family = 0x01 then
    let ip ← xorAddress data i 4
    return { publicIP := some ip, publicPort := port, natType := .cone }
  else if family = 0x02 then
    let ip ← xorAddress data i 16
    return { publicIP := some ip, publicPort := port, natType := .cone }
  else
    return { result with publicPort := port, natType := .cone }

/-- The attribute whose value starts at `i`. -/
def parseAttribute (data : List UInt8) (i attrType attrLen : Nat) (result : StunResult) :
    Except Panic StunResult :=
  if attrType = 0x0020 ∧ 8 ≤ attrLen then readAddress data i result else return result

/-- The loop over the attributes, from index `i` on. -/
def parseAttributes (data : List UInt8) (i : Nat) (result : StunResult) :
    Except Panic StunResult :=
  if i + 4 < data.length then do
    let kindHigh ← byteAt data i
    let kindLow ← byteAt data (i + 1)
    let lengthHigh ← byteAt data (i + 2)
    let lengthLow ← byteAt data (i + 3)
    let attrType := Tlv.uint16 kindHigh kindLow
    let attrLen := Tlv.uint16 lengthHigh lengthLow
    if data.length < i + 4 + attrLen then
      return result
    else
      let result ← parseAttribute data (i + 4) attrType attrLen result
      parseAttributes data (i + 4 + attrLen) result
  else
    return result
termination_by data.length - i

/-- `parseStunResponse`. -/
def parseStunResponse (data : List UInt8) : Except Panic StunResult :=
  if data.length < 20 then return {} else parseAttributes data 20 {}

/-! ### One attribute -/

/-- An attribute the parser takes an address from. -/
def IsAddress (field : Tlv.Seen) : Prop := field.kind = 0x0020 ∧ 8 ≤ field.length

instance (field : Tlv.Seen) : Decidable (IsAddress field) :=
  inferInstanceAs (Decidable (_ ∧ _))

/-- An IPv6 address of which not all 16 bytes are in the datagram. -/
def Overruns (field : Tlv.Seen) : Prop :=
  IsAddress field ∧ field.tail[1]? = some 0x02 ∧ field.tail.length < 20

instance (field : Tlv.Seen) : Decidable (Overruns field) :=
  inferInstanceAs (Decidable (_ ∧ _))

/-- The port an address attribute carries under a mask. -/
def maskedPort (mask : List UInt8) (field : Tlv.Seen) : Nat :=
  Tlv.uint16 (field.tail.getD 2 0 ^^^ mask.getD 0 0) (field.tail.getD 3 0 ^^^ mask.getD 1 0)

/-- The first bytes of the address that a value carries under a mask. -/
def unmasked (mask tail : List UInt8) (count : Nat) : List UInt8 :=
  (List.range count).map fun index => tail.getD (4 + index) 0 ^^^ mask.getD index 0

/-- The address an attribute carries under a mask, if its family is known. -/
def maskedIP (mask : List UInt8) (field : Tlv.Seen) : Option (List UInt8) :=
  if IsAddress field then
    if field.tail[1]? = some 0x01 then some (unmasked mask field.tail 4)
    else if field.tail[1]? = some 0x02 then some (unmasked mask field.tail 16)
    else none
  else none

/-- What an attribute that does not overrun makes of a result. -/
def report (mask : List UInt8) (result : StunResult) (field : Tlv.Seen) : StunResult :=
  if IsAddress field then {
    publicIP := (maskedIP mask field).or result.publicIP
    publicPort := maskedPort mask field
    natType := .cone }
  else result

/-- What an attribute makes of a result, or the fault it causes. -/
def absorb (mask : List UInt8) (result : StunResult) (field : Tlv.Seen) :
    Except Panic StunResult :=
  if Overruns field then .error .indexOutOfRange else .ok (report mask result field)

theorem byteAt_of_lt {data : List UInt8} {index : Nat} (within : index < data.length) :
    byteAt data index = .ok (data.getD index 0) := by
  rw [byteAt_eq_ok, List.getD_eq_getElem?_getD, List.getElem?_eq_getElem within]
  rfl

theorem byteAt_of_le {data : List UInt8} {index : Nat} (outside : data.length ≤ index) :
    byteAt data index = .error .indexOutOfRange := by
  rw [byteAt, List.getElem?_eq_none outside]

theorem getD_drop (data : List UInt8) (start index : Nat) :
    (data.drop start).getD index 0 = data.getD (start + index) 0 := by
  rw [List.getD_eq_getElem?_getD, List.getD_eq_getElem?_getD, List.getElem?_drop]

theorem unmasked_succ (mask tail : List UInt8) (count : Nat) :
    unmasked mask tail (count + 1) =
      unmasked mask tail count ++ [tail.getD (4 + count) 0 ^^^ mask.getD count 0] := by
  rw [unmasked, List.range_succ, List.map_append, List.map_singleton]
  rfl

theorem xorAddress_of_le {data : List UInt8} {i count : Nat}
    (within : i + 4 + count ≤ data.length) :
    xorAddress data i count = .ok (unmasked (data.drop 4) (data.drop i) count) := by
  induction count with
  | zero => rfl
  | succ count inductionHypothesis =>
    rw [xorAddress, inductionHypothesis (by omega), byteAt_of_lt (by omega),
      byteAt_of_lt (by omega), unmasked_succ, getD_drop, getD_drop, ← Nat.add_assoc]
    rfl

theorem xorAddress_of_lt {data : List UInt8} {i count : Nat} (start : i + 4 ≤ data.length)
    (outside : data.length < i + 4 + count) :
    xorAddress data i count = .error .indexOutOfRange := by
  induction count with
  | zero => omega
  | succ count inductionHypothesis =>
    by_cases within : i + 4 + count ≤ data.length
    · rw [xorAddress, xorAddress_of_le within, byteAt_of_le (by omega)]
      rfl
    · rw [xorAddress, inductionHypothesis (by omega)]
      rfl

/-- The bytes of an address attribute that are read before its address are in the datagram. -/
theorem readAddress_eq {data : List UInt8} {i kind length : Nat} (result : StunResult)
    (header : 20 ≤ data.length) (within : i + length ≤ data.length)
    (address : IsAddress ⟨kind, length, data.drop i⟩) :
    readAddress data i result =
      absorb (data.drop 4) result ⟨kind, length, data.drop i⟩ := by
  have enough : 8 ≤ length := address.2
  have family : (data.drop i)[1]? = some (data.getD (i + 1) 0) := by
    rw [List.getElem?_drop]
    exact byteAt_eq_ok.mp (byteAt_of_lt (by omega))
  have port : maskedPort (data.drop 4) ⟨kind, length, data.drop i⟩ =
      Tlv.uint16 (data.getD (i + 2) 0 ^^^ data.getD 4 0)
        (data.getD (i + 3) 0 ^^^ data.getD 5 0) := by
    rw [maskedPort, getD_drop, getD_drop, getD_drop, getD_drop]
  unfold readAddress
  rw [byteAt_of_lt (by omega), byteAt_of_lt (by omega), byteAt_of_lt (by omega),
    byteAt_of_lt (by omega), byteAt_of_lt (by omega)]
  change (if data.getD (i + 1) 0 = 0x01 then _ else if data.getD (i + 1) 0 = 0x02 then _
    else _) = _
  by_cases first : data.getD (i + 1) 0 = 0x01
  · rw [if_pos first, xorAddress_of_le (by omega)]
    have inside : ¬ Overruns ⟨kind, length, data.drop i⟩ := by
      rintro ⟨_, second, _⟩
      rw [family, first] at second
      cases second
    rw [absorb, if_neg inside, report, if_pos address, maskedIP, if_pos address, family, first,
      if_pos rfl, port]
    rfl
  · rw [if_neg first]
    have other : (data.drop i)[1]? ≠ some 0x01 := by
      rw [family]
      exact fun same => first (Option.some.inj same)
    by_cases second : data.getD (i + 1) 0 = 0x02
    · rw [if_pos second]
      by_cases inside : i + 4 + 16 ≤ data.length
      · have kept : ¬ Overruns ⟨kind, length, data.drop i⟩ := by
          rintro ⟨_, _, short⟩
          rw [List.length_drop] at short
          omega
        rw [xorAddress_of_le inside, absorb, if_neg kept, report, if_pos address, maskedIP,
          if_pos address, if_neg other, family, second, if_pos rfl, port]
        rfl
      · have overruns : Overruns ⟨kind, length, data.drop i⟩ := by
          refine ⟨address, by rw [family, second], ?_⟩
          rw [List.length_drop]
          omega
        rw [xorAddress_of_lt (by omega) (by omega), absorb, if_pos overruns]
        rfl
    · rw [if_neg second]
      have neither : (data.drop i)[1]? ≠ some 0x02 := by
        rw [family]
        exact fun same => second (Option.some.inj same)
      have inside : ¬ Overruns ⟨kind, length, data.drop i⟩ := fun overruns =>
        neither overruns.2.1
      rw [absorb, if_neg inside, report, if_pos address, maskedIP, if_pos address, if_neg other,
        if_neg neither, port]
      rfl

/-- An attribute read at an index is absorbed as the walk meets it. -/
theorem parseAttribute_eq {data : List UInt8} {i kind length : Nat} (result : StunResult)
    (header : 20 ≤ data.length) (within : i + length ≤ data.length) :
    parseAttribute data i kind length result =
      absorb (data.drop 4) result ⟨kind, length, data.drop i⟩ := by
  unfold parseAttribute
  split
  · exact readAddress_eq result header within ‹_›
  · rename_i other
    have skipped : ¬ IsAddress ⟨kind, length, data.drop i⟩ := other
    rw [absorb, if_neg fun overruns => skipped overruns.1, report, if_neg skipped]
    rfl

/-! ### The walk of the parser -/

/-- What the header of an attribute gives when it is read at an index. -/
theorem header_at {data tail : List UInt8} {i : Nat}
    {kindHigh kindLow lengthHigh lengthLow : UInt8}
    (position : data.drop i = kindHigh :: kindLow :: lengthHigh :: lengthLow :: tail) :
    byteAt data i = .ok kindHigh ∧ byteAt data (i + 1) = .ok kindLow ∧
      byteAt data (i + 2) = .ok lengthHigh ∧ byteAt data (i + 3) = .ok lengthLow ∧
      data.drop (i + 4) = tail ∧ i + 4 + tail.length = data.length := by
  have byte : ∀ offset, data[i + offset]? =
      (kindHigh :: kindLow :: lengthHigh :: lengthLow :: tail)[offset]? := by
    intro offset
    rw [← position, List.getElem?_drop]
  have size := congrArg List.length position
  simp only [List.length_drop, List.length_cons] at size
  refine ⟨byteAt_eq_ok.mpr (byte 0), byteAt_eq_ok.mpr (byte 1), byteAt_eq_ok.mpr (byte 2),
    byteAt_eq_ok.mpr (byte 3), ?_, by omega⟩
  rw [← List.drop_drop, position]
  rfl

/-- From any index the parser folds over the attributes of the walk that starts there. -/
theorem parseAttributes_eq {data rest : List UInt8} {seen : List Tlv.Seen} {i : Nat}
    (result : StunResult) (header : 20 ≤ data.length) (walk : Tlv.Walk rest seen)
    (position : data.drop i = rest) :
    parseAttributes data i result = seen.foldlM (absorb (data.drop 4)) result := by
  induction walk generalizing i result with
  | ends short =>
    rw [← position, List.length_drop] at short
    rw [parseAttributes, if_neg (by omega)]
    rfl
  | breaks overlong =>
    obtain ⟨first, second, third, fourth, _, size⟩ := header_at position
    rw [parseAttributes]
    split
    · rw [first, second, third, fourth]
      exact if_pos (by omega)
    · rfl
  | @reads kindHigh kindLow lengthHigh lengthLow tail later more within _ inductionHypothesis =>
    obtain ⟨first, second, third, fourth, value, size⟩ := header_at position
    have nonempty : 0 < tail.length := List.length_pos_iff.mpr more
    have next : data.drop (i + 4 + Tlv.uint16 lengthHigh lengthLow) =
        tail.drop (Tlv.uint16 lengthHigh lengthLow) := by
      rw [← value, List.drop_drop]
    rw [parseAttributes, if_pos (by omega), first, second, third, fourth, List.foldlM_cons]
    change (if data.length < i + 4 + Tlv.uint16 lengthHigh lengthLow then _ else _) = _
    rw [if_neg (by omega), parseAttribute_eq result header (by omega), value]
    exact bind_congr fun reported => inductionHypothesis reported next

/-- What `parseStunResponse` returns, in terms of the attributes of the walk. -/
theorem parseStunResponse_eq {data : List UInt8} {seen : List Tlv.Seen}
    (walk : Tlv.Walk (data.drop 20) seen) :
    parseStunResponse data = seen.foldlM (absorb (data.drop 4)) {} := by
  unfold parseStunResponse
  split
  · rename_i short
    have none : data.drop 20 = [] := List.drop_eq_nil_of_le (Nat.le_of_lt short)
    rw [none] at walk
    rw [walk.unique (.ends (Nat.zero_le 4))]
    rfl
  · exact parseAttributes_eq {} (by omega) walk rfl

theorem foldlM_absorb_eq_ok {mask : List UInt8} {seen : List Tlv.Seen}
    {result last : StunResult} :
    seen.foldlM (absorb mask) result = .ok last ↔
      (∀ field ∈ seen, ¬ Overruns field) ∧ seen.foldl (report mask) result = last := by
  induction seen generalizing result with
  | nil => simp [pure, Except.pure]
  | cons field rest inductionHypothesis =>
    rw [List.foldlM_cons, List.foldl_cons, List.forall_mem_cons]
    by_cases overruns : Overruns field
    · rw [absorb, if_pos overruns]
      constructor
      · intro equal
        cases equal
      · rintro ⟨⟨inside, _⟩, _⟩
        exact absurd overruns inside
    · rw [absorb, if_neg overruns, and_iff_right overruns]
      exact inductionHypothesis

/-- The parser faults on exactly the datagrams whose walk meets an IPv6 address that reaches
past the end. -/
theorem parseStunResponse_returns_iff (data : List UInt8) :
    Returns (parseStunResponse data) ↔
      ∀ seen, Tlv.Walk (data.drop 20) seen → ∀ field ∈ seen, ¬ Overruns field := by
  obtain ⟨seen, walk⟩ := Tlv.exists_walk (data.drop 20)
  rw [parseStunResponse_eq walk]
  constructor
  · rintro ⟨last, returned⟩ others walk'
    rw [walk'.unique walk]
    exact (foldlM_absorb_eq_ok.mp returned).1
  · intro inside
    exact ⟨_, foldlM_absorb_eq_ok.mpr ⟨inside seen walk, rfl⟩⟩

/-- A response whose only attribute claims an IPv6 address in eight bytes. -/
def shortIPv6 : List UInt8 :=
  [0x01, 0x01, 0x00, 0x0C] ++ magicCookie ++ List.replicate 12 0 ++
    [0x00, 0x20, 0x00, 0x08, 0x00, 0x02, 0x9C, 0x40, 0xC0, 0x00, 0x02, 0x01]

/-- The parser reads past the end of such a response. -/
theorem shortIPv6_faults : ¬ Returns (parseStunResponse shortIPv6) := by
  have fault : parseStunResponse shortIPv6 = .error .indexOutOfRange := by decide +kernel
  rw [fault]
  exact not_returns_error _

end WgMesh.Traversal
