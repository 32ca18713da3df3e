/-
This file lays out binding responses as RFC 8489 has them and asks when the
parser reads one back: a header with the magic cookie and the transaction id,
then the attributes, each value padded to a multiple of four bytes, one of them
the XOR-MAPPED-ADDRESS.

The parser skips no padding. It reads the layout back exactly when the walk
without padding ends up with the right port and address, which it does whenever
the values in front of the address, and all but the last value behind it, need
no padding.
-/

import WgMesh.Traversal.Stun

namespace WgMesh.Traversal

open Go

/-! ### Responses -/

/-- The contents of a binding success response. -/
structure Binding where
  address : List UInt8
  port : Nat
  transaction : List UInt8
  before : List Tlv.Attribute
  after : List Tlv.Attribute
  deriving DecidableEq, Repr

/-- What addresses are masked with. -/
def Binding.mask (binding : Binding) : List UInt8 := magicCookie ++ binding.transaction

/-- The XOR-MAPPED-ADDRESS attribute. -/
def Binding.mapped (binding : Binding) : Tlv.Attribute where
  kind := 0x0020
  value := [0x00, if binding.address.length = 4 then 0x01 else 0x02] ++
    List.zipWith (· ^^^ ·) (Tlv.uint16Bytes binding.port) binding.mask ++
    List.zipWith (· ^^^ ·) binding.address binding.mask

def Binding.attributes (binding : Binding) : List Tlv.Attribute :=
  binding.before ++ binding.mapped :: binding.after

/-- The datagram. -/
def Binding.encode (binding : Binding) : List UInt8 :=
  [0x01, 0x01] ++ Tlv.uint16Bytes (Tlv.encodeAll binding.attributes).length ++ binding.mask ++
    Tlv.encodeAll binding.attributes

/-- A binding success response with one address attribute that fits the receive buffer. -/
structure Response extends Binding where
  family : address.length = 4 ∨ address.length = 16
  portRange : 0 < port ∧ port < 65536
  transactionLength : transaction.length = 12
  others : ∀ field ∈ before ++ after, field.kind ≠ 0x0020 ∧ field.kind < 65536
  fits : toBinding.encode.length ≤ 1024

/-- The parser reads the response back. -/
def Response.Decodes (response : Response) : Prop :=
  parseStunResponse response.encode =
    .ok { publicIP := some response.address, publicPort := response.port, natType := .cone }

instance (response : Response) : Decidable response.Decodes :=
  inferInstanceAs (Decidable (_ = _))

/-! ### What a walk ends up with -/

/-- The attributes met on a walk end up with an address and a port. -/
structure Carries (mask : List UInt8) (seen : List Tlv.Seen) (address : List UInt8)
    (port : Nat) : Prop where
  inside : ∀ field ∈ seen, ¬ Overruns field
  lastPort : (seen.filter fun field => IsAddress field).getLast?.map (maskedPort mask) = some port
  lastAddress : (seen.filterMap (maskedIP mask)).getLast? = some address

theorem publicPort_foldl (mask : List UInt8) (seen : List Tlv.Seen) (result : StunResult) :
    (seen.foldl (report mask) result).publicPort =
      ((seen.filter fun field => IsAddress field).getLast?.map (maskedPort mask)).getD
        result.publicPort := by
  induction seen using List.reverseRecOn with
  | nil => rfl
  | append_singleton seen field inductionHypothesis =>
    rw [List.foldl_append, List.filter_append, List.foldl_cons, List.foldl_nil, report]
    by_cases address : IsAddress field
    · simp [address]
    · simp [address, inductionHypothesis]

theorem publicIP_foldl (mask : List UInt8) (seen : List Tlv.Seen) (result : StunResult) :
    (seen.foldl (report mask) result).publicIP =
      (seen.filterMap (maskedIP mask)).getLast?.or result.publicIP := by
  induction seen using List.reverseRecOn with
  | nil => rfl
  | append_singleton seen field inductionHypothesis =>
    rw [List.foldl_append, List.filterMap_append, List.foldl_cons, List.foldl_nil, report]
    by_cases address : IsAddress field
    · rw [if_pos address]
      cases known : maskedIP mask field with
      | none => simp [known, inductionHypothesis]
      | some ip => simp [known]
    · have unknown : maskedIP mask field = none := if_neg address
      simp [address, unknown, inductionHypothesis]

theorem natType_foldl (mask : List UInt8) (seen : List Tlv.Seen) (result : StunResult) :
    (seen.foldl (report mask) result).natType =
      if (seen.filter fun field => IsAddress field) = [] then result.natType else .cone := by
  induction seen using List.reverseRecOn with
  | nil => rfl
  | append_singleton seen field inductionHypothesis =>
    rw [List.foldl_append, List.filter_append, List.foldl_cons, List.foldl_nil, report]
    by_cases address : IsAddress field
    · simp [address]
    · simp [address, inductionHypothesis]

/-- The parser reports an address and a port exactly when the walk ends up with them. -/
theorem foldlM_absorb_eq_iff_carries {mask : List UInt8} {seen : List Tlv.Seen}
    {address : List UInt8} {port : Nat} :
    seen.foldlM (absorb mask) {} =
        .ok { publicIP := some address, publicPort := port, natType := .cone } ↔
      Carries mask seen address port := by
  rw [foldlM_absorb_eq_ok]
  constructor
  · rintro ⟨inside, reported⟩
    have ip := publicIP_foldl mask seen {}
    have number := publicPort_foldl mask seen {}
    have kind := natType_foldl mask seen {}
    rw [reported] at ip number kind
    refine ⟨inside, ?_, ?_⟩
    · cases last : (seen.filter fun field => IsAddress field).getLast? with
      | none =>
        rw [if_pos (List.getLast?_eq_none_iff.mp last)] at kind
        cases kind
      | some field =>
        rw [last] at number
        exact congrArg some number.symm
    · rw [Option.or_none] at ip
      exact ip.symm
  · rintro ⟨inside, lastPort, lastAddress⟩
    refine ⟨inside, ?_⟩
    have nonempty : (seen.filter fun field => IsAddress field) ≠ [] := by
      intro empty
      rw [empty] at lastPort
      cases lastPort
    rw [StunResult.mk.injEq]
    refine ⟨?_, ?_, ?_⟩
    · rw [publicIP_foldl, lastAddress]
      rfl
    · rw [publicPort_foldl, lastPort]
      rfl
    · rw [natType_foldl, if_neg nonempty]

/-! ### Reading a response back -/

theorem Response.mask_length (response : Response) : response.mask.length = 16 := by
  rw [Binding.mask, List.length_append, response.transactionLength]
  rfl

theorem Response.encode_drop_header (response : Response) :
    response.encode.drop 4 = response.mask ++ Tlv.encodeAll response.attributes := rfl

theorem Response.encode_drop (response : Response) :
    response.encode.drop 20 = Tlv.encodeAll response.attributes := by
  have split : response.encode.drop 20 = (response.encode.drop 4).drop 16 := by
    rw [List.drop_drop]
  rw [split, response.encode_drop_header, ← response.mask_length, List.drop_left]

theorem getD_append_of_lt {mask : List UInt8} (rest : List UInt8) {index : Nat}
    (within : index < mask.length) : (mask ++ rest).getD index 0 = mask.getD index 0 := by
  rw [List.getD_eq_getElem?_getD, List.getD_eq_getElem?_getD, List.getElem?_append_left within]

theorem unmasked_append {mask : List UInt8} (rest tail : List UInt8) {count : Nat}
    (within : count ≤ mask.length) :
    unmasked (mask ++ rest) tail count = unmasked mask tail count := by
  refine List.map_congr_left fun index member => ?_
  rw [getD_append_of_lt rest (by rw [List.mem_range] at member; omega)]

/-- Only the first 16 bytes of a mask matter. -/
theorem masked_append {mask : List UInt8} (rest : List UInt8) (size : mask.length = 16) :
    maskedPort (mask ++ rest) = maskedPort mask ∧ maskedIP (mask ++ rest) = maskedIP mask := by
  refine ⟨funext fun field => ?_, funext fun field => ?_⟩
  · rw [maskedPort, maskedPort, getD_append_of_lt rest (by omega),
      getD_append_of_lt rest (by omega)]
  · rw [maskedIP, maskedIP, unmasked_append rest _ (by omega), unmasked_append rest _ (by omega)]

/-- The parser goes through what the walk over the attributes meets. -/
theorem Response.parse_of_walk (response : Response) {seen : List Tlv.Seen}
    (walk : Tlv.Walk (Tlv.encodeAll response.attributes) seen) :
    parseStunResponse response.encode =
      seen.foldlM (absorb (response.mask ++ Tlv.encodeAll response.attributes)) {} := by
  have walk' : Tlv.Walk (response.encode.drop 20) seen := by
    rw [response.encode_drop]
    exact walk
  rw [parseStunResponse_eq walk', response.encode_drop_header]

theorem Response.decodes_iff_of_walk (response : Response) {seen : List Tlv.Seen}
    (walk : Tlv.Walk (Tlv.encodeAll response.attributes) seen) :
    response.Decodes ↔ Carries response.mask seen response.address response.port := by
  obtain ⟨port, ip⟩ := masked_append (Tlv.encodeAll response.attributes) response.mask_length
  rw [Response.Decodes, response.parse_of_walk walk, foldlM_absorb_eq_iff_carries]
  constructor
  · rintro ⟨inside, lastPort, lastAddress⟩
    rw [port] at lastPort
    rw [ip] at lastAddress
    exact ⟨inside, lastPort, lastAddress⟩
  · rintro ⟨inside, lastPort, lastAddress⟩
    rw [← port] at lastPort
    rw [← ip] at lastAddress
    exact ⟨inside, lastPort, lastAddress⟩

/-- The parser gets this port out of a response: nothing that its walk takes for an address is
cut off, and the last that it takes for one has the port. -/
def Response.Tells (response : Response) (port : Nat) : Prop :=
  port ≠ 0 ∧ ∃ seen, Tlv.Walk (Tlv.encodeAll response.attributes) seen ∧
    (∀ field ∈ seen, ¬ Overruns field) ∧
    (seen.filter fun field => IsAddress field).getLast?.map (maskedPort response.mask) = some port

/-- The port that is parsed, if one is. -/
theorem Response.tells_iff_of_parse (response : Response) {result : StunResult}
    (parsed : parseStunResponse response.encode = .ok result) (port : Nat) :
    response.Tells port ↔ port ≠ 0 ∧ result.publicPort = port := by
  obtain ⟨seen, walk⟩ := Tlv.exists_walk (Tlv.encodeAll response.attributes)
  rw [response.parse_of_walk walk] at parsed
  obtain ⟨inside, rfl⟩ := foldlM_absorb_eq_ok.mp parsed
  rw [publicPort_foldl, (masked_append _ response.mask_length).1]
  refine and_congr_right fun positive => ⟨?_, ?_⟩
  · rintro ⟨other, otherWalk, _, last⟩
    rw [otherWalk.unique walk] at last
    rw [last]
    rfl
  · intro last
    refine ⟨seen, walk, inside, ?_⟩
    cases told : (seen.filter fun field => IsAddress field).getLast? with
    | none =>
      rw [told] at last
      exact absurd last.symm positive
    | some field =>
      rw [told] at last
      exact congrArg some last

theorem Response.tells_iff_of_decodes {response : Response} (decodes : response.Decodes)
    (port : Nat) : response.Tells port ↔ port = response.port := by
  rw [response.tells_iff_of_parse decodes]
  constructor
  · rintro ⟨_, same⟩
    exact same.symm
  · rintro rfl
    exact ⟨Nat.pos_iff_ne_zero.mp response.portRange.1, rfl⟩

/-! ### Responses without padding -/

/-- No value in front of the address needs padding, and behind it at most the last one. -/
def Response.Aligned (response : Response) : Prop :=
  ∀ field ∈ response.before ++ response.after.dropLast, field.Aligned

instance (response : Response) : Decidable response.Aligned :=
  inferInstanceAs (Decidable (∀ field ∈ _, _))

theorem Response.value_length (response : Response) :
    response.mapped.value.length = 4 + response.address.length := by
  have sizes := response.family
  simp only [Binding.mapped, List.length_append, List.length_zipWith, response.mask_length,
    Tlv.uint16Bytes, List.length_cons, List.length_nil]
  omega

theorem xor_xor_cancel (byte mask : UInt8) : byte ^^^ mask ^^^ mask = byte := by
  rw [UInt8.xor_assoc, UInt8.xor_self, UInt8.xor_zero]

/-- Unmasking undoes masking. -/
theorem unmasked_zipWith {mask address : List UInt8} (header rest : List UInt8)
    (headerLength : header.length = 4) (within : address.length ≤ mask.length) :
    unmasked mask (header ++ List.zipWith (· ^^^ ·) address mask ++ rest) address.length =
      address := by
  refine List.ext_getElem (by simp [unmasked]) fun index _ below => ?_
  have masked : (header ++ List.zipWith (· ^^^ ·) address mask ++ rest)[4 + index]? =
      some (address[index] ^^^ mask[index]) := by
    rw [List.append_assoc, ← headerLength, List.getElem?_append_right (Nat.le_add_right _ _),
      Nat.add_sub_cancel_left, List.getElem?_append_left (by rw [List.length_zipWith]; omega)]
    rw [List.getElem?_eq_getElem (by rw [List.length_zipWith]; omega), List.getElem_zipWith]
  have mask' : mask[index]? = some mask[index] := List.getElem?_eq_getElem _
  simp only [unmasked, List.getElem_map, List.getElem_range, List.getD_eq_getElem?_getD, masked,
    mask', Option.getD_some]
  exact xor_xor_cancel _ _

/-- The address attribute as the walk meets it carries the address and the port. -/
theorem Response.mapped_seen (response : Response) (rest : List UInt8) :
    IsAddress (response.mapped.seenBefore rest) ∧
      ¬ Overruns (response.mapped.seenBefore rest) ∧
      maskedPort response.mask (response.mapped.seenBefore rest) = response.port ∧
      maskedIP response.mask (response.mapped.seenBefore rest) = some response.address := by
  have size := response.value_length
  have sizes := response.family
  have address : IsAddress (response.mapped.seenBefore rest) := by
    refine ⟨rfl, ?_⟩
    change 8 ≤ response.mapped.value.length
    omega
  have value : (response.mapped.seenBefore rest).tail =
      [0x00, if response.address.length = 4 then 0x01 else 0x02,
        UInt8.ofNat (response.port / 256) ^^^ 0x21, UInt8.ofNat response.port ^^^ 0x12] ++
      List.zipWith (· ^^^ ·) response.address response.mask ++
      (Tlv.padding response.mapped.value.length ++ rest) := by
    rw [← List.append_assoc]
    rfl
  have family : (response.mapped.seenBefore rest).tail[1]? =
      some (if response.address.length = 4 then 0x01 else 0x02) := by
    rw [value]
    rfl
  have unmask : unmasked response.mask (response.mapped.seenBefore rest).tail
      response.address.length = response.address := by
    rw [value]
    exact unmasked_zipWith _ _ rfl (by rw [response.mask_length]; omega)
  refine ⟨address, ?_, ?_, ?_⟩
  · rintro ⟨_, second, short⟩
    rw [family] at second
    have long : response.address.length = 16 := by
      rcases sizes with four | sixteen
      · rw [if_pos four] at second
        cases second
      · exact sixteen
    rw [Tlv.Attribute.seenBefore, List.length_append, List.length_append] at short
    omega
  · rw [maskedPort, value]
    change Tlv.uint16 (UInt8.ofNat (response.port / 256) ^^^ 0x21 ^^^ 0x21)
      (UInt8.ofNat response.port ^^^ 0x12 ^^^ 0x12) = response.port
    rw [xor_xor_cancel, xor_xor_cancel, Tlv.uint16_uint16Bytes response.portRange.2]
  · rw [maskedIP, if_pos address, family]
    rcases sizes with four | sixteen
    · rw [if_pos (by rw [if_pos four]), ← four, unmask]
    · rw [if_neg (by rw [if_neg (by omega)]; decide), if_pos (by rw [if_neg (by omega)]),
        ← sixteen, unmask]

/-- Attributes of other types leave an address attribute the only one. -/
theorem Carries.of_others {mask address : List UInt8} {port : Nat} {seen later : List Tlv.Seen}
    {mapped : Tlv.Seen} (others : ∀ field ∈ seen ++ later, field.kind ≠ 0x0020)
    (isAddress : IsAddress mapped) (inside : ¬ Overruns mapped)
    (portOf : maskedPort mask mapped = port) (addressOf : maskedIP mask mapped = some address) :
    Carries mask (seen ++ mapped :: later) address port := by
  have other : ∀ field ∈ seen ++ later, ¬ IsAddress field := fun field member isAddress =>
    others field member isAddress.1
  have earlier := fun field member => other field (List.mem_append_left later member)
  have after := fun field member => other field (List.mem_append_right seen member)
  refine ⟨?_, ?_, ?_⟩
  · intro field member overruns
    rw [List.mem_append, List.mem_cons] at member
    rcases member with member | rfl | member
    · exact earlier field member overruns.1
    · exact inside overruns
    · exact after field member overruns.1
  · have first : (seen.filter fun field => IsAddress field) = [] :=
      List.filter_eq_nil_iff.mpr fun field member => by simpa using earlier field member
    have last : (later.filter fun field => IsAddress field) = [] :=
      List.filter_eq_nil_iff.mpr fun field member => by simpa using after field member
    rw [List.filter_append, List.filter_cons_of_pos (by simpa using isAddress), first, last,
      ← portOf]
    rfl
  · have first : seen.filterMap (maskedIP mask) = [] :=
      List.filterMap_eq_nil_iff.mpr fun field member => if_neg (earlier field member)
    have last : later.filterMap (maskedIP mask) = [] :=
      List.filterMap_eq_nil_iff.mpr fun field member => if_neg (after field member)
    rw [List.filterMap_append, List.filterMap_cons_some addressOf, first, last]
    rfl

theorem Response.lengths_small (response : Response) :
    ∀ field ∈ response.attributes, field.value.length < 65536 := by
  intro field member
  have part := Tlv.length_le_encodeAll member
  have fits := response.fits
  simp only [Binding.encode, List.length_append] at fits
  omega

/-- A response in which no value but a last one needs padding is read back. -/
theorem Response.decodes_of_aligned {response : Response} (aligned : response.Aligned) :
    response.Decodes := by
  have lengths := response.lengths_small
  have mappedAligned : response.mapped.Aligned := by
    have sizes := response.family
    rw [Tlv.Attribute.Aligned, response.value_length]
    omega
  have smallAfter : ∀ field ∈ response.after, field.kind < 65536 ∧ field.value.length < 65536 :=
    fun field member => ⟨(response.others field (List.mem_append_right _ member)).2,
      lengths field (List.mem_append_right _ (List.mem_cons_of_mem _ member))⟩
  have smallBefore : ∀ field ∈ response.before, field.kind < 65536 ∧ field.value.length < 65536 :=
    fun field member => ⟨(response.others field (List.mem_append_left _ member)).2,
      lengths field (List.mem_append_left _ member)⟩
  obtain ⟨later, walkAfter, kindsAfter⟩ := Tlv.exists_walk_encodeAll
    (fun field member => aligned field (List.mem_append_right _ member)) smallAfter
  have walkMapped : Tlv.Walk (response.mapped.encode ++ Tlv.encodeAll response.after)
      (response.mapped.seenBefore (Tlv.encodeAll response.after) :: later) := by
    have kind : response.mapped.kind = 0x0020 := rfl
    refine .encode_append (by rw [kind]; decide)
      (lengths _ (List.mem_append_right _ List.mem_cons_self)) (List.cons_ne_nil _ _) ?_
    rw [Tlv.padding_of_aligned mappedAligned]
    exact walkAfter
  obtain ⟨seen, walk, kinds⟩ := Tlv.exists_walk_encodeAll_append
    (fun field member => aligned field (List.mem_append_left _ member)) smallBefore
    (List.cons_ne_nil _ _) walkMapped
  have whole : Tlv.Walk (Tlv.encodeAll response.attributes)
      (seen ++ response.mapped.seenBefore (Tlv.encodeAll response.after) :: later) := by
    rw [Binding.attributes, Tlv.encodeAll_append, Tlv.encodeAll_cons]
    exact walk
  obtain ⟨isAddress, inside, port, ip⟩ := response.mapped_seen (Tlv.encodeAll response.after)
  refine (response.decodes_iff_of_walk whole).mpr (.of_others ?_ isAddress inside port ip)
  intro met member
  rcases List.mem_append.mp member with early | late
  · obtain ⟨field, among, same⟩ := kinds met early
    rw [same]
    exact (response.others field (List.mem_append_left _ among)).1
  · obtain ⟨field, among, same⟩ := kindsAfter met late
    rw [same]
    exact (response.others field (List.mem_append_right _ among)).1

/-- A response is read back exactly when the walk that skips no padding ends up with its
address and port. It does whenever no value but a last one needs padding. -/
theorem Response.decodes_iff (response : Response) :
    (response.Decodes ↔ ∃ seen, Tlv.Walk (Tlv.encodeAll response.attributes) seen ∧
      Carries response.mask seen response.address response.port) ∧
    (response.Aligned → response.Decodes) := by
  refine ⟨⟨?_, ?_⟩, Response.decodes_of_aligned⟩
  · intro decodes
    obtain ⟨seen, walk⟩ := Tlv.exists_walk (Tlv.encodeAll response.attributes)
    exact ⟨seen, walk, (response.decodes_iff_of_walk walk).mp decodes⟩
  · rintro ⟨seen, walk, carries⟩
    exact (response.decodes_iff_of_walk walk).mpr carries

/-- A response with a software name of five bytes in front of the address. -/
def paddedResponse : Response where
  address := [192, 0, 2, 1]
  port := 40000
  transaction := buildStunRequest.drop 8
  before := [{ kind := 0x8022, value := [104, 101, 108, 108, 111] }]
  after := []
  family := by decide
  portRange := by decide
  transactionLength := by decide
  others := by decide
  fits := by decide

/-- A software name of five bytes in front of the address hides it. -/
theorem paddedResponse_unread : ¬ paddedResponse.Decodes := by
  decide +kernel

end WgMesh.Traversal
