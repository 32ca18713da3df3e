/-
This file models `net.IP.String`. Four bytes are printed with dots, and so are
sixteen that hold an IPv4 address. Other addresses of sixteen bytes are printed as
eight groups of hexadecimal digits without leading zeros, the first of the longest
runs of two or more zero groups being left out between two colons.

Addresses of one length are printed differently unless they are the same. The
pieces between the colons tell the groups: an empty piece stands where groups were
left out, and their number is what is missing to eight.
-/

import WgMesh.Go.Address
import WgMesh.Go.Hex
import WgMesh.Pieces.Split

namespace Go

/-! ### Printing -/

/-- A group of sixteen bits. -/
abbrev Group := UInt8 × UInt8

/-- The bytes of an address, two by two. -/
def groups : List UInt8 → List Group
  | high :: low :: rest => (high, low) :: groups rest
  | _ => []

/-- The digits of a group without leading zeros. -/
def groupText (group : Group) : Text :=
  match (hexEncode [group.1, group.2]).dropWhile (· = 48) with
  | [] => [48]
  | digits => digits

/-- How many zero groups there are from this one on. -/
def zerosAt (all : List Group) (start : Nat) : Nat :=
  ((all.drop start).takeWhile (· = (0, 0))).length

/-- The longer of a run of zero groups and the run from this group on, if that has two or more. -/
def longerRun (all : List Group) (best : Option (Nat × Nat)) (start : Nat) : Option (Nat × Nat) :=
  if 2 ≤ zerosAt all start ∧ (best.map Prod.snd).getD 0 < zerosAt all start then
    some (start, zerosAt all start)
  else best

/-- The first of the longest runs of two or more zero groups, as its start and its length. -/
def zeroRun (all : List Group) : Option (Nat × Nat) :=
  (List.range all.length).foldl (longerRun all) none

/-- Pieces at an end of an address, where there may be none. -/
def atEdge : List Text → List Text
  | [] => [[]]
  | pieces => pieces

/-- What stands between the colons. -/
def groupPieces (all : List Group) : List Text :=
  match zeroRun all with
  | none => all.map groupText
  | some (start, length) =>
    atEdge ((all.take start).map groupText) ++ [] ::
      atEdge ((all.drop (start + length)).map groupText)

/-- Bytes in decimal, with dots between them. -/
def dotted (bytes : List UInt8) : Text :=
  [46].intercalate (bytes.map fun byte => decimal byte.toNat)

/-- What the addresses of sixteen bytes that hold an IPv4 address begin with. -/
def mappedHead : List UInt8 := List.replicate 10 0 ++ [255, 255]

/-- `net.IP.String`. -/
def ipString (ip : List UInt8) : Text :=
  if ip.length = 4 then dotted ip
  else if ip.length = 16 then
    if ip.take 12 = mappedHead then dotted (ip.drop 12)
    else [58].intercalate (groupPieces (groups ip))
  else if ip = [] then text "<nil>"
  else text "?" ++ hexEncode ip

example : ipString [0x20, 0x01, 0x0d, 0xb8, 0, 0, 0, 0, 0, 1, 0, 0, 0, 0, 0, 1] =
    text "2001:db8::1:0:0:1" := by decide +kernel

example : ipString (List.replicate 16 0) = text "::" := by decide +kernel

/-! ### Groups -/

theorem length_groups (ip : List UInt8) : (groups ip).length = ip.length / 2 := by
  induction ip using groups.induct with
  | case1 high low rest inductionHypothesis =>
    rw [groups, List.length_cons, inductionHypothesis, List.length_cons, List.length_cons]
    omega
  | case2 short none =>
    match short with
    | [] => rfl
    | [byte] => exact (Nat.div_eq_of_lt Nat.one_lt_two).symm
    | first :: second :: rest => exact (none first second rest rfl).elim

theorem groups_injective {first second : List UInt8} (lengths : first.length = second.length)
    (even : first.length % 2 = 0) (same : groups first = groups second) : first = second := by
  induction first using groups.induct generalizing second with
  | case1 high low rest inductionHypothesis =>
    match second with
    | [] => cases same
    | [byte] => cases same
    | other :: another :: others =>
      rw [groups, groups, List.cons.injEq, Prod.mk.injEq] at same
      simp only [List.length_cons] at lengths even
      rw [same.1.1, same.1.2, inductionHypothesis (by omega) (by omega) same.2]
  | case2 short none =>
    match short, second with
    | [], [] => rfl
    | [], _ :: _ => cases lengths
    | [byte], _ => cases even
    | first :: second :: rest, _ => exact (none first second rest rfl).elim

/-- A group with its leading zeros. -/
def padGroup (digits : Text) : Text := List.replicate (4 - digits.length) 48 ++ digits

/-- The beginning of a list that consists of one value. -/
theorem takeWhile_eq_replicate {Item : Type} [DecidableEq Item] (value : Item)
    (items : List Item) :
    items.takeWhile (fun item => decide (item = value)) =
      List.replicate (items.takeWhile fun item => decide (item = value)).length value := by
  refine List.eq_replicate_of_mem fun item member => ?_
  have holds := List.mem_takeWhile_imp member
  exact of_decide_eq_true holds

theorem padGroup_dropWhile {digits : Text} (four : digits.length = 4) :
    padGroup (digits.dropWhile (· = 48)) = digits := by
  have parts :=
    List.takeWhile_append_dropWhile (p := fun digit => decide (digit = 48)) (l := digits)
  have lengths := congrArg List.length parts
  rw [List.length_append, four] at lengths
  rw [padGroup, show 4 - (digits.dropWhile (· = 48)).length =
    (digits.takeWhile (· = 48)).length by omega, ← takeWhile_eq_replicate, parts]

theorem padGroup_groupText (group : Group) :
    padGroup (groupText group) = hexEncode [group.1, group.2] := by
  have padded := padGroup_dropWhile (hexEncode_length [group.1, group.2])
  unfold groupText
  split
  · rename_i none
    rw [← padded, none]
    rfl
  · exact padded

theorem groupText_injective {first second : Group} (same : groupText first = groupText second) :
    first = second := by
  have decoded := congrArg (fun digits => hexDecode (padGroup digits)) same
  simp only [padGroup_groupText, hexDecode_hexEncode, List.cons.injEq] at decoded
  exact Prod.ext decoded.1 decoded.2.1

theorem groupText_ne_nil (group : Group) : groupText group ≠ [] := by
  unfold groupText
  split
  · exact List.cons_ne_nil _ _
  · assumption

theorem isLowerHex_of_mem_groupText {group : Group} {byte : UInt8}
    (member : byte ∈ groupText group) : IsLowerHex byte := by
  unfold groupText at member
  split at member
  · rw [List.mem_singleton.mp member]
    decide
  · exact isLowerHex_of_mem_hexEncode _ byte ((List.dropWhile_sublist _).subset member)

/-! ### The run that is left out -/

theorem zeroRun_spec {all : List Group} {start length : Nat}
    (found : zeroRun all = some (start, length)) : length = zerosAt all start := by
  have invariant : ∀ (starts : List Nat) (best : Option (Nat × Nat)),
      (∀ run, best = some run → run.2 = zerosAt all run.1) →
      ∀ run, starts.foldl (longerRun all) best = some run → run.2 = zerosAt all run.1 := by
    intro starts
    induction starts with
    | nil => exact fun best holds => holds
    | cons first rest inductionHypothesis =>
      intro best holds
      refine inductionHypothesis _ fun run chosen => ?_
      unfold longerRun at chosen
      split at chosen
      · cases chosen
        rfl
      · exact holds run chosen
  exact invariant _ none (fun run none => by cases none) (start, length) found

theorem zeros_of_zeroRun {all : List Group} {start length : Nat}
    (found : zeroRun all = some (start, length)) :
    all = all.take start ++ (List.replicate length (0, 0) ++ all.drop (start + length)) := by
  have zeros := takeWhile_eq_replicate (0, 0) (all.drop start)
  rw [← zerosAt, ← zeroRun_spec found] at zeros
  have taken : (all.drop start).take length = List.replicate length (0, 0) := by
    have beginning := List.takeWhile_prefix (l := all.drop start) fun group =>
      decide (group = (0, 0))
    rw [zeros] at beginning
    have cut := List.prefix_iff_eq_take.mp beginning
    rw [List.length_replicate] at cut
    exact cut.symm
  rw [← taken, ← List.drop_drop, List.take_append_drop, List.take_append_drop]

/-- The pieces of all groups, those that were left out included. -/
def expandPieces (count : Nat) (pieces : List Text) : List Text :=
  let left := pieces.takeWhile (· ≠ [])
  let right := (pieces.dropWhile (· ≠ [])).filter (· ≠ [])
  left ++ (List.replicate (count - left.length - right.length) [48] ++ right)

theorem takeWhile_atEdge {pieces rest : List Text} (filled : ∀ piece ∈ pieces, piece ≠ []) :
    (atEdge pieces ++ [] :: rest).takeWhile (· ≠ []) = pieces := by
  cases pieces with
  | nil => rfl
  | cons first others =>
    refine (List.takeWhile_append_of_pos fun piece member =>
      decide_eq_true (filled piece member)).trans ?_
    exact List.append_nil _

theorem filter_dropWhile_atEdge {pieces rest : List Text}
    (filled : ∀ piece ∈ pieces, piece ≠ []) :
    ((atEdge pieces ++ [] :: rest).dropWhile (· ≠ [])).filter (· ≠ []) = rest.filter (· ≠ []) := by
  cases pieces with
  | nil => rfl
  | cons first others =>
    have dropped : (first :: others ++ [] :: rest).dropWhile (· ≠ []) =
        ([] :: rest).dropWhile (· ≠ []) :=
      List.dropWhile_append_of_pos fun piece member => decide_eq_true (filled piece member)
    exact (congrArg (List.filter fun piece => decide (piece ≠ [])) dropped).trans rfl

theorem filter_atEdge {pieces : List Text} (filled : ∀ piece ∈ pieces, piece ≠ []) :
    (atEdge pieces).filter (· ≠ []) = pieces := by
  cases pieces with
  | nil => rfl
  | cons first others =>
    exact List.filter_eq_self.mpr fun piece member => decide_eq_true (filled piece member)

theorem filled_map_groupText (some : List Group) :
    ∀ piece ∈ some.map groupText, piece ≠ [] := by
  intro piece member
  obtain ⟨group, _, rfl⟩ := List.mem_map.mp member
  exact groupText_ne_nil group

/-- The pieces tell the groups. -/
theorem expandPieces_groupPieces (all : List Group) :
    expandPieces all.length (groupPieces all) = all.map groupText := by
  have filled := filled_map_groupText
  unfold groupPieces
  split
  · rw [expandPieces, List.takeWhile_eq_self_iff.mpr fun piece member =>
        decide_eq_true (filled all piece member),
      List.dropWhile_eq_nil_iff.mpr fun piece member => decide_eq_true (filled all piece member)]
    simp
  · rename_i start length found
    have parts := zeros_of_zeroRun found
    have lengths := congrArg List.length parts
    simp only [List.length_append, List.length_replicate] at lengths
    rw [expandPieces, takeWhile_atEdge (filled _), filter_dropWhile_atEdge (filled _),
      filter_atEdge (filled _), List.length_map, List.length_map,
      show all.length - (all.take start).length - (all.drop (start + length)).length = length by
        omega]
    conv_rhs => rw [parts, List.map_append, List.map_append, List.map_replicate]
    rfl

theorem mem_groupPieces {all : List Group} {piece : Text} (member : piece ∈ groupPieces all) :
    ∀ byte ∈ piece, IsLowerHex byte := by
  have printed : ∀ some : List Group, piece ∈ some.map groupText → ∀ byte ∈ piece,
      IsLowerHex byte := by
    intro some mapped byte
    obtain ⟨group, _, rfl⟩ := List.mem_map.mp mapped
    exact isLowerHex_of_mem_groupText
  have edge : ∀ some : List Group, piece ∈ atEdge (some.map groupText) → ∀ byte ∈ piece,
      IsLowerHex byte := by
    intro some mapped
    cases some with
    | nil =>
      rw [List.mem_singleton.mp mapped]
      exact List.forall_mem_nil _
    | cons first rest => exact printed (first :: rest) mapped
  unfold groupPieces at member
  split at member
  · exact printed all member
  · rcases List.mem_append.mp member with left | right
    · exact edge _ left
    · rcases List.mem_cons.mp right with rfl | right
      · exact List.forall_mem_nil _
      · exact edge _ right

theorem groupPieces_ne_nil {all : List Group} (nonempty : all ≠ []) : groupPieces all ≠ [] := by
  unfold groupPieces
  split
  · exact fun none => nonempty (List.map_eq_nil_iff.mp none)
  · exact List.append_ne_nil_of_right_ne_nil _ (List.cons_ne_nil _ _)

/-! ### Addresses are told apart -/

theorem dotted_injective {first second : List UInt8} (nonempty : first ≠ [])
    (lengths : first.length = second.length) (same : dotted first = dotted second) :
    first = second := by
  have plain : ∀ bytes : List UInt8, ∀ piece ∈ bytes.map fun byte => decimal byte.toNat,
      46 ∉ piece := by
    intro bytes piece member
    obtain ⟨byte, _, rfl⟩ := List.mem_map.mp member
    exact not_mem_decimal (Or.inl (by decide)) _
  have other : second ≠ [] := by
    rintro rfl
    exact nonempty (List.length_eq_zero_iff.mp lengths)
  have pieces := congrArg (List.splitOn 46) same
  unfold dotted at pieces
  rw [List.splitOn_intercalate 46 (plain first) (by simpa using nonempty),
    List.splitOn_intercalate 46 (plain second) (by simpa using other)] at pieces
  exact List.map_injective_iff.mpr (fun _ _ equal => UInt8.toNat_inj.mp (decimal_injective equal))
    pieces

theorem not_mem_dotted {byte : UInt8} (other : byte < 46 ∨ 57 < byte) (bytes : List UInt8) :
    byte ∉ dotted bytes := by
  intro member
  rcases Pieces.mem_or_mem_of_mem_intercalate member with separator | ⟨piece, listed, inside⟩
  · rw [List.mem_singleton.mp separator] at other
    exact absurd other (by decide)
  · obtain ⟨printed, _, rfl⟩ := List.mem_map.mp listed
    refine not_mem_decimal (other.imp_left fun low => ?_) _ inside
    exact UInt8.lt_trans low (by decide)

/-- The text of an address in groups. -/
theorem mem_groupText {all : List Group} {byte : UInt8}
    (member : byte ∈ [58].intercalate (groupPieces all)) : byte = 58 ∨ IsLowerHex byte := by
  rcases Pieces.mem_or_mem_of_mem_intercalate member with separator | ⟨piece, listed, inside⟩
  · exact Or.inl (List.mem_singleton.mp separator)
  · exact Or.inr (mem_groupPieces listed byte inside)

theorem colon_mem_groupText {all : List Group} (several : 2 ≤ all.length) :
    58 ∈ [58].intercalate (groupPieces all) := by
  have two : 2 ≤ (groupPieces all).length := by
    unfold groupPieces
    split
    · rwa [List.length_map]
    · rename_i start length _
      have edge : ∀ pieces : List Text, 1 ≤ (atEdge pieces).length := by
        rintro (_ | ⟨first, rest⟩)
        · exact le_rfl
        · exact Nat.le_add_left _ _
      have left := edge ((all.take start).map groupText)
      rw [List.length_append, List.length_cons]
      omega
  match groupPieces all, two with
  | first :: second :: rest, _ =>
    rw [List.intercalate_cons_cons]
    exact List.mem_append_left _ (List.mem_append_right _ (List.mem_singleton_self 58))

theorem groupPieces_injective {first second : List Group} (lengths : first.length = second.length)
    (same : groupPieces first = groupPieces second) : first = second := by
  have expanded := expandPieces_groupPieces second
  rw [← lengths, ← same, expandPieces_groupPieces] at expanded
  exact List.map_injective_iff.mpr (fun _ _ equal => groupText_injective equal) expanded

theorem groupsText_injective {first second : List UInt8} (long : first.length = 16)
    (alsoLong : second.length = 16)
    (same : [58].intercalate (groupPieces (groups first)) =
      [58].intercalate (groupPieces (groups second))) : first = second := by
  have plain : ∀ all : List Group, ∀ piece ∈ groupPieces all, 58 ∉ piece := by
    intro all piece member colon
    exact absurd (mem_groupPieces member 58 colon) (by decide)
  have nonempty : ∀ ip : List UInt8, ip.length = 16 → groupPieces (groups ip) ≠ [] := by
    intro ip sixteen
    refine groupPieces_ne_nil fun none => ?_
    have length := length_groups ip
    rw [none, sixteen] at length
    cases length
  have pieces := congrArg (List.splitOn 58) same
  rw [List.splitOn_intercalate 58 (plain _) (nonempty first long),
    List.splitOn_intercalate 58 (plain _) (nonempty second alsoLong)] at pieces
  have counts : (groups first).length = (groups second).length := by
    rw [length_groups, length_groups, long, alsoLong]
  exact groups_injective (long.trans alsoLong.symm) (by rw [long])
    (groupPieces_injective counts pieces)

/-- Different addresses of one length are printed differently. -/
theorem ipString_injective {first second : List UInt8} (lengths : first.length = second.length)
    (known : first.length = 4 ∨ first.length = 16) (same : ipString first = ipString second) :
    first = second := by
  unfold ipString at same
  rcases known with four | sixteen
  · rw [if_pos four, if_pos (lengths ▸ four)] at same
    refine dotted_injective ?_ lengths same
    rintro rfl
    cases four
  · have other : second.length = 16 := lengths ▸ sixteen
    have colon : ∀ ip : List UInt8, ip.length = 16 →
        58 ∈ [58].intercalate (groupPieces (groups ip)) := by
      intro ip long
      exact colon_mem_groupText (by rw [length_groups, long]; decide)
    rw [if_neg (show first.length ≠ 4 by omega), if_pos sixteen,
      if_neg (show second.length ≠ 4 by omega), if_pos other] at same
    split at same
    · rename_i mapped
      split at same
      · rename_i alsoMapped
        rw [← List.take_append_drop 12 first, ← List.take_append_drop 12 second, mapped, alsoMapped]
        have tails : (first.drop 12).length = (second.drop 12).length := by
          rw [List.length_drop, List.length_drop, lengths]
        refine congrArg (mappedHead ++ ·) (dotted_injective ?_ tails same)
        intro none
        have short := congrArg List.length none
        rw [List.length_drop, sixteen] at short
        cases short
      · exact absurd (same ▸ colon second other) (not_mem_dotted (Or.inr (by decide)) _)
    · split at same
      · exact absurd (same.symm ▸ colon first sixteen) (not_mem_dotted (Or.inr (by decide)) _)
      · exact groupsText_injective sixteen other same

/-- The text of an address has no byte but digits, dots and colons. -/
theorem mem_ipString {ip : List UInt8} (known : ip.length = 4 ∨ ip.length = 16) {byte : UInt8}
    (member : byte ∈ ipString ip) :
    byte = 46 ∨ byte = 58 ∨ IsLowerHex byte := by
  have inDotted : ∀ bytes : List UInt8, byte ∈ dotted bytes → byte = 46 ∨ IsLowerHex byte := by
    intro bytes inside
    rcases Pieces.mem_or_mem_of_mem_intercalate inside with separator | ⟨piece, listed, digit⟩
    · exact Or.inl (List.mem_singleton.mp separator)
    · obtain ⟨printed, _, rfl⟩ := List.mem_map.mp listed
      exact Or.inr (Or.inl (isDigit_of_mem_decimal digit))
  unfold ipString at member
  split at member
  · exact (inDotted ip member).imp_right Or.inr
  · rename_i notFour
    rw [if_pos (known.resolve_left notFour)] at member
    split at member
    · exact (inDotted _ member).imp_right Or.inr
    · exact Or.inr (mem_groupText member)

/-- An address and a port come apart again. -/
theorem splitHostPort_ipString {ip : List UInt8} (known : ip.length = 4 ∨ ip.length = 16)
    (port : Nat) :
    splitHostPort (joinHostPort (ipString ip) (itoa port)) = some (ipString ip, itoa port) := by
  have plain : ∀ byte : UInt8, byte ≠ 46 → byte ≠ 58 → ¬ IsLowerHex byte → byte ∉ ipString ip :=
    fun byte dot colon digit member =>
      (mem_ipString known member).elim dot fun rest => rest.elim colon digit
  exact splitHostPort_joinHostPort (plain 91 (by decide) (by decide) (by decide))
    (plain 93 (by decide) (by decide) (by decide)) (not_mem_decimal (Or.inr (by decide)) port)
    (not_mem_decimal (Or.inr (by decide)) port) (not_mem_decimal (Or.inr (by decide)) port)

end Go
