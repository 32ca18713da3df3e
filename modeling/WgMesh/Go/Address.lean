/-
This file models decimal numbers and network addresses as text: `strconv.Itoa`
and `strconv.Atoi`, `net.SplitHostPort` and `net.JoinHostPort`. A host that
contains a colon is an IPv6 literal and stands in brackets. Printing a number is
injective, and so is joining a port to a fixed host. Reading undoes printing, and
splitting an address undoes joining it.
-/

import WgMesh.Go.Text

namespace Go

/-- The decimal digits of a number. -/
def decimal (number : Nat) : Text :=
  if number = 0 then [48]
  else (Nat.digits 10 number).reverse.map fun digit => UInt8.ofNat (48 + digit)

/-- `strconv.Itoa`. -/
def itoa : Int → Text
  | .ofNat number => decimal number
  | .negSucc number => 45 :: decimal (number + 1)

/-- A number read from decimal digits, if there is at least one and nothing else. -/
def parseDigits (digits : Text) : Option Nat :=
  if digits ≠ [] ∧ ∀ digit ∈ digits, 48 ≤ digit ∧ digit ≤ 57 then
    some (digits.foldl (fun number digit => 10 * number + (digit.toNat - 48)) 0)
  else none

/-- `strconv.Atoi`: an optional sign and decimal digits, within 64 bits. -/
def atoi (s : Text) : Option Int :=
  match s with
  | 45 :: digits =>
    (parseDigits digits).bind fun number =>
      if number ≤ 2 ^ 63 then some (-(number : Int)) else none
  | 43 :: digits =>
    (parseDigits digits).bind fun number => if number < 2 ^ 63 then some (number : Int) else none
  | digits =>
    (parseDigits digits).bind fun number => if number < 2 ^ 63 then some (number : Int) else none

/-- The value that `strconv.ParseUint` returns after this number, with or without an error: zero if
it comes to a byte that is no digit, and the greatest number if it gets out of range before. -/
def parseUint (number : Nat) : Text → Nat
  | [] => number
  | byte :: rest =>
    if 48 ≤ byte ∧ byte ≤ 57 then
      if 2 ^ 64 ≤ 10 * number + (byte.toNat - 48) then 2 ^ 64 - 1
      else parseUint (10 * number + (byte.toNat - 48)) rest
    else 0

/-- The value that `strconv.ParseInt` for 64 bits and `strconv.Atoi` return, with or without an
error. -/
def parseInt (s : Text) : Int :=
  match s with
  | 45 :: digits => -(min (parseUint 0 digits) (2 ^ 63) : Nat)
  | 43 :: digits => (min (parseUint 0 digits) (2 ^ 63 - 1) : Nat)
  | digits => (min (parseUint 0 digits) (2 ^ 63 - 1) : Nat)

/-- A string cut at the last occurrence of a byte. -/
def splitLast (separator : UInt8) (s : Text) : Option (Text × Text) :=
  if separator ∈ s then
    some (((s.reverse.dropWhile (· ≠ separator)).drop 1).reverse,
      (s.reverse.takeWhile (· ≠ separator)).reverse)
  else none

/-- `net.SplitHostPort`: the host and the port, or an error. Brackets may only stand around
the host, and a host without brackets has no colon. -/
def splitHostPort (hostport : Text) : Option (Text × Text) :=
  match splitLast 58 hostport with
  | none => none
  | some (before, port) =>
    if hostport.head? = some 91 then
      let host := before.tail.dropLast
      if before.getLast? = some 93 ∧ 93 ∉ host ∧ 91 ∉ host ∧ 91 ∉ port ∧ 93 ∉ port then
        some (host, port)
      else none
    else if 58 ∉ before ∧ 91 ∉ hostport ∧ 93 ∉ hostport then some (before, port)
    else none

/-- `net.JoinHostPort`. -/
def joinHostPort (host port : Text) : Text :=
  if 58 ∈ host then 91 :: host ++ 93 :: 58 :: port else host ++ 58 :: port

/-! ### Printing is injective -/

theorem digit_byte_injective {first second : Nat} (firstDigit : first < 10)
    (secondDigit : second < 10) (same : UInt8.ofNat (48 + first) = UInt8.ofNat (48 + second)) :
    first = second := by
  have values := congrArg UInt8.toNat same
  simp only [UInt8.toNat_ofNat'] at values
  omega

theorem map_digit_byte_injective {firsts seconds : List Nat}
    (firstDigits : ∀ digit ∈ firsts, digit < 10) (secondDigits : ∀ digit ∈ seconds, digit < 10)
    (same : firsts.map (fun digit => UInt8.ofNat (48 + digit)) =
      seconds.map fun digit => UInt8.ofNat (48 + digit)) : firsts = seconds := by
  induction firsts generalizing seconds with
  | nil => exact (List.map_eq_nil_iff.mp same.symm).symm
  | cons first rest inductionHypothesis =>
    cases seconds with
    | nil => cases same
    | cons second others =>
      rw [List.map_cons, List.map_cons, List.cons.injEq] at same
      rw [digit_byte_injective (firstDigits first List.mem_cons_self)
          (secondDigits second List.mem_cons_self) same.1,
        inductionHypothesis (fun digit member => firstDigits digit (List.mem_cons_of_mem _ member))
          (fun digit member => secondDigits digit (List.mem_cons_of_mem _ member)) same.2]

/-- The digits of a number, the most significant first. -/
def leadingDigits (number : Nat) : List Nat :=
  if number = 0 then [0] else (Nat.digits 10 number).reverse

theorem decimal_eq_map (number : Nat) :
    decimal number = (leadingDigits number).map fun digit => UInt8.ofNat (48 + digit) := by
  unfold decimal leadingDigits
  split
  · rfl
  · rfl

theorem lt_of_mem_leadingDigits {number digit : Nat} (member : digit ∈ leadingDigits number) :
    digit < 10 := by
  unfold leadingDigits at member
  split at member
  · rw [List.mem_singleton.mp member]
    decide
  · exact Nat.digits_lt_base (by decide) (List.mem_reverse.mp member)

theorem ofDigits_leadingDigits (number : Nat) :
    Nat.ofDigits 10 (leadingDigits number).reverse = number := by
  unfold leadingDigits
  split
  · rename_i zero
    rw [zero]
    rfl
  · rw [List.reverse_reverse, Nat.ofDigits_digits]

/-- Different numbers print differently. -/
theorem decimal_injective {first second : Nat} (same : decimal first = decimal second) :
    first = second := by
  rw [decimal_eq_map, decimal_eq_map] at same
  have digits := map_digit_byte_injective (fun _ => lt_of_mem_leadingDigits)
    (fun _ => lt_of_mem_leadingDigits) same
  rw [← ofDigits_leadingDigits first, digits, ofDigits_leadingDigits]

theorem joinHostPort_injective {host first second : Text}
    (same : joinHostPort host first = joinHostPort host second) : first = second := by
  unfold joinHostPort at same
  split at same
  · have tails := List.append_cancel_left (List.cons.inj same).2
    exact (List.cons.inj (List.cons.inj tails).2).2
  · exact (List.cons.inj (List.append_cancel_left same)).2

theorem joinHostPort_ne_nil (host port : Text) : joinHostPort host port ≠ [] := by
  unfold joinHostPort
  split
  · exact List.cons_ne_nil _ _
  · exact List.append_ne_nil_of_right_ne_nil _ (List.cons_ne_nil _ _)

/-- Different ports of one host are different addresses. -/
theorem joinHostPort_itoa_injective {host : Text} {first second : Nat}
    (same : joinHostPort host (itoa first) = joinHostPort host (itoa second)) : first = second :=
  decimal_injective (joinHostPort_injective same)

/-! ### Reading what was printed -/

theorem toNat_digit_byte {digit : Nat} (bound : digit < 10) :
    (UInt8.ofNat (48 + digit)).toNat = 48 + digit := by
  rw [UInt8.toNat_ofNat']
  exact Nat.mod_eq_of_lt (by omega)

theorem isDigit_digit_byte {digit : Nat} (bound : digit < 10) :
    48 ≤ UInt8.ofNat (48 + digit) ∧ UInt8.ofNat (48 + digit) ≤ 57 := by
  rw [UInt8.le_iff_toNat_le, UInt8.le_iff_toNat_le, toNat_digit_byte bound]
  exact ⟨Nat.le_add_right 48 digit, Nat.add_le_add_left (Nat.le_of_lt_succ bound) 48⟩

theorem leadingDigits_ne_nil (number : Nat) : leadingDigits number ≠ [] := by
  unfold leadingDigits
  split
  · exact List.cons_ne_nil _ _
  · rename_i positive
    exact List.reverse_ne_nil_iff.mpr (Nat.digits_ne_nil_iff_ne_zero.mpr positive)

theorem decimal_ne_nil (number : Nat) : decimal number ≠ [] := by
  rw [decimal_eq_map]
  exact fun empty => leadingDigits_ne_nil number (List.map_eq_nil_iff.mp empty)

/-- A printed number consists of digits. -/
theorem isDigit_of_mem_decimal {number : Nat} {byte : UInt8} (member : byte ∈ decimal number) :
    48 ≤ byte ∧ byte ≤ 57 := by
  rw [decimal_eq_map] at member
  obtain ⟨digit, digitMember, rfl⟩ := List.mem_map.mp member
  exact isDigit_digit_byte (lt_of_mem_leadingDigits digitMember)

/-- No byte outside the digits occurs in a printed number. -/
theorem not_mem_decimal {byte : UInt8} (other : byte < 48 ∨ 57 < byte) (number : Nat) :
    byte ∉ decimal number := by
  intro member
  obtain ⟨low, high⟩ := isDigit_of_mem_decimal member
  rcases other with below | above
  · exact UInt8.not_le.mpr below low
  · exact UInt8.not_le.mpr above high

theorem le_foldl_digits (digits : List Nat) (number : Nat) :
    number ≤ digits.foldl (fun number digit => 10 * number + digit) number := by
  induction digits generalizing number with
  | nil => exact Nat.le_refl number
  | cons digit rest inductionHypothesis =>
    have next := inductionHypothesis (10 * number + digit)
    rw [List.foldl_cons]
    omega

theorem parseUint_digit_bytes {digits : List Nat} (bound : ∀ digit ∈ digits, digit < 10)
    (number : Nat)
    (inRange : digits.foldl (fun number digit => 10 * number + digit) number < 2 ^ 64) :
    parseUint number (digits.map fun digit => UInt8.ofNat (48 + digit)) =
      digits.foldl (fun number digit => 10 * number + digit) number := by
  induction digits generalizing number with
  | nil => rfl
  | cons digit rest inductionHypothesis =>
    obtain ⟨digitBound, restBound⟩ := List.forall_mem_cons.mp bound
    have byte := toNat_digit_byte digitBound
    rw [List.foldl_cons] at inRange ⊢
    -- What has been read so far is not more than the whole number.
    have soFar := (le_foldl_digits rest (10 * number + digit)).trans_lt inRange
    rw [List.map_cons, parseUint, if_pos (isDigit_digit_byte digitBound), byte,
      Nat.add_sub_cancel_left, if_neg (Nat.not_le.mpr soFar),
      inductionHypothesis restBound _ inRange]

theorem foldl_leadingDigits (number : Nat) :
    (leadingDigits number).foldl (fun number digit => 10 * number + digit) 0 = number := by
  have value := ofDigits_leadingDigits number
  rw [Nat.ofDigits_eq_foldr, List.foldr_reverse] at value
  refine Eq.trans ?_ value
  apply List.foldl_ext
  intro total digit _
  exact Nat.add_comm _ _

/-- Reading a printed number gives the number, as long as it is within 63 bits. -/
theorem parseInt_decimal {number : Nat} (inRange : number < 2 ^ 63) :
    parseInt (decimal number) = number := by
  have read : parseUint 0 (decimal number) = number := by
    rw [decimal_eq_map, parseUint_digit_bytes (fun _ => lt_of_mem_leadingDigits) 0,
      foldl_leadingDigits]
    rw [foldl_leadingDigits]
    omega
  have unsigned : parseInt (decimal number) =
      (min (parseUint 0 (decimal number)) (2 ^ 63 - 1) : Nat) := by
    unfold parseInt
    split
    · rename_i digits printed
      exact absurd (printed ▸ List.mem_cons_self) (not_mem_decimal (.inl (by decide)) number)
    · rename_i digits printed
      exact absurd (printed ▸ List.mem_cons_self) (not_mem_decimal (.inl (by decide)) number)
    · rfl
  rw [unsigned, read, Nat.min_eq_left (Nat.le_sub_one_of_lt inRange)]

/-! ### Splitting what was joined -/

theorem splitLast_append {separator : UInt8} {before after : Text} (last : separator ∉ after) :
    splitLast separator (before ++ separator :: after) = some (before, after) := by
  have different : ∀ byte ∈ after.reverse, decide (byte ≠ separator) = true := by
    intro byte member
    exact decide_eq_true fun same => last (same ▸ List.mem_reverse.mp member)
  have reversed : (before ++ separator :: after).reverse =
      after.reverse ++ separator :: before.reverse := by
    simp
  unfold splitLast
  rw [if_pos (List.mem_append_right _ List.mem_cons_self), reversed,
    List.dropWhile_append_of_pos different, List.takeWhile_append_of_pos different,
    List.dropWhile_cons_of_neg (by simp), List.takeWhile_cons_of_neg (by simp)]
  simp

/-- A joined address up to its last colon. -/
def bracketed (host : Text) : Text :=
  if 58 ∈ host then 91 :: host ++ [93] else host

theorem joinHostPort_eq (host port : Text) :
    joinHostPort host port = bracketed host ++ 58 :: port := by
  unfold joinHostPort bracketed
  split
  · simp
  · rfl

/-- The port of a split address is what follows its last colon. -/
theorem port_of_splitHostPort {hostport before port host other : Text}
    (last : splitLast 58 hostport = some (before, port))
    (split : splitHostPort hostport = some (host, other)) : other = port := by
  simp only [splitHostPort, last] at split
  split at split
  · split at split
    · cases split
      rfl
    · cases split
  · split at split
    · cases split
      rfl
    · cases split

/-- `SplitHostPort` undoes `JoinHostPort` for a host without brackets. -/
theorem splitHostPort_joinHostPort {host port : Text} (opening : 91 ∉ host) (closing : 93 ∉ host)
    (portColon : 58 ∉ port) (portOpening : 91 ∉ port) (portClosing : 93 ∉ port) :
    splitHostPort (joinHostPort host port) = some (host, port) := by
  have last : splitLast 58 (bracketed host ++ 58 :: port) = some (bracketed host, port) :=
    splitLast_append portColon
  rw [joinHostPort_eq]
  simp only [splitHostPort, last]
  unfold bracketed
  split
  · have closed : (91 :: (host ++ [93])).getLast? = some 93 :=
      List.getLast?_concat (l := 91 :: host)
    simp [opening, closing, portOpening, portClosing, closed]
  · rename_i noColon
    have unbracketed : 91 ∉ host ++ 58 :: port ∧ 93 ∉ host ++ 58 :: port := by
      simp [opening, closing, portOpening, portClosing]
    have noBracket : (host ++ 58 :: port).head? ≠ some 91 :=
      fun head => unbracketed.1 (List.mem_of_mem_head? head)
    rw [if_neg noBracket, if_pos ⟨noColon, unbracketed⟩]

/-- Two joined numbers come apart again. -/
theorem splitHostPort_joinHostPort_itoa (host port : Nat) :
    splitHostPort (joinHostPort (itoa host) (itoa port)) = some (itoa host, itoa port) :=
  splitHostPort_joinHostPort (not_mem_decimal (by decide) host) (not_mem_decimal (by decide) host)
    (not_mem_decimal (by decide) port) (not_mem_decimal (by decide) port)
    (not_mem_decimal (by decide) port)

example : splitHostPort (text "[fe80::1]:51822") = some (text "fe80::1", text "51822") := by decide

/-! ### The bytes of an address -/

theorem mem_of_splitLast {separator : UInt8} {s before after : Text}
    (cut : splitLast separator s = some (before, after)) : ∀ byte ∈ before, byte ∈ s := by
  unfold splitLast at cut
  split at cut
  · cases cut
    intro byte member
    have kept := List.mem_of_mem_drop (List.mem_reverse.mp member)
    exact List.mem_reverse.mp ((List.dropWhile_sublist _).subset kept)
  · cases cut

/-- The host of an address is a part of it. -/
theorem mem_of_splitHostPort {hostport host port : Text}
    (split : splitHostPort hostport = some (host, port)) : ∀ byte ∈ host, byte ∈ hostport := by
  intro byte member
  unfold splitHostPort at split
  split at split
  · cases split
  · rename_i before after cut
    refine mem_of_splitLast cut byte ?_
    split at split
    · dsimp only at split
      split at split
      · cases split
        exact List.mem_of_mem_tail (List.mem_of_mem_dropLast member)
      · cases split
    · split at split
      · cases split
        exact member
      · cases split

/-- A byte that is no part of a number or of the punctuation of an address is a part of an
address only if it is one of its host. -/
theorem not_mem_joinHostPort {byte : UInt8} {host : Text} (absent : byte ∉ host)
    (low : byte < 48) (number : Nat) : byte ∉ joinHostPort host (itoa number) := by
  have digits : byte ∉ itoa number := not_mem_decimal (Or.inl low) number
  have colon : byte ≠ 58 := by rintro rfl; exact absurd low (by decide)
  have opening : byte ≠ 91 := by rintro rfl; exact absurd low (by decide)
  have closing : byte ≠ 93 := by rintro rfl; exact absurd low (by decide)
  unfold joinHostPort
  split
  · simp [absent, digits, colon, opening, closing]
  · simp [absent, digits, colon]

end Go
