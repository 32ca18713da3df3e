/-
This file models how `main` reads its list of seed peers, and proves that it reads
it exactly.

The list is split at commas, each item is trimmed and split at `@`, and an item
with two parts that are not empty gives a contact. The contact goes to the DHT
and, through `SetPeer`, to WireGuard; what that command returns decides only
whether a second log line is written. Both log lines cut the key to sixteen bytes
and fault on a shorter one.
-/

import WgMesh.Dht.Table
import WgMesh.Meshd.Strings
import WgMesh.Uapi.Client

namespace WgMesh.Meshd

open Go Pieces Dht Uapi

/-- What the loop over the items has done so far. -/
structure Seeding where
  seeds : List Contact
  vpsHubPubKey : Text
  /-- The configurations passed to `SetPeer`, in order. -/
  configured : List PeerConfig
  deriving DecidableEq

/-- Before the first item. -/
def Seeding.start : Seeding where
  seeds := []
  vpsHubPubKey := []
  configured := []

/-- The contact of a seed. -/
def seedContact (pk ep : Text) : Contact where
  id := nodeID pk
  publicKey := pk
  endpoint := ep
  publicEndpoint := []
  controlEndpoint := []

/-- The configuration of a seed, with the address of the VPS if one is given. -/
def seedConfig (vpsAddr pk ep : Text) : PeerConfig where
  publicKey := pk
  endpoint := if vpsAddr ≠ [] then vpsAddr else ep
  allowedIPs := text "10.200.200.0/24"
  keepAlive := 25

section Parser

-- Whether `SetPeer` succeeds, after the configurations it was called with before.
variable (accepts : List PeerConfig → PeerConfig → Bool) (vpsAddr : Text)

/-- An item with a key and an endpoint. -/
def Seeding.add (seeding : Seeding) (pk ep : Text) : Except Panic Seeding := do
  let vpsHubPubKey := if seeding.vpsHubPubKey = [] then pk else seeding.vpsHubPubKey
  let seeds := seeding.seeds ++ [seedContact pk ep]
  let _ ← upTo pk 16
  let config := seedConfig vpsAddr pk ep
  if accepts seeding.configured config then
    let _ ← upTo pk 16
  return {
    seeds := seeds
    vpsHubPubKey := vpsHubPubKey
    configured := seeding.configured ++ [config] }

/-- The body of the loop over the items. -/
def Seeding.item (rounds : Nat) (seeding : Seeding) (s : Text) : Loop Seeding := do
  match ← split rounds s (text "@") with
  | [first, second] =>
    let pk ← stringsTrim first
    let ep ← stringsTrim second
    if pk ≠ [] ∧ ep ≠ [] then seeding.add accepts vpsAddr pk ep else return seeding
  | _ => return seeding

/-- The parser of the seed list. -/
def parseSeeds (rounds : Nat) (seedPeers : Text) : Loop Seeding := do
  if seedPeers ≠ [] then
    let items ← splitAndTrim rounds seedPeers (text ",")
    items.foldlM (Seeding.item accepts vpsAddr rounds) Seeding.start
  else return Seeding.start

end Parser

/-! ### What an item means -/

/-- The key and the endpoint that an item gives: it has exactly one `@`, and neither side is
empty once it is stripped. -/
def seedOf (item : Text) : Option (Text × Text) :=
  let pk := strip (item.takeWhile (· ≠ 64))
  let ep := strip ((item.dropWhile (· ≠ 64)).drop 1)
  if item.count 64 = 1 ∧ pk ≠ [] ∧ ep ≠ [] then some (pk, ep) else none

/-- The state after the loop has added these seeds. -/
def Seeding.added (vpsAddr : Text) (pairs : List (Text × Text)) : Seeding where
  seeds := pairs.map fun pair => seedContact pair.1 pair.2
  vpsHubPubKey := ((pairs.map Prod.fst).head?).getD []
  configured := pairs.map fun pair => seedConfig vpsAddr pair.1 pair.2

/-- A seed as it may be written down. -/
structure PaddedSeed where
  pk : Text
  ep : Text
  /-- The padding before and after each part. -/
  beforeKey : Text
  afterKey : Text
  beforeEndpoint : Text
  afterEndpoint : Text
  pk_stripped : strip pk = pk
  ep_stripped : strip ep = ep
  ep_nonempty : ep ≠ []
  /-- The log lines cut the key to this length. -/
  pk_long : 16 ≤ pk.length
  pk_plain : 44 ∉ pk ∧ 64 ∉ pk
  ep_plain : 44 ∉ ep ∧ 64 ∉ ep
  blank : ∀ padding ∈ [beforeKey, afterKey, beforeEndpoint, afterEndpoint],
    ∀ byte ∈ padding, isBlank byte

def PaddedSeed.print (seed : PaddedSeed) : Text :=
  seed.beforeKey ++ seed.pk ++ seed.afterKey ++
    64 :: (seed.beforeEndpoint ++ seed.ep ++ seed.afterEndpoint)

/-- The two sides of an item with one `@`. -/
theorem exists_sides {item : Text} (single : item.count 64 = 1) :
    ∃ left right, item = left ++ 64 :: right ∧ 64 ∉ left ∧ 64 ∉ right := by
  have member : 64 ∈ item := List.count_pos_iff.mp (by omega)
  obtain ⟨left, right, rfl⟩ := List.append_of_mem member
  rw [List.count_append, List.count_cons_self] at single
  exact ⟨left, right, rfl, List.count_eq_zero.mp (by omega), List.count_eq_zero.mp (by omega)⟩

theorem seedOf_sides {left right : Text} (leftPlain : 64 ∉ left) (rightPlain : 64 ∉ right) :
    seedOf (left ++ 64 :: right) =
      if strip left ≠ [] ∧ strip right ≠ [] then some (strip left, strip right) else none := by
  have before : ∀ byte ∈ left, decide (byte ≠ 64) = true :=
    fun byte member => decide_eq_true fun same => leftPlain (same ▸ member)
  have single : (left ++ 64 :: right).count 64 = 1 := by
    rw [List.count_append, List.count_cons_self, List.count_eq_zero.mpr leftPlain,
      List.count_eq_zero.mpr rightPlain]
  have first : (left ++ 64 :: right).takeWhile (· ≠ 64) = left := by
    rw [List.takeWhile_append_of_pos before, List.takeWhile_cons_of_neg (by decide),
      List.append_nil]
  have second : ((left ++ 64 :: right).dropWhile (· ≠ 64)).drop 1 = right := by
    rw [List.dropWhile_append_of_pos before, List.dropWhile_cons_of_neg (by decide)]
    rfl
  simp only [seedOf, first, second, single, true_and]

/-- An item that is all blank gives nothing. -/
theorem seedOf_of_strip_eq_nil {item : Text} (empty : strip item = []) : seedOf item = none := by
  have absent : item.count 64 = 0 := by
    rw [← count_strip (by decide), empty, List.count_nil]
  simp only [seedOf, absent]
  rfl

theorem fst_ne_nil_of_seedOf {item : Text} {pair : Text × Text} (given : seedOf item = some pair) :
    pair.1 ≠ [] := by
  simp only [seedOf] at given
  split at given
  · rename_i parts
    cases given
    exact parts.2.1
  · cases given

/-! ### What the loop does -/

section Loop

variable (accepts : List PeerConfig → PeerConfig → Bool) (vpsAddr : Text)

/-- A seed that can be logged is added after the others. -/
theorem Seeding.add_added {pairs : List (Text × Text)} (keyed : ∀ pair ∈ pairs, pair.1 ≠ [])
    {pk ep : Text} (long : 16 ≤ pk.length) :
    (Seeding.added vpsAddr pairs).add accepts vpsAddr pk ep =
      .ok (Seeding.added vpsAddr (pairs ++ [(pk, ep)])) := by
  have logged : upTo pk 16 = .ok (pk.take 16) := if_pos long
  have hub : (if (Seeding.added vpsAddr pairs).vpsHubPubKey = [] then pk
      else (Seeding.added vpsAddr pairs).vpsHubPubKey) =
        (Seeding.added vpsAddr (pairs ++ [(pk, ep)])).vpsHubPubKey := by
    cases pairs with
    | nil => rfl
    | cons first rest => exact if_neg (keyed first List.mem_cons_self)
  have seeds : (Seeding.added vpsAddr pairs).seeds ++ [seedContact pk ep] =
      (Seeding.added vpsAddr (pairs ++ [(pk, ep)])).seeds := by
    simp [Seeding.added]
  have configured : (Seeding.added vpsAddr pairs).configured ++ [seedConfig vpsAddr pk ep] =
      (Seeding.added vpsAddr (pairs ++ [(pk, ep)])).configured := by
    simp [Seeding.added]
  simp only [Seeding.add, logged, hub, seeds, configured]
  split
  · rfl
  · rfl

/-- The loop body does with a trimmed item what the item means. -/
theorem Seeding.item_strip {pairs : List (Text × Text)} (keyed : ∀ pair ∈ pairs, pair.1 ≠ [])
    {item : Text} {rounds : Nat} (enough : (strip item).length < rounds)
    (long : ∀ pair, seedOf item = some pair → 16 ≤ pair.1.length) :
    (Seeding.added vpsAddr pairs).item accepts vpsAddr rounds (strip item) =
      pure (Seeding.added vpsAddr (pairs ++ (seedOf item).toList)) := by
  have pieces : split rounds (strip item) (text "@") = pure ((strip item).splitOn 64) :=
    split_singleton (strip item) 64 enough
  have solid : ¬ isBlank 64 := by decide
  rw [Seeding.item, pieces, pure_bind]
  by_cases single : item.count 64 = 1
  · obtain ⟨left, right, rfl, leftPlain, rightPlain⟩ := exists_sides single
    have leftSide : 64 ∉ left.dropWhile isBlank :=
      fun member => leftPlain ((List.dropWhile_suffix _).subset member)
    have rightSide : 64 ∉ right.rdropWhile isBlank :=
      fun member => rightPlain ((List.rdropWhile_prefix _ _).subset member)
    rw [strip_append_cons solid, List.splitOn_append_cons_self_of_not_mem leftSide,
      List.splitOn_eq_singleton rightSide]
    simp only [stringsTrim_eq, strip_dropWhile, strip_rdropWhile, liftM_ok, pure_bind]
    have meaning := seedOf_sides leftPlain rightPlain
    split
    · rename_i parts
      rw [if_pos parts] at meaning
      rw [meaning, Seeding.add_added accepts vpsAddr keyed (long _ meaning)]
      rfl
    · rename_i parts
      rw [if_neg parts] at meaning
      rw [meaning, Option.toList_none, List.append_nil]
  · have other : ((strip item).splitOn 64).length ≠ 2 := by
      rw [length_splitOn, count_strip solid]
      omega
    have nothing : seedOf item = none := if_neg fun parts => single parts.1
    rw [nothing, Option.toList_none, List.append_nil]
    split
    · rename_i equal
      rw [equal] at other
      exact absurd rfl other
    · rfl

/-- The loop over the items adds what the items give, in order. -/
theorem Seeding.foldlM_item (items : List Text) {pairs : List (Text × Text)}
    (keyed : ∀ pair ∈ pairs, pair.1 ≠ []) {rounds : Nat}
    (enough : ∀ item ∈ items, (strip item).length < rounds)
    (long : ∀ item ∈ items, ∀ pair, seedOf item = some pair → 16 ≤ pair.1.length) :
    ((items.map strip).filter (· ≠ [])).foldlM (Seeding.item accepts vpsAddr rounds)
        (Seeding.added vpsAddr pairs) =
      pure (Seeding.added vpsAddr (pairs ++ items.filterMap seedOf)) := by
  induction items generalizing pairs with
  | nil =>
    rw [List.filterMap_nil, List.append_nil]
    rfl
  | cons item rest inductionHypothesis =>
    have restEnough := fun other member => enough other (List.mem_cons_of_mem item member)
    have restLong := fun other member => long other (List.mem_cons_of_mem item member)
    rw [List.map_cons, List.filter_cons]
    by_cases empty : strip item = []
    · rw [if_neg (by simp [empty]), inductionHypothesis keyed restEnough restLong,
        List.filterMap_cons_none (seedOf_of_strip_eq_nil empty)]
    · have nextKeyed : ∀ pair ∈ pairs ++ (seedOf item).toList, pair.1 ≠ [] := by
        intro pair member
        rcases List.mem_append.mp member with earlier | new
        · exact keyed pair earlier
        · exact fst_ne_nil_of_seedOf (Option.mem_toList.mp new)
      rw [if_pos (by simp [empty]), List.foldlM_cons,
        Seeding.item_strip accepts vpsAddr keyed (enough item List.mem_cons_self)
          (long item List.mem_cons_self),
        pure_bind, inductionHypothesis nextKeyed restEnough restLong, List.append_assoc]
      congr 3
      cases given : seedOf item with
      | none =>
        rw [List.filterMap_cons_none given]
        rfl
      | some pair =>
        rw [List.filterMap_cons_some given]
        rfl

end Loop

/-! ### The whole list -/

/-- The parser ends and has added exactly these seeds, whatever `SetPeer` returns. -/
def ParsesTo (vpsAddr seedPeers : Text) (pairs : List (Text × Text)) : Prop :=
  ∀ (accepts : List PeerConfig → PeerConfig → Bool) (rounds : Nat), seedPeers.length < rounds →
    parseSeeds accepts vpsAddr rounds seedPeers = pure (Seeding.added vpsAddr pairs)

/-- A joined list of items is parsed to what the items give. -/
theorem parsesTo_filterMap (vpsAddr : Text) {items : List Text} (plain : ∀ item ∈ items, 44 ∉ item)
    (long : ∀ item ∈ items, ∀ pair, seedOf item = some pair → 16 ≤ pair.1.length) :
    ParsesTo vpsAddr ((text ",").intercalate items) (items.filterMap seedOf) := by
  intro accepts rounds enough
  have shorter : ∀ item ∈ items, (strip item).length < rounds := by
    intro item member
    have stripped : (strip item).length ≤ item.length :=
      ((List.rdropWhile_prefix _ _).length_le).trans (List.dropWhile_suffix _).length_le
    exact (stripped.trans (sublist_intercalate _ member).length_le).trans_lt enough
  have none : ∀ pair : Text × Text, pair ∈ ([] : List (Text × Text)) → pair.1 ≠ [] :=
    List.forall_mem_nil _
  have added := Seeding.foldlM_item accepts vpsAddr items none shorter long
  have comma : text "," = [44] := rfl
  rw [comma] at enough ⊢
  unfold parseSeeds
  split
  · rename_i given
    have nonempty : items ≠ [] := by
      rintro rfl
      exact given rfl
    rw [comma, splitAndTrim_singleton _ 44 enough, pure_bind,
      List.splitOn_intercalate 44 plain nonempty]
    exact added
  · rename_i empty
    -- An empty list has no item, or one that is empty.
    have blank : ∀ item ∈ items, strip item = [] := by
      intro item member
      have short := (sublist_intercalate [44] member).length_le
      rw [not_not.mp empty] at short
      rw [List.eq_nil_of_length_eq_zero (Nat.le_zero.mp short)]
      rfl
    rw [List.filterMap_eq_nil_iff.mpr fun item member => seedOf_of_strip_eq_nil (blank item member)]
    rfl

theorem PaddedSeed.not_mem_padding (seed : PaddedSeed) {byte : UInt8} (solid : ¬ isBlank byte) :
    ∀ padding ∈ [seed.beforeKey, seed.afterKey, seed.beforeEndpoint, seed.afterEndpoint],
      byte ∉ padding :=
  fun padding member occurs => solid (seed.blank padding member byte occurs)

theorem PaddedSeed.seedOf_print (seed : PaddedSeed) :
    seedOf seed.print = some (seed.pk, seed.ep) := by
  have solid : ¬ isBlank 64 := by decide
  have plain := seed.not_mem_padding solid
  have pk_nonempty : seed.pk ≠ [] := by
    intro empty
    have long := seed.pk_long
    rw [empty] at long
    exact absurd long (by decide)
  have leftPlain : 64 ∉ seed.beforeKey ++ seed.pk ++ seed.afterKey := by
    simp [plain, seed.pk_plain.2]
  have rightPlain : 64 ∉ seed.beforeEndpoint ++ seed.ep ++ seed.afterEndpoint := by
    simp [plain, seed.ep_plain.2]
  have left : strip (seed.beforeKey ++ seed.pk ++ seed.afterKey) = seed.pk :=
    (strip_padded (seed.blank _ (by simp)) (seed.blank _ (by simp))).trans seed.pk_stripped
  have right : strip (seed.beforeEndpoint ++ seed.ep ++ seed.afterEndpoint) = seed.ep :=
    (strip_padded (seed.blank _ (by simp)) (seed.blank _ (by simp))).trans seed.ep_stripped
  rw [PaddedSeed.print, seedOf_sides leftPlain rightPlain, left, right,
    if_pos ⟨pk_nonempty, seed.ep_nonempty⟩]

theorem PaddedSeed.not_mem_print (seed : PaddedSeed) : 44 ∉ seed.print := by
  have solid : ¬ isBlank 44 := by decide
  have plain := seed.not_mem_padding solid
  simp [PaddedSeed.print, plain, seed.pk_plain.1, seed.ep_plain.1]

/-- The seed list is parsed exactly: a list of items joined by commas gives one contact for each
item with one `@` between two parts that are not blank, in order and with the parts stripped, and
printed pairs are read back whatever blanks are put around them. -/
theorem parseSeeds_exact (vpsAddr : Text) :
    (∀ items : List Text, (∀ item ∈ items, 44 ∉ item) →
      (∀ item ∈ items, ∀ pair, seedOf item = some pair → 16 ≤ pair.1.length) →
      ParsesTo vpsAddr ((text ",").intercalate items) (items.filterMap seedOf)) ∧
    ∀ seeds : List PaddedSeed,
      ParsesTo vpsAddr ((text ",").intercalate (seeds.map PaddedSeed.print))
        (seeds.map fun seed => (seed.pk, seed.ep)) := by
  refine ⟨fun items plain long => parsesTo_filterMap vpsAddr plain long, fun seeds => ?_⟩
  have given : (seeds.map PaddedSeed.print).filterMap seedOf =
      seeds.map fun seed => (seed.pk, seed.ep) := by
    rw [List.filterMap_map, ← List.filterMap_eq_map]
    exact congrArg (List.filterMap · seeds) (funext PaddedSeed.seedOf_print)
  rw [← given]
  refine parsesTo_filterMap vpsAddr ?_ ?_
  · intro item member
    obtain ⟨seed, _, rfl⟩ := List.mem_map.mp member
    exact seed.not_mem_print
  · intro item member pair printed
    obtain ⟨seed, _, rfl⟩ := List.mem_map.mp member
    rw [seed.seedOf_print, Option.some_inj] at printed
    rw [← printed]
    exact seed.pk_long

/-- A hub, written with blanks around both parts. -/
def hubSeed : PaddedSeed where
  pk := text "hub-wireguard-public-key"
  ep := text "198.51.100.7:7946"
  beforeKey := text " "
  afterKey := text "\t"
  beforeEndpoint := text "  "
  afterEndpoint := text "\n"
  pk_stripped := by decide
  ep_stripped := by decide
  ep_nonempty := by decide
  pk_long := by decide
  pk_plain := by decide
  ep_plain := by decide
  blank := by decide +kernel

/-- A list with a hub, an empty item, and an item with an `@` too many. -/
theorem parseSeeds_exact_hub :
    ParsesTo [] ((text ",").intercalate [hubSeed.print, [], text "a@b@c"])
        [(hubSeed.pk, hubSeed.ep)] ∧
      ParsesTo [] ((text ",").intercalate [hubSeed.print]) [(hubSeed.pk, hubSeed.ep)] := by
  have given : [hubSeed.print, [], text "a@b@c"].filterMap seedOf = [(hubSeed.pk, hubSeed.ep)] := by
    decide
  refine ⟨?_, (parseSeeds_exact []).2 [hubSeed]⟩
  rw [← given]
  refine (parseSeeds_exact []).1 _ (by decide) ?_
  intro item member pair printed
  have yielded : pair ∈ [hubSeed.print, [], text "a@b@c"].filterMap seedOf :=
    List.mem_filterMap.mpr ⟨item, member, printed⟩
  rw [given, List.mem_singleton] at yielded
  rw [yielded]
  exact hubSeed.pk_long

end WgMesh.Meshd
