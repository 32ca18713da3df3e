/-
This file models the routing table of `pkg/dht`: contacts, node identities, the
XOR distance, the 160 buckets of at most eight contacts, and the two operations
on them, `insert` and `closest`.

Identities that arrive from the network are arbitrary strings. The distance
decodes two of them with the decoding error dropped and indexes the second with
the positions of the first, so it faults exactly when the second decodes to
fewer bytes. The table's own identity always has the form `NodeID` produces and
carries the proof; with it the one condition under which `insert` returns is
that the contact's identity decodes to at least twenty bytes, and `insert` is
then one arrival at a bounded first-come store.
-/

import WgMesh.Go.Hex
import WgMesh.Go.Sha256
import WgMesh.Go.Sort
import WgMesh.Store.FirstCome

namespace WgMesh.Dht

open Go

/-- The number of buckets, one for each length of a shared identity prefix. -/
abbrev kBuckets : Nat := 160

/-- The number of contacts a bucket holds. -/
abbrev kBucketSize : Nat := 8

/-- A peer as the table stores it and as messages carry it. -/
structure Contact where
  id : Text
  publicKey : Text
  endpoint : Text
  /-- STUN-discovered public address. -/
  publicEndpoint : Text
  /-- DHT TCP address, distinct from the WireGuard endpoint. -/
  controlEndpoint : Text
  deriving DecidableEq, Repr

/-- The identity of a public key: the first twenty bytes of its digest, in hex. -/
def nodeID (publicKey : Text) : Text :=
  hexEncode ((sha256 publicKey).take 20)

/-- The form of the identities that `nodeID` produces: forty lower-case hex digits. -/
def IsNodeID (id : Text) : Prop :=
  id.length = 40 ∧ ∀ digit ∈ id, IsLowerHex digit

instance (id : Text) : Decidable (IsNodeID id) := inferInstanceAs (Decidable (_ ∧ _))

theorem isNodeID_nodeID (publicKey : Text) : IsNodeID (nodeID publicKey) := by
  constructor
  · rw [nodeID, hexEncode_length, List.length_take, sha256_length]
    rfl
  · exact isLowerHex_of_mem_hexEncode _

theorem IsNodeID.decoded_length {id : Text} (form : IsNodeID id) : (hexDecode id).length = 20 := by
  rw [hexDecode_length_of_lower id form.2, form.1]

/-! ### Distance -/

/-- The loop of `xorDist`: every position of the first list indexes the second. -/
def xorBytes : List UInt8 → List UInt8 → Except Panic (List UInt8)
  | [], _ => .ok []
  | _ :: _, [] => .error .indexOutOfRange
  | first :: firsts, second :: seconds => do
    return (first ^^^ second) :: (← xorBytes firsts seconds)

/-- The XOR distance of two identities. -/
def xorDist (a b : Text) : Except Panic (List UInt8) :=
  xorBytes (hexDecode a) (hexDecode b)

/-- `bits.LeadingZeros8`. -/
def leadingZeros8 (byte : UInt8) : Nat :=
  if byte = 0 then 8 else 7 - byte.toNat.log2

/-- The loop of `leadingZeros`, from position `index` on. -/
def leadingZerosFrom (index : Nat) : List UInt8 → Nat
  | [] => index * 8
  | byte :: rest =>
    if byte ≠ 0 then index * 8 + leadingZeros8 byte else leadingZerosFrom (index + 1) rest

/-- The number of leading zero bits of a distance. -/
def leadingZeros (dist : List UInt8) : Nat := leadingZerosFrom 0 dist

theorem xorBytes_eq (first second : List UInt8) :
    xorBytes first second =
      if first.length ≤ second.length then .ok (List.zipWith (· ^^^ ·) first second)
      else .error .indexOutOfRange := by
  induction first generalizing second with
  | nil => simp [xorBytes]
  | cons byte rest inductionHypothesis =>
    cases second with
    | nil => simp [xorBytes]
    | cons other others =>
      rw [xorBytes, inductionHypothesis]
      by_cases short : rest.length ≤ others.length
      · simp only [short, if_true, List.length_cons, Nat.add_le_add_iff_right,
          List.zipWith_cons_cons]
        rfl
      · simp only [short, if_false, List.length_cons, Nat.add_le_add_iff_right]
        rfl

theorem returns_xorDist (a b : Text) :
    Returns (xorDist a b) ↔ (hexDecode a).length ≤ (hexDecode b).length := by
  rw [xorDist, xorBytes_eq]
  split
  · simp [*]
  · simp [*]

theorem xorDist_eq_ok {a b : Text} (long : (hexDecode a).length ≤ (hexDecode b).length) :
    xorDist a b = .ok (List.zipWith (· ^^^ ·) (hexDecode a) (hexDecode b)) := by
  rw [xorDist, xorBytes_eq, if_pos long]

/-! ### The table -/

/-- The routing table of a node. -/
structure Table where
  selfID : Text
  buckets : Fin kBuckets → List Contact
  /-- A table is only ever built by `NewDHT`, for the identity of a public key. -/
  selfForm : IsNodeID selfID

/-- The table `NewDHT` builds. -/
def Table.new (publicKey : Text) : Table where
  selfID := nodeID publicKey
  buckets := fun _ => []
  selfForm := isNodeID_nodeID publicKey

/-- What `insert` writes over a stored contact with the same identity. -/
def Contact.refresh (existing latest : Contact) : Contact :=
  { existing with
    endpoint := latest.endpoint
    publicEndpoint :=
      if latest.publicEndpoint ≠ [] then latest.publicEndpoint else existing.publicEndpoint }

theorem Contact.refresh_id (existing latest : Contact) :
    (existing.refresh latest).id = existing.id := rfl

/-- The part of `insert` under the bucket's lock. The identity's prefix is sliced for the log
line of an update. -/
def insertBucket (contact : Contact) (contacts : List Contact) : Except Panic (List Contact) :=
  match FirstCome.mergeFirst Contact.id Contact.refresh contact contacts with
  | some updated => do
    let _ ← upTo contact.id 8
    return updated
  | none => return if contacts.length < kBucketSize then contacts ++ [contact] else contacts

/-- Store a contact, or update the one stored under its identity. -/
def Table.insert (table : Table) (contact : Contact) : Except Panic Table := do
  let dist ← xorDist table.selfID contact.id
  let bucketIdx := leadingZeros dist
  if inRange : bucketIdx < kBuckets then
    let bucket : Fin kBuckets := ⟨bucketIdx, inRange⟩
    let contacts ← insertBucket contact (table.buckets bucket)
    return { table with buckets := Function.update table.buckets bucket contacts }
  else
    return table

/-- All contacts of the table, bucket by bucket: `KnownPeers`, and what `closest` gathers. -/
def Table.knownPeers (table : Table) : List Contact :=
  (List.finRange kBuckets).flatMap table.buckets

/-- The comparison `closest` sorts by. -/
def closer (targetID : Text) (first second : Contact) : Except Panic Bool := do
  let di ← xorDist targetID first.id
  let dj ← xorDist targetID second.id
  return decide (0 < di.length) && decide (0 < dj.length) && decide (di < dj)

/-- The at most `count` contacts nearest to an identity. -/
def Table.closest (table : Table) (targetID : Text) (count : Nat) :
    Except Panic (List Contact) := do
  let candidates ← sortSlice (closer targetID) table.knownPeers
  return candidates.take count

theorem mem_knownPeers {table : Table} {contact : Contact} :
    contact ∈ table.knownPeers ↔ ∃ bucket, contact ∈ table.buckets bucket := by
  simp [Table.knownPeers]

theorem knownPeers_new (publicKey : Text) : (Table.new publicKey).knownPeers = [] := by
  rw [Table.knownPeers, List.flatMap_eq_nil_iff]
  exact fun _ _ => rfl

/-! ### What `insert` does -/

/-- The length of the identity prefix shared with the table's own, as `insert` computes it. -/
def prefixLength (selfID id : Text) : Nat :=
  leadingZeros (List.zipWith (· ^^^ ·) (hexDecode selfID) (hexDecode id))

/-- The table after a contact has been inserted. -/
def Table.place (table : Table) (contact : Contact) : Table :=
  if inRange : prefixLength table.selfID contact.id < kBuckets then
    { table with
      buckets := Function.update table.buckets ⟨_, inRange⟩
        (FirstCome.put Contact.id Contact.refresh kBucketSize (table.buckets ⟨_, inRange⟩)
          contact) }
  else table

/-- An identity long enough to be indexed by every position of the table's own. -/
def LongID (id : Text) : Prop := 20 ≤ (hexDecode id).length

instance (id : Text) : Decidable (LongID id) := inferInstanceAs (Decidable (_ ≤ _))

theorem IsNodeID.longID {id : Text} (form : IsNodeID id) : LongID id :=
  le_of_eq form.decoded_length.symm

theorem LongID.prefix_sliced {id : Text} (long : LongID id) : 8 ≤ id.length := by
  have digits := hexDecode_length_le id
  unfold LongID at long
  omega

theorem insertBucket_eq (contact : Contact) (contacts : List Contact) (long : LongID contact.id) :
    insertBucket contact contacts =
      .ok (FirstCome.put Contact.id Contact.refresh kBucketSize contacts contact) := by
  unfold insertBucket FirstCome.put
  cases found : FirstCome.mergeFirst Contact.id Contact.refresh contact contacts with
  | none => rfl
  | some updated =>
    obtain ⟨sliced, equal⟩ := (returns_upTo contact.id 8).mpr long.prefix_sliced
    simp only [equal]
    rfl

/-- An identity that decodes to twenty bytes or more is placed. -/
theorem Table.insert_eq (table : Table) (contact : Contact) (long : LongID contact.id) :
    table.insert contact = .ok (table.place contact) := by
  have decoded : (hexDecode table.selfID).length ≤ (hexDecode contact.id).length := by
    rw [table.selfForm.decoded_length]
    exact long
  unfold Table.insert Table.place
  rw [xorDist_eq_ok decoded]
  simp only [insertBucket_eq _ _ long]
  change (if inRange : prefixLength table.selfID contact.id < kBuckets then _ else _) = _
  split
  · rfl
  · rfl

/-- `insert` faults exactly on identities that decode to fewer than twenty bytes. -/
theorem Table.returns_insert (table : Table) (contact : Contact) :
    Returns (table.insert contact) ↔ LongID contact.id := by
  constructor
  · intro returned
    obtain ⟨dist, measured, _⟩ := returns_bind.mp returned
    have decoded := (returns_xorDist _ _).mp ⟨dist, measured⟩
    rwa [table.selfForm.decoded_length] at decoded
  · intro long
    exact ⟨_, table.insert_eq contact long⟩

theorem Table.eq_place_of_insert {table next : Table} {contact : Contact}
    (inserted : table.insert contact = .ok next) : next = table.place contact := by
  have long := (table.returns_insert contact).mp ⟨next, inserted⟩
  rw [table.insert_eq contact long] at inserted
  exact (Except.ok.inj inserted).symm

@[simp] theorem Table.place_selfID (table : Table) (contact : Contact) :
    (table.place contact).selfID = table.selfID := by
  unfold Table.place
  split
  · rfl
  · rfl

/-- A bucket only sees the contacts of its own prefix length. -/
theorem Table.place_buckets (table : Table) (contact : Contact) (bucket : Fin kBuckets) :
    (table.place contact).buckets bucket =
      if prefixLength table.selfID contact.id = bucket then
        FirstCome.put Contact.id Contact.refresh kBucketSize (table.buckets bucket) contact
      else table.buckets bucket := by
  unfold Table.place
  split
  · rename_i inRange
    by_cases same : prefixLength table.selfID contact.id = bucket
    · have equal : bucket = ⟨_, inRange⟩ := Fin.ext same.symm
      rw [if_pos same, equal]
      exact Function.update_self _ _ _
    · have different : bucket ≠ ⟨_, inRange⟩ := fun equal => same (congrArg Fin.val equal).symm
      rw [if_neg same]
      exact Function.update_of_ne different _ _
  · rename_i outOfRange
    rw [if_neg]
    intro same
    exact outOfRange (same ▸ bucket.isLt)

/-! ### What `closest` does -/

theorem returns_closer (targetID : Text) (first second : Contact) :
    Returns (closer targetID first second) ↔
      (hexDecode targetID).length ≤ (hexDecode first.id).length ∧
        (hexDecode targetID).length ≤ (hexDecode second.id).length := by
  unfold closer
  constructor
  · intro returned
    obtain ⟨di, measuredFirst, rest⟩ := returns_bind.mp returned
    obtain ⟨dj, measuredSecond, _⟩ := returns_bind.mp rest
    exact ⟨(returns_xorDist _ _).mp ⟨di, measuredFirst⟩,
      (returns_xorDist _ _).mp ⟨dj, measuredSecond⟩⟩
  · rintro ⟨longFirst, longSecond⟩
    refine returns_bind.mpr ⟨_, xorDist_eq_ok longFirst, ?_⟩
    exact returns_bind.mpr ⟨_, xorDist_eq_ok longSecond, returns_pure _⟩

/-- `closest` faults exactly when two or more contacts are compared and one of them decodes
to fewer bytes than the target. -/
theorem Table.returns_closest (table : Table) (targetID : Text) (count : Nat) :
    Returns (table.closest targetID count) ↔
      table.knownPeers.length ≤ 1 ∨
        ∀ contact ∈ table.knownPeers,
          (hexDecode targetID).length ≤ (hexDecode contact.id).length := by
  rw [← returns_sortSlice (returns_closer targetID) table.knownPeers]
  unfold Table.closest
  rw [returns_bind]
  constructor
  · rintro ⟨candidates, sorted, _⟩
    exact ⟨candidates, sorted⟩
  · rintro ⟨candidates, sorted⟩
    exact ⟨candidates, sorted, returns_pure _⟩

/-- Every contact `closest` returns is in the table. -/
theorem Table.mem_knownPeers_of_closest {table : Table} {targetID : Text} {count : Nat}
    {nearest : List Contact} (returned : table.closest targetID count = .ok nearest)
    {contact : Contact} (member : contact ∈ nearest) : contact ∈ table.knownPeers := by
  obtain ⟨candidates, sorted, equal⟩ := bind_eq_ok.mp returned
  cases equal
  exact (sortSlice_perm sorted).mem_iff.mp (List.mem_of_mem_take member)

end WgMesh.Dht
