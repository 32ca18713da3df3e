/-
This file proves the invariant of the routing table over insert sequences of any
length and order.

The abstract reading of an identity is a string of 160 bits, and a bucket is the
class of identities that share exactly that many leading bits with the table's
own. The bucket index `insert` computes, by decoding hex, xoring bytes and
counting zeros across byte boundaries, is the length of the shared prefix. A
sequence of inserts therefore acts on each bucket as the arrivals of its class
at a first-come store, and the table is determined by the identities inserted:
each bucket holds the first eight distinct ones of its class.
-/

import WgMesh.Dht.Table
import WgMesh.Go.Bits

namespace WgMesh.Dht

open Go

/-! ### The bucket index is the length of the shared prefix -/

/-- An identity as a bit string. -/
def idBits (id : Text) : List Bool := bits (hexDecode id)

theorem leadingZerosFrom_eq (index : Nat) (dist : List UInt8) :
    leadingZerosFrom index dist = index * 8 + leadingZeros dist := by
  induction dist generalizing index with
  | nil => simp [leadingZeros, leadingZerosFrom]
  | cons byte rest inductionHypothesis =>
    unfold leadingZeros
    rw [leadingZerosFrom, leadingZerosFrom]
    split
    · omega
    · rw [inductionHypothesis (index + 1), inductionHypothesis (0 + 1)]
      omega

theorem leadingZeros_cons (byte : UInt8) (rest : List UInt8) :
    leadingZeros (byte :: rest) =
      if byte = 0 then 8 + leadingZeros rest else leadingZeros8 byte := by
  rw [leadingZeros, leadingZerosFrom]
  by_cases zero : byte = 0
  · rw [if_neg (not_not.mpr zero), if_pos zero, leadingZerosFrom_eq]
  · rw [if_pos zero, if_neg zero]
    omega

/-- The leading zeros of a byte are the zero bits it starts with. -/
theorem leadingZeros8_eq (byte : UInt8) :
    leadingZeros8 byte = sharedPrefix (byteBits byte) (List.replicate 8 false) := by
  revert byte
  decide +kernel

theorem leadingZeros8_lt (byte : UInt8) (nonzero : byte ≠ 0) : leadingZeros8 byte < 8 := by
  unfold leadingZeros8
  rw [if_neg nonzero]
  omega

theorem sharedPrefix_byteBits (first second : UInt8) :
    sharedPrefix (byteBits first) (byteBits second) = leadingZeros8 (first ^^^ second) := by
  rw [sharedPrefix_eq_xor _ _ (by rw [byteBits_length, byteBits_length]), ← byteBits_xor,
    byteBits_length, leadingZeros8_eq]

theorem byteBits_ne_of_ne {first second : UInt8} (different : first ^^^ second ≠ 0) :
    byteBits first ≠ byteBits second := by
  intro same
  have shared := sharedPrefix_byteBits first second
  rw [same, sharedPrefix_self, byteBits_length] at shared
  exact absurd (leadingZeros8_lt _ different) (by omega)

/-- Counting the zeros of the byte-wise exclusive or measures the shared bit prefix. -/
theorem leadingZeros_zipWith (first second : List UInt8)
    (sameLength : first.length = second.length) :
    leadingZeros (List.zipWith (· ^^^ ·) first second) =
      sharedPrefix (bits first) (bits second) := by
  induction first generalizing second with
  | nil => rfl
  | cons byte rest inductionHypothesis =>
    cases second with
    | nil => cases sameLength
    | cons other others =>
      rw [List.zipWith_cons_cons, leadingZeros_cons, bits_cons, bits_cons]
      by_cases zero : byte ^^^ other = 0
      · have same : byte = other := by
          rwa [UInt8.xor_eq_zero_iff] at zero
        rw [if_pos zero, same, sharedPrefix_append_left, byteBits_length,
          inductionHypothesis others (Nat.succ.inj sameLength)]
      · rw [if_neg zero, sharedPrefix_append_of_ne _ _
          (by rw [byteBits_length, byteBits_length]) (byteBits_ne_of_ne zero),
          sharedPrefix_byteBits]

theorem prefixLength_eq {selfID id : Text} (selfForm : IsNodeID selfID) (form : IsNodeID id) :
    prefixLength selfID id = sharedPrefix (idBits selfID) (idBits id) :=
  leadingZeros_zipWith _ _ (by rw [selfForm.decoded_length, form.decoded_length])

/-- The table's own identity falls outside every bucket. -/
theorem prefixLength_self {selfID : Text} (selfForm : IsNodeID selfID) :
    prefixLength selfID selfID = kBuckets := by
  rw [prefixLength_eq selfForm selfForm, sharedPrefix_self]
  have eachByte : (bits (hexDecode selfID)).length = 8 * (hexDecode selfID).length := by
    simp [bits, List.length_flatMap, byteBits_length, Nat.mul_comm]
  rw [idBits, eachByte, selfForm.decoded_length]

/-! ### Sequences of inserts -/

/-- Insert contacts one after another. -/
def Table.insertAll (table : Table) (contacts : List Contact) : Except Panic Table :=
  contacts.foldlM Table.insert table

theorem Table.insertAll_eq (table : Table) (contacts : List Contact)
    (long : ∀ contact ∈ contacts, LongID contact.id) :
    table.insertAll contacts = .ok (contacts.foldl Table.place table) := by
  unfold Table.insertAll
  induction contacts generalizing table with
  | nil => rfl
  | cons contact rest inductionHypothesis =>
    rw [List.foldlM_cons, table.insert_eq contact (long contact List.mem_cons_self)]
    exact inductionHypothesis _ fun other member => long other (List.mem_cons_of_mem _ member)

@[simp] theorem Table.foldl_place_selfID (table : Table) (contacts : List Contact) :
    (contacts.foldl Table.place table).selfID = table.selfID := by
  induction contacts generalizing table with
  | nil => rfl
  | cons contact rest inductionHypothesis =>
    rw [List.foldl_cons, inductionHypothesis, Table.place_selfID]

/-- A bucket after a sequence of inserts: the arrivals of its own class. -/
theorem Table.foldl_place_buckets (table : Table) (contacts : List Contact)
    (bucket : Fin kBuckets) :
    (contacts.foldl Table.place table).buckets bucket =
      (contacts.filter fun contact =>
          decide (prefixLength table.selfID contact.id = bucket)).foldl
        (FirstCome.put Contact.id Contact.refresh kBucketSize) (table.buckets bucket) := by
  induction contacts generalizing table with
  | nil => rfl
  | cons contact rest inductionHypothesis =>
    rw [List.foldl_cons, inductionHypothesis, Table.place_selfID, Table.place_buckets]
    by_cases own : prefixLength table.selfID contact.id = bucket
    · rw [if_pos own, List.filter_cons_of_pos (by simpa using own), List.foldl_cons]
    · rw [if_neg own, List.filter_cons_of_neg (by simpa using own)]

/-- The identities of a bucket after a sequence of inserts into an empty table. -/
theorem Table.bucket_ids (table : Table) (contacts : List Contact) (bucket : Fin kBuckets)
    (empty : table.buckets bucket = []) :
    ((contacts.foldl Table.place table).buckets bucket).map Contact.id =
      (((contacts.map Contact.id).filter fun id =>
        decide (prefixLength table.selfID id = bucket)).eraseDups).take kBucketSize := by
  rw [Table.foldl_place_buckets, FirstCome.map_key_foldl_put Contact.refresh_id, empty,
    List.map_nil, FirstCome.foldl_accept_eq, List.filter_map]
  rfl

/-- The identities a bucket holds stay where they are under further inserts. -/
theorem Table.bucket_ids_prefix (table : Table) (contacts : List Contact)
    (bucket : Fin kBuckets) :
    (table.buckets bucket).map Contact.id <+:
      ((contacts.foldl Table.place table).buckets bucket).map Contact.id := by
  rw [Table.foldl_place_buckets, FirstCome.map_key_foldl_put Contact.refresh_id]
  exact FirstCome.prefix_foldl_accept _ _ _

/-! ### The routing-table invariant -/

/-- What a table holds after a sequence of inserts. -/
structure RoutingInvariant (inserted : List Contact) (table : Table) : Prop where
  /-- A contact in bucket `i` shares exactly `i` leading bits with the table's identity, and
  that is what the source computes. -/
  shared : ∀ bucket, ∀ contact ∈ table.buckets bucket,
    sharedPrefix (idBits table.selfID) (idBits contact.id) = bucket ∧
      ∃ dist, xorDist table.selfID contact.id = .ok dist ∧ leadingZeros dist = bucket
  selfAbsent : ∀ bucket, ∀ contact ∈ table.buckets bucket, contact.id ≠ table.selfID
  distinct : (table.knownPeers.map Contact.id).Nodup
  /-- Each bucket holds the first eight distinct identities of its class, in order of first
  insertion. -/
  firstCome : ∀ bucket : Fin kBuckets, (table.buckets bucket).map Contact.id =
    (((inserted.map Contact.id).filter fun id =>
      decide (sharedPrefix (idBits table.selfID) (idBits id) = bucket)).eraseDups).take kBucketSize

/-- Buckets that hold what belongs to them, each identity once, hold each identity once in all. -/
theorem Table.nodup_ids_of_own {table : Table}
    (own : ∀ bucket, ∀ contact ∈ table.buckets bucket,
      prefixLength table.selfID contact.id = bucket)
    (distinct : ∀ bucket, ((table.buckets bucket).map Contact.id).Nodup) :
    (table.knownPeers.map Contact.id).Nodup := by
  rw [Table.knownPeers, List.map_flatMap, List.nodup_flatMap]
  refine ⟨fun bucket _ => distinct bucket, ?_⟩
  refine (List.nodup_finRange kBuckets).pairwise_of_forall_ne ?_
  intro first _ second _ different id inFirst inSecond
  obtain ⟨contact, member, rfl⟩ := List.mem_map.mp inFirst
  obtain ⟨other, otherMember, same⟩ := List.mem_map.mp inSecond
  have firstOwn := own first contact member
  have secondOwn := own second other otherMember
  rw [same, firstOwn] at secondOwn
  exact different (Fin.ext secondOwn)

/-- No bucket is for the table's own identity. -/
theorem Table.ne_selfID_of_own {table : Table} {bucket : Fin kBuckets} {contact : Contact}
    (own : prefixLength table.selfID contact.id = bucket) : contact.id ≠ table.selfID := by
  intro same
  rw [same, prefixLength_self table.selfForm] at own
  exact absurd bucket.isLt (by omega)

theorem routingInvariant_of_firstCome {inserted : List Contact} {table : Table}
    (form : ∀ contact ∈ inserted, IsNodeID contact.id)
    (firstCome : ∀ bucket : Fin kBuckets, (table.buckets bucket).map Contact.id =
      (((inserted.map Contact.id).filter fun id =>
        decide (prefixLength table.selfID id = bucket)).eraseDups).take kBucketSize) :
    RoutingInvariant inserted table := by
  have stored : ∀ (bucket : Fin kBuckets), ∀ contact ∈ table.buckets bucket,
      IsNodeID contact.id ∧ prefixLength table.selfID contact.id = bucket := by
    intro bucket contact member
    have listed : contact.id ∈ (table.buckets bucket).map Contact.id :=
      List.mem_map_of_mem member
    rw [firstCome bucket] at listed
    have filtered := List.mem_filter.mp (List.mem_eraseDups.mp (List.mem_of_mem_take listed))
    obtain ⟨original, insertedMember, sameID⟩ := List.mem_map.mp filtered.1
    exact ⟨sameID ▸ form original insertedMember, of_decide_eq_true filtered.2⟩
  refine ⟨?_, ?_, ?_, ?_⟩
  · intro bucket contact member
    obtain ⟨contactForm, own⟩ := stored bucket contact member
    refine ⟨by rw [← prefixLength_eq table.selfForm contactForm, own], _,
      xorDist_eq_ok ?_, own⟩
    rw [table.selfForm.decoded_length, contactForm.decoded_length]
  · intro bucket contact member
    exact Table.ne_selfID_of_own (stored bucket contact member).2
  · refine Table.nodup_ids_of_own (fun bucket contact member =>
      (stored bucket contact member).2) fun bucket => ?_
    rw [firstCome bucket]
    exact (FirstCome.nodup_eraseDups _).sublist (List.take_sublist _ _)
  · intro bucket
    rw [firstCome bucket]
    refine congrArg (fun ids => (List.eraseDups ids).take kBucketSize) ?_
    refine List.filter_congr fun id member => ?_
    obtain ⟨original, insertedMember, rfl⟩ := List.mem_map.mp member
    rw [prefixLength_eq table.selfForm (form original insertedMember)]

/-- Every sequence of inserts of contacts whose identities have the form of `nodeID` returns,
leaves the routing-table invariant, and keeps every identity stored along the way in its
bucket and position. -/
theorem insertAll_routingInvariant (publicKey : Text) (contacts : List Contact)
    (form : ∀ contact ∈ contacts, IsNodeID contact.id) :
    ∃ table, (Table.new publicKey).insertAll contacts = .ok table ∧
      RoutingInvariant contacts table ∧
      ∀ earlier later, contacts = earlier ++ later →
        ∃ before, (Table.new publicKey).insertAll earlier = .ok before ∧
          before.insertAll later = .ok table ∧
          ∀ bucket, (before.buckets bucket).map Contact.id <+:
            (table.buckets bucket).map Contact.id := by
  refine ⟨_, Table.insertAll_eq _ contacts fun contact member => (form contact member).longID,
    ?_, ?_⟩
  · refine routingInvariant_of_firstCome form fun bucket => ?_
    rw [Table.bucket_ids _ _ _ rfl, Table.foldl_place_selfID]
  · rintro earlier later rfl
    have earlierForm := fun contact member => (form contact (List.mem_append_left _ member)).longID
    have laterForm := fun contact member =>
      (form contact (List.mem_append_right earlier member)).longID
    refine ⟨_, Table.insertAll_eq _ earlier earlierForm, ?_, ?_⟩
    · rw [Table.insertAll_eq _ later laterForm, List.foldl_append]
    · intro bucket
      rw [List.foldl_append]
      exact Table.bucket_ids_prefix _ later bucket

/-- The contact a seed or a registration of a key leads to, known by one endpoint. -/
def Contact.known (publicKey endpoint : Text) : Contact where
  id := nodeID publicKey
  publicKey := publicKey
  endpoint := endpoint
  publicEndpoint := []
  controlEndpoint := []

theorem insertAll_routingInvariant_reinserted :
    ∃ table, (Table.new (text "hub")).insertAll
        [.known (text "lisa") (text "192.168.30.2:62784"),
          .known (text "toby") (text "192.168.30.3:62784"),
          .known (text "lisa") (text "10.0.0.7:62784")] = .ok table ∧
      RoutingInvariant
        [.known (text "lisa") (text "192.168.30.2:62784"),
          .known (text "toby") (text "192.168.30.3:62784"),
          .known (text "lisa") (text "10.0.0.7:62784")] table := by
  obtain ⟨table, inserted, invariant, _⟩ := insertAll_routingInvariant (text "hub")
    [.known (text "lisa") (text "192.168.30.2:62784"),
      .known (text "toby") (text "192.168.30.3:62784"),
      .known (text "lisa") (text "10.0.0.7:62784")] (by
    intro contact member
    simp only [List.mem_cons, List.mem_nil_iff, or_false] at member
    rcases member with rfl | rfl | rfl <;> exact isNodeID_nodeID _)
  exact ⟨table, inserted, invariant⟩

end WgMesh.Dht
