/-
This file proves that `closest` returns the contacts nearest to an identity.

Read as a number of 160 bits, the distance of two identities is their exclusive
or. The source compares distances as byte strings; as they have one length, this
is the order of the numbers. Two contacts of a table have different identities
and so different distances to the target. The order is therefore strict on the
table, and there is only one way to sort the contacts by it: whatever `sort.Slice`
does, and however the contacts came into the table, the first of them are returned.
-/

import WgMesh.Dht.Entries

namespace WgMesh.Dht

open Go

/-! ### The distance as a number -/

/-- The number that an identity writes. -/
def idNumber (id : Text) : Nat := bigEndian (hexDecode id)

/-- The XOR distance of two identities. -/
def distance (targetID id : Text) : Nat := idNumber targetID ^^^ idNumber id

/-- Two identities at one distance are equal. -/
theorem distance_injective {targetID first second : Text} (firstForm : IsNodeID first)
    (secondForm : IsNodeID second) (same : distance targetID first = distance targetID second) :
    first = second := by
  have numbers : idNumber first = idNumber second := Nat.xor_right_injective same
  have decoded : hexDecode first = hexDecode second :=
    bigEndian_injective (by rw [firstForm.decoded_length, secondForm.decoded_length]) numbers
  rw [← hexEncode_hexDecode first firstForm.2 (by rw [firstForm.1]), decoded,
    hexEncode_hexDecode second secondForm.2 (by rw [secondForm.1])]

/-- The comparison of the source is that of distances. -/
theorem closer_eq {targetID : Text} (targetForm : IsNodeID targetID) {first second : Contact}
    (firstForm : IsNodeID first.id) (secondForm : IsNodeID second.id) :
    closer targetID first second =
      .ok (decide (distance targetID first.id < distance targetID second.id)) := by
  have lengths := targetForm.decoded_length
  have firstLength : (hexDecode targetID).length = (hexDecode first.id).length := by
    rw [lengths, firstForm.decoded_length]
  have secondLength : (hexDecode targetID).length = (hexDecode second.id).length := by
    rw [lengths, secondForm.decoded_length]
  have less : List.zipWith (· ^^^ ·) (hexDecode targetID) (hexDecode first.id) <
      List.zipWith (· ^^^ ·) (hexDecode targetID) (hexDecode second.id) ↔
        distance targetID first.id < distance targetID second.id := by
    rw [lt_iff_bigEndian_lt, bigEndian_zipWith_xor firstLength, bigEndian_zipWith_xor secondLength]
    · rfl
    · rw [List.length_zipWith, List.length_zipWith, ← firstLength, ← secondLength]
  have firstPositive :
      0 < (List.zipWith (· ^^^ ·) (hexDecode targetID) (hexDecode first.id)).length := by
    rw [List.length_zipWith, ← firstLength, lengths]
    decide
  have secondPositive :
      0 < (List.zipWith (· ^^^ ·) (hexDecode targetID) (hexDecode second.id)).length := by
    rw [List.length_zipWith, ← secondLength, lengths]
    decide
  unfold closer
  rw [xorDist_eq_ok firstLength.le, xorDist_eq_ok secondLength.le]
  change Except.ok (decide _ && decide _ && decide _) = _
  rw [decide_eq_true firstPositive, decide_eq_true secondPositive, decide_eq_decide.mpr less]
  rfl

/-! ### The nearest contacts -/

/-- The contact is in one of the buckets. -/
def Table.Has (table : Table) (contact : Contact) : Prop :=
  ∃ bucket, contact ∈ table.buckets bucket

/-- The nearest contacts of a table, nearest first: as many as asked for or all that are in the
buckets, and none that is left out is nearer. -/
structure Nearest (table : Table) (targetID : Text) (count : Nat) (nearest : List Contact) :
    Prop where
  distinct : nearest.Nodup
  length : nearest.length = min count (∑ bucket, (table.buckets bucket).length)
  known : ∀ contact ∈ nearest, table.Has contact
  increasing : nearest.Pairwise fun first second =>
    distance targetID first.id < distance targetID second.id
  complete : ∀ contact ∈ nearest, ∀ left, table.Has left → left ∉ nearest →
    distance targetID contact.id < distance targetID left.id

theorem Table.length_knownPeers (table : Table) :
    table.knownPeers.length = ∑ bucket, (table.buckets bucket).length := by
  rw [Table.knownPeers, List.length_flatMap, ← List.sum_ofFn, List.ofFn_eq_map]

/-- A table whose contacts are distinct peers with identities of the form of `nodeID`. -/
structure Table.Formed (table : Table) : Prop where
  form : ∀ contact ∈ table.knownPeers, IsNodeID contact.id
  distinct : (table.knownPeers.map Contact.id).Nodup

theorem Table.form_place {table : Table} {contact : Contact} (form : IsNodeID contact.id)
    (formed : ∀ id ∈ table.ids, IsNodeID id) : ∀ id ∈ (table.place contact).ids, IsNodeID id := by
  intro id member
  rcases Table.mem_ids_place.mp member with old | ⟨rfl, _⟩
  · exact formed id old
  · exact form

theorem Table.form_foldl_place {table : Table} {contacts : List Contact}
    (form : ∀ contact ∈ contacts, IsNodeID contact.id) (formed : ∀ id ∈ table.ids, IsNodeID id) :
    ∀ id ∈ (contacts.foldl Table.place table).ids, IsNodeID id := by
  induction contacts generalizing table with
  | nil => exact formed
  | cons contact rest inductionHypothesis =>
    obtain ⟨contactForm, restForm⟩ := List.forall_mem_cons.mp form
    exact inductionHypothesis restForm (Table.form_place contactForm formed)

theorem Table.formed_of_insertAll {publicKey : Text} {contacts : List Contact} {table : Table}
    (form : ∀ contact ∈ contacts, IsNodeID contact.id)
    (inserted : (Table.new publicKey).insertAll contacts = .ok table) : table.Formed := by
  rw [Table.insertAll_eq _ contacts fun contact member => (form contact member).longID] at inserted
  cases inserted
  have placed := (Table.wellPlaced_new publicKey).foldl_place contacts
  refine ⟨fun contact member => ?_, Table.nodup_ids_of_own placed.own placed.distinct⟩
  refine Table.form_foldl_place form ?_ _ (List.mem_map_of_mem member)
  rw [Table.ids, knownPeers_new]
  exact List.forall_mem_nil _

section Formed

variable {table : Table} (formed : table.Formed) {targetID : Text}

include formed

theorem Table.Formed.nodup : table.knownPeers.Nodup := formed.distinct.of_map _

/-- Two contacts at one distance are the same contact. -/
theorem Table.Formed.eq_of_distance {first second : Contact}
    (firstMember : first ∈ table.knownPeers) (secondMember : second ∈ table.knownPeers)
    (same : distance targetID first.id = distance targetID second.id) : first = second :=
  List.inj_on_of_nodup_map formed.distinct firstMember secondMember
    (distance_injective (formed.form first firstMember) (formed.form second secondMember) same)

/-- There is only one way to sort the contacts by distance. -/
theorem Table.Formed.sorted_unique {candidates sorted : List Contact}
    (candidatesPerm : candidates.Perm table.knownPeers)
    (candidatesSorted : candidates.Pairwise fun first second =>
      distance targetID first.id ≤ distance targetID second.id)
    (perm : sorted.Perm table.knownPeers)
    (increasing : sorted.Pairwise fun first second =>
      distance targetID first.id ≤ distance targetID second.id) : candidates = sorted := by
  refine List.Perm.eq_of_pairwise ?_ candidatesSorted increasing
    (candidatesPerm.trans perm.symm)
  intro first second firstMember secondMember less more
  exact formed.eq_of_distance (candidatesPerm.mem_iff.mp firstMember)
    (perm.mem_iff.mp secondMember) (Nat.le_antisymm less more)

/-- The first of the sorted contacts are the nearest. -/
theorem Table.Formed.nearest_take {candidates : List Contact}
    (perm : candidates.Perm table.knownPeers)
    (sorted : candidates.Pairwise fun first second =>
      distance targetID first.id ≤ distance targetID second.id) (count : Nat) :
    Nearest table targetID count (candidates.take count) := by
  have distinct : candidates.Nodup := perm.nodup_iff.mpr formed.nodup
  have strict : candidates.Pairwise fun first second =>
      distance targetID first.id < distance targetID second.id := by
    refine List.Pairwise.imp_of_mem ?_ (sorted.and distinct)
    rintro first second firstMember secondMember ⟨less, different⟩
    refine lt_of_le_of_ne less fun same => different ?_
    exact formed.eq_of_distance (perm.mem_iff.mp firstMember) (perm.mem_iff.mp secondMember) same
  refine ⟨distinct.sublist (List.take_sublist _ _), ?_, ?_, strict.sublist (List.take_sublist _ _),
    ?_⟩
  · rw [List.length_take, perm.length_eq, table.length_knownPeers]
  · exact fun contact member => mem_knownPeers.mp (perm.mem_iff.mp (List.mem_of_mem_take member))
  · intro contact member left known leftOut
    have later : left ∈ candidates.drop count := by
      rw [Table.Has, ← mem_knownPeers, ← perm.mem_iff, ← List.take_append_drop count candidates,
        List.mem_append] at known
      exact known.resolve_left leftOut
    exact strict.rel_of_mem_take_of_mem_drop member later

/-- What `closest` returns: the first contacts of the table sorted by distance. -/
theorem Table.Formed.closest_eq (targetForm : IsNodeID targetID) (count : Nat) :
    ∃ candidates : List Contact, candidates.Perm table.knownPeers ∧
      (candidates.Pairwise fun first second =>
        distance targetID first.id ≤ distance targetID second.id) ∧
      table.closest targetID count = .ok (candidates.take count) := by
  have returned : Returns (sortSlice (closer targetID) table.knownPeers) := by
    refine (returns_sortSlice (returns_closer targetID) table.knownPeers).mpr (.inr ?_)
    intro contact member
    rw [targetForm.decoded_length, (formed.form contact member).decoded_length]
  obtain ⟨candidates, sorted⟩ := returned
  refine ⟨candidates, sortSlice_perm sorted, ?_, ?_⟩
  · exact sortSlice_sorted (fun first second => closer_eq targetForm) formed.form sorted
  · rw [Table.closest, sorted]
    rfl

/-- A list of just the contacts in the buckets, each once, is the known peers in some order. -/
theorem Table.Formed.perm_knownPeers {contacts : List Contact} (distinct : contacts.Nodup)
    (same : ∀ contact, contact ∈ contacts ↔ table.Has contact) :
    contacts.Perm table.knownPeers :=
  (List.perm_ext_iff_of_nodup distinct formed.nodup).mpr fun contact =>
    (same contact).trans mem_knownPeers.symm

/-- Tables with the same contacts return the same nearest ones. -/
theorem Table.Formed.closest_congr {other : Table} (otherFormed : other.Formed)
    (same : ∀ contact, other.Has contact ↔ table.Has contact)
    (targetForm : IsNodeID targetID) (count : Nat) :
    other.closest targetID count = table.closest targetID count := by
  obtain ⟨candidates, perm, sorted, returned⟩ := formed.closest_eq targetForm count
  obtain ⟨others, otherPerm, otherSorted, otherReturned⟩ := otherFormed.closest_eq targetForm count
  have contacts : other.knownPeers.Perm table.knownPeers :=
    formed.perm_knownPeers otherFormed.nodup fun contact => mem_knownPeers.trans (same contact)
  rw [otherReturned, returned,
    formed.sorted_unique perm sorted (otherPerm.trans contacts) otherSorted]

end Formed

/-- In every table that inserts lead to, `closest` returns the nearest contacts. They are the first
ones however the contacts are sorted by distance, and they are the same for every sequence of
inserts that leads to the same contacts. -/
theorem closest_nearest (publicKey : Text) (contacts : List Contact)
    (form : ∀ contact ∈ contacts, IsNodeID contact.id) (targetID : Text)
    (targetForm : IsNodeID targetID) (count : Nat) :
    ∃ table nearest, (Table.new publicKey).insertAll contacts = .ok table ∧
      table.closest targetID count = .ok nearest ∧ Nearest table targetID count nearest ∧
      (∀ sorted : List Contact, sorted.Nodup →
        (∀ contact, contact ∈ sorted ↔ table.Has contact) →
        (sorted.Pairwise fun first second =>
          distance targetID first.id ≤ distance targetID second.id) →
        nearest = sorted.take count) ∧
      ∀ (others : List Contact) (other : Table), (∀ contact ∈ others, IsNodeID contact.id) →
        (Table.new publicKey).insertAll others = .ok other →
        (∀ contact, other.Has contact ↔ table.Has contact) →
        other.closest targetID count = .ok nearest := by
  have inserted := (Table.new publicKey).insertAll_eq contacts fun contact member =>
    (form contact member).longID
  have formed := Table.formed_of_insertAll form inserted
  obtain ⟨candidates, perm, sorted, returned⟩ := formed.closest_eq targetForm count
  refine ⟨_, _, inserted, returned, formed.nearest_take perm sorted count, ?_, ?_⟩
  · intro others distinct same othersSorted
    rw [formed.sorted_unique perm sorted (formed.perm_knownPeers distinct same) othersSorted]
  · intro others other othersForm othersInserted same
    have otherFormed := Table.formed_of_insertAll othersForm othersInserted
    rw [formed.closest_congr otherFormed same targetForm count, returned]

/-- Three peers that a hub knows. -/
def threePeers : List Contact :=
  [.known (text "lisa") (text "192.168.30.2:62784"),
    .known (text "toby") (text "192.168.30.3:62784"),
    .known (text "mona") (text "192.168.30.4:62784")]

theorem closest_nearest_three :
    ∃ table nearest, (Table.new (text "hub")).insertAll threePeers = .ok table ∧
      table.closest (nodeID (text "lisa")) 2 = .ok nearest ∧
      Nearest table (nodeID (text "lisa")) 2 nearest := by
  have form : ∀ contact ∈ threePeers, IsNodeID contact.id := by
    intro contact member
    simp only [threePeers, List.mem_cons, List.mem_nil_iff, or_false] at member
    rcases member with rfl | rfl | rfl
    all_goals exact isNodeID_nodeID _
  obtain ⟨table, nearest, inserted, returned, nearestFirst, _⟩ :=
    closest_nearest (text "hub") threePeers form (nodeID (text "lisa")) (isNodeID_nodeID _) 2
  exact ⟨table, nearest, inserted, returned, nearestFirst⟩

end WgMesh.Dht
