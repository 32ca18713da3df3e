/-
This file describes what one `insert` does to the contacts of a table.

A table is well placed when each contact lies in the bucket of its own prefix
length and no bucket holds an identity twice. Inserts keep it so, and in a well
placed table an insert does one of three things: it rewrites the one contact
with the same identity, it adds the contact while its bucket has room, or it does
nothing. An identity that found no room never finds any later.
-/

import WgMesh.Dht.Buckets

namespace WgMesh.Dht

open Go

/-! ### The identities in a table -/

/-- The identities of all contacts, bucket by bucket. -/
def Table.ids (table : Table) : List Text := table.knownPeers.map Contact.id

/-- A new identity finds room in its bucket. -/
def Table.Admits (table : Table) (id : Text) : Prop :=
  ∃ inRange : prefixLength table.selfID id < kBuckets,
    id ∉ (table.buckets ⟨_, inRange⟩).map Contact.id ∧
      (table.buckets ⟨_, inRange⟩).length < kBucketSize

instance (table : Table) (id : Text) : Decidable (table.Admits id) :=
  inferInstanceAs (Decidable (∃ _ : _ < _, _))

/-- The identities in the table once a contact with an identity has been inserted. -/
def Table.idsWith (table : Table) (id : Text) : List Text :=
  if table.Admits id then id :: table.ids else table.ids

/-- Appending to one list of a family of lists adds one element to their concatenation. -/
theorem flatMap_update_perm {Index Value : Type} [DecidableEq Index] (indices : List Index)
    (distinct : indices.Nodup) (family : Index → List Value) (index : Index)
    (member : index ∈ indices) (value : Value) :
    (indices.flatMap (Function.update family index (family index ++ [value]))).Perm
      (value :: indices.flatMap family) := by
  induction indices with
  | nil => cases member
  | cons head rest inductionHypothesis =>
    rw [List.flatMap_cons, List.flatMap_cons]
    by_cases same : index = head
    · subst same
      have untouched : rest.flatMap (Function.update family index (family index ++ [value])) =
          rest.flatMap family := by
        refine List.flatMap_congr fun other inRest => ?_
        rw [Function.update_of_ne]
        rintro rfl
        exact (List.nodup_cons.mp distinct).1 inRest
      rw [untouched, Function.update_self, List.append_assoc, List.singleton_append]
      exact List.perm_middle
    · have inRest : index ∈ rest := (List.mem_cons.mp member).resolve_left same
      rw [Function.update_of_ne (Ne.symm same)]
      refine ((inductionHypothesis (List.nodup_cons.mp distinct).2 inRest).append_left _).trans ?_
      exact List.perm_middle

theorem Table.ids_eq_flatMap (table : Table) :
    table.ids = (List.finRange kBuckets).flatMap fun bucket =>
      (table.buckets bucket).map Contact.id := by
  rw [Table.ids, Table.knownPeers, List.map_flatMap]

theorem Table.place_bucket_ids (table : Table) (contact : Contact) (bucket : Fin kBuckets) :
    ((table.place contact).buckets bucket).map Contact.id =
      if prefixLength table.selfID contact.id = bucket then
        FirstCome.accept kBucketSize ((table.buckets bucket).map Contact.id) contact.id
      else (table.buckets bucket).map Contact.id := by
  rw [Table.place_buckets]
  split
  · exact FirstCome.map_key_put Contact.refresh_id _ _ _
  · rfl

/-- `insert` adds the identity when it is admitted and no identity otherwise. -/
theorem Table.place_ids (table : Table) (contact : Contact) :
    (table.place contact).ids.Perm (table.idsWith contact.id) := by
  rw [Table.ids_eq_flatMap, Table.idsWith]
  by_cases admitted : table.Admits contact.id
  · obtain ⟨inRange, fresh, room⟩ := admitted
    rw [if_pos ⟨inRange, fresh, room⟩]
    have family : (fun bucket => ((table.place contact).buckets bucket).map Contact.id) =
        Function.update (fun bucket => (table.buckets bucket).map Contact.id) ⟨_, inRange⟩
          ((table.buckets ⟨_, inRange⟩).map Contact.id ++ [contact.id]) := by
      funext bucket
      rw [Table.place_bucket_ids]
      by_cases own : prefixLength table.selfID contact.id = bucket
      · have equal : bucket = ⟨_, inRange⟩ := Fin.ext own.symm
        rw [if_pos own, equal, Function.update_self, FirstCome.accept, if_neg fresh,
          if_pos (by rw [List.length_map]; exact room)]
      · rw [if_neg own, Function.update_of_ne fun equal => own (congrArg Fin.val equal).symm]
    rw [family, Table.ids_eq_flatMap]
    exact flatMap_update_perm _ (List.nodup_finRange kBuckets)
      (fun bucket => (table.buckets bucket).map Contact.id) _ (List.mem_finRange _) _
  · rw [if_neg admitted, Table.ids_eq_flatMap]
    refine List.Perm.of_eq (List.flatMap_congr fun bucket _ => ?_)
    rw [Table.place_bucket_ids]
    split
    · rename_i own
      rw [FirstCome.accept]
      by_cases known : contact.id ∈ (table.buckets bucket).map Contact.id
      · rw [if_pos known]
      · rw [if_neg known, if_neg]
        intro room
        have inRange : prefixLength table.selfID contact.id < kBuckets := own ▸ bucket.isLt
        have equal : bucket = ⟨_, inRange⟩ := Fin.ext own.symm
        rw [List.length_map] at room
        exact admitted ⟨inRange, equal ▸ known, equal ▸ room⟩
    · rfl

/-! ### Well placed tables -/

/-- Each contact lies in its own bucket, and no bucket holds an identity twice. -/
structure Table.WellPlaced (table : Table) : Prop where
  own : ∀ bucket, ∀ contact ∈ table.buckets bucket,
    prefixLength table.selfID contact.id = bucket
  distinct : ∀ bucket, ((table.buckets bucket).map Contact.id).Nodup

theorem Table.wellPlaced_new (publicKey : Text) : (Table.new publicKey).WellPlaced where
  own := fun _ _ member => absurd member List.not_mem_nil
  distinct := fun _ => List.nodup_nil

theorem Table.WellPlaced.place {table : Table} (placed : table.WellPlaced) (contact : Contact) :
    (table.place contact).WellPlaced where
  own := by
    intro bucket stored member
    rw [Table.place_selfID]
    rw [Table.place_buckets] at member
    split at member
    · rename_i own
      rcases (FirstCome.mem_put (placed.distinct bucket)).mp member with
        ⟨old, _⟩ | ⟨old, oldMember, _, rfl⟩ | ⟨_, rfl⟩
      · exact placed.own bucket stored old
      · exact placed.own bucket old oldMember
      · exact own
    · exact placed.own bucket stored member
  distinct := by
    intro bucket
    rw [Table.place_bucket_ids]
    split
    · exact FirstCome.nodup_accept _ (placed.distinct bucket)
    · exact placed.distinct bucket

theorem Table.WellPlaced.foldl_place {table : Table} (placed : table.WellPlaced)
    (contacts : List Contact) : (contacts.foldl Table.place table).WellPlaced := by
  induction contacts generalizing table with
  | nil => exact placed
  | cons contact rest inductionHypothesis => exact inductionHypothesis (placed.place contact)

/-- The contacts after an insert: those with other identities, the rewritten one, or the new
one. -/
theorem Table.WellPlaced.mem_place {table : Table} (placed : table.WellPlaced)
    {latest contact : Contact} :
    contact ∈ (table.place latest).knownPeers ↔
      (contact ∈ table.knownPeers ∧ contact.id ≠ latest.id) ∨
      (∃ old ∈ table.knownPeers, old.id = latest.id ∧ contact = old.refresh latest) ∨
      (table.Admits latest.id ∧ contact = latest) := by
  simp only [mem_knownPeers]
  constructor
  · rintro ⟨bucket, member⟩
    rw [Table.place_buckets] at member
    split at member
    · rename_i own
      rcases (FirstCome.mem_put (placed.distinct bucket)).mp member with
        ⟨old, other⟩ | ⟨old, oldMember, same, rfl⟩ | ⟨⟨fresh, room⟩, rfl⟩
      · exact Or.inl ⟨⟨bucket, old⟩, other⟩
      · exact Or.inr (Or.inl ⟨old, ⟨bucket, oldMember⟩, same, rfl⟩)
      · have inRange : prefixLength table.selfID contact.id < kBuckets := own ▸ bucket.isLt
        have equal : bucket = ⟨_, inRange⟩ := Fin.ext own.symm
        exact Or.inr (Or.inr ⟨⟨inRange, equal ▸ fresh, equal ▸ room⟩, rfl⟩)
    · rename_i other
      refine Or.inl ⟨⟨bucket, member⟩, fun same => other ?_⟩
      rw [← same]
      exact placed.own bucket contact member
  · rintro (⟨⟨bucket, member⟩, other⟩ | ⟨old, ⟨bucket, member⟩, same, rfl⟩ |
      ⟨⟨inRange, fresh, room⟩, rfl⟩)
    · refine ⟨bucket, ?_⟩
      rw [Table.place_buckets]
      split
      · exact (FirstCome.mem_put (placed.distinct bucket)).mpr (Or.inl ⟨member, other⟩)
      · exact member
    · refine ⟨bucket, ?_⟩
      rw [Table.place_buckets, if_pos (by rw [← same]; exact placed.own bucket old member)]
      exact (FirstCome.mem_put (placed.distinct bucket)).mpr
        (Or.inr (Or.inl ⟨old, member, same, rfl⟩))
    · refine ⟨⟨_, inRange⟩, ?_⟩
      rw [Table.place_buckets, if_pos rfl]
      exact (FirstCome.mem_put (placed.distinct _)).mpr (Or.inr (Or.inr ⟨⟨fresh, room⟩, rfl⟩))

/-! ### Identities without room -/

/-- An insert of a contact with this identity is kept. -/
def Table.Stores (table : Table) (id : Text) : Prop := id ∈ table.ids ∨ table.Admits id

instance (table : Table) (id : Text) : Decidable (table.Stores id) :=
  inferInstanceAs (Decidable (_ ∨ _))

theorem Table.mem_ids_place {table : Table} {contact : Contact} {id : Text} :
    id ∈ (table.place contact).ids ↔ id ∈ table.ids ∨ (id = contact.id ∧ table.Admits id) := by
  rw [(table.place_ids contact).mem_iff, Table.idsWith]
  split
  · rename_i admitted
    rw [List.mem_cons, or_comm]
    refine or_congr_right ⟨fun same => ⟨same, same ▸ admitted⟩, And.left⟩
  · rename_i refused
    rw [or_iff_left]
    rintro ⟨rfl, admitted⟩
    exact refused admitted

/-- A bucket that has no room stays so. -/
theorem Table.admits_of_place {table : Table} {contact : Contact} {id : Text}
    (admitted : (table.place contact).Admits id) : table.Admits id := by
  obtain ⟨inRange, fresh, room⟩ := admitted
  simp only [Table.place_selfID] at inRange fresh room
  have grown : (table.buckets ⟨_, inRange⟩).map Contact.id <+:
      ((table.place contact).buckets ⟨_, inRange⟩).map Contact.id := by
    rw [Table.place_bucket_ids]
    split
    · exact FirstCome.prefix_accept _ _ _
    · exact List.prefix_rfl
  refine ⟨inRange, fun held => fresh (grown.subset held), ?_⟩
  have shorter := grown.length_le
  rw [List.length_map, List.length_map] at shorter
  omega

/-- An identity that is not kept once is never kept. -/
theorem Table.stores_of_place {table : Table} {contact : Contact} {id : Text}
    (stores : (table.place contact).Stores id) : table.Stores id := by
  rcases stores with held | admitted
  · exact (Table.mem_ids_place.mp held).imp_right And.right
  · exact Or.inr (Table.admits_of_place admitted)

/-! ### Identities with room -/

/-- Different bytes of one length have a bit that tells them apart. -/
theorem leadingZeros_zipWith_lt {first second : List UInt8}
    (sameLength : first.length = second.length) (different : first ≠ second) :
    leadingZeros (List.zipWith (· ^^^ ·) first second) < 8 * first.length := by
  induction first generalizing second with
  | nil => exact absurd (List.length_eq_zero_iff.mp sameLength.symm).symm different
  | cons byte rest inductionHypothesis =>
    cases second with
    | nil => cases sameLength
    | cons other others =>
      rw [List.zipWith_cons_cons, leadingZeros_cons, List.length_cons]
      split
      · rename_i zero
        have same : byte = other := UInt8.xor_eq_zero_iff.mp zero
        have below := @inductionHypothesis others (Nat.succ.inj sameLength)
          fun equal => different (by rw [same, equal])
        omega
      · rename_i nonzero
        have below := leadingZeros8_lt _ nonzero
        omega

/-- Every other identity has a bucket. -/
theorem prefixLength_lt {selfID id : Text} (selfForm : IsNodeID selfID) (form : IsNodeID id)
    (different : selfID ≠ id) : prefixLength selfID id < kBuckets := by
  have lengths : (hexDecode selfID).length = (hexDecode id).length := by
    rw [selfForm.decoded_length, form.decoded_length]
  have decoded : hexDecode selfID ≠ hexDecode id := by
    intro same
    refine different ?_
    rw [← hexEncode_hexDecode selfID selfForm.2 (by rw [selfForm.1]),
      ← hexEncode_hexDecode id form.2 (by rw [form.1]), same]
  have below := leadingZeros_zipWith_lt lengths decoded
  rw [selfForm.decoded_length] at below
  exact below

theorem Table.admits_new {publicKey id : Text} (form : IsNodeID id)
    (foreign : nodeID publicKey ≠ id) : (Table.new publicKey).Admits id :=
  ⟨prefixLength_lt (isNodeID_nodeID publicKey) form foreign, List.not_mem_nil, Nat.zero_lt_succ _⟩

end WgMesh.Dht
