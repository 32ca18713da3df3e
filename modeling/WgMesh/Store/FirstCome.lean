/-
This file builds a bounded first-come store: a list of keyed entries in which a
known key is merged in place, a new key is appended while there is room, and a
new key is dropped once there is none.

Nothing ever leaves such a store and nothing in it moves, so what it holds is
decided by the order of first arrivals alone: after any sequence of arrivals the
keys are the first `capacity` distinct keys of the sequence, in order. Everything
here is over arbitrary entries, keys and merge functions.
-/

import Mathlib

namespace FirstCome

variable {Entry Key : Type} [DecidableEq Key]

/-- Merge an arrival into the first entry with its key, if there is one. -/
def mergeFirst (key : Entry → Key) (merge : Entry → Entry → Entry) (arrival : Entry) :
    List Entry → Option (List Entry)
  | [] => none
  | entry :: rest =>
    if key entry = key arrival then some (merge entry arrival :: rest)
    else (mergeFirst key merge arrival rest).map (entry :: ·)

/-- One arrival at the store. -/
def put (key : Entry → Key) (merge : Entry → Entry → Entry) (capacity : Nat)
    (entries : List Entry) (arrival : Entry) : List Entry :=
  match mergeFirst key merge arrival entries with
  | some merged => merged
  | none => if entries.length < capacity then entries ++ [arrival] else entries

/-- What one arrival does to the list of keys. -/
def accept (capacity : Nat) (keys : List Key) (arrival : Key) : List Key :=
  if arrival ∈ keys then keys
  else if keys.length < capacity then keys ++ [arrival] else keys

/-! ### The keys of the store -/

section Keys

variable {key : Entry → Key} {merge : Entry → Entry → Entry}

theorem mergeFirst_eq_none {arrival : Entry} {entries : List Entry} :
    mergeFirst key merge arrival entries = none ↔ key arrival ∉ entries.map key := by
  induction entries with
  | nil => simp [mergeFirst]
  | cons entry rest inductionHypothesis =>
    simp only [mergeFirst, List.map_cons, List.mem_cons, not_or]
    by_cases same : key entry = key arrival
    · simp [same]
    · rw [if_neg same, Option.map_eq_none_iff, inductionHypothesis]
      simp [Ne.symm same]

variable (keyMerge : ∀ entry arrival, key (merge entry arrival) = key entry)

include keyMerge

theorem map_key_mergeFirst {arrival : Entry} {entries merged : List Entry}
    (found : mergeFirst key merge arrival entries = some merged) :
    merged.map key = entries.map key := by
  induction entries generalizing merged with
  | nil => cases found
  | cons entry rest inductionHypothesis =>
    simp only [mergeFirst] at found
    split at found
    · cases found
      rw [List.map_cons, List.map_cons, keyMerge]
    · obtain ⟨mergedRest, foundRest, rfl⟩ := Option.map_eq_some_iff.mp found
      rw [List.map_cons, List.map_cons, inductionHypothesis foundRest]

theorem map_key_put (capacity : Nat) (entries : List Entry) (arrival : Entry) :
    (put key merge capacity entries arrival).map key =
      accept capacity (entries.map key) (key arrival) := by
  unfold put accept
  cases found : mergeFirst key merge arrival entries with
  | none =>
    rw [if_neg (mergeFirst_eq_none.mp found), List.length_map]
    by_cases room : entries.length < capacity
    · simp [room]
    · simp [room]
  | some merged =>
    have known : key arrival ∈ entries.map key := by
      by_contra unknown
      rw [mergeFirst_eq_none.mpr unknown] at found
      cases found
    rw [if_pos known]
    exact map_key_mergeFirst keyMerge found

theorem map_key_foldl_put (capacity : Nat) (entries arrivals : List Entry) :
    (arrivals.foldl (put key merge capacity) entries).map key =
      (arrivals.map key).foldl (accept capacity) (entries.map key) := by
  induction arrivals generalizing entries with
  | nil => rfl
  | cons arrival rest inductionHypothesis =>
    rw [List.foldl_cons, inductionHypothesis, map_key_put keyMerge, List.map_cons,
      List.foldl_cons]

end Keys

/-! ### The entries of the store -/

section Entries

variable {key : Entry → Key} {merge : Entry → Entry → Entry}

/-- The entries after a merge: those with other keys, and the merged one. -/
theorem mem_mergeFirst {arrival entry : Entry} {entries merged : List Entry}
    (distinct : (entries.map key).Nodup)
    (found : mergeFirst key merge arrival entries = some merged) :
    entry ∈ merged ↔ (entry ∈ entries ∧ key entry ≠ key arrival) ∨
      ∃ old ∈ entries, key old = key arrival ∧ entry = merge old arrival := by
  induction entries generalizing merged with
  | nil => cases found
  | cons first rest inductionHypothesis =>
    rw [List.map_cons, List.nodup_cons] at distinct
    simp only [mergeFirst] at found
    split at found
    · rename_i same
      have others : ∀ other ∈ rest, key other ≠ key arrival := by
        intro other member equal
        exact distinct.1 (same ▸ equal ▸ List.mem_map_of_mem member)
      cases found
      constructor
      · intro member
        rcases List.mem_cons.mp member with rfl | inRest
        · exact Or.inr ⟨first, List.mem_cons_self, same, rfl⟩
        · exact Or.inl ⟨List.mem_cons_of_mem _ inRest, others entry inRest⟩
      · rintro (⟨member, different⟩ | ⟨old, member, equal, rfl⟩)
        · rcases List.mem_cons.mp member with rfl | inRest
          · exact absurd same different
          · exact List.mem_cons_of_mem _ inRest
        · rcases List.mem_cons.mp member with rfl | inRest
          · exact List.mem_cons_self
          · exact absurd equal (others old inRest)
    · rename_i different
      obtain ⟨mergedRest, foundRest, rfl⟩ := Option.map_eq_some_iff.mp found
      rw [List.mem_cons, inductionHypothesis distinct.2 foundRest]
      constructor
      · rintro (rfl | ⟨inRest, other⟩ | ⟨old, inRest, equal, rfl⟩)
        · exact Or.inl ⟨List.mem_cons_self, different⟩
        · exact Or.inl ⟨List.mem_cons_of_mem _ inRest, other⟩
        · exact Or.inr ⟨old, List.mem_cons_of_mem _ inRest, equal, rfl⟩
      · rintro (⟨member, other⟩ | ⟨old, member, equal, rfl⟩)
        · exact (List.mem_cons.mp member).imp_right fun inRest => Or.inl ⟨inRest, other⟩
        · rcases List.mem_cons.mp member with rfl | inRest
          · exact absurd equal different
          · exact Or.inr (Or.inr ⟨old, inRest, equal, rfl⟩)

/-- The entries after an arrival: those with other keys, the merged one, or the new one. -/
theorem mem_put {capacity : Nat} {entries : List Entry} {arrival entry : Entry}
    (distinct : (entries.map key).Nodup) :
    entry ∈ put key merge capacity entries arrival ↔
      (entry ∈ entries ∧ key entry ≠ key arrival) ∨
      (∃ old ∈ entries, key old = key arrival ∧ entry = merge old arrival) ∨
      ((key arrival ∉ entries.map key ∧ entries.length < capacity) ∧ entry = arrival) := by
  unfold put
  cases found : mergeFirst key merge arrival entries with
  | some merged =>
    have known : ¬ key arrival ∉ entries.map key := by
      intro unknown
      rw [mergeFirst_eq_none.mpr unknown] at found
      cases found
    rw [mem_mergeFirst distinct found]
    simp only [known, false_and, or_false]
  | none =>
    have unknown := mergeFirst_eq_none.mp found
    have other : ∀ old ∈ entries, key old ≠ key arrival := fun old member same =>
      unknown (same ▸ List.mem_map_of_mem member)
    have nothing : ¬ ∃ old ∈ entries, key old = key arrival ∧ entry = merge old arrival := by
      rintro ⟨old, member, same, _⟩
      exact other old member same
    simp only [unknown, not_false_iff, true_and, nothing, false_or]
    rw [and_iff_left_of_imp (other entry)]
    split
    · rename_i room
      rw [List.mem_append, List.mem_singleton, and_iff_right room]
    · rename_i full
      rw [or_iff_left fun new => full new.1]

/-- A merge leaves the entries with other keys where they are. -/
theorem getElem?_mergeFirst {arrival entry : Entry} {entries merged : List Entry}
    (keyMerge : ∀ entry arrival, key (merge entry arrival) = key entry)
    (found : mergeFirst key merge arrival entries = some merged)
    (other : key entry ≠ key arrival) (position : Nat) :
    merged[position]? = some entry ↔ entries[position]? = some entry := by
  induction entries generalizing merged position with
  | nil => cases found
  | cons first rest inductionHypothesis =>
    simp only [mergeFirst] at found
    split at found
    · rename_i same
      cases found
      cases position with
      | zero =>
        refine iff_of_false (fun merged => other ?_) fun first => other ?_
        · rw [← Option.some.inj merged, keyMerge, same]
        · rw [← Option.some.inj first, same]
      | succ position => rfl
    · obtain ⟨mergedRest, foundRest, rfl⟩ := Option.map_eq_some_iff.mp found
      cases position with
      | zero => rfl
      | succ position => exact inductionHypothesis foundRest position

/-- An arrival leaves the entries with other keys where they are. -/
theorem getElem?_put {capacity : Nat} {entries : List Entry} {arrival entry : Entry}
    (keyMerge : ∀ entry arrival, key (merge entry arrival) = key entry)
    (other : key entry ≠ key arrival) (position : Nat) :
    (put key merge capacity entries arrival)[position]? = some entry ↔
      entries[position]? = some entry := by
  unfold put
  cases found : mergeFirst key merge arrival entries with
  | some merged => exact getElem?_mergeFirst keyMerge found other position
  | none =>
    dsimp only
    split
    · rw [List.getElem?_append]
      split
      · rfl
      · rename_i beyond
        refine iff_of_false (fun new => other ?_) fun old => beyond ?_
        · rw [List.mem_singleton.mp (List.mem_of_getElem? new)]
        · exact (List.getElem?_eq_some_iff.mp old).1
    · rfl

end Entries

/-! ### First arrivals -/

theorem nodup_accept {capacity : Nat} {keys : List Key} (arrival : Key) (distinct : keys.Nodup) :
    (accept capacity keys arrival).Nodup := by
  unfold accept
  split
  · exact distinct
  · rename_i fresh
    split
    · exact List.nodup_append.mpr ⟨distinct, List.nodup_singleton arrival, by
        intro known member other same
        rw [List.mem_singleton] at same
        rintro rfl
        exact fresh (same ▸ member)⟩
    · exact distinct

theorem nodup_foldl_accept {capacity : Nat} (keys arrivals : List Key) (distinct : keys.Nodup) :
    (arrivals.foldl (accept capacity) keys).Nodup := by
  induction arrivals generalizing keys with
  | nil => exact distinct
  | cons arrival rest inductionHypothesis =>
    exact inductionHypothesis _ (nodup_accept arrival distinct)

/-- The keys held only grow at the end. -/
theorem prefix_accept (capacity : Nat) (keys : List Key) (arrival : Key) :
    keys <+: accept capacity keys arrival := by
  unfold accept
  split
  · exact List.prefix_rfl
  · split
    · exact List.prefix_append keys [arrival]
    · exact List.prefix_rfl

theorem prefix_foldl_accept (capacity : Nat) (keys arrivals : List Key) :
    keys <+: arrivals.foldl (accept capacity) keys := by
  induction arrivals generalizing keys with
  | nil => exact List.prefix_rfl
  | cons arrival rest inductionHypothesis =>
    exact (prefix_accept capacity keys arrival).trans (inductionHypothesis _)

section Distinct

variable [BEq Key] [LawfulBEq Key]

omit [DecidableEq Key] in
theorem eraseDups_concat (keys : List Key) (arrival : Key) :
    (keys ++ [arrival]).eraseDups =
      if arrival ∈ keys then keys.eraseDups else keys.eraseDups ++ [arrival] := by
  rw [List.eraseDups_append]
  by_cases known : arrival ∈ keys
  · simp [known, List.removeAll]
  · simp [known, List.removeAll, List.eraseDups_cons]

/-- One arrival at the first `capacity` distinct keys. -/
theorem accept_take_eraseDups (capacity : Nat) (keys : List Key) (arrival : Key) :
    accept capacity (keys.eraseDups.take capacity) arrival =
      (keys ++ [arrival]).eraseDups.take capacity := by
  rw [eraseDups_concat]
  unfold accept
  by_cases held : arrival ∈ keys.eraseDups.take capacity
  · have known : arrival ∈ keys := List.mem_eraseDups.mp (List.mem_of_mem_take held)
    rw [if_pos held, if_pos known]
  · rw [if_neg held]
    by_cases room : (keys.eraseDups.take capacity).length < capacity
    · have whole : keys.eraseDups.length < capacity := by
        rw [List.length_take] at room
        omega
      have takeWhole : keys.eraseDups.take capacity = keys.eraseDups :=
        List.take_of_length_le (by omega)
      have fresh : arrival ∉ keys := fun known =>
        held (by rw [takeWhole]; exact List.mem_eraseDups.mpr known)
      rw [if_pos room, if_neg fresh, takeWhole,
        List.take_of_length_le (by rw [List.length_append, List.length_singleton]; omega)]
    · have full : capacity ≤ keys.eraseDups.length := by
        rw [List.length_take] at room
        omega
      rw [if_neg room]
      split
      · rfl
      · rw [List.take_append_of_le_length full]

/-- After any sequence of arrivals at an empty store, the keys are the first `capacity`
distinct keys of the sequence, in order of first arrival. -/
theorem foldl_accept_eq (capacity : Nat) (arrivals : List Key) :
    arrivals.foldl (accept capacity) [] = arrivals.eraseDups.take capacity := by
  induction arrivals using List.reverseRecOn with
  | nil => simp
  | append_singleton earlier last inductionHypothesis =>
    rw [List.foldl_append, inductionHypothesis, List.foldl_cons, List.foldl_nil,
      accept_take_eraseDups]

theorem nodup_eraseDups (keys : List Key) : keys.eraseDups.Nodup := by
  have whole := foldl_accept_eq keys.eraseDups.length keys
  rw [List.take_length] at whole
  rw [← whole]
  exact nodup_foldl_accept [] keys List.nodup_nil

omit [DecidableEq Key] in
theorem eraseDups_of_nodup {keys : List Key} (distinct : keys.Nodup) : keys.eraseDups = keys := by
  induction keys with
  | nil => rfl
  | cons key rest inductionHypothesis =>
    obtain ⟨fresh, restDistinct⟩ := List.nodup_cons.mp distinct
    have others : rest.filter (fun other => !other == key) = rest := by
      refine List.filter_eq_self.mpr fun other member => ?_
      rw [Bool.not_eq_true', beq_eq_false_iff_ne]
      rintro rfl
      exact fresh member
    rw [List.eraseDups_cons, others, inductionHypothesis restDistinct]

end Distinct

/-! ### The history of an entry -/

section History

variable {key : Entry → Key} {merge : Entry → Entry → Entry}
  (keyMerge : ∀ entry arrival, key (merge entry arrival) = key entry)

include keyMerge

theorem nodup_foldl_put (capacity : Nat) (arrivals : List Entry) :
    ((arrivals.foldl (put key merge capacity) []).map key).Nodup := by
  rw [map_key_foldl_put keyMerge]
  exact nodup_foldl_accept _ _ List.nodup_nil

/-- A key that finds room now has never arrived: it would have found room then. -/
theorem fresh_of_room {capacity : Nat} {arrivals : List Entry} {arrival : Key}
    (absent : arrival ∉ (arrivals.foldl (put key merge capacity) []).map key)
    (room : (arrivals.foldl (put key merge capacity) []).length < capacity) :
    arrival ∉ arrivals.map key := by
  rw [← List.length_map] at room
  rw [map_key_foldl_put keyMerge, List.map_nil, foldl_accept_eq] at absent room
  rw [List.length_take] at room
  rw [List.take_of_length_le (by omega), List.mem_eraseDups] at absent
  exact absent

/-- An entry is what the arrivals with its key were merged to, from the first one on. -/
theorem history_of_mem {capacity : Nat} {arrivals : List Entry} {entry : Entry}
    (member : entry ∈ arrivals.foldl (put key merge capacity) []) :
    ∃ first later, arrivals.filter (fun arrival => decide (key arrival = key entry)) =
      first :: later ∧ entry = later.foldl merge first := by
  induction arrivals using List.reverseRecOn generalizing entry with
  | nil => cases member
  | append_singleton earlier last inductionHypothesis =>
    rw [List.foldl_append, List.foldl_cons, List.foldl_nil] at member
    rw [List.filter_append]
    rcases (mem_put (nodup_foldl_put keyMerge capacity earlier)).mp member with
      ⟨old, other⟩ | ⟨old, oldMember, same, rfl⟩ | ⟨⟨absent, room⟩, rfl⟩
    · obtain ⟨first, later, history, merged⟩ := inductionHypothesis old
      refine ⟨first, later, ?_, merged⟩
      rw [history, List.filter_singleton, decide_eq_false (Ne.symm other)]
      exact List.append_nil _
    · obtain ⟨first, later, history, merged⟩ := inductionHypothesis oldMember
      refine ⟨first, later ++ [last], ?_, ?_⟩
      · rw [keyMerge, history, List.filter_singleton, decide_eq_true same.symm]
        rfl
      · rw [List.foldl_append, ← merged]
        rfl
    · have fresh := fresh_of_room keyMerge absent room
      refine ⟨entry, [], ?_, rfl⟩
      rw [List.filter_singleton, decide_eq_true rfl, List.filter_eq_nil_iff.mpr]
      · rfl
      · intro arrival arrived same
        exact fresh (of_decide_eq_true same ▸ List.mem_map_of_mem arrived)

end History

end FirstCome
