/-
This file builds maps whose values are reached through references, as a map of
pointers is. A value is allocated when its key is first written, and written in
place from then on; removing a key drops the reference and leaves the value to
whoever still holds one.

References stay within the heap and no two keys share one, which the type carries.
So writes through a key are seen under that key alone, and the map reads like a
map of values. A reference that was handed out follows its key until the key is
removed, and then keeps the value it has.
-/

import Mathlib.Data.List.AList

namespace Refs

variable {Key Value : Type} [DecidableEq Key]

/-- A heap, and a map of references into it. -/
structure Store (Key Value : Type) [DecidableEq Key] where
  heap : List Value
  refs : AList fun _ : Key => Nat
  inRange : ∀ key ref, refs.lookup key = some ref → ref < heap.length
  separate : ∀ first second ref, refs.lookup first = some ref → refs.lookup second = some ref →
    first = second

def Store.empty : Store Key Value where
  heap := []
  refs := ∅
  inRange := by
    rintro key ref ⟨⟩
  separate := by
    rintro first second ref ⟨⟩

/-- The value behind a reference. -/
def Store.deref (store : Store Key Value) (ref : Nat) : Option Value := store.heap[ref]?

/-- The value under a key. -/
def Store.read (store : Store Key Value) (key : Key) : Option Value :=
  (store.refs.lookup key).bind store.deref

/-- Write a value in place. -/
def Store.modify (store : Store Key Value) (ref : Nat) (update : Value → Value) :
    Store Key Value where
  heap := store.heap.modify ref update
  refs := store.refs
  inRange := by
    intro key other found
    rw [List.length_modify]
    exact store.inRange key other found
  separate := store.separate

/-- Allocate a value and file it under a key. -/
def Store.allocate (store : Store Key Value) (key : Key) (value : Value) : Store Key Value where
  heap := store.heap ++ [value]
  refs := store.refs.insert key store.heap.length
  inRange := by
    intro other ref found
    rw [List.length_append, List.length_singleton]
    by_cases same : other = key
    · subst same
      rw [AList.lookup_insert] at found
      cases found
      exact Nat.lt_succ_self _
    · rw [AList.lookup_insert_ne same] at found
      exact Nat.lt_succ_of_lt (store.inRange other ref found)
  separate := by
    -- The new reference is behind the heap, where no old one points.
    intro first second ref foundFirst foundSecond
    by_cases here : first = key
    · by_cases there : second = key
      · rw [here, there]
      · subst here
        rw [AList.lookup_insert] at foundFirst
        rw [AList.lookup_insert_ne there] at foundSecond
        cases foundFirst
        exact absurd (store.inRange second _ foundSecond) (Nat.lt_irrefl _)
    · rw [AList.lookup_insert_ne here] at foundFirst
      by_cases there : second = key
      · subst there
        rw [AList.lookup_insert] at foundSecond
        cases foundSecond
        exact absurd (store.inRange first _ foundFirst) (Nat.lt_irrefl _)
      · rw [AList.lookup_insert_ne there] at foundSecond
        exact store.separate first second ref foundFirst foundSecond

/-- Write under a key, with a value to start from if there is none. -/
def Store.upsert (store : Store Key Value) (key : Key) (fresh : Value) (update : Value → Value) :
    Store Key Value :=
  match store.refs.lookup key with
  | some ref => store.modify ref update
  | none => store.allocate key (update fresh)

/-- Drop the reference under a key. -/
def Store.remove (store : Store Key Value) (key : Key) : Store Key Value where
  heap := store.heap
  refs := store.refs.erase key
  inRange := by
    intro other ref found
    by_cases same : other = key
    · subst same
      rw [AList.lookup_erase] at found
      cases found
    · rw [AList.lookup_erase_ne same] at found
      exact store.inRange other ref found
  separate := by
    have kept : ∀ other ref, (store.refs.erase key).lookup other = some ref →
        store.refs.lookup other = some ref := by
      intro other ref found
      by_cases same : other = key
      · subst same
        rw [AList.lookup_erase] at found
        cases found
      · rw [AList.lookup_erase_ne same] at found
        exact found
    exact fun first second ref foundFirst foundSecond =>
      store.separate first second ref (kept _ _ foundFirst) (kept _ _ foundSecond)

/-! ### What a write changes -/

variable (store : Store Key Value)

theorem Store.exists_deref {key : Key} {ref : Nat} (found : store.refs.lookup key = some ref) :
    ∃ value, store.deref ref = some value :=
  ⟨_, List.getElem?_eq_getElem (store.inRange key ref found)⟩

theorem Store.deref_modify_self (ref : Nat) (update : Value → Value) :
    (store.modify ref update).deref ref = (store.deref ref).map update := by
  simp [Store.deref, Store.modify]

theorem Store.deref_modify_of_ne {ref other : Nat} (different : other ≠ ref)
    (update : Value → Value) : (store.modify ref update).deref other = store.deref other := by
  simp [Store.deref, Store.modify, Ne.symm different]

theorem Store.deref_allocate_of_lt {ref : Nat} (old : ref < store.heap.length) (key : Key)
    (value : Value) : (store.allocate key value).deref ref = store.deref ref :=
  List.getElem?_append_left old

theorem Store.upsert_of_some {key : Key} {ref : Nat} (found : store.refs.lookup key = some ref)
    (fresh : Value) (update : Value → Value) :
    store.upsert key fresh update = store.modify ref update := by
  rw [Store.upsert, found]

theorem Store.upsert_of_none {key : Key} (missing : store.refs.lookup key = none)
    (fresh : Value) (update : Value → Value) :
    store.upsert key fresh update = store.allocate key (update fresh) := by
  rw [Store.upsert, missing]

/-- A value that is written in place is read under its own key alone. -/
theorem Store.read_modify {key : Key} {ref : Nat} (found : store.refs.lookup key = some ref)
    (update : Value → Value) (other : Key) :
    (store.modify ref update).read other =
      if other = key then (store.read key).map update else store.read other := by
  change (store.refs.lookup other).bind (store.modify ref update).deref = _
  by_cases same : other = key
  · rw [if_pos same, same, Store.read, found]
    exact store.deref_modify_self ref update
  · rw [if_neg same, Store.read]
    cases held : store.refs.lookup other with
    | none => rfl
    | some theirs =>
      have apart : theirs ≠ ref := by
        rintro rfl
        exact same (store.separate other key theirs held found)
      exact store.deref_modify_of_ne apart update

theorem Store.read_allocate (key : Key) (value : Value) (other : Key) :
    (store.allocate key value).read other =
      if other = key then some value else store.read other := by
  by_cases same : other = key
  · subst same
    simp [Store.read, Store.allocate, Store.deref]
  · have kept : (store.allocate key value).refs.lookup other = store.refs.lookup other :=
      AList.lookup_insert_ne same
    rw [if_neg same, Store.read, kept, Store.read]
    cases held : store.refs.lookup other with
    | none => rfl
    | some ref => exact store.deref_allocate_of_lt (store.inRange other ref held) key value

/-- The keys read like a map of values. -/
theorem Store.read_upsert (key : Key) (fresh : Value) (update : Value → Value) (other : Key) :
    (store.upsert key fresh update).read other =
      if other = key then some (update ((store.read key).getD fresh)) else store.read other := by
  cases found : store.refs.lookup key with
  | none =>
    have missing : store.read key = none := by
      rw [Store.read, found]
      rfl
    rw [store.upsert_of_none found, store.read_allocate, missing]
    rfl
  | some ref =>
    obtain ⟨value, stored⟩ := store.exists_deref found
    have current : store.read key = some value := by
      rw [Store.read, found]
      exact stored
    rw [store.upsert_of_some found, store.read_modify found, current]
    rfl

theorem Store.read_remove (key other : Key) :
    (store.remove key).read other = if other = key then none else store.read other := by
  split
  · rename_i same
    subst same
    have gone : (store.remove other).refs.lookup other = none := AList.lookup_erase _ _
    rw [Store.read, gone]
    rfl
  · rename_i different
    have kept : (store.remove key).refs.lookup other = store.refs.lookup other :=
      AList.lookup_erase_ne different
    rw [Store.read, kept]
    rfl

/-! ### Runs of writes -/

/-- A write through a key. -/
inductive Write (Key Value : Type) where
  | upsert (key : Key) (fresh : Value) (update : Value → Value)
  | remove (key : Key)

def Store.write (store : Store Key Value) : Write Key Value → Store Key Value
  | .upsert key fresh update => store.upsert key fresh update
  | .remove key => store.remove key

/-- The store after some writes. -/
def Store.writes (store : Store Key Value) (writes : List (Write Key Value)) : Store Key Value :=
  writes.foldl Store.write store

/-- Whether a write removes a key. -/
def Write.removes (key : Key) : Write Key Value → Bool
  | .remove gone => gone = key
  | .upsert _ _ _ => false

variable {store}

/-- No key holds a reference of the heap. -/
structure Store.Dead (store : Store Key Value) (ref : Nat) : Prop where
  old : ref < store.heap.length
  dropped : ∀ key, store.refs.lookup key ≠ some ref

/-- A key that is not removed keeps its reference. -/
theorem Store.lookup_write {key : Key} {ref : Nat} (found : store.refs.lookup key = some ref)
    {write : Write Key Value} (kept : write.removes key = false) :
    (store.write write).refs.lookup key = some ref := by
  cases write with
  | upsert other fresh update =>
    cases held : store.refs.lookup other with
    | none =>
      have apart : key ≠ other := by
        rintro rfl
        exact absurd (held.symm.trans found) (Option.some_ne_none ref).symm
      rw [Store.write, store.upsert_of_none held]
      exact (AList.lookup_insert_ne apart).trans found
    | some theirs =>
      rw [Store.write, store.upsert_of_some held]
      exact found
  | remove gone =>
    have apart : key ≠ gone := fun same => of_decide_eq_false kept same.symm
    exact (AList.lookup_erase_ne apart).trans found

/-- A dead reference is not written, and no write brings it back. -/
theorem Store.Dead.write {ref : Nat} (dead : store.Dead ref) (write : Write Key Value) :
    (store.write write).Dead ref ∧ (store.write write).deref ref = store.deref ref := by
  cases write with
  | upsert key fresh update =>
    cases held : store.refs.lookup key with
    | none =>
      rw [Store.write, store.upsert_of_none held]
      refine ⟨⟨?_, fun other => ?_⟩, store.deref_allocate_of_lt dead.old key _⟩
      · change ref < (store.heap ++ [update fresh]).length
        rw [List.length_append]
        exact Nat.lt_add_right _ dead.old
      · change (store.refs.insert key store.heap.length).lookup other ≠ some ref
        by_cases same : other = key
        · rw [same, AList.lookup_insert]
          exact fun equal => Nat.lt_irrefl _ (Option.some.inj equal ▸ dead.old)
        · rw [AList.lookup_insert_ne same]
          exact dead.dropped other
    | some theirs =>
      have apart : ref ≠ theirs := fun same => dead.dropped key (same ▸ held)
      rw [Store.write, store.upsert_of_some held]
      refine ⟨⟨?_, dead.dropped⟩, store.deref_modify_of_ne apart update⟩
      change ref < (store.heap.modify theirs update).length
      rw [List.length_modify]
      exact dead.old
  | remove key =>
    refine ⟨⟨dead.old, fun other => ?_⟩, rfl⟩
    change (store.refs.erase key).lookup other ≠ some ref
    by_cases same : other = key
    · rw [same, AList.lookup_erase]
      exact (Option.some_ne_none ref).symm
    · rw [AList.lookup_erase_ne same]
      exact dead.dropped other

theorem Store.Dead.deref_writes {ref : Nat} (dead : store.Dead ref)
    (writes : List (Write Key Value)) : (store.writes writes).deref ref = store.deref ref := by
  induction writes generalizing store with
  | nil => rfl
  | cons write rest inductionHypothesis =>
    obtain ⟨still, same⟩ := dead.write write
    exact (inductionHypothesis still).trans same

/-- A removed key leaves its reference dead. -/
theorem Store.dead_remove {key : Key} {ref : Nat} (found : store.refs.lookup key = some ref) :
    (store.remove key).Dead ref where
  old := store.inRange key ref found
  dropped := by
    intro other held
    change (store.refs.erase key).lookup other = some ref at held
    by_cases same : other = key
    · rw [same, AList.lookup_erase] at held
      cases held
    · rw [AList.lookup_erase_ne same] at held
      exact same (store.separate other key ref held found)

/-- A reference follows its key until the key is removed. -/
theorem Store.deref_writes {key : Key} {ref : Nat} (found : store.refs.lookup key = some ref)
    (writes : List (Write Key Value)) :
    (store.writes writes).deref ref =
      (store.writes (writes.takeWhile fun write => !write.removes key)).read key := by
  have current : store.read key = store.deref ref := by
    rw [Store.read, found]
    rfl
  induction writes generalizing store with
  | nil => exact current.symm
  | cons write rest inductionHypothesis =>
    cases removed : write.removes key with
    | false =>
      have still := store.lookup_write found removed
      rw [List.takeWhile_cons_of_pos (by rw [removed]; rfl)]
      refine inductionHypothesis still ?_
      rw [Store.read, still]
      rfl
    | true =>
      rw [List.takeWhile_cons_of_neg (by rw [removed]; exact Bool.noConfusion)]
      obtain rfl : write = .remove key := by
        cases write with
        | upsert other fresh update => cases removed
        | remove gone => rw [of_decide_eq_true removed]
      exact ((store.dead_remove found).deref_writes rest).trans current.symm

end Refs
