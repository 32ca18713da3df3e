/-
This file models a `encoding/gob` stream at the level of its items.

An encoder sends the definition of every type of a message before the first
message that uses it, and remembers that it did; the memory belongs to the
encoder, so a new encoder on the same connection sends the definitions again. A
decoder remembers the definitions it has received and reports an error on one it
already has. The first message of a first encoder is decoded; the first message
of a second encoder on the same stream is not.
-/

import Mathlib

namespace Go

variable {TypeId Message : Type}

/-- One item of a stream. -/
inductive GobItem (TypeId Message : Type) where
  | typeDef (id : TypeId)
  | value (message : Message)
  deriving DecidableEq, Repr

/-- What the first `Encode` of a new encoder writes. -/
def encodeFirst (types : List TypeId) (message : Message) : List (GobItem TypeId Message) :=
  types.map .typeDef ++ [.value message]

/-- What `Decode` finds in the items that have arrived. -/
inductive Decoded (TypeId Message : Type) where
  /-- The next message is not complete: the call blocks. -/
  | waiting
  /-- A definition of a known type: the call returns an error. -/
  | failed
  /-- A message, the types known after it, and the items after it. -/
  | message (value : Message) (received : List TypeId) (rest : List (GobItem TypeId Message))
  deriving DecidableEq, Repr

/-- `Decode` by a decoder that has received the definitions of some types. -/
def decode [DecidableEq TypeId] (received : List TypeId) :
    List (GobItem TypeId Message) → Decoded TypeId Message
  | [] => .waiting
  | .typeDef id :: rest => if id ∈ received then .failed else decode (id :: received) rest
  | .value message :: rest => .message message received rest

variable [DecidableEq TypeId]

/-- Definitions of new types are taken in and read past. -/
theorem decode_typeDefs (received types : List TypeId) (rest : List (GobItem TypeId Message))
    (distinct : types.Nodup) (fresh : ∀ id ∈ types, id ∉ received) :
    decode received (types.map .typeDef ++ rest) = decode (types.reverse ++ received) rest := by
  induction types generalizing received with
  | nil => rfl
  | cons id others inductionHypothesis =>
    rw [List.map_cons, List.cons_append, decode, if_neg (fresh id List.mem_cons_self),
      inductionHypothesis _ (List.nodup_cons.mp distinct).2, List.reverse_cons, List.append_assoc]
    · rfl
    · intro other member known
      rcases List.mem_cons.mp known with rfl | old
      · exact (List.nodup_cons.mp distinct).1 member
      · exact fresh other (List.mem_cons_of_mem _ member) old

/-- A new decoder decodes the first message of a new encoder. -/
theorem decode_encodeFirst (types : List TypeId) (distinct : types.Nodup) (message : Message)
    (rest : List (GobItem TypeId Message)) :
    decode [] (encodeFirst types message ++ rest) = .message message types.reverse rest := by
  rw [encodeFirst, List.append_assoc, decode_typeDefs [] types _ distinct (by simp),
    List.append_nil]
  rfl

/-- A decoder that knows a type fails on the first message of another encoder. -/
theorem decode_encodeFirst_known {id : TypeId} {types received : List TypeId}
    (known : id ∈ received) (message : Message) (rest : List (GobItem TypeId Message)) :
    decode received (encodeFirst (id :: types) message ++ rest) = .failed := by
  rw [encodeFirst, List.map_cons, List.cons_append, List.cons_append, decode, if_pos known]

/-- A message cut short among its type definitions leaves a new decoder waiting. -/
theorem decode_take_encodeFirst (types : List TypeId) (distinct : types.Nodup)
    (message : Message) (count : Nat) (short : count ≤ types.length) :
    decode [] ((encodeFirst types message).take count) = .waiting := by
  rw [encodeFirst, List.take_append_of_le_length (by rw [List.length_map]; exact short),
    ← List.map_take]
  have taken := @decode_typeDefs TypeId Message _ [] (types.take count) []
    (distinct.sublist (List.take_sublist _ _)) (by simp)
  rw [List.append_nil] at taken
  rw [taken]
  rfl

/-- A decoder that knows a type never gets a message out of a first message that was cut
short. -/
theorem decode_take_encodeFirst_known {id : TypeId} {types received : List TypeId}
    (known : id ∈ received) (message : Message) (count : Nat) :
    decode received ((encodeFirst (id :: types) message).take count) =
      if count = 0 then .waiting else .failed := by
  cases count with
  | zero => rfl
  | succ count =>
    rw [encodeFirst, List.map_cons, List.cons_append, List.take_succ_cons, decode, if_pos known,
      if_neg (Nat.succ_ne_zero count)]

/-! ### The messages of a stream -/

/-- The messages among the items of a stream, in order. -/
def values (items : List (GobItem TypeId Message)) : List Message :=
  items.filterMap fun item => match item with
    | .value message => some message
    | .typeDef _ => none

omit [DecidableEq TypeId] in
@[simp] theorem values_append (first second : List (GobItem TypeId Message)) :
    values (first ++ second) = values first ++ values second :=
  List.filterMap_append

omit [DecidableEq TypeId] in
theorem values_typeDefs (types : List TypeId) :
    values (types.map .typeDef : List (GobItem TypeId Message)) = [] := by
  induction types with
  | nil => rfl
  | cons id rest inductionHypothesis => exact inductionHypothesis

omit [DecidableEq TypeId] in
@[simp] theorem values_encodeFirst (types : List TypeId) (message : Message) :
    values (encodeFirst types message) = [message] := by
  rw [encodeFirst, values_append, values_typeDefs]
  rfl

omit [DecidableEq TypeId] in
/-- A message that was cut short among its type definitions is none. -/
theorem values_take_encodeFirst (types : List TypeId) (message : Message) {count : Nat}
    (short : count ≤ types.length) : values ((encodeFirst types message).take count) = [] := by
  rw [encodeFirst, List.take_append_of_le_length (by rw [List.length_map]; exact short),
    ← List.map_take, values_typeDefs]

/-- What a decoder returns is the first message of the stream. -/
theorem values_of_decode {received known : List TypeId} {items rest : List (GobItem TypeId Message)}
    {message : Message} (decoded : decode received items = .message message known rest) :
    values items = message :: values rest := by
  induction items generalizing received with
  | nil => cases decoded
  | cons item others inductionHypothesis =>
    cases item with
    | typeDef id =>
      rw [decode] at decoded
      split at decoded
      · cases decoded
      · exact inductionHypothesis decoded
    | value first =>
      cases decoded
      rfl

end Go
