/-
This file compares the two ways of setting a peer's endpoint by what they tell the
outside: `SetEndpointFast`, which writes to the UAPI socket and falls back on the
`wg` binary, and `SetEndpoint`, which runs the binary.

For a key as `wg` prints it and an endpoint of one line, everything that
`SetEndpointFast` does says what the command line of `SetEndpoint` says, once or
twice. It stops at the first answer that accepts, and the last thing it does before
it gives up is to run the binary.
-/

import WgMesh.Uapi.Socket

namespace WgMesh.Uapi

open Go

/-- What was done is accepted: the line read back says so, or the binary succeeds. -/
def Sockets.accepts (sockets : Sockets) : Configured → Bool
  | .wrote path _ => (sockets.outcome path).accepted
  | .ran _ => sockets.command

/-- What was done says that this peer gets this endpoint, and says nothing else. -/
def Configured.Sets (client : Client) (key : PublicKey) (endpoint : Text) : Configured → Prop
  | .wrote path request => path ∈ client.socketPaths ∧ IsSetEndpoint request key.bytes endpoint
  | .ran args => args = client.endpointArgs key.printed endpoint

/-- What `SetEndpointFast` does for a key that it can decode, given the paths that are left. -/
inductive Client.Tries (client : Client) (sockets : Sockets) (publicKey endpoint : Text)
    (key : List UInt8) (paths : List Text) : Bool × List Configured → Prop
  | binary (unreachable : ∀ path ∈ paths, sockets.outcome path = .unreachable) :
      Tries client sockets publicKey endpoint key paths
        (sockets.command, [.ran (client.endpointArgs publicKey endpoint)])
  | accepted {path : Text} (among : path ∈ paths) (reachable : sockets.outcome path ≠ .unreachable)
      (accepts : (sockets.outcome path).accepted = true) :
      Tries client sockets publicKey endpoint key paths
        (true, [.wrote path (setRequest key endpoint)])
  | both {path : Text} (among : path ∈ paths) (reachable : sockets.outcome path ≠ .unreachable)
      (refuses : (sockets.outcome path).accepted = false) :
      Tries client sockets publicKey endpoint key paths (sockets.command,
        [.wrote path (setRequest key endpoint), .ran (client.endpointArgs publicKey endpoint)])

theorem Client.tries_trySockets (client : Client) (sockets : Sockets) {publicKey : Text}
    (endpoint : Text) {key : List UInt8} (decoded : decodeKey publicKey = some key)
    (paths : List Text) :
    client.Tries sockets publicKey endpoint key paths
      (client.trySockets sockets publicKey endpoint paths) := by
  induction paths with
  | nil => exact .binary (List.forall_mem_nil _)
  | cons path rest inductionHypothesis =>
    rw [Client.trySockets]
    split
    · rename_i unreachable
      generalize client.trySockets sockets publicKey endpoint rest = result at inductionHypothesis
      cases inductionHypothesis with
      | binary others => exact .binary (List.forall_mem_cons.mpr ⟨unreachable, others⟩)
      | accepted among reachable accepts =>
        exact .accepted (List.mem_cons_of_mem _ among) reachable accepts
      | both among reachable refuses =>
        exact .both (List.mem_cons_of_mem _ among) reachable refuses
    · rename_i reachable
      rw [decoded]
      dsimp only
      split
      · rename_i accepts
        exact .accepted List.mem_cons_self reachable accepts
      · rename_i refuses
        exact .both List.mem_cons_self reachable (Bool.eq_false_iff.mpr refuses)

/-- Whatever the sockets and the binary answer, for a key as `wg` prints it and an endpoint of one
line `SetEndpointFast` says nothing but what `SetEndpoint` says. It writes to a socket exactly if
one can be dialed, goes on only after a refusal, succeeds exactly if the last thing it did was
accepted, and gives up only on the binary. -/
theorem setEndpointFast_sets (client : Client) (sockets : Sockets) (key : PublicKey)
    (endpoint : Text) (oneLine : 10 ∉ endpoint) :
    ∃ earlier last,
      client.setEndpointFast sockets key.printed endpoint =
        (sockets.accepts last, earlier ++ [last]) ∧
      (∀ done ∈ earlier ++ [last], done.Sets client key endpoint) ∧
      ((∃ path request, .wrote path request ∈ earlier ++ [last]) ↔
        ∃ path ∈ client.socketPaths, sockets.outcome path ≠ .unreachable) ∧
      earlier.length ≤ 1 ∧ (∀ done ∈ earlier, sockets.accepts done = false) ∧
      (sockets.accepts last = false →
        last = .ran (client.endpointArgs key.printed endpoint)) := by
  have meant := (isSetEndpoint_setRequest key.bytes endpoint).mpr oneLine
  have tried := client.tries_trySockets sockets endpoint key.decodeKey_printed client.socketPaths
  unfold Client.setEndpointFast
  generalize client.trySockets sockets key.printed endpoint client.socketPaths = result at tried
  cases tried with
  | binary unreachable =>
    refine ⟨[], .ran (client.endpointArgs key.printed endpoint), rfl,
      List.forall_mem_singleton.mpr rfl, iff_of_false ?_ ?_, Nat.zero_le _,
      List.forall_mem_nil _, fun _ => rfl⟩
    · rintro ⟨path, request, wrote⟩
      cases List.mem_singleton.mp wrote
    · rintro ⟨path, among, reachable⟩
      exact reachable (unreachable path among)
  | accepted among reachable accepts =>
    refine ⟨[], .wrote _ (setRequest key.bytes endpoint), ?_,
      List.forall_mem_singleton.mpr ⟨among, meant⟩,
      iff_of_true ⟨_, _, List.mem_singleton_self _⟩ ⟨_, among, reachable⟩, Nat.zero_le _,
      List.forall_mem_nil _, fun refuses => absurd (accepts.symm.trans refuses) (by decide)⟩
    rw [Sockets.accepts, accepts]
    rfl
  | both among reachable refuses =>
    refine ⟨[.wrote _ (setRequest key.bytes endpoint)],
      .ran (client.endpointArgs key.printed endpoint), rfl,
      List.forall_mem_cons.mpr ⟨⟨among, meant⟩, List.forall_mem_singleton.mpr rfl⟩,
      iff_of_true ⟨_, _, List.mem_cons_self⟩ ⟨_, among, reachable⟩, Nat.le_refl _,
      List.forall_mem_singleton.mpr refuses, fun _ => rfl⟩

/-- A socket that answers nothing: the binary runs as well. -/
def unanswering : Sockets where
  outcome := fun _ => .answers none
  command := true

/-- A key of a peer. -/
def sevens : PublicKey where
  bytes := List.replicate 32 7
  length := List.length_replicate

/-- The request is written and the binary run after it, and both say the same. -/
theorem setEndpointFast_sets_unanswering :
    ∃ first second, Client.setEndpointFast ⟨text "wg0", text "wg", []⟩ unanswering sevens.printed
        (text "203.0.113.5:51820") = (true, [first, second]) ∧
      ∀ done ∈ [first, second],
        done.Sets ⟨text "wg0", text "wg", []⟩ sevens (text "203.0.113.5:51820") := by
  obtain ⟨earlier, last, done, sets, _⟩ := setEndpointFast_sets ⟨text "wg0", text "wg", []⟩
    unanswering sevens (text "203.0.113.5:51820") (by decide)
  have both : (Client.setEndpointFast ⟨text "wg0", text "wg", []⟩ unanswering sevens.printed
      (text "203.0.113.5:51820")).1 = true ∧
      (Client.setEndpointFast ⟨text "wg0", text "wg", []⟩ unanswering sevens.printed
        (text "203.0.113.5:51820")).2.length = 2 := by
    decide +kernel
  obtain ⟨first, second, two⟩ := List.length_eq_two.mp both.2
  rw [done] at both two
  dsimp only at both two
  rw [two] at sets
  exact ⟨first, second, done.trans (Prod.ext both.1 two), sets⟩

end WgMesh.Uapi
