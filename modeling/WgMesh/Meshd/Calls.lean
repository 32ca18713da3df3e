/-
This file lists what the daemon's loops ask of the world: the time, whether they
are cancelled, a sleep, the device's listing, and the two commands that change a
peer's endpoint. Each command is marked with the place it is issued from, so that
what a run did can be read off its calls.

Times are nanoseconds and `Unix` seconds are their floor. The order in which a
`range` over a map visits its keys belongs to the world.
-/

import WgMesh.Go.Process
import WgMesh.Uapi.Client

namespace WgMesh.Meshd

open Go Uapi

/-- Nanoseconds in a second, `time.Second`. -/
abbrev second : Int := 1000000000

/-- Nanoseconds in a millisecond, `time.Millisecond`. -/
abbrev millisecond : Int := 1000000

/-- A 64-bit integer after an operation that may have overflowed. -/
def wrap64 (number : Int) : Int := number.bmod (2 ^ 64)

/-- `time.Time.Unix`. -/
def unix (time : Int) : Int := time / second

/-- Where a command is issued from. -/
inductive Site where
  /-- Phase 1 of the monitor, which clears a stale peer's route. -/
  | clearRoute
  /-- Phase 2 of the monitor, which restores the old endpoint. -/
  | restore
  /-- The blind scan. -/
  | scan
  /-- A punch plan. -/
  | punch
  deriving DecidableEq, Repr

inductive Call where
  /-- `time.Now()`. -/
  | now
  /-- Whether `ctx.Done()` is closed. -/
  | done
  /-- Wait for a timer, or for `ctx.Done()`. -/
  | sleep (duration : Int)
  | listPeers
  | setPeer (site : Site) (config : PeerConfig)
  | setEndpointFast (site : Site) (publicKey endpoint : Text)
  deriving DecidableEq, Repr

/-- What a call returns. For a sleep, whether it was cancelled; for a command, whether it
succeeded; for a listing, nothing when it failed. -/
@[reducible] def Reply : Call → Type
  | .now => Int
  | .done => Bool
  | .sleep _ => Bool
  | .listPeers => Option (List PeerInfo)
  | .setPeer _ _ => Bool
  | .setEndpointFast _ _ _ => Bool

/-- How a world answers. -/
structure Env (World : Type) where
  answer : (call : Call) → World → Reply call × World
  /-- The order in which a `range` over a map with these keys visits them. -/
  order : World → List Text → List Text
  order_perm : ∀ world keys, (order world keys).Perm keys

/-- A process of the daemon. -/
abbrev Process (World Value : Type) := Proc Call World Value

variable {World : Type}

/-- Make a call. -/
def Env.call (env : Env World) (call : Call) : Process World (Reply call) :=
  perform env.answer call

/-- The keys of a map in the order a `range` visits them. -/
def Env.rangeKeys (env : Env World) (keys : List Text) : Process World (List Text) :=
  fun session => .ok (env.order session.world keys, session)

/-- The acceptance test of the scan and of the punch: a listed peer has completed a handshake
through the endpoint. -/
def handshaken (publicKey endpoint : Text) (startedAt baselineRx : Int) (peer : PeerInfo) : Bool :=
  peer.publicKey = publicKey ∧ peer.endpoint = endpoint ∧ startedAt ≤ peer.latestHandshake ∧
    baselineRx < peer.transferRx

/-- A listing, if it succeeded, has a peer with a property. -/
def lists (found : PeerInfo → Bool) (listing : Option (List PeerInfo)) : Bool :=
  (listing.getD []).any found

/-- The call is a command that names an endpoint for a peer. -/
def Call.SetsEndpoint (publicKey : Text) : Call → Prop
  | .setPeer _ config => config.publicKey = publicKey
  | .setEndpointFast _ key _ => key = publicKey
  | _ => False

end WgMesh.Meshd
