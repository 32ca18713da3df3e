/-
This file models the `wg` command lines of `pkg/uapi` and what they do to a
device.

`SetPeer` builds a command line from a configuration and leaves an attribute out
when its field is empty. `wg set` replaces the attributes that are named and
leaves the others as they were; it creates a peer it does not know. So a
configuration with no allowed IPs does not clear them, and the allowed IPs of
every peer are the same after the command.
-/

import Mathlib.Data.List.AList
import WgMesh.Go.Address

namespace WgMesh.Uapi

open Go

structure PeerConfig where
  publicKey : Text
  endpoint : Text
  allowedIPs : Text
  keepAlive : Int
  deriving DecidableEq, Repr

/-- A peer as `wg show dump` lists it. -/
structure PeerInfo where
  publicKey : Text
  /-- "(none)" if not set. -/
  presharedKey : Text
  endpoint : Text
  allowedIPs : Text
  /-- Unix time in seconds, 0 if never. -/
  latestHandshake : Int
  transferRx : Int
  transferTx : Int
  persistentKeepalive : Int
  deriving DecidableEq, Repr

/-- The interface, and the words of the command that reaches the `wg` binary: the program and
the arguments it is started with. -/
structure Client where
  iface : Text
  program : Text
  programArgs : List Text
  deriving DecidableEq, Repr

/-- The arguments of `SetPeer`. -/
def Client.buildArgs (client : Client) (config : PeerConfig) : List Text :=
  client.programArgs ++
    [text "set", client.iface, text "peer", config.publicKey, text "endpoint", config.endpoint] ++
    (if config.allowedIPs ≠ [] then [text "allowed-ips", config.allowedIPs] else []) ++
    (if 0 < config.keepAlive then [text "persistent-keepalive", itoa config.keepAlive] else [])

/-- The arguments of `SetEndpoint`. -/
def Client.endpointArgs (client : Client) (publicKey endpoint : Text) : List Text :=
  client.programArgs ++
    [text "set", client.iface, text "peer", publicKey, text "endpoint", endpoint]

/-! ### The device -/

/-- The attributes of a peer that `wg set` can name. -/
structure DevicePeer where
  endpoint : Text
  allowedIPs : Text
  keepAlive : Text
  deriving DecidableEq, Repr

/-- A peer that has just been created. -/
def DevicePeer.fresh : DevicePeer where
  endpoint := []
  allowedIPs := []
  keepAlive := []

/-- The peers of an interface. -/
abbrev Device := AList fun _ : Text => DevicePeer

/-- Change a peer, creating it if it is not there. -/
def Device.change (device : Device) (publicKey : Text) (update : DevicePeer → DevicePeer) :
    Device :=
  device.insert publicKey (update ((device.lookup publicKey).getD .fresh))

/-- The allowed IPs the device holds for a key. -/
def Device.allowedIPs (device : Device) (publicKey : Text) : Text :=
  ((device.lookup publicKey).getD .fresh).allowedIPs

/-- The peer sections of a `wg set` command, with the peer that is being described. -/
def Device.applySections (device : Device) (current : Option Text) : List Text → Device
  | word :: value :: rest =>
    if word = text "peer" then (device.change value id).applySections (some value) rest
    else match current with
      | none => device
      | some publicKey =>
        if word = text "endpoint" then
          (device.change publicKey fun peer => { peer with endpoint := value }).applySections
            current rest
        else if word = text "allowed-ips" then
          (device.change publicKey fun peer => { peer with allowedIPs := value }).applySections
            current rest
        else if word = text "persistent-keepalive" then
          (device.change publicKey fun peer => { peer with keepAlive := value }).applySections
            current rest
        else device
  | _ => device

/-- `wg set <interface> ...`, of which it is assumed that it replaces the attributes that it is
given and leaves the others. -/
def Device.wgSet (device : Device) : List Text → Device
  | command :: _ :: sections =>
    if command = text "set" then device.applySections none sections else device
  | _ => device

/-- What `SetPeer` does to the device when its command succeeds. -/
def Device.setPeer (device : Device) (client : Client) (config : PeerConfig) : Device :=
  device.wgSet ((client.buildArgs config).drop client.programArgs.length)

/-! ### What `SetPeer` does to the allowed IPs -/

theorem Device.allowedIPs_change (device : Device) (changed publicKey : Text)
    (update : DevicePeer → DevicePeer) :
    (device.change changed update).allowedIPs publicKey =
      if publicKey = changed then
        (update ((device.lookup changed).getD .fresh)).allowedIPs
      else device.allowedIPs publicKey := by
  unfold Device.allowedIPs Device.change
  split
  · rename_i same
    rw [same, AList.lookup_insert]
    rfl
  · rename_i different
    rw [AList.lookup_insert_ne different]

/-- A change that keeps the allowed IPs of its peer keeps those of every peer. -/
theorem Device.allowedIPs_change_of_keeps (device : Device) (changed publicKey : Text)
    {update : DevicePeer → DevicePeer}
    (keeps : ∀ peer : DevicePeer, (update peer).allowedIPs = peer.allowedIPs) :
    (device.change changed update).allowedIPs publicKey = device.allowedIPs publicKey := by
  rw [Device.allowedIPs_change]
  split
  · rename_i same
    rw [keeps, same]
    rfl
  · rfl

theorem Client.drop_buildArgs (client : Client) (config : PeerConfig) :
    (client.buildArgs config).drop client.programArgs.length =
      [text "set", client.iface, text "peer", config.publicKey, text "endpoint",
          config.endpoint] ++
        (if config.allowedIPs ≠ [] then [text "allowed-ips", config.allowedIPs] else []) ++
        (if 0 < config.keepAlive then [text "persistent-keepalive", itoa config.keepAlive]
          else []) := by
  rw [Client.buildArgs, List.append_assoc, List.append_assoc, List.drop_left, ← List.append_assoc]

/-- A configuration without allowed IPs leaves those of every peer as they are. -/
theorem Device.allowedIPs_setPeer_of_empty (device : Device) (client : Client)
    {config : PeerConfig} (empty : config.allowedIPs = []) (publicKey : Text) :
    (device.setPeer client config).allowedIPs publicKey = device.allowedIPs publicKey := by
  have endpointNamed : text "endpoint" ≠ text "peer" := by decide
  have keepAliveNamed : text "persistent-keepalive" ≠ text "peer" ∧
      text "persistent-keepalive" ≠ text "endpoint" ∧
      text "persistent-keepalive" ≠ text "allowed-ips" := by decide
  rw [Device.setPeer, Client.drop_buildArgs, if_neg (not_not.mpr empty)]
  split
  · simp only [List.cons_append, List.nil_append, List.append_nil, Device.wgSet, if_true,
      Device.applySections, if_neg endpointNamed, if_neg keepAliveNamed.1,
      if_neg keepAliveNamed.2.1, if_neg keepAliveNamed.2.2]
    refine (Device.allowedIPs_change_of_keeps _ _ _ ?_).trans
      ((Device.allowedIPs_change_of_keeps _ _ _ ?_).trans
        (Device.allowedIPs_change_of_keeps _ _ _ ?_))
    all_goals exact fun _ => rfl
  · simp only [List.append_nil, Device.wgSet, if_true, Device.applySections,
      if_neg endpointNamed]
    refine (Device.allowedIPs_change_of_keeps _ _ _ ?_).trans
      (Device.allowedIPs_change_of_keeps _ _ _ ?_)
    all_goals exact fun _ => rfl

end WgMesh.Uapi
