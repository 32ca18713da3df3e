/-
This file settles when phase 1 of a check makes a stale peer fall back to the
relay. The peer does so when the device holds no allowed IPs for it any more.

The command that is meant to clear a route has an empty field where the allowed
IPs would be, and `SetPeer` leaves an empty field out of the command line. So the
allowed IPs of every peer are after phase 1 what they were before, and a stale
peer only falls back if it had none.
-/

import WgMesh.Meshd.Monitor

namespace WgMesh.Meshd

open Go Uapi

variable {World : Type}

/-- The commands of phase 1 act on a device as `wg set` does, or fail and do nothing, and
reading the clock does nothing. -/
structure Env.ClearsOn (env : Env World) (client : Client) (device : World → Device) : Prop where
  now : ∀ world, device (env.answer .now world).2 = device world
  setPeer : ∀ config world,
    device (env.answer (.setPeer .clearRoute config) world).2 =
        (device world).setPeer client config ∨
      (env.answer (.setPeer .clearRoute config) world).1 = false ∧
        device (env.answer (.setPeer .clearRoute config) world).2 = device world

/-- The peers recorded since `before` have no allowed IPs, and all others those they had. -/
def FallsBack (before after : Monitor) (old new : Device) : Prop :=
  (∀ key ∈ after.savedPeers, key ∉ before.savedPeers → new.allowedIPs key = []) ∧
    ∀ key, ¬ (key ∈ after.savedPeers ∧ key ∉ before.savedPeers) →
      new.allowedIPs key = old.allowedIPs key

/-- Phase 1 leaves the allowed IPs of every peer as they are. -/
theorem allowedIPs_phase1 {env : Env World} {client : Client} {device : World → Device}
    (clears : env.ClearsOn client device) {settings : Settings} {now : Int}
    {peers : List PeerInfo} {monitor after : Monitor} {session next : Session Call World}
    (ran : monitor.phase1 settings env now peers session = .ok (after, next)) (key : Text) :
    (device next.world).allowedIPs key = (device session.world).allowedIPs key := by
  refine phase1_invariant (fun _ state => (device state.world).allowedIPs key =
    (device session.world).allowedIPs key) ?_ rfl ran
  intro judging _ _ _ _ _ same _ emitted
  refine emitted.world_invariant (fun world => (device world).allowedIPs key =
    (device session.world).allowedIPs key) ?_ same
  intro call world allowed kept
  cases call with
  | now => rwa [clears.now]
  | setPeer site config =>
    obtain ⟨rfl, _, empty⟩ := allowed
    rcases clears.setPeer config world with acted | ⟨_, ignored⟩
    · rwa [acted, Device.allowedIPs_setPeer_of_empty _ _ empty]
    · rwa [ignored]
  | done => cases allowed
  | sleep _ => cases allowed
  | listPeers => cases allowed
  | setEndpointFast _ _ _ => cases allowed

/-- Whether a peer is skipped only depends on the tracked peers by its own key. -/
theorem Monitor.skips_congr {first second : Monitor} {settings : Settings} {peer : PeerInfo}
    (same : peer.publicKey ∈ first.savedPeers ↔ peer.publicKey ∈ second.savedPeers) :
    first.Skips settings peer ↔ second.Skips settings peer := by
  unfold Monitor.Skips
  rw [same]

/-- Phase 1 records the peers that are listed as stale and not skipped. -/
theorem recorded_iff {settings : Settings} {env : Env World} {now : Int} {peers : List PeerInfo}
    {monitor after : Monitor} {session next : Session Call World}
    (ran : monitor.phase1 settings env now peers session = .ok (after, next)) {key : Text}
    (untracked : key ∉ monitor.savedPeers) :
    key ∈ after.savedPeers ↔ ∃ peer ∈ peers, peer.publicKey = key ∧
      ¬ monitor.Skips settings peer ∧ settings.Stale now peer := by
  induction peers generalizing monitor session with
  | nil =>
    obtain ⟨rfl, _⟩ := proc_pure_eq_ok.mp ran
    simp [untracked]
  | cons peer rest inductionHypothesis =>
    obtain ⟨judged, middle, first, continued⟩ := proc_bind_eq_ok.mp ran
    simp only [List.mem_cons, exists_eq_or_imp]
    cases judges_of_phase1Peer first with
    | passed left =>
      rw [inductionHypothesis continued untracked, or_iff_right]
      rintro ⟨_, unskipped, stale⟩
      exact left.elim unskipped fun fresh => fresh stale
    | recorded unskipped stale removedAt seen =>
      by_cases same : peer.publicKey = key
      · have member : key ∈ (monitor.record peer removedAt seen).savedPeers :=
          (AList.mem_insert _).mpr (Or.inl same.symm)
        exact iff_of_true (mem_of_lookup_eq (phase1_lookup continued member) member)
          (Or.inl ⟨same, unskipped, stale⟩)
      · have elsewhere : ∀ other, other = key →
            (other ∈ (monitor.record peer removedAt seen).savedPeers ↔
              other ∈ monitor.savedPeers) := by
          rintro other rfl
          exact (AList.mem_insert _).trans (or_iff_right fun equal => same equal.symm)
        rw [inductionHypothesis continued (fun member => untracked ((elsewhere key rfl).mp member)),
          or_iff_right fun found => same found.1]
        refine exists_congr fun other => and_congr_right fun _ => and_congr_right fun equal => ?_
        rw [Monitor.skips_congr (elsewhere _ equal)]

/-- The stale peers fall back to the relay if and only if the device held no allowed IPs for
them in the first place. -/
theorem fallsBack_iff {env : Env World} {client : Client} {device : World → Device}
    (clears : env.ClearsOn client device) {settings : Settings} {now : Int}
    {peers : List PeerInfo} {monitor after : Monitor} {session next : Session Call World}
    (ran : monitor.phase1 settings env now peers session = .ok (after, next)) :
    FallsBack monitor after (device session.world) (device next.world) ↔
      ∀ peer ∈ peers, ¬ monitor.Skips settings peer → settings.Stale now peer →
        (device session.world).allowedIPs peer.publicKey = [] := by
  constructor
  · rintro ⟨cleared, _⟩ peer member unskipped stale
    have untracked : peer.publicKey ∉ monitor.savedPeers := fun tracked =>
      unskipped (Monitor.skips_of_tracked tracked)
    rw [← allowedIPs_phase1 clears ran]
    exact cleared _ ((recorded_iff ran untracked).mpr ⟨peer, member, rfl, unskipped, stale⟩)
      untracked
  · intro routeless
    refine ⟨fun key recorded untracked => ?_, fun key _ => allowedIPs_phase1 clears ran key⟩
    obtain ⟨peer, member, rfl, unskipped, stale⟩ := (recorded_iff ran untracked).mp recorded
    rw [allowedIPs_phase1 clears ran]
    exact routeless peer member unskipped stale

/-! ### A device with one stale peer -/

/-- What `wg show dump` prints for a device whose peers have never completed a handshake. -/
def dump (device : Device) : List PeerInfo :=
  device.entries.map fun entry =>
    { publicKey := entry.1
      presharedKey := text "(none)"
      endpoint := if entry.2.endpoint = [] then text "(none)" else entry.2.endpoint
      allowedIPs := if entry.2.allowedIPs = [] then text "(none)" else entry.2.allowedIPs
      latestHandshake := 0
      transferRx := 0
      transferTx := 0
      persistentKeepalive := 25 }

/-- A world that is a device, with a clock that stands still. -/
def deviceEnv (client : Client) (clock : Int) : Env Device where
  answer := fun call device => match call with
    | .now => (clock, device)
    | .done => (false, device)
    | .sleep _ => (false, device)
    | .listPeers => (some (dump device), device)
    | .setPeer _ config => (true, device.setPeer client config)
    | .setEndpointFast _ publicKey endpoint =>
      (true, device.change publicKey fun peer => { peer with endpoint := endpoint })
  order := fun _ keys => keys
  order_perm := fun _ keys => List.Perm.refl keys

theorem deviceEnv_clearsOn (client : Client) (clock : Int) :
    (deviceEnv client clock).ClearsOn client id where
  now := fun _ => rfl
  setPeer := fun _ _ => Or.inl rfl

def wg0 : Client where
  iface := text "wg0"
  program := text "wg"
  programArgs := []

def staleKey : Text := text "AAAAAAAAAAAAAAAAAAAAAAAAAAAAAAAAAAAAAAAAAAA="

/-- A device with one peer. -/
def onePeer (allowedIPs : Text) : Device :=
  (∅ : Device).insert staleKey
    { endpoint := text "203.0.113.5:51820", allowedIPs := allowedIPs, keepAlive := text "25" }

/-- A stale peer without a route falls back. -/
theorem fallsBack_iff_routeless :
    ∃ after next, Monitor.new.phase1 (Settings.default (text "hub"))
        (deviceEnv wg0 (1000 * second)) 1000 (dump (onePeer [])) ⟨onePeer [], []⟩ =
          .ok (after, next) ∧
      FallsBack Monitor.new after (onePeer []) next.world := by
  have returns : (Monitor.new.phase1 (Settings.default (text "hub"))
      (deviceEnv wg0 (1000 * second)) 1000 (dump (onePeer [])) ⟨onePeer [], []⟩).toOption.isSome =
        true := by decide +kernel
  obtain ⟨⟨after, next⟩, found⟩ := Option.isSome_iff_exists.mp returns
  have ran := toOption_eq_some found
  refine ⟨after, next, ran, (fallsBack_iff (deviceEnv_clearsOn wg0 (1000 * second)) ran).mpr ?_⟩
  intro peer member _ _
  rw [List.mem_singleton.mp member]
  rfl

/-- A stale peer with a route is recorded, its command is issued, and it keeps the route. -/
theorem staleRoute_kept :
    ∃ after next, Monitor.new.phase1 (Settings.default (text "hub"))
        (deviceEnv wg0 (1000 * second)) 1000 (dump (onePeer (text "10.200.200.3/32")))
        ⟨onePeer (text "10.200.200.3/32"), []⟩ = .ok (after, next) ∧
      staleKey ∈ after.savedPeers ∧ staleKey ∉ Monitor.new.savedPeers ∧
      next.calls = [.setPeer .clearRoute ⟨staleKey, text "203.0.113.5:51820", [], 25⟩, .now, .now] ∧
      next.world.allowedIPs staleKey = text "10.200.200.3/32" := by
  have evaluated : (Monitor.new.phase1 (Settings.default (text "hub"))
      (deviceEnv wg0 (1000 * second)) 1000 (dump (onePeer (text "10.200.200.3/32")))
      ⟨onePeer (text "10.200.200.3/32"), []⟩).toOption.map (fun (after, next) =>
        decide (staleKey ∈ after.savedPeers ∧ staleKey ∉ Monitor.new.savedPeers ∧
          next.calls =
            [.setPeer .clearRoute ⟨staleKey, text "203.0.113.5:51820", [], 25⟩, .now, .now] ∧
          next.world.allowedIPs staleKey = text "10.200.200.3/32")) = some true := by
    decide +kernel
  obtain ⟨⟨after, next⟩, found, facts⟩ := Option.map_eq_some_iff.mp evaluated
  exact ⟨after, next, toOption_eq_some found, of_decide_eq_true facts⟩

end WgMesh.Meshd
