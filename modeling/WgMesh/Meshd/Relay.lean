/-
This file settles when the daemon leaves the relay peer alone.

What the monitor passes over in every listing it never tracks, and the commands of
its two phases and of the scans are for tracked or judged peers only. A listing
has keys as `wg` prints them and endpoints without line feeds, so such a command
reaches no other peer than its own.

A punch plan has whatever key and candidates it was sent with, and the callback
refuses only the empty key and the node's own. The key is decoded before it is
written to the device, so several texts stand for the hub, and a candidate of
several lines may select it as well.

The monitor compares texts. It passes over the hub if the daemon was given the
hub's key as `wg` prints it, and treats the hub like any other peer if it was given
another spelling of the same bytes. So the hub is left alone exactly when its key
was given as `wg` prints it and every plan that is not dropped has a text that is
no key, or another key and no candidate that selects the hub.

A daemon runs its monitor and each plan as goroutines of their own. Each of them
is run in a world of its own, of which the commands of the others are a part, and
what the daemon issues is the commands of all of them in any order.
-/

import WgMesh.Meshd.Commands
import WgMesh.Meshd.Punch
import WgMesh.Uapi.Dump

namespace WgMesh.Meshd

open Go Uapi Dht

variable {World : Type}

/-! ### Whom a command addresses -/

/-- A command may address the peer of the key it is given, and every peer that the text selects
which is written to the UAPI socket. -/
def Call.Addresses (client : Client) (key : PublicKey) : Call → Prop
  | .setPeer _ config => decodeKey config.publicKey = some key.bytes
  | .setEndpointFast _ publicKey endpoint => decodeKey publicKey = some key.bytes ∨
      ∃ sockets path request,
        .wrote path request ∈ (client.setEndpointFast sockets publicKey endpoint).2 ∧
          Uapi.Addresses request key
  | _ => False

/-- The call does not address this peer, whatever the sockets do. -/
def Call.Spares (client : Client) (key : PublicKey) (call : Call) : Prop :=
  ¬ call.Addresses client key

theorem Call.addresses_setEndpointFast (client : Client) (key : PublicKey) (site : Site)
    (publicKey endpoint : Text) :
    (Call.setEndpointFast site publicKey endpoint).Addresses client key ↔
      ∃ decoded, decodeKey publicKey = some decoded ∧
        (decoded = key.bytes ∨ ∃ line ∈ (endpoint.splitOn 10).tail, Selects key line) := by
  constructor
  · rintro (named | ⟨sockets, path, request, wrote, addressed⟩)
    · exact ⟨key.bytes, named, Or.inl rfl⟩
    · obtain ⟨decoded, isKey, rfl⟩ := Client.wrote_setRequest wrote
      exact ⟨decoded, isKey, (addresses_setRequest key (length_of_decodeKey isKey) _).mp addressed⟩
  · rintro ⟨decoded, isKey, selected⟩
    refine Or.inr ?_
    let sockets : Sockets := { outcome := fun _ => .writeFails, command := true }
    obtain ⟨path, wrote⟩ := client.wrote_of_answers
      (fun _ => SocketOutcome.noConfusion : ∀ path, sockets.outcome path ≠ .unreachable) isKey
      endpoint
    exact ⟨sockets, path, _, wrote,
      (addresses_setRequest key (length_of_decodeKey isKey) _).mpr selected⟩

/-- Another key than the hub's, with an endpoint of one line. -/
structure Apart (hub : PublicKey) (publicKey endpoint : Text) : Prop where
  other : decodeKey publicKey ≠ some hub.bytes
  oneLine : 10 ∉ endpoint

section

variable {client : Client} {hub : PublicKey} {publicKey endpoint : Text}

theorem Apart.spares_setEndpointFast (apart : Apart hub publicKey endpoint) (site : Site) :
    (Call.setEndpointFast site publicKey endpoint).Spares client hub := by
  intro addressed
  obtain ⟨decoded, isKey, same | ⟨line, further, _⟩⟩ :=
    (Call.addresses_setEndpointFast client hub site publicKey endpoint).mp addressed
  · exact apart.other (same ▸ isKey)
  · rw [List.splitOn_eq_singleton apart.oneLine] at further
    cases further

theorem Call.spares_of_not_command (call : Call) (other : call.isCommand = false) :
    call.Spares client hub := by
  cases call with
  | setPeer _ _ => cases other
  | setEndpointFast _ _ _ => cases other
  | _ => exact id

end

/-! ### The commands of the monitor -/

/-- A listing that `ListPeers` has read, with keys as `wg` prints them. -/
structure Printed (peers : List PeerInfo) : Prop where
  listed : ∃ showDump, Uapi.listPeers showDump = some peers
  keys : ∀ peer ∈ peers, ∃ key : PublicKey, peer.publicKey = key.printed

theorem Printed.apart {peers : List PeerInfo} (printed : Printed peers) (hub : PublicKey)
    {peer : PeerInfo} (member : peer ∈ peers) (other : peer.publicKey ≠ hub.printed) :
    Apart hub peer.publicKey peer.endpoint := by
  obtain ⟨showDump, listed⟩ := printed.listed
  obtain ⟨key, named⟩ := printed.keys peer member
  refine ⟨fun same => other ?_, oneLine_of_listPeers listed peer member⟩
  rw [named, key.decodeKey_printed] at same
  rw [named, PublicKey.printed, Option.some.inj same]
  rfl

/-- Every listing of this world is one that `wg` prints. -/
def Env.ListsPrinted (env : Env World) : Prop :=
  ∀ world peers, (env.answer .listPeers world).1 = some peers → Printed peers

/-- Listed peers that are apart from the hub unless they are the hub vouch for leaving it alone. -/
theorem vouches_spares (client : Client) (settings : Settings) (hub : PublicKey) :
    Vouches settings
      (fun peer => peer.publicKey ≠ settings.vpsHubPubKey →
        Apart hub peer.publicKey peer.endpoint)
      (fun saved => Apart hub saved.publicKey saved.endpoint) (Call.Spares client hub) where
  others := Call.spares_of_not_command
  clears := fun _ apart other => (apart other).other
  records := fun _ _ apart other => apart other
  postpones := fun _ _ apart => apart
  restores := fun _ apart => apart.other
  scans := by
    intro saved host center apart started index port _
    obtain ⟨⟨portText, split⟩, _⟩ := ScanArgs.center_eq_some started
    have hostLine : 10 ∉ host := fun member => apart.oneLine (mem_of_splitHostPort split 10 member)
    have candidate : Apart hub saved.publicKey (joinHostPort host (itoa port)) :=
      ⟨apart.other, not_mem_joinHostPort hostLine (by decide) port⟩
    unfold ScanArgs.command
    split
    · exact apart.other
    · exact candidate.spares_setEndpointFast _

/-! ### The commands of the daemon -/

/-- The calls of one goroutine of the daemon: the monitor up to the end of a check, in a world
whose listings are those that `wg` prints, or one of the plans that were delivered. -/
inductive Issues (settings : Settings) (selfKey : Text) (plans : List DhtMessage) :
    List Call → Prop
  | monitor {World : Type} {env : Env World} {start session next : Session Call World}
      {rounds : List Unit} {monitor after : Monitor} (prints : env.ListsPrinted)
      (reached : Runs.run (Monitor.step settings env) (Monitor.new, start) rounds =
        some (monitor, session))
      (ran : monitor.check settings env session = .ok (after, next)) :
      Issues settings selfKey plans (next.calls.drop start.calls.length)
  | plan {World : Type} {env : Env World} {session next : Session Call World} {rounds : Nat}
      {plan : DhtMessage} (delivered : plan ∈ plans)
      (ran : punchPlanCallback env rounds selfKey plan session = .ok ((), next)) :
      Issues settings selfKey plans (next.calls.drop session.calls.length)

/-- In whatever order the goroutines' calls come, none of them addresses the hub, for a daemon that
was given the hub's key as this text. -/
def RelayUntouched (client : Client) (vpsHubPubKey : Text) (hub : PublicKey) (selfKey : Text)
    (plans : List DhtMessage) : Prop :=
  ∀ (settings : Settings) (traces : List (List Call)) (calls : List Call),
    settings.vpsHubPubKey = vpsHubPubKey →
    (∀ trace ∈ traces, Issues settings selfKey plans trace) →
    calls.Perm traces.flatten → ∀ call ∈ calls, ¬ call.Addresses client hub

/-- The plan reaches the hub: its key is the hub's, or it is a key and one of the candidates
selects the hub in a further line. -/
def Reaches (hub : PublicKey) (plan : DhtMessage) : Prop :=
  ∃ endpoint ∈ plan.punchPorts, ∃ decoded, decodeKey plan.targetPublicKey = some decoded ∧
    (decoded = hub.bytes ∨ ∃ line ∈ (endpoint.splitOn 10).tail, Selects hub line)

theorem Issues.spares {client : Client} {settings : Settings} {hub : PublicKey} {selfKey : Text}
    {plans : List DhtMessage} (away : ∀ plan ∈ plans, Ignored selfKey plan ∨ ¬ Reaches hub plan)
    {trace : List Call} (given : settings.vpsHubPubKey = hub.printed)
    (issued : Issues settings selfKey plans trace) : ∀ call ∈ trace, call.Spares client hub := by
  cases issued with
  | @monitor _ env _ _ _ _ _ _ prints reached ran =>
    have listed : ∀ world peers, (env.answer .listPeers world).1 = some peers →
        ∀ peer ∈ peers, peer.publicKey ≠ settings.vpsHubPubKey →
          Apart hub peer.publicKey peer.endpoint :=
      fun world peers shown peer member => given ▸ (prints world peers shown).apart hub member
    have vouches := vouches_spares client settings hub
    obtain ⟨entries, began⟩ := vouches.run listed reached
    exact (began.trans (vouches.check (listed _) entries ran).2).drop
  | @plan _ env session next rounds plan delivered ran =>
    rcases away plan delivered with ignored | unreached
    · rw [punchPlanCallback, if_pos ignored] at ran
      cases ran
      rw [List.drop_length]
      exact List.forall_mem_nil _
    · have emitted := emits_punchPlanCallback env rounds selfKey plan session () next ran
      refine (emitted.mono fun call ofPlan => ?_).drop
      cases call with
      | setPeer site config => exact ofPlan.elim
      | setEndpointFast site key endpoint =>
        obtain ⟨rfl, candidate⟩ := ofPlan
        exact fun addressed => unreached ⟨endpoint, candidate,
          (Call.addresses_setEndpointFast client hub site _ endpoint).mp addressed⟩
      | _ => exact id

/-- A goroutine that issues a command for the hub touches it. -/
theorem RelayUntouched.spares {client : Client} {vpsHubPubKey : Text} {hub : PublicKey}
    {selfKey : Text} {plans : List DhtMessage}
    (untouched : RelayUntouched client vpsHubPubKey hub selfKey plans) {trace : List Call}
    (issued : Issues (Settings.default vpsHubPubKey) selfKey plans trace) :
    ∀ call ∈ trace, call.Spares client hub := by
  intro call member
  refine untouched _ [trace] trace rfl (List.forall_mem_singleton.mpr issued) ?_ call member
  rw [List.flatten_singleton]

/-- A plan that reaches the hub and is not ignored addresses it in some world. -/
theorem RelayUntouched.away {client : Client} {vpsHubPubKey : Text} {hub : PublicKey}
    {selfKey : Text} {plans : List DhtMessage}
    (untouched : RelayUntouched client vpsHubPubKey hub selfKey plans) {plan : DhtMessage}
    (delivered : plan ∈ plans) (taken : ¬ Ignored selfKey plan) : ¬ Reaches hub plan := by
  rintro ⟨endpoint, candidate, reached⟩
  refine untouched.spares (.plan delivered (punchPlanCallback_refusing selfKey taken))
    (.setEndpointFast .punch plan.targetPublicKey endpoint)
    (List.mem_append_right _ (List.mem_map_of_mem candidate)) ?_
  exact (Call.addresses_setEndpointFast client hub _ _ endpoint).mpr reached

/-! ### A hub that is not recognised -/

/-- The hub in a listing, silent since 1970. -/
def silentHub (hub : PublicKey) : ListedPeer where
  publicKey := .ofVisible hub.printed hub.printed_ne_nil (base64Encode_visible hub.bytes)
  presharedKey := offField
  endpoint := .ofVisible (text "203.0.113.1:51820") (by decide) (by decide +kernel)
  allowedIPs := .ofVisible (text "10.200.200.1/32") (by decide) (by decide +kernel)
  latestHandshake := 0
  transferRx := 0
  transferTx := 0
  persistentKeepalive := 25
  latestHandshake_lt := by decide
  transferRx_lt := by decide
  transferTx_lt := by decide
  persistentKeepalive_le := by decide

/-- A world in which the clock stands still and the hub is the only peer. -/
def silentEnv (hub : PublicKey) : Env Unit where
  answer := fun call world => match call with
    | .now => (1000 * second, world)
    | .done => (false, world)
    | .sleep _ => (false, world)
    | .listPeers => (some [(silentHub hub).info], world)
    | .setPeer _ _ => (true, world)
    | .setEndpointFast _ _ _ => (true, world)
  order := fun _ keys => keys
  order_perm := fun _ keys => List.Perm.refl keys

theorem silentEnv_listsPrinted (hub : PublicKey) : (silentEnv hub).ListsPrinted := by
  intro world peers shown
  cases shown
  exact ⟨⟨_, listPeers_printDump ⟨offField, offField, 0, Nat.zero_le _, offField⟩ [silentHub hub]⟩,
    List.forall_mem_singleton.mpr ⟨hub, rfl⟩⟩

/-- A peer that was recorded just now has to wait. -/
theorem retry_silent (hub : PublicKey) (vpsHubPubKey : Text) (monitor : Monitor) {key : Text}
    {saved : SavedPeer} (fresh : saved.removedAt = 1000 * second) {calls : List Call} :
    monitor.retry (Settings.default vpsHubPubKey) (silentEnv hub) key saved ⟨(), calls⟩ =
      .ok (monitor, ⟨(), calls ++ [.now]⟩) := by
  have asked : (silentEnv hub).call .now ⟨(), calls⟩ =
      .ok (1000 * second, ⟨(), calls ++ [.now]⟩) := rfl
  have waits : (1000 : Int) * second - 1000 * second <
      (Settings.default vpsHubPubKey).restoreInterval.tdiv 2 :=
    show (1000 : Int) * second - 1000 * second < (300 * second).tdiv 2 by decide
  unfold Monitor.retry
  rw [proc_bind_of_ok asked, fresh, if_pos waits]
  rfl

section

variable (hub : PublicKey) {vpsHubPubKey : Text} (other : vpsHubPubKey ≠ hub.printed)
include other

/-- Phase 1 records it and issues its command. -/
theorem phase1_silent : Monitor.new.phase1 (Settings.default vpsHubPubKey) (silentEnv hub)
    (unix (1000 * second)) [(silentHub hub).info] ⟨(), [.listPeers, .now]⟩ =
      .ok (Monitor.new.record (silentHub hub).info (1000 * second) (1000 * second),
        ⟨(), [.listPeers, .now, .setPeer .clearRoute (clearedConfig (silentHub hub).info), .now,
          .now]⟩) := by
  have unskipped :
      ¬ Monitor.new.Skips (Settings.default vpsHubPubKey) (silentHub hub).info := by
    rintro (same | (empty | none) | route | tracked)
    · exact other same.symm
    · exact absurd empty (show text "203.0.113.1:51820" ≠ [] by decide)
    · exact absurd none (show text "203.0.113.1:51820" ≠ text "(none)" by decide)
    · exact absurd route (show ¬ contains (text "10.200.200.1/32") (text "/24") by decide +kernel)
    · exact AList.notMem_empty _ tracked
  have stale :
      (Settings.default vpsHubPubKey).Stale (unix (1000 * second)) (silentHub hub).info :=
    (Settings.stale_iff (show 0 ≤ 120 * second by decide)
      (show 120 * second < 2 ^ 24 * second by decide) _ _).mpr
      (show 120 * second / second < wrap64 (unix (1000 * second) - 0) by decide)
  have logged : upTo (silentHub hub).info.publicKey 16 = .ok _ := if_pos hub.printed_long
  unfold Monitor.phase1 Monitor.phase1Peer
  rw [if_neg unskipped, if_pos stale, logged]
  rfl

theorem check_silent :
    Monitor.new.check (Settings.default vpsHubPubKey) (silentEnv hub) ⟨(), []⟩ =
      .ok (Monitor.new.record (silentHub hub).info (1000 * second) (1000 * second),
        ⟨(), [.listPeers, .now, .setPeer .clearRoute (clearedConfig (silentHub hub).info), .now,
          .now, .now]⟩) := by
  have listed : (silentEnv hub).call .listPeers ⟨(), []⟩ =
      .ok (some [(silentHub hub).info], ⟨(), [.listPeers]⟩) := rfl
  have timed : (silentEnv hub).call .now ⟨(), [.listPeers]⟩ =
      .ok (1000 * second, ⟨(), [.listPeers, .now]⟩) := rfl
  have ranged : ∀ calls, (silentEnv hub).rangeKeys (Monitor.new.record (silentHub hub).info
      (1000 * second) (1000 * second)).savedPeers.keys ⟨(), calls⟩ =
        .ok ([hub.printed], ⟨(), calls⟩) := fun _ => rfl
  have tracked : (Monitor.new.record (silentHub hub).info (1000 * second)
      (1000 * second)).savedPeers.lookup hub.printed = some _ := AList.lookup_insert _
  unfold Monitor.check
  rw [proc_bind_of_ok listed]
  change ((silentEnv hub).call .now >>= _) _ = _
  rw [proc_bind_of_ok timed, proc_bind_of_ok (phase1_silent hub other)]
  rw [proc_bind_of_ok (ranged _), Monitor.phase2, tracked]
  exact (proc_bind_of_ok (retry_silent hub vpsHubPubKey _ rfl)).trans rfl

end

/-- In the eyes of the monitor, a hub whose key was given in another spelling is a peer. -/
theorem RelayUntouched.given {client : Client} {vpsHubPubKey : Text} {hub : PublicKey}
    {selfKey : Text} {plans : List DhtMessage}
    (untouched : RelayUntouched client vpsHubPubKey hub selfKey plans) :
    vpsHubPubKey = hub.printed := by
  by_contra other
  have start : Runs.run (Monitor.step (Settings.default vpsHubPubKey) (silentEnv hub))
      (Monitor.new, ⟨(), []⟩) [] = some (Monitor.new, ⟨(), []⟩) := rfl
  refine untouched.spares (.monitor (silentEnv_listsPrinted hub) start (check_silent hub other))
    (.setPeer .clearRoute (clearedConfig (silentHub hub).info)) ?_ hub.decodeKey_printed
  exact List.mem_cons_of_mem _ (List.mem_cons_of_mem _ List.mem_cons_self)

/-! ### When the hub is left alone -/

/-- The hub is left alone, in every run of the monitor with these plans delivered in any order and
in every world, if and only if its key was given as `wg` prints it and every plan that is not
ignored does not reach the hub. -/
theorem relayUntouched_iff (client : Client) (vpsHubPubKey : Text) (hub : PublicKey)
    (selfKey : Text) (plans : List DhtMessage) :
    RelayUntouched client vpsHubPubKey hub selfKey plans ↔
      vpsHubPubKey = hub.printed ∧
        ∀ plan ∈ plans, Ignored selfKey plan ∨ ¬ Reaches hub plan := by
  constructor
  · intro untouched
    refine ⟨untouched.given, fun plan delivered => ?_⟩
    by_cases taken : Ignored selfKey plan
    · exact Or.inl taken
    · exact Or.inr (untouched.away delivered taken)
  · rintro ⟨rfl, away⟩ settings traces calls given issued ordered call member
    obtain ⟨trace, among, ofTrace⟩ := List.mem_flatten.mp (ordered.subset member)
    exact (issued trace among).spares away given call ofTrace

/-- The key of a hub. -/
def hubKey : PublicKey where
  bytes := List.replicate 32 9
  length := List.length_replicate

/-- A plan for a key, with one candidate. -/
def hubPlan (targetPublicKey endpoint : Text) : DhtMessage where
  type := .punchPlan
  targetPublicKey := targetPublicKey
  punchPorts := [endpoint]

/-- A candidate that selects the hub in its second line. -/
def selectingCandidate : Text :=
  text "203.0.113.5:51820\npublic_key=" ++ hexEncode hubKey.bytes ++
    text "\nendpoint=203.0.113.66:51820"

/-- One plan for the hub's key is enough, and its one command moves the hub's endpoint. A line
feed behind the key, or a candidate that selects the hub for a plan for another key, does the
same. -/
theorem hubPlan_touches :
    (punchPlanCallback (refusing 0) 1 (text "self")
        (hubPlan hubKey.printed (text "203.0.113.5:51820"))
        { world := (), calls := [] }).toOption.map (fun ended => ended.2.calls) =
      some [.now, .listPeers, .now,
        .setEndpointFast .punch hubKey.printed (text "203.0.113.5:51820")] ∧
    ∀ plan ∈ [hubPlan hubKey.printed (text "203.0.113.5:51820"),
        hubPlan (hubKey.printed ++ text "\n") (text "203.0.113.5:51820"),
        hubPlan (base64Encode (List.replicate 32 1)) selectingCandidate],
      ∀ client, ¬ RelayUntouched client hubKey.printed hubKey (text "self") [plan] := by
  have touches : ∀ {plan : DhtMessage}, ¬ Ignored (text "self") plan → Reaches hubKey plan →
      ∀ client, ¬ RelayUntouched client hubKey.printed hubKey (text "self") [plan] :=
    fun taken reached client untouched => untouched.away List.mem_cons_self taken reached
  refine ⟨by decide +kernel, List.forall_mem_cons.mpr ⟨?_, List.forall_mem_cons.mpr
    ⟨?_, List.forall_mem_singleton.mpr ?_⟩⟩⟩
  · refine touches (by decide +kernel) ?_
    exact ⟨_, List.mem_cons_self, _, hubKey.decodeKey_printed, Or.inl rfl⟩
  · refine touches (by decide +kernel) ?_
    exact ⟨_, List.mem_cons_self, hubKey.bytes, by decide +kernel, Or.inl rfl⟩
  · refine touches (by decide +kernel) ?_
    exact ⟨_, List.mem_cons_self, List.replicate 32 1, by decide +kernel, Or.inr
      ⟨text "public_key=" ++ hexEncode hubKey.bytes, by decide +kernel, by decide +kernel⟩⟩

end WgMesh.Meshd
