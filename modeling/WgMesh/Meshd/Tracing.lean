/-
This file traces every command of the monitor back to a listing.

A check lists the peers before it does anything else. The commands of phase 1 are
for peers of this listing, and phase 2 and the scans are for entries that were
recorded from it or from the listing of an earlier check. What a command says
about its peer is what that listing showed: the keepalive, the allowed IPs if it
names any, and the endpoint up to the port that a scan tries. So a route that the
monitor sets is never of its own making, whatever the world answers.
-/

import WgMesh.Meshd.Commands
import WgMesh.Meshd.Fallback

namespace WgMesh.Meshd

open Go Uapi

variable {World : Type}

/-! ### What was shown -/

/-- The answer is a listing that shows the peer. -/
def Lists (peer : PeerInfo) : (call : Call) → Reply call → Prop
  | .listPeers, reply => ∃ peers, reply = some peers ∧ peer ∈ peers
  | .now, _ => False
  | .done, _ => False
  | .sleep _, _ => False
  | .setPeer _ _, _ => False
  | .setEndpointFast _ _ _, _ => False

/-- One of these calls was answered with a listing that shows the peer. -/
def Env.Showed (env : Env World) (world : World) (calls : List Call) (peer : PeerInfo) : Prop :=
  SomeAnswered env.answer (Lists peer) world calls

/-- The endpoint of a listed peer, or another port of its host. -/
def EndpointOf (peer : PeerInfo) (endpoint : Text) : Prop :=
  endpoint = peer.endpoint ∨ ∃ host portText, splitHostPort peer.endpoint = some (host, portText) ∧
    ∃ port : Nat, ValidPort port ∧ endpoint = joinHostPort host (itoa port)

/-- The call says of its peer what was shown of it. -/
def Call.AsShown (Shown : PeerInfo → Prop) : Call → Prop
  | .setPeer _ config => ∃ peer, Shown peer ∧ config.publicKey = peer.publicKey ∧
      EndpointOf peer config.endpoint ∧ config.keepAlive = peer.persistentKeepalive ∧
      (config.allowedIPs = [] ∨ config.allowedIPs = normalizedAllowedIPs peer.allowedIPs)
  | .setEndpointFast _ publicKey endpoint =>
      ∃ peer, Shown peer ∧ publicKey = peer.publicKey ∧ EndpointOf peer endpoint
  | _ => True

/-- The entry is as it was recorded, up to its clock. -/
def SavedPeer.AsShown (Shown : PeerInfo → Prop) (saved : SavedPeer) : Prop :=
  ∃ peer, Shown peer ∧ saved.publicKey = peer.publicKey ∧ saved.endpoint = peer.endpoint ∧
    saved.keepAlive = peer.persistentKeepalive ∧
    saved.allowedIPs = normalizedAllowedIPs peer.allowedIPs

section

variable {Shown More : PeerInfo → Prop} (grows : ∀ peer, Shown peer → More peer)
include grows

theorem Call.AsShown.mono {call : Call} (shown : call.AsShown Shown) : call.AsShown More := by
  cases call with
  | setPeer site config =>
    obtain ⟨peer, was, same⟩ := shown
    exact ⟨peer, grows peer was, same⟩
  | setEndpointFast site publicKey endpoint =>
    obtain ⟨peer, was, same⟩ := shown
    exact ⟨peer, grows peer was, same⟩
  | _ => trivial

theorem SavedPeer.AsShown.mono {saved : SavedPeer} (shown : saved.AsShown Shown) :
    saved.AsShown More := by
  obtain ⟨peer, was, same⟩ := shown
  exact ⟨peer, grows peer was, same⟩

end

theorem Call.asShown_of_not_command {Shown : PeerInfo → Prop} (call : Call)
    (other : call.isCommand = false) : call.AsShown Shown := by
  cases call with
  | setPeer _ _ => cases other
  | setEndpointFast _ _ _ => cases other
  | _ => trivial

/-- Peers that were shown, and entries as they were shown, vouch for commands as shown. -/
theorem vouches_asShown (settings : Settings) (Shown : PeerInfo → Prop) :
    Vouches settings Shown (SavedPeer.AsShown Shown) (Call.AsShown Shown) where
  others := Call.asShown_of_not_command
  clears := fun peer shown _ => ⟨peer, shown, rfl, Or.inl rfl, rfl, Or.inl rfl⟩
  records := fun peer _ shown _ => ⟨peer, shown, rfl, rfl, rfl, rfl⟩
  postpones := fun _ _ shown => shown
  restores := by
    rintro saved ⟨peer, shown, publicKey, endpoint, keepAlive, allowedIPs⟩
    exact ⟨peer, shown, publicKey, Or.inl endpoint, keepAlive, Or.inr allowedIPs⟩
  scans := by
    rintro saved host center ⟨peer, shown, publicKey, endpoint, keepAlive, allowedIPs⟩ started
      index port member
    obtain ⟨⟨portText, split⟩, _⟩ := ScanArgs.center_eq_some started
    have candidate : EndpointOf peer (joinHostPort host (itoa port)) :=
      Or.inr ⟨host, portText, endpoint ▸ split, port,
        validPort_of_mem_prioritizedPorts member, rfl⟩
    unfold ScanArgs.command
    split
    · exact ⟨peer, shown, publicKey, candidate, keepAlive, Or.inr allowedIPs⟩
    · exact ⟨peer, shown, publicKey, candidate⟩

/-! ### Runs -/

section

variable {env : Env World} {world : World}

/-- Every call says what a listing before it showed. -/
def Traced (env : Env World) (world : World) (calls : List Call) : Prop :=
  ∀ earlier call later, calls = earlier ++ call :: later →
    call.AsShown (env.Showed world earlier)

theorem Env.Showed.append {calls : List Call} {peer : PeerInfo}
    (showed : env.Showed world calls peer) (more : List Call) :
    env.Showed world (calls ++ more) peer :=
  someAnswered_append.mpr (Or.inl showed)

theorem Traced.append {first second : List Call} (traced : Traced env world first)
    (shown : ∀ call ∈ second, call.AsShown (env.Showed world first)) :
    Traced env world (first ++ second) := by
  intro earlier call later same
  rcases List.append_eq_append_iff.mp same with ⟨between, rfl, rest⟩ | ⟨between, rfl, rest⟩
  · have among : call ∈ second := by
      rw [rest]
      exact List.mem_append_right _ List.mem_cons_self
    exact (shown call among).mono fun peer showed => showed.append between
  · cases between with
    | nil =>
      rw [List.append_nil] at shown
      exact shown call (by rw [← List.nil_append second, ← rest]; exact List.mem_cons_self)
    | cons head tail =>
      obtain ⟨rfl, rfl⟩ := List.cons.inj rest
      exact traced earlier call tail rfl

/-- The session has come to these calls, all of them traced, with entries as they were shown. -/
structure TracedTo (env : Env World) (start : Session Call World)
    (state : Monitor × Session Call World) (calls : List Call) : Prop where
  reached : state.2 = start.after env.answer calls
  traced : Traced env start.world calls
  entries : state.1.Entries fun _ saved => saved.AsShown (env.Showed start.world calls)

theorem TracedTo.check {settings : Settings} {start session next : Session Call World}
    {monitor after : Monitor} {calls : List Call}
    (traced : TracedTo env start (monitor, session) calls)
    (ran : monitor.check settings env session = .ok (after, next)) :
    ∃ more, TracedTo env start (after, next) (calls ++ more) := by
  have grows : ∀ peer, env.Showed start.world calls peer →
      env.Showed start.world (calls ++ [.listPeers]) peer := fun peer showed => showed.append _
  obtain rfl : session = start.after env.answer calls := traced.reached
  have listed : ∀ peers, (env.answer .listPeers (start.after env.answer calls).world).1 =
      some peers → ∀ peer ∈ peers, env.Showed start.world (calls ++ [.listPeers]) peer :=
    fun peers shown peer member => someAnswered_append.mpr
      (Or.inr (Or.inl ⟨peers, shown, member⟩))
  obtain ⟨kept, rest, same, shown⟩ := (vouches_asShown settings _).check_after listed
    (fun key saved tracked => (traced.entries key saved tracked).mono grows) ran
  refine ⟨.listPeers :: rest, ?_, ?_, fun key saved tracked => ?_⟩
  · rw [Session.after_append]
    exact same
  · have listing : ∀ call ∈ [Call.listPeers], call.AsShown (env.Showed start.world calls) :=
      List.forall_mem_singleton.mpr trivial
    rw [List.append_cons]
    exact (traced.traced.append listing).append shown
  · rw [List.append_cons]
    exact (kept key saved tracked).mono fun peer showed => showed.append rest

theorem tracedTo_new (env : Env World) (start : Session Call World) :
    TracedTo env start (Monitor.new, start) [] where
  reached := (Session.after_nil _).symm
  traced := by
    intro earlier call later same
    simp at same
  entries := Monitor.entries_new _

/-- A round is a check and a pause, in which nothing is said of a peer. -/
theorem TracedTo.step {settings : Settings} {start : Session Call World}
    {state next : Monitor × Session Call World} {calls : List Call}
    (traced : TracedTo env start state calls)
    (stepped : Monitor.step settings env state () = some next) :
    ∃ more, TracedTo env start next (calls ++ more) := by
  obtain ⟨checked, checking, slept⟩ := check_of_step stepped
  obtain ⟨more, checkTraced⟩ := traced.check checking
  obtain ⟨waits, after, sleeps⟩ := slept.exists_after
  have quiet : ∀ call ∈ waits, call.AsShown (env.Showed start.world (calls ++ more)) := by
    intro call member
    rw [sleeps call member]
    trivial
  refine ⟨more ++ waits, ?_⟩
  rw [← List.append_assoc]
  refine ⟨?_, checkTraced.traced.append quiet, fun key saved found => ?_⟩
  · rw [Session.after_append, ← show checked = _ from checkTraced.reached]
    exact after
  · exact (checkTraced.entries key saved found).mono fun peer showed => showed.append waits

end

/-- In every world, every command of the monitor says of its peer what a listing earlier in the
run showed: its keepalive, its allowed IPs if it names any, and its endpoint up to the port. -/
theorem commands_traced (settings : Settings) (env : Env World)
    (start session next : Session Call World) (rounds : List Unit) (monitor after : Monitor)
    (reached : Runs.run (Monitor.step settings env) (Monitor.new, start) rounds =
      some (monitor, session))
    (ran : monitor.check settings env session = .ok (after, next)) :
    ∃ calls, next = start.after env.answer calls ∧
      ∀ earlier call later, calls = earlier ++ call :: later →
        call.AsShown (env.Showed start.world earlier) := by
  obtain ⟨calls, traced⟩ : ∃ calls, TracedTo env start (monitor, session) calls := by
    refine Runs.run_invariant (fun state => ∃ calls, TracedTo env start state calls) ?_
      ⟨[], tracedTo_new env start⟩ reached
    rintro before _ asleep ⟨calls, traced⟩ stepped
    obtain ⟨more, continued⟩ := traced.step stepped
    exact ⟨calls ++ more, continued⟩
  obtain ⟨more, last⟩ := traced.check ran
  exact ⟨calls ++ more, last.reached, last.traced⟩

/-- The monitor without scans, and without a delay before a peer is restored. -/
def unpaced : Settings :=
  { Settings.default (text "hub") with restoreInterval := 0, blindScan := false }

/-- One round of a new monitor, on a device with one stale peer, and the check after it. -/
def restoring : Option ((Monitor × Session Call Device) × (Monitor × Session Call Device)) := do
  let before ← Runs.run (Monitor.step unpaced (deviceEnv wg0 (1000 * second)))
    (Monitor.new, ⟨onePeer (text "10.200.200.3/32"), []⟩) [()]
  let after ← (before.1.check unpaced (deviceEnv wg0 (1000 * second)) before.2).toOption
  return (before, after)

/-- The route of a stale peer is left out of one command and named in two, as it was listed. -/
theorem commands_traced_restoring :
    ∃ monitor session after next,
      Runs.run (Monitor.step unpaced (deviceEnv wg0 (1000 * second)))
        (Monitor.new, ⟨onePeer (text "10.200.200.3/32"), []⟩) [()] = some (monitor, session) ∧
      monitor.check unpaced (deviceEnv wg0 (1000 * second)) session = .ok (after, next) ∧
      next.calls.countP Call.isCommand = 3 ∧
      ∃ calls, next = Session.after (deviceEnv wg0 (1000 * second)).answer
          ⟨onePeer (text "10.200.200.3/32"), []⟩ calls ∧
        ∀ earlier call later, calls = earlier ++ call :: later →
          call.AsShown ((deviceEnv wg0 (1000 * second)).Showed
            (onePeer (text "10.200.200.3/32")) earlier) := by
  have counted : restoring.map (fun states => states.2.2.calls.countP Call.isCommand) = some 3 := by
    decide +kernel
  obtain ⟨states, found, commands⟩ := Option.map_eq_some_iff.mp counted
  unfold restoring at found
  obtain ⟨⟨monitor, session⟩, reached, found⟩ := Option.bind_eq_some_iff.mp found
  obtain ⟨⟨after, next⟩, checked, same⟩ := Option.bind_eq_some_iff.mp found
  cases same
  have ran := toOption_eq_some checked
  exact ⟨monitor, session, after, next, reached, ran, commands,
    commands_traced unpaced _ _ session next [()] monitor after reached ran⟩

end WgMesh.Meshd
