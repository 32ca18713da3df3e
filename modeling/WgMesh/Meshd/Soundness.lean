/-
This file settles when the endpoint that a blind scan reports is one on which a
handshake completed.

The acceptance test puts together the endpoint that was written last and two
counters that may have moved at any time since the scan began. The listing is
only sampled at every sixteenth candidate. So a handshake that completes on the
right port between two samples is credited to whatever candidate is installed at
the next one. The scan is sound in every world exactly when it can report no
other port: when it reports nothing at all, or when the right port is the first
candidate and no later one is sampled.

The device may do what it likes, except that the peer's counters only move while
its endpoint is the one on which the peer is reachable, and that its endpoint
only moves by the commands or by roaming to that one.
-/

import WgMesh.Meshd.Scan

namespace WgMesh.Meshd

open Go Uapi

variable {World : Type}

/-! ### What the device may do -/

/-- What the device holds for the scanned peer. -/
structure PeerView where
  endpoint : Text
  handshake : Int
  rx : Int
  deriving DecidableEq, Repr

/-- A move of the device on its own. -/
inductive Drifts (reachable : Text) : PeerView → PeerView → Prop
  /-- A packet from the peer arrives and the endpoint follows it. -/
  | roams (view : PeerView) : Drifts reachable view { view with endpoint := reachable }
  /-- A handshake or traffic, over the endpoint on which the peer is reachable. -/
  | talks {view : PeerView} (handshake rx : Int) (there : view.endpoint = reachable) :
      Drifts reachable view { view with handshake := handshake, rx := rx }

/-- Any number of moves of the device on its own. -/
abbrev Moved (reachable : Text) : PeerView → PeerView → Prop :=
  Relation.ReflTransGen (Drifts reachable)

/-- Between two views, a command that names an endpoint was issued. It may take effect, and it
does if it succeeds. -/
def Commanded (reachable endpoint : Text) (succeeded : Bool) (before after : PeerView) : Prop :=
  ∃ view applied, Moved reachable before view ∧ (succeeded = true → applied = true) ∧
    Moved reachable (if applied = true then { view with endpoint := endpoint } else view) after

/-- A world whose device holds the scanned peer and talks to it only where it is reachable. -/
structure Env.Reaches (env : Env World) (publicKey reachable : Text) (view : World → PeerView) :
    Prop where
  now : ∀ world, Moved reachable (view world) (view (env.answer .now world).2)
  done : ∀ world, Moved reachable (view world) (view (env.answer .done world).2)
  sleep : ∀ duration world,
    Moved reachable (view world) (view (env.answer (.sleep duration) world).2)
  listPeers : ∀ world, ∃ seen, Moved reachable (view world) seen ∧
    Moved reachable seen (view (env.answer .listPeers world).2) ∧
    ∀ peers, (env.answer .listPeers world).1 = some peers → ∀ peer ∈ peers,
      peer.publicKey = publicKey → peer.endpoint = seen.endpoint ∧
        peer.latestHandshake = seen.handshake ∧ peer.transferRx = seen.rx
  setPeer : ∀ site config world, config.publicKey = publicKey →
    Commanded reachable config.endpoint (env.answer (.setPeer site config) world).1 (view world)
      (view (env.answer (.setPeer site config) world).2)
  setEndpointFast : ∀ site endpoint world,
    Commanded reachable endpoint (env.answer (.setEndpointFast site publicKey endpoint) world).1
      (view world) (view (env.answer (.setEndpointFast site publicKey endpoint) world).2)

/-- The endpoint on which the peer is reachable: the scanned host with the right port. -/
def ScanArgs.reachable (args : ScanArgs) (port : Nat) : Text :=
  match splitHostPort args.oldEndpoint with
  | some (host, _) => joinHostPort host (itoa port)
  | none => []

/-- In every such world in which the acceptance test does not hold from the start, the endpoint
that the scan reports is the one on which the peer is reachable. -/
def ScanSound (args : ScanArgs) (port : Nat) : Prop :=
  ∀ (World : Type) (env : Env World) (view : World → PeerView) (session next : Session Call World)
    (endpoint : Text), env.Reaches args.publicKey (args.reachable port) view →
    ¬ (unix (env.answer .now session.world).1 ≤ (view session.world).handshake ∧
      args.baselineRx < (view session.world).rx) →
    blindScanEndpoint env args session = .ok (some endpoint, next) →
    endpoint = args.reachable port

/-! ### A world that misleads the scan -/

/-- The endpoint of the scanned peer, and whether it has shaken hands since the scan began. -/
structure Shaky where
  endpoint : Text
  shaken : Bool
  deriving DecidableEq, Repr

/-- A command moves the endpoint. If the peer was reachable until then, a handshake has just
completed. -/
def Shaky.moveTo (reachable endpoint : Text) (world : Shaky) : Shaky where
  endpoint := endpoint
  shaken := world.shaken || decide (world.endpoint = reachable)

def Shaky.view (args : ScanArgs) (world : Shaky) : PeerView where
  endpoint := world.endpoint
  handshake := if world.shaken then 1 else 0
  rx := if world.shaken then args.baselineRx + 1 else args.baselineRx

/-- The listing of such a world. -/
def Shaky.info (args : ScanArgs) (world : Shaky) : PeerInfo where
  publicKey := args.publicKey
  presharedKey := text "(none)"
  endpoint := world.endpoint
  allowedIPs := args.allowedIPs
  latestHandshake := if world.shaken then 1 else 0
  transferRx := if world.shaken then args.baselineRx + 1 else args.baselineRx
  transferTx := 0
  persistentKeepalive := args.keepAlive

/-- One second after the epoch, every command succeeds and nothing is cancelled. -/
def shakyEnv (args : ScanArgs) (reachable : Text) : Env Shaky where
  answer := fun call world => match call with
    | .now => (second, world)
    | .done => (false, world)
    | .sleep _ => (false, world)
    | .listPeers => (some [world.info args], world)
    | .setPeer _ config => (true,
        if config.publicKey = args.publicKey then world.moveTo reachable config.endpoint
        else world)
    | .setEndpointFast _ publicKey endpoint => (true,
        if publicKey = args.publicKey then world.moveTo reachable endpoint else world)
  order := fun _ keys => keys
  order_perm := fun _ keys => List.Perm.refl keys

theorem Shaky.commanded_moveTo (args : ScanArgs) (reachable endpoint : Text) (world : Shaky) :
    Commanded reachable endpoint true (world.view args)
      ((world.moveTo reachable endpoint).view args) := by
  by_cases there : world.endpoint = reachable
  · refine ⟨{ world.view args with handshake := 1, rx := args.baselineRx + 1 }, true,
      .single (.talks _ _ there), fun _ => rfl, ?_⟩
    simp [Shaky.moveTo, Shaky.view, there, Relation.ReflTransGen.refl]
  · refine ⟨world.view args, true, .refl, fun _ => rfl, ?_⟩
    simp [Shaky.moveTo, Shaky.view, there, Relation.ReflTransGen.refl]

theorem shakyEnv_reaches (args : ScanArgs) (reachable : Text) :
    (shakyEnv args reachable).Reaches args.publicKey reachable (Shaky.view args) where
  now := fun _ => .refl
  done := fun _ => .refl
  sleep := fun _ _ => .refl
  listPeers := by
    refine fun world => ⟨world.view args, .refl, .refl, ?_⟩
    intro peers listed peer member _
    cases listed
    rw [List.mem_singleton.mp member]
    exact ⟨rfl, rfl, rfl⟩
  setPeer := by
    intro site config world same
    have moved := world.commanded_moveTo args reachable config.endpoint
    simpa only [shakyEnv, if_pos same] using moved
  setEndpointFast := by
    intro site endpoint world
    have moved := world.commanded_moveTo args reachable endpoint
    simpa only [shakyEnv, if_true] using moved

/-- The acceptance test finds the installed candidate once there was a handshake. -/
theorem lists_info (args : ScanArgs) (world : Shaky) :
    lists (handshaken args.publicKey world.endpoint (unix second) args.baselineRx)
      (some [world.info args]) = world.shaken := by
  cases shaken : world.shaken with
  | true => simp [lists, handshaken, Shaky.info, shaken, unix]
  | false => simp [lists, handshaken, Shaky.info, shaken]

theorem shakyEnv_undisturbed (args : ScanArgs) (reachable : Text) (world : Shaky)
    (calls : List Call) :
    AllAnswered (shakyEnv args reachable).answer (Undisturbed (second + args.effectiveBudget))
      world calls := by
  refine allAnswered_of_forall (fun call _ world => ?_) world
  cases call with
  | now => exact Int.le_add_of_nonneg_right args.effectiveBudget_pos.le
  | done => rfl
  | sleep _ => rfl
  | listPeers => rfl
  | setPeer _ _ => rfl
  | setEndpointFast _ _ _ => rfl

theorem replay_install_shaky (args : ScanArgs) (reachable : Text) (index : Nat) (endpoint : Text)
    (world : Shaky) :
    replay (shakyEnv args reachable).answer world (args.install index endpoint) =
      world.moveTo reachable endpoint := by
  unfold ScanArgs.install ScanArgs.command
  split
  · exact if_pos rfl
  · exact if_pos rfl

/-- A round installs its candidate and leaves the peer alone otherwise. -/
theorem replay_untilWait_shaky (args : ScanArgs) (reachable : Text) (index : Nat) (endpoint : Text)
    (duration : Int) (world : Shaky) :
    replay (shakyEnv args reachable).answer world
        (args.untilWait index endpoint ++ [.sleep duration]) =
      world.moveTo reachable endpoint := by
  rw [ScanArgs.untilWait, replay_append, replay_append, replay_append, replay_install_shaky]
  unfold sampleCalls
  split
  · rfl
  · rfl

theorem shows_shaky (args : ScanArgs) (reachable endpoint : Text) (world : Shaky) :
    (shakyEnv args reachable).shows args second endpoint (world.moveTo reachable endpoint) =
      (world.moveTo reachable endpoint).shaken :=
  lists_info args (world.moveTo reachable endpoint)

/-- In this world, the loop reports an endpoint. -/
def Reports (args : ScanArgs) (reachable host : Text) (index : Nat) (ports : List Nat)
    (session : Session Call Shaky) (endpoint : Text) : Prop :=
  ∃ next, scanLoop (shakyEnv args reachable) args host second index ports session =
    .ok (some endpoint, next)

theorem reports_of_sampled {args : ScanArgs} {reachable host : Text} {index port : Nat}
    {rest : List Nat} {session : Session Call Shaky} (sampled : index = 0 ∨ index % 16 = 0)
    (shaken : (session.world.moveTo reachable (joinHostPort host (itoa port))).shaken = true) :
    Reports args reachable host index (port :: rest) session (joinHostPort host (itoa port)) := by
  obtain ⟨result, next, ran⟩ := total_scanLoop (shakyEnv args reachable) args host second index
    (port :: rest) session
  rcases scanLoop_undisturbed (shakyEnv_undisturbed args reachable) ran with
    ⟨_, _, rfl⟩ | ⟨unshown, _⟩
  · exact ⟨next, ran⟩
  · have dark := unshown sampled
    rw [replay_install_shaky, shows_shaky, shaken] at dark
    cases dark

theorem reports_of_passed {args : ScanArgs} {reachable host : Text} {index port : Nat}
    {rest : List Nat} {session : Session Call Shaky} {endpoint : Text}
    (passed : ¬ (index = 0 ∨ index % 16 = 0) ∨
      (session.world.moveTo reachable (joinHostPort host (itoa port))).shaken = false)
    (continues : ∀ middle : Session Call Shaky,
      middle.world = session.world.moveTo reachable (joinHostPort host (itoa port)) →
      Reports args reachable host (index + 1) rest middle endpoint) :
    Reports args reachable host index (port :: rest) session endpoint := by
  obtain ⟨result, next, ran⟩ := total_scanLoop (shakyEnv args reachable) args host second index
    (port :: rest) session
  rcases scanLoop_undisturbed (shakyEnv_undisturbed args reachable) ran with
    ⟨sampled, shown, _⟩ | ⟨_, duration, continued⟩
  · rw [replay_install_shaky, shows_shaky] at shown
    rcases passed with unsampled | unshaken
    · exact absurd sampled unsampled
    · exact absurd (unshaken.symm.trans shown) Bool.false_ne_true
  · have world : (session.after (shakyEnv args reachable).answer
        (args.untilWait index (joinHostPort host (itoa port)) ++ [.sleep duration])).world =
          session.world.moveTo reachable (joinHostPort host (itoa port)) :=
      replay_untilWait_shaky args reachable index (joinHostPort host (itoa port)) duration
        session.world
    obtain ⟨last, reported⟩ := continues _ world
    have same := continued.symm.trans reported
    cases same
    exact ⟨next, ran⟩

/-- After a handshake, or while the peer is reachable, the candidate at the next multiple of
sixteen is reported. -/
theorem reports_seventeenth {args : ScanArgs} {reachable host : Text} {index port : Nat}
    {ports : List Nat} {session : Session Call Shaky} (later : 0 < index) (early : index ≤ 16)
    (at16 : ports[16 - index]? = some port)
    (shaking : session.world.shaken = true ∨ session.world.endpoint = reachable) :
    Reports args reachable host index ports session (joinHostPort host (itoa port)) := by
  induction ports generalizing index session with
  | nil => cases at16
  | cons first rest inductionHypothesis =>
    have shaken : ∀ endpoint, (session.world.moveTo reachable endpoint).shaken = true := by
      intro endpoint
      simpa [Shaky.moveTo] using shaking
    rcases Nat.lt_or_eq_of_le early with before | rfl
    · refine reports_of_passed (Or.inl (by omega)) fun middle world => ?_
      refine inductionHypothesis (Nat.succ_pos index) before ?_ (Or.inl ?_)
      · rwa [show 16 - index = 16 - (index + 1) + 1 by omega, List.getElem?_cons_succ] at at16
      · rw [world, shaken]
    · obtain rfl : first = port := Option.some.inj at16
      exact reports_of_sampled (Or.inr rfl) (shaken _)

/-! ### When the scan is sound -/

theorem ScanArgs.reachable_eq {args : ScanArgs} {host : Text} {center : Int}
    (started : args.center = some (host, center)) (port : Nat) :
    args.reachable port = joinHostPort host (itoa port) := by
  obtain ⟨⟨portText, split⟩, _⟩ := args.center_eq_some started
  rw [ScanArgs.reachable, split]

/-- A scan that starts in this world and reports an endpoint. -/
theorem blindScanEndpoint_of_reports {args : ScanArgs} {reachable host endpoint : Text}
    {center : Int} (started : args.center = some (host, center))
    (long : 16 ≤ args.publicKey.length) {world : Shaky}
    (reported : Reports args reachable host 0 (prioritizedPorts center args.effectiveCount)
      ⟨world, [.now]⟩ endpoint) :
    ∃ next, blindScanEndpoint (shakyEnv args reachable) args ⟨world, []⟩ =
      .ok (some endpoint, next) := by
  obtain ⟨next, ran⟩ := reported
  exact ⟨next, (blindScanEndpoint_eq_ok started).mpr ⟨long, ran⟩⟩

/-- If such a scan reports an endpoint other than the reachable one, it is not sound. -/
theorem not_scanSound_of_reported {args : ScanArgs} {port : Nat} {start endpoint : Text}
    (reported : ∃ next, blindScanEndpoint (shakyEnv args (args.reachable port)) args
      ⟨⟨start, false⟩, []⟩ = .ok (some endpoint, next))
    (wrong : endpoint ≠ args.reachable port) : ¬ ScanSound args port := by
  intro sound
  obtain ⟨next, ran⟩ := reported
  refine wrong (sound Shaky _ (Shaky.view args) _ next endpoint (shakyEnv_reaches args _) ?_ ran)
  rintro ⟨recent, _⟩
  exact absurd recent (show ¬ unix second ≤ 0 by decide)

/-- If the right port is not the first candidate, the first one is reported after a handshake on
the right one. -/
theorem reports_first {args : ScanArgs} {reachable host : Text} {center : Int}
    (valid : ValidPort center) :
    Reports args reachable host 0 (prioritizedPorts center args.effectiveCount)
      ⟨⟨reachable, false⟩, [.now]⟩ (joinHostPort host (itoa center.toNat)) := by
  obtain ⟨rest, ports⟩ := prioritizedPorts_cons valid args.effectiveCount
  rw [ports]
  exact reports_of_sampled (Or.inl rfl) (by simp [Shaky.moveTo])

/-- If the right port is the first candidate, the seventeenth is reported after a handshake that
was completed between the two. -/
theorem reports_later {args : ScanArgs} {host : Text} {center : Int} {port : Nat}
    (valid : ValidPort center)
    (later : (prioritizedPorts center args.effectiveCount)[16]? = some port) :
    Reports args (joinHostPort host (itoa center.toNat)) host 0
      (prioritizedPorts center args.effectiveCount) ⟨⟨[], false⟩, [.now]⟩
      (joinHostPort host (itoa port)) := by
  obtain ⟨rest, ports⟩ := prioritizedPorts_cons valid args.effectiveCount
  rw [ports] at later ⊢
  have elsewhere : [] ≠ joinHostPort host (itoa center.toNat) := (joinHostPort_ne_nil _ _).symm
  refine reports_of_passed (Or.inr ?_) fun middle world => ?_
  · exact Bool.or_eq_false_iff.mpr ⟨rfl, decide_eq_false elsewhere⟩
  exact reports_seventeenth Nat.one_pos (by decide) later (Or.inr (by rw [world]; rfl))

/-- If the first candidate is the right one and at most sixteen are tried, nothing else is
reported. -/
theorem reported_first {env : Env World} {args : ScanArgs} {host : Text} {center scanStarted : Int}
    (valid : ValidPort center) (asked : 0 < args.count) (few : args.count ≤ 16) {endpoint : Text}
    {session next : Session Call World}
    (ran : scanLoop env args host scanStarted 0 (prioritizedPorts center args.effectiveCount)
      session = .ok (some endpoint, next)) :
    endpoint = joinHostPort host (itoa center.toNat) := by
  have length := length_prioritizedPorts center args.effectiveCount
  rw [args.candidateCount_effective asked] at length
  obtain ⟨rest, ports⟩ := prioritizedPorts_cons valid args.effectiveCount
  rw [ports] at ran length
  rw [List.length_cons] at length
  exact (scanLoop_few (by omega) ran).1

/-- A scan is not sound if the right port is not its first candidate. -/
theorem not_scanSound_of_other {args : ScanArgs} {port : Nat} {host : Text} {center : Int}
    (started : args.center = some (host, center)) (long : 16 ≤ args.publicKey.length)
    (other : center ≠ port) : ¬ ScanSound args port := by
  obtain ⟨_, valid, _⟩ := args.center_eq_some started
  have reported := blindScanEndpoint_of_reports started long
    (@reports_first args (args.reachable port) host center valid)
  refine not_scanSound_of_reported reported ?_
  rw [args.reachable_eq started]
  intro same
  have equal := joinHostPort_itoa_injective same
  obtain ⟨positive, _⟩ := valid
  omega

/-- A scan is not sound if it samples a second candidate. -/
theorem not_scanSound_of_many {args : ScanArgs} {port : Nat} {host : Text}
    (started : args.center = some (host, (port : Int))) (long : 16 ≤ args.publicKey.length)
    (many : 16 < args.count) : ¬ ScanSound args port := by
  obtain ⟨_, valid, asked⟩ := args.center_eq_some started
  have enough : 16 < candidateCount args.effectiveCount := by
    rw [args.candidateCount_effective asked]
    omega
  obtain ⟨other, later, different⟩ := prioritizedPorts_later valid Nat.one_le_ofNat enough
  have reported := blindScanEndpoint_of_reports started long (reports_later valid later)
  rw [Int.toNat_natCast] at reported different
  rw [← args.reachable_eq started] at reported
  refine not_scanSound_of_reported reported ?_
  rw [args.reachable_eq started]
  exact fun same => different (joinHostPort_itoa_injective same)

/-- When the scan is sound: in every world, it reports only the endpoint on which the peer is
reachable if and only if it reports nothing, or the right port is its first candidate and no
other one is sampled. -/
theorem scanSound_iff (args : ScanArgs) (port : Nat) :
    ScanSound args port ↔
      args.center = none ∨ args.publicKey.length < 16 ∨
        ∃ host, args.center = some (host, (port : Int)) ∧ args.count ≤ 16 := by
  constructor
  · intro sound
    by_contra other
    rw [not_or, not_or, not_lt] at other
    obtain ⟨accepted, long, notFirst⟩ := other
    obtain ⟨⟨host, center⟩, started⟩ := Option.ne_none_iff_exists'.mp accepted
    by_cases first : center = port
    · subst first
      have many : 16 < args.count := not_le.mp fun few => notFirst ⟨host, started, few⟩
      exact not_scanSound_of_many started long many sound
    · exact not_scanSound_of_other started long first sound
  · intro condition World env view session next endpoint _ _ ran
    obtain ⟨host, center, started, long, looped⟩ := blindScanEndpoint_eq_some ran
    obtain ⟨_, valid, asked⟩ := args.center_eq_some started
    rcases condition with refused | short | ⟨_, first, few⟩
    · rw [refused] at started
      cases started
    · omega
    · rw [started] at first
      obtain ⟨rfl, rfl⟩ := Prod.mk.inj (Option.some.inj first)
      rw [args.reachable_eq started]
      exact reported_first valid asked few looped

/-- A scan with the default settings of the daemon. -/
def defaultScan : ScanArgs where
  publicKey := text "AAAAAAAAAAAAAAAAAAAAAAAAAAAAAAAAAAAAAAAAAAA="
  oldEndpoint := text "203.0.113.5:51820"
  allowedIPs := text "10.200.200.3/32"
  keepAlive := 25
  baselineRx := 0
  count := 65535
  rate := 230
  budget := 330 * second

/-- The peer is reachable on the first candidate and the handshake completes right after the
first sample. The scan reports the seventeenth candidate, which is eight ports further. -/
theorem defaultScan_reports_later :
    defaultScan.reachable 51820 = text "203.0.113.5:51820" ∧ ¬ ScanSound defaultScan 51820 ∧
      ∃ next, blindScanEndpoint (shakyEnv defaultScan (text "203.0.113.5:51820")) defaultScan
        ⟨⟨[], false⟩, []⟩ = .ok (some (text "203.0.113.5:51828"), next) := by
  have right : defaultScan.reachable 51820 = text "203.0.113.5:51820" := by decide +kernel
  have started : defaultScan.center = some (text "203.0.113.5", 51820) := by decide +kernel
  have long : 16 ≤ defaultScan.publicKey.length := by decide
  have later : (prioritizedPorts 51820 defaultScan.effectiveCount)[16]? = some 51828 := by
    have range : List.range 513 = List.range 9 ++ List.range' 9 504 := by decide +kernel
    have offered : ∃ rest, offeredPorts 51820 = ((List.range 9).flatMap fun d : Nat =>
        if d ≠ 0 then [51820 - (d : Int), 51820 + (d : Int)] else [51820 - (d : Int)]) ++ rest := by
      rw [offeredPorts, range, List.flatMap_append]
      simp only [List.append_assoc]
      exact ⟨_, rfl⟩
    obtain ⟨rest, offered⟩ := offered
    exact getElem?_prioritizedPorts offered (by decide +kernel) (by decide)
  have reported := blindScanEndpoint_of_reports started long
    (reports_later (by decide) later)
  have addresses : joinHostPort (text "203.0.113.5") (itoa (51820 : Int).toNat) =
        text "203.0.113.5:51820" ∧
      joinHostPort (text "203.0.113.5") (itoa (51828 : Nat)) = text "203.0.113.5:51828" := by
    decide +kernel
  rw [addresses.1, addresses.2] at reported
  refine ⟨right, ?_, reported⟩
  rw [← right] at reported
  exact not_scanSound_of_reported reported (by rw [right]; decide)

end WgMesh.Meshd
