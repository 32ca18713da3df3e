/-
This file settles when a peer that a blind scan has found has its route back.

Only the command for the first candidate carries the allowed IPs and the
keepalive of the peer, and a command that fails is passed over like any other. So
a scan may find the peer at a later sample although it never restored the route.
It restores the route in every world exactly when no later candidate is sampled.
-/

import WgMesh.Meshd.Completeness

namespace WgMesh.Meshd

open Go Uapi

variable {World : Type}

/-- A command gives the peer its allowed IPs and its keepalive back, and succeeds. -/
def RestoredBy (args : ScanArgs) : (call : Call) → Reply call → Prop
  | .setPeer _ config, succeeded => config.publicKey = args.publicKey ∧
      config.allowedIPs = args.allowedIPs ∧ config.keepAlive = args.keepAlive ∧ succeeded = true
  | _, _ => False

/-- In every world, a scan that reports an endpoint has restored the route on its way. -/
def RestoresRoute (args : ScanArgs) : Prop :=
  ∀ (World : Type) (env : Env World) (session : Session Call World) (calls : List Call)
    (endpoint : Text),
    blindScanEndpoint env args session = .ok (some endpoint, session.after env.answer calls) →
    SomeAnswered env.answer (RestoredBy args) session.world calls

/-- The command for the first candidate succeeds in a scan that starts in this world. -/
def FirstSucceeds (env : Env World) (args : ScanArgs) (world : World) : Prop :=
  ∃ host center, args.center = some (host, center) ∧
    env.succeeds (args.command 0 (joinHostPort host (itoa center.toNat)))
      (replay env.answer world [.now, .now, .done]) = true

/-! ### The command for the first candidate -/

def Call.IsSetPeer : Call → Prop
  | .setPeer _ _ => True
  | _ => False

/-- After the first candidate, the loop does not use `SetPeer`. -/
theorem emits_scanLoop_later (env : Env World) (args : ScanArgs) (host : Text) (scanStarted : Int)
    {index : Nat} (later : 0 < index) (ports : List Nat) :
    Emits env.answer (fun call => ¬ call.IsSetPeer)
      (scanLoop env args host scanStarted index ports) := by
  refine emits_scanLoop_of env args host scanStarted id id (fun _ => id) id ?_
  intro candidate reached port _
  exact emits_ite (fun first => absurd first (by omega)) fun _ => emits_perform id

theorem isSetPeer_of_restoredBy {args : ScanArgs} {call : Call} {reply : Reply call}
    (restored : RestoredBy args call reply) : call.IsSetPeer := by
  cases call with
  | setPeer _ _ => exact trivial
  | now => exact restored
  | done => exact restored
  | sleep _ => exact restored
  | listPeers => exact restored
  | setEndpointFast _ _ _ => exact restored

/-- Of the calls that install the first candidate, the command may restore the route. -/
theorem restored_install_iff {env : Env World} {args : ScanArgs} {endpoint : Text} {world : World} :
    SomeAnswered env.answer (RestoredBy args) world (args.install 0 endpoint) ↔
      env.succeeds (args.command 0 endpoint) (replay env.answer world [.now, .done]) = true := by
  constructor
  · rintro (now | done | restored | none)
    · exact now.elim
    · exact done.elim
    · exact restored.2.2.2
    · exact none.elim
  · exact fun succeeded => Or.inr (Or.inr (Or.inl ⟨rfl, rfl, rfl, succeeded⟩))

/-- A round after which the scan goes on installs its candidate first. -/
theorem ScanRound.exists_install {env : Env World} {args : ScanArgs} {scanStarted : Int}
    {index : Nat} {endpoint : Text} {world : World} {calls : List Call}
    (round : ScanRound env args scanStarted index endpoint world calls none) :
    ∃ more, calls = args.install index endpoint ++ more ∧ ∀ call ∈ more, ¬ call.IsSetPeer := by
  cases round with
  | refused _ =>
    exact ⟨[], (List.append_nil _).symm, List.forall_mem_nil _⟩
  | passed duration _ _ =>
    refine ⟨sampleCalls index ++ [.now] ++ [.sleep duration], ?_, ?_⟩
    · rw [ScanArgs.untilWait, List.append_assoc, List.append_assoc, List.append_assoc]
    · unfold sampleCalls
      split
      · simp [Call.IsSetPeer]
      · simp [Call.IsSetPeer]

/-- The calls of a loop that reports an endpoint. -/
theorem scanLoop_exists_install {env : Env World} {args : ScanArgs} {host : Text}
    {scanStarted : Int} {port : Nat} {rest : List Nat} {session : Session Call World}
    {calls : List Call} {reported : Text}
    (ran : scanLoop env args host scanStarted 0 (port :: rest) session =
      .ok (some reported, session.after env.answer calls)) :
    ∃ more, calls = args.install 0 (joinHostPort host (itoa port)) ++ more ∧
      ∀ call ∈ more, ¬ call.IsSetPeer := by
  rcases scanLoop_reports ran with ⟨_, _, _, ended⟩ | ⟨made, round, continued⟩
  · refine ⟨[.listPeers], Session.after_injective ended, ?_⟩
    simp [Call.IsSetPeer]
  · obtain ⟨first, rfl, noneFirst⟩ := round.exists_install
    obtain ⟨more, grown, noneMore⟩ :=
      (emits_scanLoop_later _ _ _ _ Nat.one_pos _ _ _ _ continued).exists_after
    rw [← Session.after_append] at grown
    refine ⟨first ++ more, ?_, List.forall_mem_append.mpr ⟨noneFirst, noneMore⟩⟩
    rw [Session.after_injective grown, List.append_assoc]

/-- A scan that reports an endpoint has restored the route if and only if the command for its
first candidate has succeeded. -/
theorem restored_iff {env : Env World} {args : ScanArgs} {session : Session Call World}
    {calls : List Call} {endpoint : Text}
    (ran : blindScanEndpoint env args session =
      .ok (some endpoint, session.after env.answer calls)) :
    SomeAnswered env.answer (RestoredBy args) session.world calls ↔
      FirstSucceeds env args session.world := by
  obtain ⟨host, center, started, _, looped⟩ := blindScanEndpoint_eq_some ran
  obtain ⟨_, valid, _⟩ := args.center_eq_some started
  obtain ⟨rest, ports⟩ := prioritizedPorts_cons valid args.effectiveCount
  obtain ⟨made, rfl, remaining⟩ := (emits_scanLoop _ _ _ _ _ _).exists_append looped
  rw [ports] at remaining
  have first : FirstSucceeds env args session.world ↔
      SomeAnswered env.answer (RestoredBy args) (session.after env.answer [.now]).world
        (args.install 0 (joinHostPort host (itoa center.toNat))) := by
    refine Iff.trans ?_ restored_install_iff.symm
    constructor
    · rintro ⟨_, _, startedToo, succeeded⟩
      rw [started] at startedToo
      obtain ⟨rfl, rfl⟩ := Prod.mk.inj (Option.some.inj startedToo)
      exact succeeded
    · exact fun succeeded => ⟨host, center, started, succeeded⟩
  obtain ⟨more, rfl, later⟩ := scanLoop_exists_install remaining
  rw [someAnswered_append, someAnswered_append, first]
  constructor
  · rintro (began | restored | restored)
    · obtain ⟨call, member, _, restored⟩ := began.exists_call
      rw [List.mem_singleton.mp member] at restored
      exact restored.elim
    · exact restored
    · obtain ⟨call, member, _, restored⟩ := restored.exists_call
      exact absurd (isSetPeer_of_restoredBy restored) (later call member)
  · exact fun restored => Or.inr (Or.inl restored)

/-- If only the first candidate is sampled, it is reported after its command has succeeded. -/
theorem restoresRoute_of_few {args : ScanArgs} (few : args.count ≤ 16) : RestoresRoute args := by
  intro World env session calls endpoint ran
  obtain ⟨host, center, started, _, looped⟩ := blindScanEndpoint_eq_some ran
  obtain ⟨_, valid, asked⟩ := args.center_eq_some started
  have length := length_prioritizedPorts center args.effectiveCount
  rw [args.candidateCount_effective asked] at length
  obtain ⟨rest, ports⟩ := prioritizedPorts_cons valid args.effectiveCount
  rw [ports] at looped length
  rw [List.length_cons] at length
  obtain ⟨_, succeeded, _⟩ := scanLoop_few (by omega) looped
  exact (restored_iff ran).mpr ⟨host, center, started, succeeded⟩

/-! ### A world in which the first command fails -/

/-- One second after the epoch, `SetPeer` fails and all else succeeds. The peer has shaken
hands. -/
def refusingEnv (args : ScanArgs) : Env Text where
  answer := fun call endpoint => match call with
    | .now => (second, endpoint)
    | .done => (false, endpoint)
    | .sleep _ => (false, endpoint)
    | .listPeers => (some [Shaky.info args ⟨endpoint, true⟩], endpoint)
    | .setPeer _ _ => (false, endpoint)
    | .setEndpointFast _ publicKey candidate =>
      (true, if publicKey = args.publicKey then candidate else endpoint)
  order := fun _ keys => keys
  order_perm := fun _ keys => List.Perm.refl keys

theorem refusingEnv_keeps (args : ScanArgs) :
    (refusingEnv args).Keeps args.publicKey fun endpoint => Shaky.view args ⟨endpoint, true⟩ where
  handshake := fun _ _ => Int.le_refl _
  rx := fun _ _ => Int.le_refl _
  endpoint := by
    intro call endpoint other
    cases call with
    | now => rfl
    | done => rfl
    | sleep _ => rfl
    | listPeers => rfl
    | setPeer _ _ => rfl
    | setEndpointFast _ _ _ => exact if_neg other
  setPeer := by
    intro _ _ _ _ succeeded
    cases succeeded
  setEndpointFast := fun _ _ _ _ => if_pos rfl
  listPeers := by
    intro endpoint peers listed
    cases listed
    exact ⟨_, List.mem_singleton_self _, rfl, rfl, Int.le_refl _, Int.le_refl _, Int.le_refl _,
      Int.le_refl _⟩

theorem refusingEnv_undisturbed (args : ScanArgs) {calls : List Call}
    (later : ∀ call ∈ calls, ¬ call.IsSetPeer) (endpoint : Text) :
    AllAnswered (refusingEnv args).answer (Undisturbed (second + args.effectiveBudget)) endpoint
      calls := by
  refine allAnswered_of_forall (fun call member world => ?_) endpoint
  cases call with
  | now => exact Int.le_add_of_nonneg_right args.effectiveBudget_pos.le
  | done => rfl
  | sleep _ => rfl
  | listPeers => rfl
  | setPeer _ _ => exact absurd trivial (later _ member)
  | setEndpointFast _ _ _ => rfl

/-- The first command is passed over. -/
theorem scanLoop_refusing {args : ScanArgs} {host : Text} {port : Nat} {rest : List Nat}
    {session next : Session Call Text} {result : Option Text}
    (ran : scanLoop (refusingEnv args) args host second 0 (port :: rest) session =
      .ok (result, next)) :
    scanLoop (refusingEnv args) args host second 1 rest
      (session.after (refusingEnv args).answer
        (args.install 0 (joinHostPort host (itoa port)))) = .ok (result, next) := by
  have timely : ¬ second + args.effectiveBudget < second := by
    have positive := args.effectiveBudget_pos
    omega
  rcases scanLoop_round ran with ⟨calls, round, _⟩ | ⟨calls, round, continued⟩
  · cases round with
    | timedOut late => exact absurd late timely
    | cancelled closed => cases closed
    | found succeeded _ _ => cases succeeded
    | stopped _ closed => cases closed
  · cases round with
    | refused _ => exact continued
    | passed _ succeeded _ => cases succeeded

/-- The scan finds the peer at its seventeenth candidate. -/
theorem blindScanEndpoint_refusing {args : ScanArgs} {host : Text} {center : Int}
    (started : args.center = some (host, center)) (long : 16 ≤ args.publicKey.length)
    (many : 16 < args.count) (session : Session Call Text) :
    ∃ endpoint calls, blindScanEndpoint (refusingEnv args) args session =
      .ok (some endpoint, session.after (refusingEnv args).answer calls) := by
  obtain ⟨_, valid, asked⟩ := args.center_eq_some started
  have length := length_prioritizedPorts center args.effectiveCount
  rw [args.candidateCount_effective asked] at length
  obtain ⟨⟨result, next⟩, ran⟩ :=
    (returns_blindScanEndpoint (refusingEnv args) args session).mpr (Or.inr long)
  cases result with
  | some endpoint =>
    obtain ⟨calls, rfl, _⟩ := (emits_blindScanEndpoint _ _ _ _ _ ran).exists_after
    exact ⟨endpoint, calls, ran⟩
  | none =>
    obtain ⟨rest, ports⟩ := prioritizedPorts_cons valid args.effectiveCount
    have looped := ((blindScanEndpoint_eq_ok started).mp ran).2
    rw [ports] at looped length
    rw [List.length_cons] at length
    have continued := scanLoop_refusing looped
    obtain ⟨calls, rfl, later⟩ :=
      (emits_scanLoop_later _ _ _ _ Nat.one_pos _ _ _ _ continued).exists_after
    -- The seventeenth candidate is sampled, and the handshake is always there to be seen.
    have sampled : Sampled 16 := Or.inr rfl
    obtain ⟨before, _, _, _, unrecorded⟩ := scanLoop_unrecorded (refusingEnv_keeps args) sampled
      (by omega) (by omega) continued (refusingEnv_undisturbed args later _)
    exact absurd (Shaky.records rfl) unrecorded

/-- No command restores the route in this world. -/
theorem not_restored_refusing (args : ScanArgs) (endpoint : Text) (calls : List Call) :
    ¬ SomeAnswered (refusingEnv args).answer (RestoredBy args) endpoint calls := by
  intro restores
  obtain ⟨call, _, world, restored⟩ := restores.exists_call
  cases call with
  | setPeer _ _ => exact absurd restored.2.2.2 Bool.false_ne_true
  | _ => exact isSetPeer_of_restoredBy restored

/-- When a recovered peer has its route back: a scan that reports an endpoint has restored the
route if and only if the command for its first candidate succeeds. This is so in every world if
and only if the scan reports nothing, or has at most sixteen candidates. -/
theorem restoresRoute_iff (args : ScanArgs) :
    (∀ (World : Type) (env : Env World) (session : Session Call World) (calls : List Call)
        (endpoint : Text), blindScanEndpoint env args session =
          .ok (some endpoint, session.after env.answer calls) →
        (SomeAnswered env.answer (RestoredBy args) session.world calls ↔
          FirstSucceeds env args session.world)) ∧
      (RestoresRoute args ↔
        args.center = none ∨ args.publicKey.length < 16 ∨ args.count ≤ 16) := by
  refine ⟨fun _ _ _ _ _ ran => restored_iff ran, ?_, ?_⟩
  · intro restores
    by_contra other
    simp only [not_or, not_lt, not_le] at other
    obtain ⟨accepted, long, many⟩ := other
    obtain ⟨⟨host, center⟩, started⟩ := Option.ne_none_iff_exists'.mp accepted
    obtain ⟨endpoint, calls, ran⟩ := blindScanEndpoint_refusing started long many ⟨[], []⟩
    exact not_restored_refusing args _ calls (restores Text _ _ calls endpoint ran)
  · rintro (refused | short | few)
    · intro World env session calls endpoint ran
      cases (blindScanEndpoint_of_refused refused ran).1
    · intro World env session calls endpoint ran
      obtain ⟨_, _, _, long, _⟩ := blindScanEndpoint_eq_some ran
      exact absurd short (not_lt.mpr long)
    · exact restoresRoute_of_few few

/-- The default scan: its first command fails, it finds the peer all the same, and the route was
never restored. -/
theorem defaultScan_loses_route :
    ¬ RestoresRoute defaultScan ∧
      ∃ endpoint calls, blindScanEndpoint (refusingEnv defaultScan) defaultScan ⟨[], []⟩ =
          .ok (some endpoint, Session.after (refusingEnv defaultScan).answer ⟨[], []⟩ calls) ∧
        ¬ SomeAnswered (refusingEnv defaultScan).answer (RestoredBy defaultScan) [] calls := by
  have started : defaultScan.center = some (text "203.0.113.5", 51820) := by decide +kernel
  obtain ⟨endpoint, calls, ran⟩ := blindScanEndpoint_refusing started (by decide) (by decide)
    ⟨[], []⟩
  have lost := not_restored_refusing defaultScan [] calls
  exact ⟨fun restores => lost (restores Text _ _ calls endpoint ran), endpoint, calls, ran, lost⟩

end WgMesh.Meshd
