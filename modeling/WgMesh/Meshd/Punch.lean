/-
This file models the punch-plan callback of the daemon and `runPunchPlan`, and
settles what a plan from the network can make the daemon write to the device.

A plan is data from an unauthenticated message. The daemon passes the plan's key
and each of its candidates to `SetEndpointFast`, whatever they contain. So the
UAPI requests a plan leads to are the requests that were meant exactly when no
candidate has a line feed, unless the plan is ignored or its key is not one.

The two waiting loops run until the world's clock ends them. They are given a
number of rounds, and a process whose rounds are used up is still running.
-/

import WgMesh.Dht.Node
import WgMesh.Meshd.Calls
import WgMesh.Uapi.Socket

namespace WgMesh.Meshd

open Go Uapi Dht

variable {World : Type}

/-- `time.Until`, which saturates. -/
def timeUntil (time now : Int) : Int := max (-2 ^ 63) (min (2 ^ 63 - 1) (time - now))

/-- How a waiting loop ended. -/
inductive Waited where
  /-- What it waited for has come. -/
  | met
  /-- Its time was over. -/
  | over
  /-- It has used up its rounds and is still waiting. -/
  | waiting
  deriving DecidableEq, Repr

/-- The loop that waits for the start of a plan. -/
def awaitStart (env : Env World) (start : Int) : Nat → Process World Waited
  | 0 => return .waiting
  | rounds + 1 => do
    let now ← env.call .now
    let remaining := timeUntil start now
    if remaining ≤ 0 then return .met
    else do
      let _ ← env.call (.sleep (if 50 * millisecond < remaining then remaining - 25 * millisecond
        else remaining))
      awaitStart env start rounds

/-- The loop that polls the listing for the window of one candidate. -/
def pollWindow (env : Env World) (found : PeerInfo → Bool) (deadline : Int) :
    Nat → Process World Waited
  | 0 => return .waiting
  | rounds + 1 => do
    let now ← env.call .now
    if now < deadline then do
      let listing ← env.call .listPeers
      if lists found listing then return .met
      else do
        let _ ← env.call (.sleep (50 * millisecond))
        pollWindow env found deadline rounds
    else return .over

/-- The loop over the candidates of a plan. -/
def tryCandidates (env : Env World) (rounds : Nat) (publicKey : Text)
    (window startedAt baselineRx : Int) : List Text → Process World Unit
  | [] => return ()
  | endpoint :: rest => do
    let set ← env.call (.setEndpointFast .punch publicKey endpoint)
    if set then do
      let now ← env.call .now
      let waited ← pollWindow env (handshaken publicKey endpoint startedAt baselineRx)
        (now + window) rounds
      if waited = .over then
        tryCandidates env rounds publicKey window startedAt baselineRx rest
      else return ()
    else tryCandidates env rounds publicKey window startedAt baselineRx rest

/-- The receive counter of a peer in a listing. -/
def baselineRx (publicKey : Text) (peers : List PeerInfo) : Int :=
  ((peers.find? fun peer => peer.publicKey = publicKey).map PeerInfo.transferRx).getD 0

/-- The window of a plan, by default 500 ms. -/
def punchWindow (plan : DhtMessage) : Int :=
  let window := wrap64 (plan.punchWindowMs * millisecond)
  if window ≤ 0 then 500 * millisecond else window

def runPunchPlan (env : Env World) (rounds : Nat) (plan : DhtMessage) : Process World Unit := do
  let waited ← awaitStart env (plan.punchStartUnix * millisecond) rounds
  if waited = .met then do
    let listing ← env.call .listPeers
    match listing with
    | none => return ()
    | some peers => do
      let now ← env.call .now
      tryCandidates env rounds plan.targetPublicKey (punchWindow plan) (unix now)
        (baselineRx plan.targetPublicKey peers) plan.punchPorts
  else return ()

/-- The plan is dropped by the callback. -/
def Ignored (selfKey : Text) (plan : DhtMessage) : Prop :=
  plan.targetPublicKey = [] ∨ plan.targetPublicKey = selfKey ∨ plan.punchPorts = []

instance (selfKey : Text) (plan : DhtMessage) : Decidable (Ignored selfKey plan) :=
  inferInstanceAs (Decidable (_ ∨ _))

/-- The callback `main` registers for punch plans. -/
def punchPlanCallback (env : Env World) (rounds : Nat) (selfKey : Text) (plan : DhtMessage) :
    Process World Unit :=
  if Ignored selfKey plan then return () else runPunchPlan env rounds plan

/-! ### The commands a plan leads to -/

/-- The only commands are those of the plan's key and candidates. -/
def Call.OfPlan (publicKey : Text) (candidates : List Text) : Call → Prop
  | .setEndpointFast _ key endpoint => key = publicKey ∧ endpoint ∈ candidates
  | .setPeer _ _ => False
  | _ => True

theorem emits_awaitStart (env : Env World) (start : Int) (rounds : Nat) (publicKey : Text)
    (candidates : List Text) :
    Emits env.answer (Call.OfPlan publicKey candidates) (awaitStart env start rounds) := by
  induction rounds with
  | zero => exact emits_pure _
  | succ rounds inductionHypothesis =>
    refine emits_bind (emits_perform trivial) fun now => emits_ite (fun _ => emits_pure _) ?_
    exact fun _ => emits_bind (emits_perform trivial) fun _ => inductionHypothesis

theorem emits_pollWindow (env : Env World) (found : PeerInfo → Bool) (deadline : Int)
    (rounds : Nat) (publicKey : Text) (candidates : List Text) :
    Emits env.answer (Call.OfPlan publicKey candidates) (pollWindow env found deadline rounds) := by
  induction rounds with
  | zero => exact emits_pure _
  | succ rounds inductionHypothesis =>
    refine emits_bind (emits_perform trivial) fun now => emits_ite (fun _ => ?_)
      fun _ => emits_pure _
    refine emits_bind (emits_perform trivial) fun listing => emits_ite (fun _ => emits_pure _) ?_
    exact fun _ => emits_bind (emits_perform trivial) fun _ => inductionHypothesis

theorem emits_tryCandidates (env : Env World) (rounds : Nat) (publicKey : Text)
    (window startedAt baseline : Int) {candidates tried : List Text}
    (among : ∀ endpoint ∈ tried, endpoint ∈ candidates) :
    Emits env.answer (Call.OfPlan publicKey candidates)
      (tryCandidates env rounds publicKey window startedAt baseline tried) := by
  induction tried with
  | nil => exact emits_pure _
  | cons endpoint rest inductionHypothesis =>
    have further := inductionHypothesis fun other member =>
      among other (List.mem_cons_of_mem _ member)
    refine emits_bind (emits_perform ⟨rfl, among endpoint List.mem_cons_self⟩) fun set =>
      emits_ite (fun _ => ?_) fun _ => further
    refine emits_bind (emits_perform trivial) fun now => ?_
    refine emits_bind (emits_pollWindow _ _ _ _ _ _) fun waited => ?_
    exact emits_ite (fun _ => further) fun _ => emits_pure _

/-- Whatever a plan contains, the daemon only sets the plan's key to the plan's candidates. -/
theorem emits_punchPlanCallback (env : Env World) (rounds : Nat) (selfKey : Text)
    (plan : DhtMessage) :
    Emits env.answer (Call.OfPlan plan.targetPublicKey plan.punchPorts)
      (punchPlanCallback env rounds selfKey plan) := by
  refine emits_ite (fun _ => emits_pure _) fun _ => ?_
  refine emits_bind (emits_awaitStart _ _ _ _ _) fun waited =>
    emits_ite (fun _ => ?_) fun _ => emits_pure _
  refine emits_bind (emits_perform trivial) fun listing => ?_
  cases listing with
  | none => exact emits_pure _
  | some peers =>
    exact emits_bind (emits_perform trivial) fun now =>
      emits_tryCandidates _ _ _ _ _ _ fun _ member => member

/-! ### A world in which every candidate is tried -/

/-- The plan's start has come, the listing is empty, and no command succeeds. -/
def refusing (start : Int) : Env Unit where
  answer := fun call _ => match call with
    | .now => (start, ())
    | .done => (false, ())
    | .sleep _ => (false, ())
    | .listPeers => (some [], ())
    | .setPeer _ _ => (false, ())
    | .setEndpointFast _ _ _ => (false, ())
  order := fun _ keys => keys
  order_perm := fun _ keys => List.Perm.refl keys

theorem tryCandidates_refusing (start : Int) (rounds : Nat) (publicKey : Text)
    (window startedAt baseline : Int) (tried : List Text) (session : Session Call Unit) :
    tryCandidates (refusing start) rounds publicKey window startedAt baseline tried session =
      .ok ((), { world := (), calls := session.calls ++
        tried.map (.setEndpointFast .punch publicKey ·) }) := by
  induction tried generalizing session with
  | nil => rw [List.map_nil, List.append_nil]; rfl
  | cons endpoint rest inductionHypothesis =>
    show tryCandidates (refusing start) rounds publicKey window startedAt baseline rest
      { world := (), calls := session.calls ++ [.setEndpointFast .punch publicKey endpoint] } = _
    rw [inductionHypothesis, List.append_assoc, List.map_cons, List.singleton_append]

/-- A plan that is not ignored can have every one of its candidates tried. -/
theorem punchPlanCallback_refusing (selfKey : Text) {plan : DhtMessage}
    (taken : ¬ Ignored selfKey plan) :
    punchPlanCallback (refusing (plan.punchStartUnix * millisecond)) 1 selfKey plan
        { world := (), calls := [] } =
      .ok ((), { world := (), calls := [.now, .listPeers, .now] ++
        plan.punchPorts.map (.setEndpointFast .punch plan.targetPublicKey ·) }) := by
  have started : timeUntil (plan.punchStartUnix * millisecond)
      (plan.punchStartUnix * millisecond) ≤ 0 := by
    unfold timeUntil
    rw [sub_self]
    decide
  have awaited : awaitStart (refusing (plan.punchStartUnix * millisecond))
      (plan.punchStartUnix * millisecond) 1 { world := (), calls := [] } =
      .ok (.met, { world := (), calls := [.now] }) := by
    show (if timeUntil (plan.punchStartUnix * millisecond) (plan.punchStartUnix * millisecond) ≤ 0
      then _ else _ : Process Unit Waited) { world := (), calls := [.now] } = _
    rw [if_pos started]
    rfl
  rw [punchPlanCallback, if_neg taken]
  refine proc_bind_eq_ok.mpr ⟨_, _, awaited, ?_⟩
  show tryCandidates _ _ _ _ _ _ _ { world := (), calls := [.now, .listPeers, .now] } = _
  exact tryCandidates_refusing _ _ _ _ _ _ _ _

/-! ### The requests a plan leads to -/

/-- Every text that the commands of a plan write to the UAPI socket is the one request for the
decoded key and the given endpoint, in every world and for every behaviour of the sockets. -/
def RequestsMeant (client : Client) (selfKey : Text) (plan : DhtMessage) : Prop :=
  ∀ (World : Type) (env : Env World) (rounds : Nat) (session next : Session Call World),
    punchPlanCallback env rounds selfKey plan session = .ok ((), next) →
    ∀ site publicKey endpoint,
      .setEndpointFast site publicKey endpoint ∈ next.calls.drop session.calls.length →
      ∀ sockets path request,
        .wrote path request ∈ (client.setEndpointFast sockets publicKey endpoint).2 →
        ∃ key, decodeKey publicKey = some key ∧ IsSetEndpoint request key endpoint

/-- In the world that tries every candidate, a candidate with a line feed reaches the socket. -/
theorem RequestsMeant.oneLine {client : Client} {selfKey : Text} {plan : DhtMessage}
    (meant : RequestsMeant client selfKey plan) (taken : ¬ Ignored selfKey plan)
    {key : List UInt8} (decoded : decodeKey plan.targetPublicKey = some key) :
    ∀ endpoint ∈ plan.punchPorts, 10 ∉ endpoint := by
  intro endpoint candidate
  let sockets : Sockets :=
    { outcome := fun _ => .answers (some (text "errno=0")), command := true }
  have answers : ∀ path, sockets.outcome path ≠ .unreachable :=
    fun _ => SocketOutcome.noConfusion
  obtain ⟨path, wrote⟩ := client.wrote_of_answers answers decoded endpoint
  obtain ⟨other, decodedAgain, request⟩ := meant Unit _ 1 _ _
    (punchPlanCallback_refusing selfKey taken) .punch plan.targetPublicKey endpoint
    (List.mem_append_right _ (List.mem_map_of_mem candidate)) sockets path _ wrote
  rw [decoded] at decodedAgain
  cases decodedAgain
  exact (isSetEndpoint_setRequest key endpoint).mp request

/-- What a plan makes the daemon write to the UAPI socket is what was meant exactly when the
plan is ignored, its key is not the encoding of 32 bytes, or none of its candidates has a line
feed. -/
theorem requestsMeant_iff (client : Client) (selfKey : Text) (plan : DhtMessage) :
    RequestsMeant client selfKey plan ↔
      Ignored selfKey plan ∨ decodeKey plan.targetPublicKey = none ∨
        ∀ endpoint ∈ plan.punchPorts, 10 ∉ endpoint := by
  constructor
  · intro meant
    by_cases taken : Ignored selfKey plan
    · exact Or.inl taken
    · refine Or.inr ?_
      cases decoded : decodeKey plan.targetPublicKey with
      | none => exact Or.inl rfl
      | some key => exact Or.inr (meant.oneLine taken decoded)
  · intro harmless World env rounds session next ran site publicKey endpoint issued sockets path
      request wrote
    obtain ⟨rfl, candidate⟩ :=
      (emits_punchPlanCallback env rounds selfKey plan session () next ran).drop _ issued
    obtain ⟨key, decoded, rfl⟩ := Client.wrote_setRequest wrote
    refine ⟨key, decoded, (isSetEndpoint_setRequest key endpoint).mpr ?_⟩
    rcases harmless with ignored | undecodable | oneLine
    · rw [punchPlanCallback, if_pos ignored] at ran
      cases ran
      rw [List.drop_length] at issued
      cases issued
    · rw [decoded] at undecodable
      cases undecodable
    · exact oneLine endpoint candidate

/-- A plan for a key whose one candidate carries two more lines. -/
def removingPlan : DhtMessage where
  type := .punchPlan
  targetPublicKey := text "AAAAAAAAAAAAAAAAAAAAAAAAAAAAAAAAAAAAAAAAAAA="
  punchPorts := [text "203.0.113.5:51820\npublic_key=" ++
    hexEncode (List.replicate 32 1) ++ text "\nremove=true"]

/-- The request such a plan leads to also names and removes another peer. -/
theorem removingPlan_request :
    ¬ RequestsMeant { iface := text "wg0", program := text "wg", programArgs := [] }
        (text "self") removingPlan ∧
    (removingPlan.punchPorts.map fun endpoint =>
      (readRequest (setRequest (List.replicate 32 0) endpoint)).map fun request =>
        request.1.map Prod.fst) =
      [some [text "set", text "public_key", text "endpoint", text "public_key",
        text "remove"]] := by
  refine ⟨fun meant => ?_, by decide +kernel⟩
  have decoded : decodeKey removingPlan.targetPublicKey = some (List.replicate 32 0) := by
    decide +kernel
  exact absurd (meant.oneLine (by decide) decoded) (by decide +kernel)

end WgMesh.Meshd
