/-
This file puts the predictor's probes on a network. A written request leaves
through the NAT, which gives it an external port, and a server may answer it with
a response that carries this port and the request's transaction id. The network
may hold a response back, deliver it twice or never; a read that does not time
out takes one datagram that answers any of the requests written so far.

All requests carry the same transaction id and the parser compares none, so a
probe is credited with the port that the parser gets out of whatever response is
read. That port was reported for the probe's own target in exactly the runs in
which no response is read that tells of a port reported for other targets only.
-/

import WgMesh.Traversal.Predictor

namespace WgMesh.Traversal

open Go

/-! ### The network of a predictor -/

/-- A request that was written, with the port the NAT sent it from. -/
structure Sent where
  destination : Text
  external : Nat
  deriving DecidableEq, Repr

structure Probing where
  predictor : PortPredictor
  sent : List Sent
  /-- The samples that probes have taken, each with the target of the probe that took it. -/
  credited : List (Text × Int)

/-- How a probe goes. An answer is to the request at a position among those written so far, the
probe's own being the last. -/
inductive Attempt where
  | unresolved
  | unsent
  | unanswered (external : Nat)
  | answered (external choice : Nat) (response : Response)

/-- The transaction id of every request. -/
def transactionID : List UInt8 := buildStunRequest.drop 8

/-- The exchange of a probe, and the request it has written. -/
def Probing.exchange (probing : Probing) : Attempt → Option (Exchange × List Sent)
  | .unresolved => some (.unresolved, [])
  | .unsent => some (.unsent, [])
  | .unanswered external => some (.unread, [⟨probing.predictor.target, external⟩])
  | .answered external choice response => do
    let own : Sent := ⟨probing.predictor.target, external⟩
    let request ← (probing.sent ++ [own])[choice]?
    if response.port = request.external ∧ response.transaction = transactionID then
      return (.received response.encode, [own])
    else none

/-- One probe. -/
def Probing.step (probing : Probing) (attempt : Attempt) : Option Probing := do
  let (exchange, written) ← probing.exchange attempt
  let (next, _) ← (probing.predictor.probe exchange).toOption
  return {
    predictor := next
    sent := probing.sent ++ written
    credited := probing.credited ++ (next.samples.drop probing.predictor.samples.length).map
      (probing.predictor.target, ·) }

/-- A predictor with a socket that has probed nothing yet. -/
def Probing.start (items : List Text) : Probing where
  predictor := PortPredictor.new items true
  sent := []
  credited := []

/-- Some request to a target left from this port. -/
def Reported (sent : List Sent) (target : Text) (port : Int) : Prop :=
  ∃ request ∈ sent, request.destination = target ∧ (request.external : Int) = port

/-- Every sample is a port that the NAT gave a request to the target of its probe. -/
def Probing.Matched (probing : Probing) : Prop :=
  ∀ sample ∈ probing.credited, Reported probing.sent sample.1 sample.2

/-- A response that is read tells the parser of no port, or of one that the NAT gave a request to
the probe's target. -/
def Probing.ReadsOwn (probing : Probing) : Attempt → Prop
  | .answered external _ response => ∀ port, response.Tells port →
    Reported (probing.sent ++ [⟨probing.predictor.target, external⟩]) probing.predictor.target port
  | _ => True

/-! ### What a probe does -/

/-- The port that a response gives a probe. -/
theorem Response.tells_iff_of_port {response : Response} {mapped : Option Nat}
    (port : (Exchange.received response.encode).port = .ok mapped) (told : Nat) :
    response.Tells told ↔ mapped = some told := by
  obtain ⟨result, parsed, same⟩ := bind_eq_ok.mp port
  cases same
  rw [response.tells_iff_of_parse parsed]
  by_cases zero : result.publicPort = 0
  · rw [if_pos zero]
    refine iff_of_false ?_ (Option.some_ne_none told).symm
    rintro ⟨positive, rfl⟩
    exact positive zero
  · rw [if_neg zero, Option.some_inj]
    refine and_iff_right_of_imp ?_
    rintro rfl
    exact zero

/-- What a probe changes that has a socket. -/
structure Probing.Extends (probing next : Probing) (written : List Sent)
    (samples : List Int) : Prop where
  conn : next.predictor.conn = true
  sent : next.sent = probing.sent ++ written
  credited : next.credited =
    probing.credited ++ samples.map (probing.predictor.target, ·)

theorem Probing.extends_of_step {probing next : Probing} {attempt : Attempt}
    {exchange : Exchange} {written : List Sent} (conn : probing.predictor.conn = true)
    (exchanged : probing.exchange attempt = some (exchange, written))
    (stepped : probing.step attempt = some next) :
    ∃ mapped, exchange.port = .ok mapped ∧
      probing.Extends next written (mapped.toList.map Int.ofNat) := by
  obtain ⟨_, exchanged', continued⟩ := Option.bind_eq_some_iff.mp stepped
  rw [exchanged] at exchanged'
  cases exchanged'
  obtain ⟨⟨predictor, success⟩, probed, kept⟩ := Option.bind_eq_some_iff.mp continued
  cases kept
  cases PortPredictor.probes_of_probe (toOption_eq_some probed) with
  | fails probeIdx nothing =>
    refine ⟨none, nothing conn, conn, rfl, ?_⟩
    change _ ++ (probing.predictor.samples.drop probing.predictor.samples.length).map _ = _
    rw [List.drop_length]
    rfl
  | @succeeds port _ mapped =>
    refine ⟨some port, mapped, conn, rfl, ?_⟩
    change _ ++ ((probing.predictor.samples ++ _).drop probing.predictor.samples.length).map _ = _
    rw [List.drop_left]
    rfl

theorem Reported.append {sent : List Sent} {target : Text} {port : Int}
    (reported : Reported sent target port) (written : List Sent) :
    Reported (sent ++ written) target port := by
  obtain ⟨request, member, facts⟩ := reported
  exact ⟨request, List.mem_append_left _ member, facts⟩

/-- A probe keeps the samples matched exactly when the port it is credited with was reported for
its target. -/
theorem Probing.Extends.matched_iff {probing next : Probing} {written : List Sent}
    {samples : List Int} (extended : probing.Extends next written samples)
    (matched : probing.Matched) :
    next.Matched ↔
      ∀ port ∈ samples, Reported (probing.sent ++ written) probing.predictor.target port := by
  unfold Probing.Matched
  rw [extended.sent, extended.credited]
  constructor
  · intro all port member
    exact all (probing.predictor.target, port)
      (List.mem_append_right _ (List.mem_map_of_mem member))
  · intro reported sample member
    rcases List.mem_append.mp member with old | new
    · exact (matched sample old).append written
    · obtain ⟨port, among, rfl⟩ := List.mem_map.mp new
      exact reported port among

/-- A probe that reads nothing keeps the samples matched. -/
theorem Probing.matched_of_unread {probing next : Probing} {attempt : Attempt}
    {exchange : Exchange} {written : List Sent} (conn : probing.predictor.conn = true)
    (matched : probing.Matched) (exchanged : probing.exchange attempt = some (exchange, written))
    (nothing : exchange.port = .ok none) (stepped : probing.step attempt = some next) :
    next.predictor.conn = true ∧ next.Matched := by
  obtain ⟨mapped, port, extended⟩ := extends_of_step conn exchanged stepped
  rw [nothing] at port
  cases port
  exact ⟨extended.conn, (extended.matched_iff matched).mpr (List.forall_mem_nil _)⟩

/-- What a probe with a socket leads to. -/
theorem Probing.step_spec {probing next : Probing} {attempt : Attempt}
    (conn : probing.predictor.conn = true) (matched : probing.Matched)
    (stepped : probing.step attempt = some next) :
    next.predictor.conn = true ∧ (next.Matched ↔ probing.ReadsOwn attempt) := by
  cases attempt with
  | unresolved =>
    exact (matched_of_unread conn matched rfl rfl stepped).imp_right (iff_of_true · trivial)
  | unsent =>
    exact (matched_of_unread conn matched rfl rfl stepped).imp_right (iff_of_true · trivial)
  | unanswered external =>
    exact (matched_of_unread conn matched rfl rfl stepped).imp_right (iff_of_true · trivial)
  | answered external choice response =>
    obtain ⟨⟨exchange, written⟩, exchanged, _⟩ := Option.bind_eq_some_iff.mp stepped
    obtain ⟨request, _, guarded⟩ := Option.bind_eq_some_iff.mp exchanged
    split at guarded
    · cases guarded
      obtain ⟨mapped, port, extended⟩ := extends_of_step conn exchanged stepped
      refine ⟨extended.conn, (extended.matched_iff matched).trans ?_⟩
      simp [ReadsOwn, Response.tells_iff_of_port port]
    · cases guarded

/-- In a run of probes, every sample is a port that the NAT reported for the target of its own
probe, exactly when no response is read that tells of a port reported for other targets only. A
response that the parser decodes tells of its own port. -/
theorem probes_matched_iff (items : List Text) (attempts : List Attempt)
    (enabled : (Runs.run Probing.step (Probing.start items) attempts).isSome) :
    (Runs.Always Probing.step Probing.Matched (Probing.start items) attempts ↔
      Runs.Along Probing.step Probing.ReadsOwn (Probing.start items) attempts) ∧
    ∀ response : Response, response.Decodes →
      ∀ port, response.Tells port ↔ port = response.port := by
  refine ⟨?_, fun response => Response.tells_iff_of_decodes⟩
  refine Runs.always_iff_along
    (fun probing => probing.predictor.conn = true ∧ probing.Matched)
    (fun probing inv => inv.2) ?_ ?_ ?_ enabled
  · rintro probing attempt next ⟨conn, matched⟩ reads stepped
    obtain ⟨kept, iff⟩ := Probing.step_spec conn matched stepped
    exact ⟨kept, iff.mpr reads⟩
  · rintro probing attempt next ⟨conn, matched⟩ misreads stepped
    obtain ⟨_, iff⟩ := Probing.step_spec conn matched stepped
    exact fun after => misreads (iff.mp after)
  · refine ⟨?_, by intro sample member; cases member⟩
    change (PortPredictor.new items true).conn = true
    unfold PortPredictor.new
    split <;> rfl

/-- The answer to a request that left from port 40000. -/
def lateResponse : Response where
  toBinding := plainBinding 40000
  family := by decide
  portRange := by decide
  transactionLength := by decide
  others := by decide
  fits := by decide

/-- The probe of the first target times out, and the probe of the second reads the answer to
the first. -/
def lateReply : List Attempt := [.unanswered 40000, .answered 40002 0 lateResponse]

def twoTargets : List Text := [text "192.0.2.1:3478", text "198.51.100.1:3478"]

theorem lateReply_last : ∃ last, Runs.run Probing.step (Probing.start twoTargets) lateReply =
    some last ∧ last.credited = [(text "198.51.100.1:3478", 40000)] ∧
      last.sent = [⟨text "192.0.2.1:3478", 40000⟩, ⟨text "198.51.100.1:3478", 40002⟩] := by
  have evaluated : (Runs.run Probing.step (Probing.start twoTargets) lateReply).map
      (fun last => (last.credited, last.sent)) = some ([(text "198.51.100.1:3478", 40000)],
        [⟨text "192.0.2.1:3478", 40000⟩, ⟨text "198.51.100.1:3478", 40002⟩]) := by
    decide +kernel
  obtain ⟨last, ran, values⟩ := Option.map_eq_some_iff.mp evaluated
  cases last
  cases values
  exact ⟨_, ran, rfl, rfl⟩

theorem not_matched_of_lateReply {probing : Probing}
    (credited : probing.credited = [(text "198.51.100.1:3478", 40000)])
    (sent : probing.sent =
      [⟨text "192.0.2.1:3478", 40000⟩, ⟨text "198.51.100.1:3478", 40002⟩]) :
    ¬ probing.Matched := by
  intro matched
  have reported := matched (text "198.51.100.1:3478", 40000) (by rw [credited]; decide)
  unfold Reported at reported
  rw [sent] at reported
  revert reported
  decide

/-- A late answer to the probe of another target is credited to the probe that reads it. -/
theorem lateReply_mismatched :
    ¬ Runs.Always Probing.step Probing.Matched (Probing.start twoTargets) lateReply := by
  obtain ⟨last, ran, credited, sent⟩ := lateReply_last
  exact fun always => not_matched_of_lateReply credited sent (always.last ran)

theorem probes_matched_iff_lateReply :
    ¬ Runs.Along Probing.step Probing.ReadsOwn (Probing.start twoTargets) lateReply := by
  obtain ⟨last, ran, credited, sent⟩ := lateReply_last
  have enabled : (Runs.run Probing.step (Probing.start twoTargets) lateReply).isSome :=
    Option.isSome_iff_exists.mpr ⟨last, ran⟩
  intro along
  have always := (probes_matched_iff twoTargets lateReply enabled).1.mpr along
  exact not_matched_of_lateReply credited sent (always.last ran)

end WgMesh.Traversal
