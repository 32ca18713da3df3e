/-
This file models how a daemon finds its public endpoint and announces it, and
follows the endpoint from the STUN response to the peers of the mesh.

`discoverPublicEndpoint` reads the port of WireGuard from `wg show dump`, asks
the STUN server from a socket on that port, and takes the address and the port
of the response. When this fails it asks from a second socket, of which the port
means nothing to WireGuard, and puts the port of WireGuard behind the address.
`main` runs it once when it starts, in a copy that logs other lines, and again
every five minutes. The endpoint goes into the requests of the DHT node, where
it stands beside the endpoint that the flags gave.
-/

import WgMesh.Dht.Advertising
import WgMesh.Dht.Crash
import WgMesh.Dht.Fabric
import WgMesh.Dht.Merging
import WgMesh.Go.IpText
import WgMesh.Meshd.Discovery
import WgMesh.Traversal.Predictor
import WgMesh.Traversal.Response

namespace WgMesh.Meshd

open Go Dht Uapi Traversal

/-! ### Discovery -/

/-- `DiscoverPublic`, which returns nothing when it fails. -/
def discoverPublic : Exchange → Except Panic (Option StunResult)
  | .received datagram => do
    let result ← parseStunResponse datagram
    return some result
  | _ => return none

/-- What one discovery meets: the listing, unless `wg` fails, and the exchanges with the server,
unless their socket cannot be opened. -/
structure Discovery where
  showDump : Option Text
  /-- From the port of WireGuard. -/
  shared : Option Exchange
  /-- From ten ports above that of the mesh. -/
  separate : Option Exchange
  deriving DecidableEq

/-- A query on a socket, with the address it is told. -/
def query (socket : Option Exchange) : Except Panic (Option (List UInt8 × StunResult)) :=
  match socket with
  | none => return none
  | some exchange => do
    match ← discoverPublic exchange with
    | none => return none
    | some stunResult => return stunResult.publicIP.map fun ip => (ip, stunResult)

/-- An address and a port as they are announced. -/
def endpointText (ip : List UInt8) (port : Int) : Text :=
  joinHostPort (ipString ip) (itoa port)

def discoverPublicEndpoint (meshPort : Int) (discovery : Discovery) :
    Except Panic (Text × Option NATType) := do
  match ← query discovery.shared with
  | some (ip, stunResult) =>
    return (endpointText ip stunResult.publicPort, some stunResult.natType)
  | none =>
    match ← query discovery.separate with
    | some (ip, stunResult) =>
      return (endpointText ip (discoverPort discovery.showDump meshPort), some stunResult.natType)
    | none => return ([], none)

/-! ### What a discovery finds -/

theorem query_received {response : Traversal.Response} (decodes : response.Decodes) :
    query (some (.received response.encode)) =
      .ok (some (response.address,
        { publicIP := some response.address, publicPort := response.port, natType := .cone })) := by
  have decoded : parseStunResponse response.encode = .ok _ := decodes
  rw [query, discoverPublic, decoded]
  rfl

/-- Endpoints with addresses of one family are the same only if their parts are. -/
theorem endpointText_injective {first second : List UInt8} {firstPort secondPort : Nat}
    (known : first.length = 4 ∨ first.length = 16) (lengths : first.length = second.length)
    (same : endpointText first firstPort = endpointText second secondPort) :
    first = second ∧ firstPort = secondPort := by
  have parts := congrArg splitHostPort same
  rw [endpointText, endpointText, splitHostPort_ipString known,
    splitHostPort_ipString (lengths ▸ known)] at parts
  obtain ⟨hosts, ports⟩ := Prod.ext_iff.mp (Option.some.inj parts)
  exact ⟨ipString_injective lengths known hosts, decimal_injective ports⟩

/-- What the endpoint of a discovery tells, for a response that the parser decodes: from the port of
WireGuard it is the mapping that the server saw, and names no other; from the other socket it is
the address the server saw with the port the interface listens on. -/
theorem discovered_endpoint_exact (meshPort : Int) (iface : Interface) (peers : List ListedPeer)
    {response : Traversal.Response} (decodes : response.Decodes) :
    (∀ showDump separate, discoverPublicEndpoint meshPort
        ⟨showDump, some (.received response.encode), separate⟩ =
      .ok (endpointText response.address response.port, some .cone)) ∧
    (∀ shared, query shared = .ok none → discoverPublicEndpoint meshPort
        ⟨some (printDump iface peers), shared, some (.received response.encode)⟩ =
      .ok (endpointText response.address
        (if iface.listenPort = 0 then meshPort else iface.listenPort), some .cone)) ∧
    (∀ port : Nat, splitHostPort (endpointText response.address port) =
      some (ipString response.address, itoa port)) ∧
    ∀ (other : Traversal.Response) (port otherPort : Nat),
      other.address.length = response.address.length →
      endpointText response.address port = endpointText other.address otherPort →
      response.address = other.address ∧ port = otherPort := by
  refine ⟨fun showDump separate => ?_, fun shared failed => ?_,
    splitHostPort_ipString response.family,
    fun other port otherPort lengths => endpointText_injective response.family lengths.symm⟩
  · rw [discoverPublicEndpoint, query_received decodes]
    rfl
  · have port : discoverPort (some (printDump iface peers)) meshPort =
        if iface.listenPort = 0 then meshPort else iface.listenPort := by
      simp only [discoverPort, readPort_printDump, Int.natCast_eq_zero]
    rw [discoverPublicEndpoint, failed]
    change (query (some (.received response.encode)) >>= _) = _
    rw [query_received decodes, ← port]
    rfl

/-- A response without other attributes. -/
def plainResponse : Traversal.Response where
  address := [203, 0, 113, 7]
  port := 40001
  transaction := Traversal.paddedResponse.transaction
  before := []
  after := []
  family := by decide
  portRange := by decide
  transactionLength := Traversal.paddedResponse.transactionLength
  others := by decide
  fits := by decide

/-- The interface of a listing that hides its keys. -/
def plainInterface : Interface where
  privateKey := .ofVisible (text "(hidden)") (by decide) (by decide +kernel)
  publicKey := .ofVisible (text "(none)") (by decide) (by decide +kernel)
  listenPort := 51820
  listenPort_le := by decide
  fwmark := offField

/-- Where the port of WireGuard is taken, the port of the mapping is not the one announced. -/
theorem discovered_endpoint_exact_plain :
    plainResponse.Decodes ∧ query none = .ok none ∧
      discoverPublicEndpoint 51821
          ⟨some (printDump plainInterface []), none, some (.received plainResponse.encode)⟩ =
        .ok (text "203.0.113.7:51820", some .cone) := by
  have decodes : plainResponse.Decodes := by decide +kernel
  refine ⟨decodes, rfl, ?_⟩
  refine ((discovered_endpoint_exact 51821 plainInterface [] decodes).2.1 none rfl).trans ?_
  decide +kernel

/-! ### Announcing it -/

/-- The flags of `main` that the start-up and the refreshes read. -/
structure Flags where
  publicKey : Text
  meshPort : Int
  seedPeers : Text
  vpsAddr : Text
  wgEndpoint : Text
  relayAddr : Text
  hubIntraIP : Text

/-- The endpoint that was discovered last, and the DHT node. -/
structure Announcer where
  publicWgEp : Text
  node : Node

/-- The discovery when `main` starts, which is left out if the operator gives an endpoint. -/
def firstDiscovery (flags : Flags) (discovery : Discovery) : Except Panic (Text × Option NATType) :=
  if flags.wgEndpoint = [] then discoverPublicEndpoint flags.meshPort discovery
  else return ([], none)

/-- The start of `main` up to the DHT node, which listens on the given port. -/
def announce (flags : Flags) (listenPort : Nat) (discovery : Discovery) :
    Except Panic Announcer := do
  let localWgEp := if flags.wgEndpoint = [] then flags.vpsAddr else flags.wgEndpoint
  let (publicWgEp, _) ← firstDiscovery flags discovery
  let localWgEp := if flags.wgEndpoint = [] ∧ publicWgEp = [] then [] else localWgEp
  let node := Node.new flags.publicKey listenPort localWgEp
  return {
    publicWgEp := publicWgEp
    node :=
      if publicWgEp ≠ [] ∧ publicWgEp ≠ localWgEp then node.setPublicEndpoint publicWgEp
      else node }

/-- A tick of the refresh loop, up to the dials of `Refresh`. -/
def Announcer.refresh (flags : Flags) (announcer : Announcer) (discovery : Discovery) :
    Except Panic Announcer :=
  if flags.wgEndpoint = [] then do
    let (newPublicWgEp, _) ← discoverPublicEndpoint flags.meshPort discovery
    if newPublicWgEp ≠ [] ∧ newPublicWgEp ≠ announcer.publicWgEp then
      return {
        publicWgEp := newPublicWgEp
        node := announcer.node.setPublicEndpoint newPublicWgEp }
    else return announcer
  else return announcer

/-- What happens to a daemon: a tick of the refresh loop, a message that the node handles or a
plan that it sends, and a seed that it is given. -/
inductive Occurrence where
  | refresh (discovery : Discovery)
  | operate (operation : Operation)
  | bootstrap (seed : Contact)

def Announcer.step (flags : Flags) (announcer : Announcer) : Occurrence → Except Panic Announcer
  | .refresh discovery => announcer.refresh flags discovery
  | .operate operation => do
    let node ← announcer.node.apply operation
    return { announcer with node := node }
  | .bootstrap seed => do
    let node ← announcer.node.bootstrapSeed seed
    return { announcer with node := node }

/-- A daemon after it has started and all this has happened to it. -/
def Announcer.run (flags : Flags) (listenPort : Nat) (discovery : Discovery)
    (occurrences : List Occurrence) : Except Panic Announcer := do
  let announcer ← announce flags listenPort discovery
  occurrences.foldlM (Announcer.step flags) announcer

/-- The discoveries of a run. -/
def discoveries (occurrences : List Occurrence) : List Discovery :=
  occurrences.filterMap fun
    | .refresh discovery => some discovery
    | _ => none

/-- The endpoint of a discovery, which is empty when it fails. -/
def Discovery.endpoint (meshPort : Int) (discovery : Discovery) : Text :=
  match discoverPublicEndpoint meshPort discovery with
  | .ok (publicWgEp, _) => publicWgEp
  | .error _ => []

/-- The endpoint of a daemon as its peers should know it, when they see its connection come from
an address: what the operator gave, else the latest that was discovered, else that address. -/
def announced (flags : Flags) (past : List Discovery) (remoteAddr : Text) : Text :=
  if flags.wgEndpoint ≠ [] then flags.wgEndpoint
  else
    let latest := lastNonempty (past.map (Discovery.endpoint flags.meshPort))
    if latest ≠ [] then latest else remoteAddr

/-! ### Every run keeps to the latest discovery -/

/-- How the fields of the node stand to the discoveries so far. -/
structure Announcer.Follows (flags : Flags) (past : List Discovery) (announcer : Announcer) :
    Prop where
  /-- An endpoint of the operator is the only one. -/
  given : flags.wgEndpoint ≠ [] →
    announcer.node.wgEndpoint = flags.wgEndpoint ∧ announcer.node.publicEndpoint = []
  latest : flags.wgEndpoint = [] →
    announcer.publicWgEp = lastNonempty (past.map (Discovery.endpoint flags.meshPort))
  /-- It stands in the second field, except for one that the flags named already. -/
  placed : flags.wgEndpoint = [] →
    (announcer.node.publicEndpoint = announcer.publicWgEp ∧
        (announcer.publicWgEp = [] → announcer.node.wgEndpoint = [])) ∨
      (announcer.node.publicEndpoint = [] ∧ announcer.node.wgEndpoint = announcer.publicWgEp)

variable {flags : Flags} {past : List Discovery} {announcer next : Announcer}

theorem follows_announce {listenPort : Nat} {discovery : Discovery}
    (started : announce flags listenPort discovery = .ok announcer) :
    announcer.Follows flags [discovery] := by
  obtain ⟨⟨publicWgEp, natType⟩, found, started⟩ := bind_eq_ok.mp started
  by_cases unset : flags.wgEndpoint = []
  · rw [firstDiscovery, if_pos unset] at found
    have endpoint : discovery.endpoint flags.meshPort = publicWgEp := by
      rw [Discovery.endpoint, found]
    have latest : lastNonempty [publicWgEp] = publicWgEp := by
      rw [← List.nil_append [publicWgEp], lastNonempty_append]
      split
      · rfl
      · rename_i empty
        exact (not_not.mp empty).symm
    simp only [unset, if_true, true_and] at started
    cases started
    refine ⟨fun set => absurd unset set, fun _ => ?_, fun _ => ?_⟩
    · rw [List.map_singleton, endpoint, latest]
    · by_cases failed : publicWgEp = []
      · subst failed
        exact Or.inl ⟨rfl, fun _ => rfl⟩
      · by_cases known : publicWgEp = flags.vpsAddr
        · subst known
          refine Or.inr ?_
          simp [failed, Node.new]
        · refine Or.inl ?_
          simp [failed, known, Node.setPublicEndpoint]
  · rw [firstDiscovery, if_neg unset] at found
    cases found
    simp only [unset, if_false, false_and] at started
    cases started
    exact ⟨fun _ => ⟨rfl, rfl⟩, fun empty => absurd empty unset, fun empty => absurd empty unset⟩

theorem Announcer.Follows.refresh {discovery : Discovery} (follows : announcer.Follows flags past)
    (refreshed : announcer.refresh flags discovery = .ok next) :
    next.Follows flags (past ++ [discovery]) := by
  unfold Announcer.refresh at refreshed
  by_cases unset : flags.wgEndpoint = []
  · rw [if_pos unset] at refreshed
    obtain ⟨⟨newPublicWgEp, natType⟩, found, refreshed⟩ := bind_eq_ok.mp refreshed
    have latest : lastNonempty ((past ++ [discovery]).map (Discovery.endpoint flags.meshPort)) =
        if newPublicWgEp ≠ [] then newPublicWgEp else announcer.publicWgEp := by
      rw [List.map_append, List.map_singleton, lastNonempty_append, ← follows.latest unset,
        Discovery.endpoint, found]
    dsimp only at refreshed
    split at refreshed
    · rename_i changed
      cases refreshed
      refine ⟨fun set => absurd unset set, fun _ => ?_, fun _ => Or.inl ⟨rfl, fun empty => ?_⟩⟩
      · rw [latest, if_pos changed.1]
      · exact absurd empty changed.1
    · -- Nothing was found, or nothing new.
      rename_i unchanged
      cases refreshed
      refine ⟨fun set => absurd unset set, fun _ => ?_, fun _ => follows.placed unset⟩
      rw [latest]
      split
      · rename_i found
        exact (not_not.mp fun other => unchanged ⟨found, Ne.symm other⟩)
      · rfl
  · rw [if_neg unset] at refreshed
    cases refreshed
    exact ⟨follows.given, fun empty => absurd empty unset, fun empty => absurd empty unset⟩

/-- Neither endpoint of a node has changed. -/
def SameEndpoints (next node : Node) : Prop :=
  next.wgEndpoint = node.wgEndpoint ∧ next.publicEndpoint = node.publicEndpoint

/-- Handlers and plans leave both endpoints. -/
theorem sameEndpoints_apply {node applied : Node} {operation : Operation}
    (done : node.apply operation = .ok applied) : SameEndpoints applied node := by
  obtain ⟨_, rfl⟩ := Node.of_apply done
  exact ⟨rfl, rfl⟩

theorem sameEndpoints_bootstrapSeed {node bootstrapped : Node} {seed : Contact}
    (done : node.bootstrapSeed seed = .ok bootstrapped) : SameEndpoints bootstrapped node := by
  obtain ⟨_, _, done⟩ := bind_eq_ok.mp done
  obtain ⟨_, _, done⟩ := bind_eq_ok.mp done
  cases done
  exact ⟨rfl, rfl⟩

theorem Announcer.Follows.step {occurrence : Occurrence} (follows : announcer.Follows flags past)
    (stepped : announcer.step flags occurrence = .ok next) :
    next.Follows flags (past ++ discoveries [occurrence]) := by
  have keep : ∀ {node : Node}, SameEndpoints node announcer.node →
      Announcer.Follows flags past { announcer with node := node } := by
    rintro node ⟨wgEndpoint, publicEndpoint⟩
    constructor
    · rw [wgEndpoint, publicEndpoint]
      exact follows.given
    · exact follows.latest
    · rw [wgEndpoint, publicEndpoint]
      exact follows.placed
  cases occurrence with
  | refresh discovery => exact follows.refresh stepped
  | operate operation =>
    obtain ⟨node, applied, stepped⟩ := bind_eq_ok.mp stepped
    cases stepped
    exact (List.append_nil past).symm ▸ keep (sameEndpoints_apply applied)
  | bootstrap seed =>
    obtain ⟨node, bootstrapped, stepped⟩ := bind_eq_ok.mp stepped
    cases stepped
    exact (List.append_nil past).symm ▸ keep (sameEndpoints_bootstrapSeed bootstrapped)

theorem Announcer.Follows.run {occurrences : List Occurrence}
    (follows : announcer.Follows flags past)
    (ran : occurrences.foldlM (Announcer.step flags) announcer = .ok next) :
    next.Follows flags (past ++ discoveries occurrences) := by
  induction occurrences generalizing announcer past with
  | nil =>
    cases ran
    exact (List.append_nil past).symm ▸ follows
  | cons occurrence rest inductionHypothesis =>
    rw [List.foldlM_cons] at ran
    obtain ⟨middle, stepped, ran⟩ := bind_eq_ok.mp ran
    have followed := inductionHypothesis (follows.step stepped) ran
    have both : discoveries [occurrence] ++ discoveries rest = discoveries (occurrence :: rest) :=
      List.filterMap_append.symm
    rw [List.append_assoc, both] at followed
    exact followed

/-- Where a registered contact gets its endpoint from. -/
theorem wgEndpoint_registration (remoteAddr observed : Text) (msg : DhtMessage) :
    (registration remoteAddr observed msg).wgEndpoint =
      if observed ≠ [] then observed
      else if msg.publicEndpoint ≠ [] then msg.publicEndpoint
      else if msg.wgEndpoint ≠ [] then msg.wgEndpoint
      else remoteAddr := by
  unfold Contact.wgEndpoint registration
  by_cases seen : observed = []
  · simp [seen]
  · simp [seen]

/-- The two fields of the node together give the endpoint that is announced. -/
theorem Announcer.Follows.advertised (follows : announcer.Follows flags past)
    (remoteAddr : Text) :
    (if announcer.node.publicEndpoint ≠ [] then announcer.node.publicEndpoint
      else if announcer.node.wgEndpoint ≠ [] then announcer.node.wgEndpoint
      else remoteAddr) = announced flags past remoteAddr := by
  unfold announced
  by_cases unset : flags.wgEndpoint = []
  · rw [if_neg (not_not.mpr unset), ← follows.latest unset]
    rcases follows.placed unset with ⟨second, cleared⟩ | ⟨empty, first⟩
    · rw [second]
      by_cases failed : announcer.publicWgEp = []
      · simp [failed, cleared failed]
      · simp [failed]
    · rw [empty, first]
      rfl
  · obtain ⟨first, second⟩ := follows.given unset
    simp [unset, first, second]

/-- In every run of a daemon, whoever registers one of its requests gives WireGuard the endpoint
that it sees the daemon use, and otherwise the one that the daemon has announced. -/
theorem registered_endpoint_is_announced {listenPort : Nat} {discovery : Discovery}
    {occurrences : List Occurrence} {last : Announcer}
    (ran : Announcer.run flags listenPort discovery occurrences = .ok last)
    (target remoteAddr observed : Text) :
    (registration remoteAddr observed (last.node.findNodeRequest target)).wgEndpoint =
      if observed ≠ [] then observed
      else announced flags (discovery :: discoveries occurrences) remoteAddr := by
  obtain ⟨started, launched, ran⟩ := bind_eq_ok.mp ran
  have follows := (follows_announce launched).run ran
  rw [wgEndpoint_registration]
  by_cases seen : observed ≠ []
  · rw [if_pos seen, if_pos seen]
  · rw [if_neg seen, if_neg seen]
    exact follows.advertised remoteAddr

/-- A daemon behind a router, with the address of the hub's WireGuard. -/
def leafFlags : Flags where
  publicKey := text "leafAleafAleafAleafAleafAleafAleafAleafAleaf"
  meshPort := 51821
  seedPeers := []
  vpsAddr := text "198.51.100.1:51820"
  wgEndpoint := []
  relayAddr := []
  hubIntraIP := []

/-- A discovery after which the network is gone: the endpoint is still announced. -/
theorem registered_endpoint_is_announced_stale : ∃ last,
    Announcer.run leafFlags 51822 ⟨none, some (.received plainResponse.encode), none⟩
        [.refresh ⟨none, none, some .unread⟩] = .ok last ∧
      (registration (text "192.0.2.9:4711") [] (last.node.findNodeRequest [])).wgEndpoint =
        text "203.0.113.7:40001" := by
  have returns : (Announcer.run leafFlags 51822
      ⟨none, some (.received plainResponse.encode), none⟩
      [.refresh ⟨none, none, some .unread⟩]).toOption.isSome = true := by decide +kernel
  obtain ⟨last, ran⟩ := Option.isSome_iff_exists.mp returns
  refine ⟨last, toOption_eq_some ran, ?_⟩
  refine (registered_endpoint_is_announced (toOption_eq_some ran) _ _ _).trans ?_
  decide +kernel

end WgMesh.Meshd
