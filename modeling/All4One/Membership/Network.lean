import All4One.Foundation.Transition
import All4One.Membership.Discovery
import All4One.Membership.Join

open Foundation

namespace All4One.Membership

-- Who listens at an address, when a node falls silent, and the version of the agents.
structure Setting where
  host    : String → Option NodeId
  silent  : NodeId → Option Nat
  version : String

-- What a round of discovery has yet to ask: the seeds, or the nodes that were known after them.
inductive Phase
  | seeds (rest : List String)
  | known (rest : List (NodeId × String))
  deriving DecidableEq

-- Where the discovery task of a node is.
inductive DiscoveryTask
  | next (phase : Phase)
  | asksNodes (address : String) (phase : Phase)
  | hasNodes (peers : List Discovery.PeerInfo) (phase : Phase)
  | merges (peers : List Discovery.PeerInfo) (now : Nat) (phase : Phase)
  | asksNode (address : String) (phase : Phase)
  | hasNode (node : NodeInfo) (phase : Phase)
  | upserts (node : NodeInfo) (now : Nat) (phase : Phase)
  | marks (id : NodeId) (now : Nat) (phase : Phase)
  | sleeps (wake : Nat)
  deriving DecidableEq

-- Where the failure detector of a node is.
inductive DetectorTask
  | sleeps (wake : Nat)
  | reads (now : Nat)
  | judges (now : Nat) (seen : HashMap NodeId Nat)
  deriving DecidableEq

structure Member where
  localNode : NodeInfo
  seeds     : List String
  view      : View
  discovery : DiscoveryTask
  detector  : DetectorTask
  -- The nodes that `join` has put into the cluster and not yet marked.
  joined    : List NodeId

namespace Member

variable (m : Member) (selfId : NodeId) (time : Nat)

-- What an agent starts with, whether or not it has run before.
def boot (localNode : NodeInfo) (seeds : List String) : Member where
  localNode := localNode
  seeds     := seeds
  view      := Discovery.markHeartbeat localNode.profile.id time
    (Discovery.upsertSelf localNode ⟨.default, ∅⟩)
  discovery := .next (.seeds seeds)
  detector  := .sleeps time
  joined    := []

-- A step that `spawn_seed_discovery` takes by itself. The nodes that are known come in some order.
def discover (order : List (NodeId × String)) : Option Member :=
  match m.discovery with
  | .next (.seeds (seed :: rest)) =>
    some { m with discovery := .asksNodes (Discovery.seedToRest seed) (.seeds rest) }
  | .next (.seeds []) =>
    if order.Perm (Discovery.knownNodes selfId m.view.cluster) then
      some { m with discovery := .next (.known order) }
    else
      none
  | .next (.known ((_, endpoint) :: rest)) =>
    if endpoint = "" then
      some { m with discovery := .next (.known rest) }
    else
      some { m with discovery := .asksNodes endpoint (.known rest) }
  | .next (.known [])       => some { m with discovery := .sleeps (time + seconds 5) }
  | .hasNodes peers phase   => some { m with discovery := .merges peers time phase }
  | .merges peers now phase =>
    some { m with view := Discovery.mergePeers selfId now peers m.view, discovery := .next phase }
  | .hasNode node phase =>
    if node.profile.id ≠ selfId then
      some { m with discovery := .upserts node time phase }
    else
      some { m with discovery := .next phase }
  | .upserts node now phase =>
    some { m with
      view      := Discovery.upsertPeer node m.view
      discovery := .marks node.profile.id now phase }
  | .marks id now phase =>
    some { m with view := Discovery.markHeartbeat id now m.view, discovery := .next phase }
  | .sleeps wake =>
    if wake ≤ time then some { m with discovery := .next (.seeds m.seeds) } else none
  | .asksNodes .. | .asksNode .. => none

-- A request of it that fails, or a response that can not be read.
def fail : Option Member :=
  match m.discovery with
  | .asksNodes address (.seeds rest) => some { m with discovery := .asksNode address (.seeds rest) }
  | .asksNodes _ (.known rest)       => some { m with discovery := .next (.known rest) }
  | .hasNodes _ phase
  | .asksNode _ phase
  | .hasNode _ phase                 => some { m with discovery := .next phase }
  | _                                => none

-- The address that it waits for.
def asks : Option String :=
  match m.discovery with
  | .asksNodes address _ | .asksNode address _ => some address
  | _                                          => none

-- The response of another node.
def hear (peer : Member) : Option Member :=
  match m.discovery with
  | .asksNodes _ phase =>
    let peers := (ApiRest.getInternalNodes peer.view.cluster).map Discovery.PeerInfo.ofJson
    some { m with discovery := .hasNodes peers phase }
  | .asksNode _ phase => some { m with discovery := .hasNode peer.localNode phase }
  | _                 => none

-- A step of `spawn_failure_detector`.
def detect : Option Member :=
  match m.detector with
  | .sleeps wake     => if wake ≤ time then some { m with detector := .reads time } else none
  | .reads now       => some { m with detector := .judges now m.view.lastSeen }
  | .judges now seen =>
    some { m with
      view.cluster := Gossip.judge selfId now seen m.view.cluster
      detector     := .sleeps (time + seconds 5) }

-- The two steps that `join` takes once it has the certificates for a request.
def grant (version : String) (nodeId : Uuid) (payload : JoinRequest) : Member :=
  { m with
    view.cluster := m.view.cluster.upsert (joiningNode version nodeId payload)
    joined       := m.joined ++ [⟨nodeId⟩] }

def markJoined (k : Nat) : Option Member :=
  m.joined[k]?.map fun id =>
    { m with view := Discovery.markHeartbeat id time m.view, joined := m.joined.eraseIdx k }

end Member

structure Network where
  time    : Nat
  members : HashMap NodeId Member

namespace Network

def start : Network where
  time    := 0
  members := ∅

def setMember (s : Network) (a : NodeId) (m : Member) : Network :=
  { s with members := s.members.insert a m }

inductive Event
  | boot (localNode : NodeInfo) (seeds : List String)
  | tick (d : Nat)
  | discover (a : NodeId) (order : List (NodeId × String))
  | answer (a b : NodeId)
  | fail (a : NodeId)
  | detect (a : NodeId)
  | grant (a : NodeId) (nodeId : Uuid) (payload : JoinRequest)
  | markJoined (a : NodeId) (k : Nat)
  deriving DecidableEq

variable (net : Setting)

-- A node answers until it falls silent.
def Speaks (b : NodeId) (time : Nat) : Prop :=
  ∀ t ∈ net.silent b, time ≤ t

instance (b : NodeId) (time : Nat) : Decidable (Speaks net b time) :=
  inferInstanceAs (Decidable (∀ t ∈ net.silent b, time ≤ t))

def step (s : Network) : Event → Option Network
  | .boot localNode seeds =>
    some (s.setMember localNode.profile.id (.boot s.time localNode seeds))
  | .tick d           => some { s with time := s.time + d }
  | .discover a order => do
    let m ← s.members.lookup a
    return s.setMember a (← m.discover a s.time order)
  | .answer a b => do
    let m ← s.members.lookup a
    let peer ← s.members.lookup b
    if m.asks.bind net.host = some b ∧ Speaks net b s.time then
      return s.setMember a (← m.hear peer)
    else
      none
  | .fail a => do
    let m ← s.members.lookup a
    return s.setMember a (← m.fail)
  | .detect a => do
    let m ← s.members.lookup a
    return s.setMember a (← m.detect a s.time)
  | .grant a nodeId payload => do
    let m ← s.members.lookup a
    if Uuid.parseStr payload.nodeId = some nodeId then
      return s.setMember a (m.grant net.version nodeId payload)
    else
      none
  | .markJoined a k => do
    let m ← s.members.lookup a
    return s.setMember a (← m.markJoined s.time k)

end Network

end All4One.Membership
