import All4One.Membership.Network

open Foundation

namespace All4One.Membership

-- The peers that `put_object_handler` sends the shards of an object to.
def ApiRest.fanOutPeers (nodeId : NodeId) (cluster : ClusterState) : List String :=
  let peers := cluster.values.filter fun n =>
    n.profile.capabilities.storageNode ∧ n.status = .online ∧ n.profile.id ≠ nodeId
  peers.map (·.grpcEndpoint)

namespace Member

-- A step of one node, whatever the others answer it.
inductive Event
  | discover (time : Nat) (order : List (NodeId × String))
  | hearNodes (peers : List Discovery.PeerInfo)
  | hearNode (node : NodeInfo)
  | fail
  | detect (time : Nat)
  | grant (nodeId : Uuid) (payload : JoinRequest)
  | markJoined (time k : Nat)
  deriving DecidableEq

variable (m : Member)

def nodeId : NodeId :=
  m.localNode.profile.id

-- A list of peers in response to `GET /v1/internal/nodes`.
def hearNodes (peers : List Discovery.PeerInfo) : Option Member :=
  match m.discovery with
  | .asksNodes _ phase => some { m with discovery := .hasNodes peers phase }
  | _                  => none

-- A node in response to `GET /v1/internal/node`.
def hearNode (node : NodeInfo) : Option Member :=
  match m.discovery with
  | .asksNode _ phase => some { m with discovery := .hasNode node phase }
  | _                 => none

def step (version : String) : Event → Option Member
  | .discover time order   => m.discover m.nodeId time order
  | .hearNodes peers       => m.hearNodes peers
  | .hearNode node         => m.hearNode node
  | .fail                  => m.fail
  | .detect time           => m.detect m.nodeId time
  | .grant nodeId payload  =>
    if Uuid.parseStr payload.nodeId = some nodeId then
      some (m.grant version nodeId payload)
    else
      none
  | .markJoined time k     => m.markJoined time k

end Member

end All4One.Membership
