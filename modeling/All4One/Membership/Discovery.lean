import All4One.Common.Node
import All4One.Foundation.HashMap
import All4One.Foundation.Text

open Foundation

namespace All4One.Membership

-- Instants count nanoseconds.
def seconds (n : Nat) : Nat :=
  n * 1000000000

-- What a node knows of the cluster: its nodes, and when it last heard of them.
structure View where
  cluster  : ClusterState
  lastSeen : HashMap NodeId Nat

namespace ApiRest

-- What a node tells of a node that it knows.
structure PeerInfo where
  id           : String
  tier         : UInt8
  grpcEndpoint : String
  restEndpoint : String
  status       : NodeStatus
  deriving DecidableEq, Repr

def getInternalNodes (cluster : ClusterState) : List PeerInfo :=
  let peers := cluster.values.map fun n => {
    id           := n.profile.id.uuid.toText
    tier         := n.profile.tier
    grpcEndpoint := n.grpcEndpoint
    restEndpoint := n.restEndpoint
    status       := n.status
  }
  peers.insertionSort (·.id ≤ ·.id)

end ApiRest

namespace Discovery

-- What is read of it.
structure PeerInfo where
  id           : String
  tier         : UInt8
  grpcEndpoint : String
  restEndpoint : String
  deriving DecidableEq, Repr

def PeerInfo.ofJson (peer : ApiRest.PeerInfo) : PeerInfo where
  id           := peer.id
  tier         := peer.tier
  grpcEndpoint := peer.grpcEndpoint
  restEndpoint := peer.restEndpoint

def PeerInfo.nodeId? (peer : PeerInfo) : Option NodeId :=
  (Uuid.parseStr peer.id).map NodeId.mk

def seedToRest (seed : String) : String :=
  match Text.rsplitOnce ':' seed with
  | some (host, portRaw) =>
    match Text.parseU16 portRaw with
    | some port => if port > 0 then s!"{host}:{port - 1}" else seed
    | none      => seed
  | none => seed

-- What is made of a peer that was not known.
def PeerInfo.newNode (peer : PeerInfo) (id : NodeId) : NodeInfo where
  profile := {
    id                := id
    tier              := peer.tier
    availability      := ""
    quorumParticipant := false
    resources         := { cpuCores := 0, memoryMb := 0, diskMb := none }
    capabilities      := {
      docker := false, python := none, java := none, wasm := false, gpuEnabled := false
      storageNode := false
    }
  }
  status       := .online
  version      := ""
  grpcEndpoint := peer.grpcEndpoint
  restEndpoint := peer.restEndpoint

-- What is made of one that was.
def PeerInfo.refresh (peer : PeerInfo) (n : NodeInfo) : NodeInfo :=
  { n with grpcEndpoint := peer.grpcEndpoint, restEndpoint := peer.restEndpoint, status := .online }

-- `entry(id).and_modify(..).or_insert_with(..)`
def PeerInfo.enter (peer : PeerInfo) (id : NodeId) (cluster : ClusterState) : ClusterState :=
  if id ∈ cluster.nodes then
    cluster.mapNodes fun id' n => if id' = id then peer.refresh n else n
  else
    { cluster with nodes := cluster.nodes.insert id (peer.newNode id) }

def mergePeer (selfId : NodeId) (now : Nat) (view : View) (peer : PeerInfo) : View :=
  match peer.nodeId? with
  | none    => view
  | some id =>
    if id = selfId then
      view
    else
      { cluster := peer.enter id view.cluster, lastSeen := view.lastSeen.insert id now }

def mergePeers (selfId : NodeId) (now : Nat) (peers : List PeerInfo) (view : View) : View :=
  let view := peers.foldl (mergePeer selfId now) view
  { view with cluster.version := nextVersion view.cluster.version }

def knownNodes (selfId : NodeId) (cluster : ClusterState) : List (NodeId × String) :=
  (cluster.nodes.entries.filter fun e => e.1 ≠ selfId).map fun e => (e.1, e.2.restEndpoint)

-- The two steps of `upsert_peer`.
def upsertPeer (node : NodeInfo) (view : View) : View :=
  { view with cluster := view.cluster.upsert { node with status := .online } }

def markHeartbeat (nodeId : NodeId) (now : Nat) (view : View) : View :=
  { view with lastSeen := view.lastSeen.insert nodeId now }

def upsertSelf (localNode : NodeInfo) (view : View) : View :=
  { view with cluster := view.cluster.upsert localNode }

end Discovery

namespace Gossip

def statusAt (now : Nat) (last : Option Nat) : NodeStatus :=
  match last with
  | some last =>
    let age := now - last
    if age ≥ seconds 100 then
      .offline
    else if age ≥ seconds 35 then
      .suspected
    else
      .online
  | none => .suspected

-- What the failure detector writes, from what it has seen of `last_seen`.
def judge (selfId : NodeId) (now : Nat) (seen : HashMap NodeId Nat) (cluster : ClusterState) :
    ClusterState :=
  let judged := cluster.mapNodes fun id n =>
    if id = selfId then
      { n with status := .online }
    else
      { n with status := statusAt now (seen.lookup id) }
  { judged with version := nextVersion judged.version }

end Gossip

end All4One.Membership
