import Mathlib.Data.List.AList
import All4One.Common.Id

namespace All4One

inductive NodeStatus
  | online
  | suspected
  | offline
  deriving DecidableEq, Repr

structure NodeResources where
  cpuCores : UInt32
  memoryMb : UInt32
  diskMb   : Option UInt64
  deriving DecidableEq, Repr

structure NodeCapabilities where
  docker      : Bool
  python      : Option String
  java        : Option String
  wasm        : Bool
  gpuEnabled  : Bool
  storageNode : Bool
  deriving DecidableEq, Repr

structure NodeProfile where
  id                : NodeId
  tier              : UInt8
  availability      : String
  quorumParticipant : Bool
  resources         : NodeResources
  capabilities      : NodeCapabilities
  deriving DecidableEq, Repr

structure NodeInfo where
  profile      : NodeProfile
  status       : NodeStatus
  version      : String
  grpcEndpoint : String
  restEndpoint : String
  deriving DecidableEq, Repr

-- `saturating_add(1)`
def nextVersion (version : UInt64) : UInt64 :=
  if version + 1 = 0 then version else version + 1

-- The nodes are listed in the order in which an iteration over the hash map visits them.
structure ClusterState where
  nodes   : AList fun _ : NodeId => NodeInfo
  version : UInt64
  deriving DecidableEq

namespace ClusterState

def default : ClusterState where
  nodes   := ∅
  version := 0

def values (cluster : ClusterState) : List NodeInfo :=
  cluster.nodes.entries.map Sigma.snd

-- `insert` and a new version.
def upsert (cluster : ClusterState) (node : NodeInfo) : ClusterState where
  nodes   := cluster.nodes.insert node.profile.id node
  version := nextVersion cluster.version

-- `for (id, node) in &mut nodes`
def mapNodes (cluster : ClusterState) (f : NodeId → NodeInfo → NodeInfo) : ClusterState where
  nodes   := ⟨cluster.nodes.entries.map fun e => ⟨e.1, f e.1 e.2⟩, .map₂ f _ cluster.nodes.nodupKeys⟩
  version := cluster.version

def lookup (cluster : ClusterState) (id : NodeId) : Option NodeInfo :=
  cluster.nodes.lookup id

section

variable {cluster : ClusterState} {node : NodeInfo} {id : NodeId} {f : NodeId → NodeInfo → NodeInfo}

theorem lookup_upsert :
    (cluster.upsert node).lookup id = if id = node.profile.id then some node else cluster.lookup id := by
  split
  case isTrue h  => subst h; exact AList.lookup_insert _
  case isFalse h => exact AList.lookup_insert_ne h

@[simp]
theorem lookup_mk {version : UInt64} : (mk cluster.nodes version).lookup id = cluster.lookup id :=
  rfl

@[simp]
theorem lookup_mapNodes : (cluster.mapNodes f).lookup id = (cluster.lookup id).map (f id) :=
  List.dlookup_map₂ id

end

end ClusterState

end All4One
