import All4One.Jobs.Scheduler
import All4One.Membership.Theorems.View

namespace All4One

-- What a runtime needs of the node that it is to run on.
def NodeCapabilities.Supports (capabilities : NodeCapabilities) : Runtime → Prop
  | .docker     => capabilities.docker
  | .python     => ∃ version, capabilities.python = some version
  | .jar        => ∃ version, capabilities.java = some version
  | .wasm       => capabilities.wasm
  | .executable => True

variable {localNode localNode' node : NodeInfo} {cluster cluster' : ClusterState}
  {req : SchedulingRequest} {id : NodeId}

theorem runtimeSupported_iff : runtimeSupported node req ↔
    (req.requireDocker → node.profile.capabilities.docker) ∧
      node.profile.capabilities.Supports req.runtime := by
  rw [runtimeSupported]
  split
  case isTrue hd  => simpa using fun h => absurd (h hd.1) hd.2
  case isFalse hd =>
    rw [not_and_not_right] at hd
    rw [and_iff_right hd]
    cases req.runtime <;> simp [NodeCapabilities.Supports, Option.isSome_iff_exists]

theorem suits_iff : node.Suits req ↔
    node.status = .online ∧ req.tierMin ≤ node.profile.tier ∧
      (req.requireDocker → node.profile.capabilities.docker) ∧
      node.profile.capabilities.Supports req.runtime := by
  rw [NodeInfo.Suits, runtimeSupported_iff]

namespace ClusterState

theorem values_perm (h : cluster.nodes.entries.Perm cluster'.nodes.entries) :
    cluster.values.Perm cluster'.values :=
  h.map _

-- Whether a node comes first does not depend on the order in which the nodes are visited.
theorem isFirst_congr (h : cluster.values.Perm cluster'.values) :
    cluster.IsFirst req node ↔ cluster'.IsFirst req node := by
  simp only [IsFirst, h.mem_iff]

end ClusterState

open ClusterState All4One.Membership

theorem pickNode_congr (h : cluster.values.Perm cluster'.values) :
    pickNode localNode cluster req = pickNode localNode' cluster' req := by
  refine Option.ext fun id => ?_
  simp only [pickNode_eq_some, isFirst_congr h, h.mem_iff]

-- The key of an entry is the id that is handed out for it.
theorem pickNode_eq_some_of_keyed (hk : Keyed cluster) : pickNode localNode cluster req = some id ↔
    ∃ node, cluster.lookup id = some node ∧ node.Suits req ∧
      ∀ id' other, cluster.lookup id' = some other → other.Suits req →
        id.uuid.toText ≤ id'.uuid.toText := by
  rw [pickNode_eq_some]
  constructor
  case mp =>
    rintro ⟨node, hn, hf, rfl⟩
    obtain ⟨id, hl⟩ := mem_values.mp hn
    refine ⟨node, hk id node hl ▸ hl, hf.1, fun id' other hl' hs => ?_⟩
    rw [← hk id' other hl']
    exact hf.2 other (mem_values.mpr ⟨id', hl'⟩) hs
  case mpr =>
    rintro ⟨node, hl, hs, hleast⟩
    refine ⟨node, mem_values.mpr ⟨id, hl⟩, ⟨hs, fun other hm ho => ?_⟩, hk id node hl⟩
    obtain ⟨id', hl'⟩ := mem_values.mp hm
    rw [hk id node hl, hk id' other hl']
    exact hleast id' other hl' ho

theorem isSome_pickNode_iff : (pickNode localNode cluster req).isSome ↔
    ∃ id node, cluster.lookup id = some node ∧ node.Suits req := by
  rw [pickNode, Option.isSome_map, List.find?_isSome]
  constructor
  case mp =>
    rintro ⟨node, hn, hr⟩
    rw [List.mem_insertionSort, List.mem_filter, decide_eq_true_eq] at hn
    obtain ⟨id, hl⟩ := mem_values.mp hn.1
    exact ⟨id, node, hl, hn.2.1, hn.2.2, hr⟩
  case mpr =>
    rintro ⟨id, node, hl, hs, ht, hr⟩
    refine ⟨node, ?_, hr⟩
    rw [List.mem_insertionSort, List.mem_filter, decide_eq_true_eq]
    exact ⟨mem_values.mpr ⟨id, hl⟩, hs, ht⟩

-- A job is given to the first node, by the ids, of those that may have it, if there are any, whatever
-- the order in which they are visited and whichever node schedules it.
theorem pickNode_correct (localNode : NodeInfo) (cluster : ClusterState) (req : SchedulingRequest)
    (hk : Keyed cluster) :
    let suits (node : NodeInfo) : Prop :=
      node.status = .online ∧ req.tierMin ≤ node.profile.tier ∧
        (req.requireDocker → node.profile.capabilities.docker) ∧
        node.profile.capabilities.Supports req.runtime
    ((∃ id, pickNode localNode cluster req = some id) ↔
      ∃ id node, cluster.lookup id = some node ∧ suits node) ∧
    (∀ id, pickNode localNode cluster req = some id →
      (∃ node, cluster.lookup id = some node ∧ suits node) ∧
      ∀ id' node, cluster.lookup id' = some node → suits node → id.uuid.toText ≤ id'.uuid.toText) ∧
    ((¬ ∃ id node, cluster.lookup id = some node ∧ suits node) →
      pickNode localNode cluster req = none) ∧
    ∀ (localNode' : NodeInfo) (cluster' : ClusterState),
      cluster'.nodes.entries.Perm cluster.nodes.entries →
      pickNode localNode' cluster' req = pickNode localNode cluster req := by
  simp only [← suits_iff]
  refine ⟨?_, fun id h => ?_, fun h => ?_, fun localNode' cluster' h => ?_⟩
  · rw [← Option.isSome_iff_exists, isSome_pickNode_iff]
  · obtain ⟨node, hl, hs, hleast⟩ := (pickNode_eq_some_of_keyed hk).mp h
    exact ⟨⟨node, hl, hs⟩, hleast⟩
  · exact Option.not_isSome_iff_eq_none.mp fun hs => h (isSome_pickNode_iff.mp hs)
  · exact pickNode_congr (values_perm h)

def dockerNode (n : BitVec 128) (tier : UInt8) (status : NodeStatus) : NodeInfo where
  profile := {
    id                := ⟨n⟩
    tier              := tier
    availability      := "always"
    quorumParticipant := false
    resources         := { cpuCores := 4, memoryMb := 1024, diskMb := none }
    capabilities      := {
      docker := true, python := none, java := none, wasm := false, gpuEnabled := false
      storageNode := false
    }
  }
  status       := status
  version      := "0.1.9"
  grpcEndpoint := "a:7947"
  restEndpoint := "a:7946"

-- One node is not online, another one has too low a tier.
theorem pickNode_correct_sample :
    let cluster := ((ClusterState.default.upsert (dockerNode 1 2 .offline)).upsert
      (dockerNode 2 0 .online)).upsert (dockerNode 3 1 .online)
    ∃ id, pickNode (dockerNode 2 0 .online) cluster ⟨.docker, 1, true⟩ = some id := by
  intro cluster
  have hk : Keyed cluster := ((Keyed.default.upsert _).upsert _).upsert _
  refine (pickNode_correct _ cluster ⟨.docker, 1, true⟩ hk).1.mpr ⟨⟨3⟩, dockerNode 3 1 .online, ?_⟩
  exact ⟨rfl, rfl, by decide, fun _ => rfl, rfl⟩

end All4One
