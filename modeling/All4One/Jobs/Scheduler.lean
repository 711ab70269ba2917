import All4One.Common.Job
import All4One.Common.Node
import All4One.Foundation.Lists

namespace All4One

structure SchedulingRequest where
  runtime       : Runtime
  tierMin       : UInt8
  requireDocker : Bool
  deriving DecidableEq, Repr

def runtimeSupported (node : NodeInfo) (req : SchedulingRequest) : Bool :=
  if req.requireDocker ∧ ¬ node.profile.capabilities.docker then
    false
  else
    match req.runtime with
    | .docker     => node.profile.capabilities.docker
    | .python     => node.profile.capabilities.python.isSome
    | .jar        => node.profile.capabilities.java.isSome
    | .wasm       => node.profile.capabilities.wasm
    | .executable => true

-- `sort_by_key` is stable, as insertion sort is.
def pickNode (_local : NodeInfo) (cluster : ClusterState) (req : SchedulingRequest) :
    Option NodeId :=
  let candidates := cluster.values.filter fun n =>
    n.status = .online ∧ n.profile.tier ≥ req.tierMin
  let sorted := candidates.insertionSort fun m n =>
    m.profile.id.uuid.toText ≤ n.profile.id.uuid.toText
  (sorted.find? (runtimeSupported · req)).map (·.profile.id)

-- A node that a job may be given to.
def NodeInfo.Suits (node : NodeInfo) (req : SchedulingRequest) : Prop :=
  node.status = .online ∧ node.profile.tier ≥ req.tierMin ∧ runtimeSupported node req

instance (node : NodeInfo) (req : SchedulingRequest) : Decidable (node.Suits req) :=
  inferInstanceAs (Decidable (_ ∧ _ ∧ _))

-- The node that comes first, by its id, of those that a job may be given to.
def ClusterState.IsFirst (cluster : ClusterState) (req : SchedulingRequest) (node : NodeInfo) : Prop :=
  node.Suits req ∧ ∀ other ∈ cluster.values, other.Suits req →
    node.profile.id.uuid.toText ≤ other.profile.id.uuid.toText

instance (cluster : ClusterState) (req : SchedulingRequest) (node : NodeInfo) :
    Decidable (cluster.IsFirst req node) :=
  inferInstanceAs (Decidable (_ ∧ ∀ other ∈ _, _ → _))

section

variable {localNode : NodeInfo} {cluster : ClusterState} {req : SchedulingRequest} {id : NodeId}

theorem exists_isFirst_of_pickNode (h : pickNode localNode cluster req = some id) :
    ∃ node ∈ cluster.values, cluster.IsFirst req node ∧ node.profile.id = id := by
  have : Std.Total fun m n : NodeInfo => m.profile.id.uuid.toText ≤ n.profile.id.uuid.toText :=
    ⟨fun _ _ => Std.le_total⟩
  have : IsTrans NodeInfo fun m n => m.profile.id.uuid.toText ≤ n.profile.id.uuid.toText :=
    ⟨fun _ _ _ => Std.le_trans⟩
  obtain ⟨node, hf, rfl⟩ := Option.map_eq_some_iff.mp h
  have ⟨hm, hr, hleast⟩ := Foundation.Lists.find?_insertionSort hf
  simp only [List.mem_filter, decide_eq_true_eq] at hm hleast
  exact ⟨node, hm.1, ⟨⟨hm.2.1, hm.2.2, hr⟩, fun other ho hs => hleast other ⟨ho, hs.1, hs.2.1⟩ hs.2.2⟩,
    rfl⟩

theorem ClusterState.IsFirst.id_eq {m n : NodeInfo} (hm : m ∈ cluster.values)
    (hn : n ∈ cluster.values) (h : cluster.IsFirst req m) (h' : cluster.IsFirst req n) :
    m.profile.id = n.profile.id := by
  have ht := Std.le_antisymm (h.2 n hn h'.1) (h'.2 m hm h.1)
  cases hm : m.profile.id
  cases hn : n.profile.id
  rw [hm, hn] at ht
  exact congrArg NodeId.mk (Uuid.toText_injective ht)

theorem pickNode_eq_some : pickNode localNode cluster req = some id ↔
    ∃ node ∈ cluster.values, cluster.IsFirst req node ∧ node.profile.id = id := by
  constructor
  case mp => exact exists_isFirst_of_pickNode
  case mpr =>
    rintro ⟨node, hn, hf, rfl⟩
    have hs : (pickNode localNode cluster req).isSome := by
      rw [pickNode, Option.isSome_map, List.find?_isSome]
      refine ⟨node, ?_, hf.1.2.2⟩
      rw [List.mem_insertionSort, List.mem_filter, decide_eq_true_eq]
      exact ⟨hn, hf.1.1, hf.1.2.1⟩
    obtain ⟨id, hp⟩ := Option.isSome_iff_exists.mp hs
    obtain ⟨node', hn', hf', rfl⟩ := exists_isFirst_of_pickNode hp
    rw [hp, hf.id_eq hn hn' hf']

end

end All4One
