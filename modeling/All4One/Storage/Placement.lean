import All4One.Common.Id
import All4One.Storage.Policy
import Mathlib.Data.Finset.Card

open Foundation

namespace All4One

-- The number of nodes that a policy is made for.
def StoragePolicy.width (policy : StoragePolicy) : Nat :=
  match policy.erasureCoding with
  | none                => policy.replicas
  | some (data, parity) => data + parity

-- The number of nodes whose failure a policy is made for.
def StoragePolicy.tolerance (policy : StoragePolicy) : Nat :=
  match policy.erasureCoding with
  | none             => policy.replicas - 1
  | some (_, parity) => parity

namespace Storage

structure NodeCapacity where
  nodeId         : Uuid
  availableBytes : UInt64
  usedBytes      : UInt64
  deriving DecidableEq, Repr

def determinePlacement (_chunkId : String) (_chunkSize : UInt64) (policy : StoragePolicy)
    (availableNodes : List NodeCapacity) : List Uuid :=
  if h : availableNodes = [] then
    []
  else
    (List.range (min policy.replicas availableNodes.length)).map fun i =>
      (availableNodes.get ⟨i % availableNodes.length,
        Nat.mod_lt _ (List.length_pos_iff.mpr h)⟩).nodeId

-- `placement.iter().filter(|n| !failed_nodes.contains(n)).count()`
def available (placement failedNodes : List Uuid) : Nat :=
  (placement.filter (· ∉ failedNodes)).length

def isRecoverable (placement : List Uuid) (policy : StoragePolicy) (failedNodes : List Uuid) : Bool :=
  match policy with
  | .hot     => placement.any (· ∉ failedNodes)
  | .warm    => available placement failedNodes ≥ 4
  | .cold    => available placement failedNodes ≥ 6
  | .archive => available placement failedNodes ≥ 8

variable {chunkId : String} {chunkSize : UInt64} {policy : StoragePolicy} {nodes : List NodeCapacity}
  {placement failed : List Uuid}

theorem determinePlacement_eq : determinePlacement chunkId chunkSize policy nodes =
    (nodes.take policy.replicas).map (·.nodeId) := by
  rw [determinePlacement]
  split
  case isTrue h => simp [h]
  case isFalse =>
    refine List.ext_getElem (by simp) fun i hi _ => ?_
    simp only [List.length_map, List.length_range, Nat.lt_min] at hi
    simp [Nat.mod_eq_of_lt hi.2]

-- It takes as many nodes as the policy has data shards.
theorem isRecoverable_iff :
    isRecoverable placement policy failed ↔ policy.dataShards ≤ available placement failed := by
  cases policy
  case hot =>
    have : StoragePolicy.hot.dataShards = 1 := rfl
    rw [isRecoverable, List.any_eq_true, available, this, Nat.one_le_iff_ne_zero, ne_eq,
      List.length_eq_zero_iff, List.filter_eq_nil_iff]
    push Not
    rfl
  all_goals exact decide_eq_true_iff

theorem available_le : available placement failed ≤ placement.length :=
  List.length_filter_le _ _

-- No more of the nodes are lost than have failed.
theorem length_le_available_add_card (h : placement.Nodup) :
    placement.length ≤ available placement failed + failed.toFinset.card := by
  have hf : (placement.filter (· ∉ failed)).toFinset = placement.toFinset \ failed.toFinset := by
    ext
    simp
  rw [available, ← List.toFinset_card_of_nodup (h.filter _), hf, ← List.toFinset_card_of_nodup h]
  exact Finset.card_le_card_sdiff_add_card

end Storage

end All4One
