import All4One.Foundation.Lists
import All4One.Ops.Watchers

open Foundation

namespace All4One

theorem NodeStatus.debug_injective : Function.Injective NodeStatus.debug := by
  intro s t h
  cases s <;> cases t <;> first | rfl | exact absurd h (by decide)

theorem ClusterState.lookup_statuses {cluster : ClusterState} {id : NodeId} :
    cluster.statuses.lookup id = (cluster.lookup id).map (·.status) :=
  List.dlookup_map₂ (f := fun (_ : NodeId) (n : NodeInfo) => n.status) id

namespace Ops

variable {last : AList fun _ : NodeId => NodeStatus} {seen : Seen} {id : NodeId}
  {nodes : HashMap NodeId NodeStatus} {events stream : List OpsEvent} {now : NodeId → String}
  {change : Change NodeId NodeStatus}

section Messages

theorem changedMessage_injective (id : NodeId) :
    Function.Injective fun s : NodeStatus × NodeStatus => changedMessage id s.1 s.2 := by
  rintro ⟨prev, status⟩ ⟨prev', status'⟩ h
  have h := (String.append_right_inj _).mp h
  cases prev <;> cases status <;> cases prev' <;> cases status' <;>
    first | rfl | exact absurd h (by decide)

theorem discoveredMessage_injective (id : NodeId) : Function.Injective (discoveredMessage id) :=
  fun _ _ h => NodeStatus.debug_injective ((String.append_right_inj _).mp h)

theorem mem_statuses (status : NodeStatus) : status ∈ OpsEvent.statuses := by
  cases status <;> decide

end Messages

-- The event of a change.
def eventOf (now : NodeId → String) : Change NodeId NodeStatus → OpsEvent
  | .added id status =>
    publishOpsEvent (now id) "node.discovered" "info" (discoveredMessage id status) (some id) none
  | .changed id prev status =>
    publishOpsEvent (now id) "node.status_changed" (if status = .online then "info" else "warn")
      (changedMessage id prev status) (some id) none
  | .removed id =>
    publishOpsEvent (now id) "node.removed" "warn" (removedMessage id) (some id) none

theorem round_eq : round last seen = (Change.diff last seen.current).map (eventOf seen.now) := by
  rw [round, Change.diff, List.map_append, List.map_filterMap, List.map_map]
  congr 2
  refine funext ?_
  rintro ⟨id, status⟩
  cases hl : last.lookup id
  case none => simp [hl, Change.between, eventOf]
  case some prev =>
    simp only [hl, Change.between]
    split <;> rfl

theorem change?_eventOf : (eventOf now change).change? = some change := by
  cases change
  case removed id => simp [OpsEvent.change?, eventOf, publishOpsEvent]
  case added id status =>
    obtain ⟨uuid⟩ := id
    have := Lists.find?_of_injective (discoveredMessage_injective ⟨uuid⟩) (mem_statuses status)
    simp [OpsEvent.change?, eventOf, publishOpsEvent]
    exact this
  case changed id prev status =>
    obtain ⟨uuid⟩ := id
    have hm : (prev, status) ∈ OpsEvent.statuses.product OpsEvent.statuses :=
      List.mem_product.mpr ⟨mem_statuses prev, mem_statuses status⟩
    have := Lists.find?_of_injective (changedMessage_injective ⟨uuid⟩) hm
    simp [OpsEvent.change?, eventOf, publishOpsEvent]
    exact this

theorem nodeId_eventOf : (eventOf now change).nodeId = some change.key.uuid.toText := by
  cases change <;> rfl

-- What a listener makes of the events of a round is what the changes make of the map.
theorem foldlM_hear_round (hn : nodes = last.toFinmap) :
    (round last seen).foldlM hear nodes = some seen.snapshot.statuses.toFinmap := by
  have hh : (fun nodes change => hear nodes (eventOf seen.now change)) = Change.apply := by
    funext nodes change
    rw [hear, change?_eventOf]
  rw [round_eq, List.foldlM_map, hh, hn]
  exact Change.replay_diff.trans (congrArg some (AList.toFinmap_eq.mpr seen.collected))

-- A listener passes over the other events.
theorem foldlM_hear_filter :
    stream.foldlM hear nodes = (stream.filter (·.isMembership)).foldlM hear nodes := by
  induction stream generalizing nodes
  case nil => rfl
  case cons event stream hi =>
    by_cases hm : event.isMembership
    case pos =>
      rw [List.filter_cons_of_pos hm, List.foldlM_cons, List.foldlM_cons]
      exact congrArg _ (funext fun _ => hi)
    case neg =>
      have hc : event.change? = none := by
        simp only [OpsEvent.isMembership, List.mem_cons, List.not_mem_nil, or_false,
          decide_eq_true_eq, not_or] at hm
        simp [OpsEvent.change?, hm]
      rw [List.filter_cons_of_neg hm, List.foldlM_cons, hear, hc]
      exact hi

-- There is one event of each node whose status is not the same.
theorem length_filter_round : ((round last seen).filter (·.nodeId = some id.uuid.toText)).length =
    if seen.current.lookup id = last.lookup id then 0 else 1 := by
  have hp : (fun change => (eventOf seen.now change).nodeId = some id.uuid.toText) =
      fun change => change.key = id := by
    funext change
    obtain ⟨uuid⟩ := id
    cases hk : change.key
    simp [nodeId_eventOf, hk, Uuid.toText_injective.eq_iff]
  rw [← Change.count_diff, round_eq, List.filter_map, List.length_map, ← List.countP_eq_length_filter,
    List.count_eq_countP, List.countP_map]
  refine List.countP_congr fun change _ => ?_
  simpa using iff_of_eq (congrFun hp change)

theorem Seen.toFinmap_eq (seen : Seen) : seen.current.toFinmap = seen.snapshot.statuses.toFinmap :=
  AList.toFinmap_eq.mpr seen.collected

theorem Seen.lookup_current (seen : Seen) :
    seen.current.lookup id = (seen.snapshot.lookup id).map (·.status) := by
  rw [← Finmap.lookup_toFinmap, seen.toFinmap_eq, Finmap.lookup_toFinmap, ClusterState.lookup_statuses]

-- A listener that has started with the statuses of the first snapshot has those of each further one
-- after its round, whatever else it hears, and there is one event of each node whose status is not the
-- same as in the snapshot before.
theorem listen_startOpsWatchers (first : Seen) (seens : List Seen) (streams : List (List OpsEvent))
    (h : streams.map (·.filter OpsEvent.isMembership) = startOpsWatchers first seens) :
    listen first.snapshot.statuses.toFinmap streams =
      some (seens.map (·.snapshot.statuses.toFinmap)) ∧
    List.Forall₂ (fun pair events => ∀ id : NodeId,
        (events.filter (·.nodeId = some id.uuid.toText)).length =
          if (pair.2.snapshot.lookup id).map (·.status) = (pair.1.snapshot.lookup id).map (·.status)
          then 0 else 1)
      ((first :: seens).zip seens) (startOpsWatchers first seens) := by
  induction seens generalizing first streams
  case nil =>
    obtain rfl : streams = [] := List.map_eq_nil_iff.mp h
    exact ⟨rfl, .nil⟩
  case cons seen seens hi =>
    obtain ⟨stream, streams, rfl, hs, ht⟩ := List.map_eq_cons_iff.mp h
    obtain ⟨hl, hf⟩ := hi seen streams ht
    constructor
    · have hr : (round _ seen).foldlM hear _ = some _ := foldlM_hear_round first.toFinmap_eq.symm
      rw [listen, foldlM_hear_filter, hs, hr]
      exact congrArg (Option.map _) hl
    · refine .cons (fun id => ?_) hf
      rw [length_filter_round, seen.lookup_current, first.lookup_current]

def sampleNode (n : BitVec 128) (status : NodeStatus) : NodeInfo where
  profile := {
    id                := ⟨n⟩
    tier              := 1
    availability      := "always"
    quorumParticipant := false
    resources         := { cpuCores := 4, memoryMb := 1024, diskMb := none }
    capabilities      := {
      docker := false, python := none, java := none, wasm := false, gpuEnabled := false
      storageNode := false
    }
  }
  status       := status
  version      := "0.1.9"
  grpcEndpoint := "a:7947"
  restEndpoint := "a:7946"

def sampleSeen (snapshot : ClusterState) : Seen where
  snapshot  := snapshot
  current   := snapshot.statuses
  now _     := "2026-01-01T00:00:00+00:00"
  collected := .refl _

-- A node is suspected, another one is discovered and a job is started in between.
theorem listen_startOpsWatchers_sample :
    let first := sampleSeen (.upsert .default (sampleNode 1 .online))
    let second := sampleSeen (.upsert (.upsert .default (sampleNode 1 .suspected)) (sampleNode 2 .online))
    let started := publishOpsEvent "2026-01-01T00:00:00+00:00" "job.started" "info"
      "Job 7 started on local node 1" (some ⟨1⟩) (some ⟨7⟩)
    listen first.snapshot.statuses.toFinmap ((startOpsWatchers first [second]).map (started :: ·)) =
      some [second.snapshot.statuses.toFinmap] := by
  intro first second started
  exact (listen_startOpsWatchers first [second] _ (by decide +kernel)).1

end Ops

end All4One
