import All4One.Foundation.Lists
import All4One.Membership.Theorems.Agent

open Foundation Transition Lists

namespace All4One.Membership

-- What `join` and a pass of the failure detector do under their locks, and when the pass begins.
inductive CriticalSection
  | insert
  | mark
  | now
  | clone
  | write
  deriving DecidableEq

namespace CriticalSection

-- The orders in which both get through.
def orders : List (List CriticalSection) :=
  interleavings [insert, mark] [now, clone, write]

-- What a node does in a section at a point in time.
def event (time : CriticalSection → Nat) (m : Member) (nodeId : Uuid) (payload : JoinRequest) :
    CriticalSection → Member.Event
  | insert => .grant nodeId payload
  | mark   => .markJoined (time mark) m.joined.length
  | now    => .detect (time now)
  | clone  => .detect (time clone)
  | write  => .detect (time write)

end CriticalSection

namespace Member

open CriticalSection

-- What a node takes another one for.
def status (m : Member) (id : NodeId) : Option NodeStatus :=
  (m.view.cluster.lookup id).map (·.status)

-- The node joins after the pass, or the pass has seen its mark, or an older heartbeat will do.
def Spares (time : CriticalSection → Nat) (m : Member) (id : NodeId) (es : List CriticalSection) :
    Prop :=
  [write, insert].Sublist es ∨ [mark, clone].Sublist es ∨ id = m.nodeId ∨
    ∃ t ∈ m.view.lastSeen.lookup id, time now < t + seconds 35

variable {version : String} {time : CriticalSection → Nat} {m : Member} {nodeId : Uuid}
  {payload : JoinRequest} {es : List CriticalSection} {wake : Nat}

-- What stands in the cluster once both are done.
def joinedCluster (version : String) (time : CriticalSection → Nat) (m : Member) (nodeId : Uuid)
    (payload : JoinRequest) (es : List CriticalSection) : ClusterState :=
  let joining := joiningNode version nodeId payload
  if [write, insert].Sublist es then
    (Gossip.judge m.nodeId (time now) m.view.lastSeen m.view.cluster).upsert joining
  else if [mark, clone].Sublist es then
    Gossip.judge m.nodeId (time now) (m.view.lastSeen.insert ⟨nodeId⟩ (time mark))
      (m.view.cluster.upsert joining)
  else
    Gossip.judge m.nodeId (time now) m.view.lastSeen (m.view.cluster.upsert joining)

theorem run_joining (h : es ∈ orders) (hd : m.detector = .sleeps wake) (hw : wake ≤ time now)
    (hp : Uuid.parseStr payload.nodeId = some nodeId) :
    (run (Member.step · version) m (es.map (event time m nodeId payload))).map (·.view.cluster) =
      some (joinedCluster version time m nodeId payload es) := by
  have hj : (m.joined ++ [(⟨nodeId⟩ : NodeId)])[m.joined.length]? = some ⟨nodeId⟩ := by simp
  simp only [orders, interleavings, List.map_cons, List.map_nil, List.cons_append, List.nil_append,
    List.mem_cons, List.not_mem_nil, or_false] at h
  rcases h with rfl | rfl | rfl | rfl | rfl | rfl | rfl | rfl | rfl | rfl
  all_goals
    simp only [List.map_cons, List.map_nil, run, event, Member.step, detect, grant, markJoined, hd,
      hw, hp, hj, if_true, Option.bind_some, Option.map_some]
    rfl

theorem status_judge_upsert {seen : HashMap NodeId Nat} {cluster : ClusterState} {node : NodeInfo}
    {selfId : NodeId} {now : Nat} :
    ((Gossip.judge selfId now seen (cluster.upsert node)).lookup node.profile.id).map (·.status) =
      some .online ↔
    node.profile.id = selfId ∨ ∃ t ∈ seen.lookup node.profile.id, now < t + seconds 35 := by
  rw [Gossip.judge, ClusterState.lookup_mk, ClusterState.lookup_mapNodes, ClusterState.lookup_upsert,
    if_pos rfl, Option.map_some, Option.map_some, Option.some_inj]
  by_cases hs : node.profile.id = selfId
  case pos => simp only [hs, if_true, true_or]
  case neg => simp only [hs, if_false, false_or, statusAt_eq_online]

theorem status_joinedCluster (ht : time now < time mark + seconds 35) :
    ((joinedCluster version time m nodeId payload es).lookup ⟨nodeId⟩).map (·.status) = some .online ↔
    Spares time m ⟨nodeId⟩ es := by
  simp only [joinedCluster, Spares]
  split
  case isTrue hw =>
    refine iff_of_true ?_ (.inl hw)
    exact congrArg (Option.map NodeInfo.status) (ClusterState.lookup_upsert.trans (if_pos rfl))
  case isFalse hw =>
    rw [or_iff_right hw]
    split
    case isTrue hm =>
      refine iff_of_true (status_judge_upsert.mpr (.inr ⟨time mark, ?_, ht⟩)) (.inl hm)
      exact Finmap.lookup_insert _
    case isFalse hm =>
      rw [or_iff_right hm]
      exact status_judge_upsert

-- A node that joins is online once both have got through, unless the pass of the failure detector has
-- looked for its mark too early and ends too late.
theorem joined_online_iff (version : String) (time : CriticalSection → Nat) (m : Member)
    (nodeId : Uuid) (payload : JoinRequest) (wake : Nat) (es : List CriticalSection)
    (h : es ∈ orders) (hd : m.detector = .sleeps wake) (hw : wake ≤ time now)
    (hp : Uuid.parseStr payload.nodeId = some nodeId) (ht : time now < time mark + seconds 35) :
    (∃ m', run (Member.step · version) m (es.map (event time m nodeId payload)) = some m' ∧
      m'.status ⟨nodeId⟩ = some .online) ↔
    Spares time m ⟨nodeId⟩ es := by
  obtain ⟨m', hr, hc⟩ := Option.map_eq_some_iff.mp (run_joining h hd hw hp)
  have hs : ((joinedCluster version time m nodeId payload es).lookup ⟨nodeId⟩).map (·.status) =
      some .online ↔ _ :=
    status_joinedCluster ht
  rw [← hs, ← hc]
  constructor
  case mp  => rintro ⟨m₁, hr₁, hs⟩; rw [hr] at hr₁; exact Option.some.inj hr₁ ▸ hs
  case mpr => exact fun hs => ⟨m', hr, hs⟩

section Sample

def secondRequest : JoinRequest :=
  { samplePayload "b:7946" with nodeId := (2 : Uuid).toText }

-- The pass comes after the whole join.
theorem joined_online_iff_sample :
    ∃ m', run (Member.step · "0.1.9") (.boot 0 sampleNode [])
        ([insert, mark, now, clone, write].map
          (event (fun _ => 0) (.boot 0 sampleNode []) 2 secondRequest)) = some m' ∧
      m'.status ⟨2⟩ = some .online := by
  have ho : [insert, mark, now, clone, write] ∈ orders := by simp [orders, interleavings]
  refine (joined_online_iff "0.1.9" (fun _ => 0) (.boot 0 sampleNode []) 2 secondRequest 0 _ ho rfl
    (Nat.le_refl 0) (Uuid.parseStr_toText 2) (by decide)).mpr (.inr (.inl ?_))
  decide

-- The pass looks for the mark of a new node that has just been entered into the cluster.
theorem joined_online_fails : ¬ ∀ (version : String) (time : CriticalSection → Nat) (m : Member)
    (nodeId : Uuid) (payload : JoinRequest) (wake : Nat) (es : List CriticalSection),
    es ∈ orders → m.detector = .sleeps wake → wake ≤ time now →
    Uuid.parseStr payload.nodeId = some nodeId → time now < time mark + seconds 35 →
    ∃ m', run (Member.step · version) m (es.map (event time m nodeId payload)) = some m' ∧
      m'.status ⟨nodeId⟩ = some .online := by
  intro h
  let m : Member := .boot 0 sampleNode []
  have ho : [insert, now, clone, write, mark] ∈ orders := by simp [orders, interleavings]
  obtain ⟨m', hr, hs⟩ := h "0.1.9" (fun _ => 0) m 2 secondRequest 0 _ ho rfl (Nat.le_refl 0)
    (Uuid.parseStr_toText 2) (by decide)
  have hb : (run (Member.step · "0.1.9") m ([insert, now, clone, write, mark].map
      (event (fun _ => 0) m 2 secondRequest))).bind (·.status ⟨2⟩) = some .suspected := by
    decide +kernel
  rw [hr, Option.bind_some, hs] at hb
  cases hb

end Sample

end Member

end All4One.Membership
