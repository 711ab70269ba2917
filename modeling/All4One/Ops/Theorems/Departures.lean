import All4One.Membership.Theorems.Dissemination
import All4One.Ops.Theorems.Watchers

open Foundation Transition

namespace All4One

namespace Ops

variable {last : AList fun _ : NodeId => NodeStatus} {seen first : Seen} {seens : List Seen}
  {id : NodeId} {event : OpsEvent}

-- The event tells that a node is new.
def OpsEvent.Discovers (event : OpsEvent) (id : NodeId) : Prop :=
  event.kind = "node.discovered" ∧ event.nodeId = some id.uuid.toText

instance (event : OpsEvent) (id : NodeId) : Decidable (event.Discovers id) :=
  inferInstanceAs (Decidable (_ ∧ _))

theorem mem_round : event ∈ round last seen ↔ ∃ change : Change NodeId NodeStatus,
    Change.between change.key (last.lookup change.key) (seen.current.lookup change.key) = some change ∧
      event = eventOf seen.now change := by
  simp only [round_eq, List.mem_map, Change.mem_diff, eq_comm]

theorem not_mem_of_removed (h : event ∈ round last seen) (hk : event.kind = "node.removed") :
    ∃ id, (last.lookup id).isSome ∧ seen.current.lookup id = none := by
  obtain ⟨change, hc, rfl⟩ := mem_round.mp h
  cases change
  case added   => exact absurd hk (by simp [eventOf, publishOpsEvent])
  case changed => exact absurd hk (by simp [eventOf, publishOpsEvent])
  case removed id =>
    refine ⟨id, ?_⟩
    simp only [Change.key] at hc
    cases hl : last.lookup id <;> cases hn : seen.current.lookup id <;> simp_all [Change.between]

-- An event of a node tells that it is new if and only if it has not been there before.
theorem discovers_iff (h : event ∈ round last seen) (hn : event.nodeId = some id.uuid.toText) :
    event.Discovers id ↔ last.lookup id = none := by
  obtain ⟨change, hc, rfl⟩ := mem_round.mp h
  have hkey : change.key = id := by
    rw [nodeId_eventOf, Option.some.injEq, Uuid.toText_injective.eq_iff] at hn
    obtain ⟨uuid⟩ := id
    cases hk : change.key
    rw [hk] at hn
    exact congrArg _ hn
  rw [hkey] at hc
  rw [OpsEvent.Discovers, and_iff_left hn]
  cases hl : last.lookup id <;> cases hv : seen.current.lookup id <;> rw [hl, hv] at hc
  case none.none => cases hc
  case none.some => cases hc; simp [eventOf, publishOpsEvent]
  case some.none => cases hc; simp [eventOf, publishOpsEvent]
  case some.some =>
    rw [Change.between] at hc
    split at hc <;> cases hc
    simp [eventOf, publishOpsEvent]

theorem countP_discovers_round : (round last seen).countP (·.Discovers id) =
    if last.lookup id = none ∧ (seen.current.lookup id).isSome then 1 else 0 := by
  have hle : (round last seen).countP (·.Discovers id) =
      if last.lookup id = none then ((round last seen).filter (·.nodeId = some id.uuid.toText)).length
      else 0 := by
    rw [← List.countP_eq_length_filter]
    split
    case isTrue h =>
      refine List.countP_congr fun event he => ?_
      simp only [decide_eq_true_eq]
      exact ⟨And.right, fun hn => (discovers_iff he hn).mpr h⟩
    case isFalse h =>
      refine List.countP_eq_zero.mpr fun event he hd => h ?_
      have hd := of_decide_eq_true hd
      exact (discovers_iff he hd.2).mp hd
  rw [hle, length_filter_round]
  cases hl : last.lookup id <;> cases hv : seen.current.lookup id <;> simp

-- No node that has been seen is missing from what is seen later.
def Grows : Seen → List Seen → Prop
  | _,     []            => True
  | first, seen :: seens =>
    (∀ id, (first.snapshot.lookup id).isSome → (seen.snapshot.lookup id).isSome) ∧ Grows seen seens

theorem Grows.getLast (h : Grows first seens) (hl : (first.snapshot.lookup id).isSome) :
    ((seens.getLastD first).snapshot.lookup id).isSome := by
  induction seens generalizing first
  case nil => exact hl
  case cons seen seens hi =>
    rw [List.getLastD_cons]
    exact hi h.2 (h.1 id hl)

theorem Grows.not_removed (h : Grows first seens) :
    ∀ events ∈ startOpsWatchers first seens, ∀ event ∈ events, event.kind ≠ "node.removed" := by
  induction seens generalizing first
  case nil => simp [startOpsWatchers, rounds]
  case cons seen seens hi =>
    refine List.forall_mem_cons.mpr ⟨fun event he hk => ?_, hi h.2⟩
    obtain ⟨id, hs, hn⟩ := not_mem_of_removed he hk
    rw [first.lookup_current, Option.isSome_map] at hs
    rw [seen.lookup_current, Option.map_eq_none_iff] at hn
    simpa [hn] using h.1 id hs

theorem Grows.countP_discovers (h : Grows first seens) :
    (startOpsWatchers first seens).flatten.countP (·.Discovers id) =
    if first.snapshot.lookup id = none ∧
      ((seens.getLastD first).snapshot.lookup id).isSome then 1 else 0 := by
  induction seens generalizing first
  case nil =>
    cases hl : first.snapshot.lookup id <;> simp [startOpsWatchers, rounds, hl]
  case cons seen seens hi =>
    have hc : (startOpsWatchers first (seen :: seens)).flatten =
        round first.current seen ++ (startOpsWatchers seen seens).flatten := rfl
    rw [hc, List.countP_append, countP_discovers_round, hi h.2, List.getLastD_cons]
    simp only [first.lookup_current, seen.lookup_current, Option.map_eq_none_iff, Option.isSome_map]
    cases hs : seen.snapshot.lookup id
    case none =>
      have : first.snapshot.lookup id = none :=
        Option.eq_none_iff_forall_ne_some.mpr fun n hn => by simpa [hs, hn] using h.1 id
      simp [this]
    case some n =>
      have hl : (seen.snapshot.lookup id).isSome := by simp [hs]
      have hg := h.2.getLast hl
      simp only [hg, Option.isSome_some, and_true, reduceCtorEq, if_false, Nat.add_zero]

section

open All4One.Membership All4One.Membership.Network

variable {net : Setting} {s : Membership.Network} {a : NodeId}

-- The loop takes its snapshots of the view of a node, one after the other, while the node runs.
def Watches (net : Setting) (a : NodeId) : Membership.Network → List Seen → Prop
  | _, []            => True
  | s, seen :: seens => ∃ es s' m, run (step net) s es = some s' ∧ (∀ e ∈ es, ¬ e.Boots a) ∧
    s'.members.lookup a = some m ∧ seen.snapshot = m.view.cluster ∧ Watches net a s' seens

theorem Watches.grows (hs : s.SelfListed) (h : Watches net a s (first :: seens)) : Grows first seens := by
  obtain ⟨es, s', m, hr, -, hm, hf, h⟩ := h
  have hs := selfListed_of_run hr hs
  clear hr
  induction seens generalizing first s' m
  case nil => trivial
  case cons seen seens hi =>
    obtain ⟨es', s'', m', hr', hb, hm', hf', h⟩ := h
    refine ⟨fun id hl => ?_, hi s'' m' hm' hf' h (selfListed_of_run hr' hs)⟩
    have hl : m.view.Lists id := by rw [View.Lists, ← hf]; exact hl
    obtain ⟨_, hm'', hl⟩ := lists_of_run hr' hs hb ⟨m, hm, hl⟩
    cases hm'.symm.trans hm''
    rw [hf']
    exact hl

-- While a node runs, it never tells that another one is gone, and it tells of another one that it is
-- new once if it is new at the end and never otherwise.
theorem nobody_departs (hr : Reachable (step net) start s) (h : Watches net a s (first :: seens)) :
    (∀ events ∈ startOpsWatchers first seens, ∀ event ∈ events, event.kind ≠ "node.removed") ∧
    ∀ id, (startOpsWatchers first seens).flatten.countP (·.Discovers id) =
      if first.snapshot.lookup id = none ∧
        ((seens.getLastD first).snapshot.lookup id).isSome then 1 else 0 :=
  have hg := h.grows (selfListed_of_reachable hr)
  ⟨hg.not_removed, fun _ => hg.countP_discovers⟩

-- The second node is discovered by the first one.
theorem nobody_departs_sample :
    ∃ s₁ s₂ m₁ m₂, run (step sampleSetting) start [.boot (Network.sampleNode 2 "b") [],
        .boot (Network.sampleNode 1 "a") ["b:7947"]] = some s₁ ∧
      run (step sampleSetting) s₁ (poll ⟨1⟩ ⟨2⟩) = some s₂ ∧
      s₁.members.lookup ⟨1⟩ = some m₁ ∧ s₂.members.lookup ⟨1⟩ = some m₂ ∧
      (startOpsWatchers (sampleSeen m₁.view.cluster) [sampleSeen m₂.view.cluster]).flatten.countP
        (·.Discovers ⟨2⟩) = 1 := by
  let boots : List Event :=
    [.boot (Network.sampleNode 2 "b") [], .boot (Network.sampleNode 1 "a") ["b:7947"]]
  let known (s : Membership.Network) : Option Bool :=
    (s.members.lookup ⟨1⟩).map fun m => (m.view.cluster.lookup ⟨2⟩).isSome
  have h₁ : (run (step sampleSetting) start boots).bind known = some false := by decide +kernel
  have h₂ : (run (step sampleSetting) start (boots ++ poll ⟨1⟩ ⟨2⟩)).bind known = some true := by
    decide +kernel
  obtain ⟨s₁, hr₁, h₁⟩ := Option.bind_eq_some_iff.mp h₁
  obtain ⟨m₁, hm₁, h₁⟩ := Option.map_eq_some_iff.mp h₁
  obtain ⟨s₂, hr₂, h₂⟩ := Option.bind_eq_some_iff.mp h₂
  obtain ⟨m₂, hm₂, h₂⟩ := Option.map_eq_some_iff.mp h₂
  rw [run_append, hr₁, Option.bind_some] at hr₂
  have hw : Watches sampleSetting ⟨1⟩ s₁ [sampleSeen m₁.view.cluster, sampleSeen m₂.view.cluster] :=
    ⟨[], s₁, m₁, rfl, by simp, hm₁, rfl, poll ⟨1⟩ ⟨2⟩, s₂, m₂, hr₂, by simp [poll, Event.Boots], hm₂,
      rfl, trivial⟩
  refine ⟨s₁, s₂, m₁, m₂, hr₁, hr₂, hm₁, hm₂, ?_⟩
  rw [(nobody_departs ⟨boots, hr₁⟩ hw).2 ⟨2⟩, if_pos]
  exact ⟨Option.not_isSome_iff_eq_none.mp (Bool.eq_false_iff.mp h₁), h₂⟩

end

end Ops

end All4One
