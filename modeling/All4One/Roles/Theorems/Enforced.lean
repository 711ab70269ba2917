import All4One.Jobs.Theorems.Writes
import All4One.Roles.System
import All4One.Storage.Reference

open Foundation Transition

namespace All4One

open Storage

section Storage

variable {d : Deployment} {n : NodeId}

-- A node without the storage role leaves its disk alone, and refuses all requests but one.
theorem Deployment.serve_of_not_storage (w : World) (request : StorageRequest)
    (h : (d.roles n).storage = false) :
    (d.serve n w request).2 = w ∧
    ((∀ payload, request ≠ .fetch payload) → (d.serve n w request).1.isRefusal) := by
  cases request
  case fetch payload => exact ⟨rfl, fun hp => absurd rfl (hp payload)⟩
  all_goals
    simp only [serve, h]
    exact ⟨rfl, fun _ => rfl⟩

-- A fetch is not refused where there is something to read.
theorem isRefusal_fetchChunk {crates : Crates} {ioText : IoError → String} {dataDir : String}
    {files : Files} {payload : FetchChunkRequest} :
    (StorageAnswer.fetched (fetchChunk crates ioText dataDir files payload)).isRefusal ↔
    ¬ (files.read (chunkPath (chunksDir dataDir payload.bucket)
      (safeObjectId payload.bucket payload.key) payload.shardIndex)).isOk := by
  generalize hp : chunkPath _ _ _ = path
  rcases hs : files.stat path with _ | _ | _
  all_goals simp only [fetchChunk, Files.pathExists, Files.read, hp, hs]
  case none      => exact iff_of_true rfl Bool.false_ne_true
  case some.file => exact iff_of_false Bool.false_ne_true (not_not.mpr rfl)
  case some.dir  => exact iff_of_true rfl Bool.false_ne_true

end Storage

namespace RoleSystem

variable {d : Deployment} {s s' : State} {ev : Event} {es : List Event}

-- A job is on its way to nodes with the executor role only, and only those run jobs.
structure Staffed (d : Deployment) (s : JobSystem) : Prop where
  dispatching : ∀ t ∈ s.tasks, ∀ c a, t.phase = .dispatching c a → (d.roles a).executor
  executors   : ∀ e ∈ s.executors, (d.roles e.node).executor

section Jobs

variable {net : Network} {j j' : JobSystem} {je : JobSystem.Event} {t u : Task} {e : Executor}

theorem Staffed.init (clusters : NodeId → ClusterState) : Staffed d (.init clusters) where
  dispatching := by simp [JobSystem.init]
  executors   := by simp [JobSystem.init]

-- A node is picked where it is the first of those that suit.
theorem exists_isFirst_of_picks {p : NodeId × NodeId} (h : picks d j je = some p) :
    ∃ q ∈ schedules j je, ∃ node ∈ q.1.values, q.1.IsFirst q.2 node ∧ node.profile.id = p.2 := by
  cases je
  case enqueue n request jobId now =>
    simp only [picks] at h
    split at h
    case isFalse => cases h
    case isTrue hv =>
      obtain ⟨m, hm, rfl⟩ := Option.map_eq_some_iff.mp h
      exact ⟨_, if_pos hv, exists_isFirst_of_pickNode hm⟩
  case pick k =>
    simp only [picks, Option.bind_eq_bind, Option.bind_eq_some_iff] at h
    obtain ⟨t, ht, m, hm, hp⟩ := h
    obtain rfl := Option.some.inj hp
    exact ⟨(j.clusters t.node, t.scheduling), by rw [schedules, ht]; rfl, exists_isFirst_of_pickNode hm⟩
  all_goals cases h

-- A task that dispatches its job has done so before, or the node has just been picked.
theorem dispatching_of_step (hs : j.step d.net je = some j') (hu : u ∈ j'.tasks) {c a}
    (hp : u.phase = .dispatching c a) : u ∈ j.tasks ∨ ∃ n, picks d j je = some (n, a) := by
  have moved {k t p} (ht : j.tasks[k]? = some t) (hu : u ∈ (j.setTask k p).tasks)
      (h : p ≠ .dispatching c a) : u ∈ j.tasks := by
    rcases JobSystem.mem_setTask ht hu with rfl | hu
    · exact absurd hp h
    · exact hu
  have resume {rounds} : TaskPhase.resume rounds ≠ .dispatching c a := by
    cases rounds <;> exact TaskPhase.noConfusion
  have failed {caller} : TaskPhase.afterFailure caller ≠ .dispatching c a := by
    cases caller
    case enqueue => exact TaskPhase.noConfusion
    case retry   => exact resume
  by_cases hpick : ∃ k, je = .pick k
  case pos =>
    obtain ⟨k, rfl⟩ := hpick
    obtain ⟨t, ht, hs⟩ := Option.bind_eq_some_iff.mp hs
    simp only [JobSystem.pick] at hs
    split at hs
    case h_2 => cases hs
    case h_1 =>
      split at hs
      case h_1 =>
        obtain rfl := Option.some.inj hs
        exact .inl (moved ht hu resume)
      case h_2 m hm =>
        obtain rfl := Option.some.inj hs
        rcases JobSystem.mem_setTask ht hu with rfl | hu
        · obtain ⟨_, rfl⟩ := TaskPhase.dispatching.inj hp
          exact .inr ⟨t.node, by simp [picks, ht, hm]⟩
        · exact .inl hu
  by_cases henq : ∃ n request jobId now, je = .enqueue n request jobId now
  case pos =>
    obtain ⟨n, request, jobId, now, rfl⟩ := henq
    rcases JobSystem.enqueue_cases (JobSystem.act_of_step hs) with ⟨_, rfl⟩ | ⟨hv, _, t, rfl, _, _, _, ht⟩
    · exact .inl hu
    · rcases List.mem_append.mp hu with hu | hu
      · exact .inl hu
      · obtain rfl := List.mem_singleton.mp hu
        rw [hp] at ht
        split at ht
        case h_1 b hb =>
          obtain ⟨_, rfl⟩ := TaskPhase.dispatching.inj ht
          exact .inr ⟨n, by simp [picks, hv, hb]⟩
        case h_2 => cases ht
  have he := JobSystem.Step.of_step hs
  cases he
  case enqueued                 => exact absurd ⟨_, _, _, _, rfl⟩ henq
  case picked                   => exact absurd ⟨_, rfl⟩ hpick
  case wakeDone ht _ _          => exact .inl (moved ht hu TaskPhase.noConfusion)
  case woken ht _ _ _           => exact .inl (moved ht hu TaskPhase.noConfusion)
  case unpicked ht _ _          => exact .inl (moved ht hu resume)
  case dispatchedLocal ht _     => exact .inl (moved ht hu TaskPhase.noConfusion)
  case dispatchedRemote ht _    => exact .inl (moved ht hu TaskPhase.noConfusion)
  case dispatchFailed ht _ _ _  => exact .inl (moved ht hu failed)
  case submitRefused ht _ _     => exact .inl (moved ht hu failed)
  case submitted ht _ _ _       => exact .inl (moved ht hu TaskPhase.noConfusion)
  case submitLost ht _          => exact .inl (moved ht hu failed)
  case replied ht _             => exact .inl (moved ht hu TaskPhase.noConfusion)
  case replyLost ht _           => exact .inl (moved ht hu failed)
  -- The other events move no task.
  all_goals exact .inl hu

-- An executor has been there before, is one of a local dispatch, or comes with a call.
theorem executor_of_step (hs : JobSystem.Step d.net j je j') (he : e ∈ j'.executors) :
    (∃ f ∈ j.executors, f.node = e.node) ∨
    (∃ t ∈ j.tasks, ∃ c, t.phase = .dispatching c e.node) ∨
    ∃ c ∈ called d j je, c.2.job?.isSome ∧ c.1 = e.node := by
  have moved {k f q} (hf : j.executors[k]? = some f) (he : e ∈ (j.setExecutor k q).executors) :
      ∃ f ∈ j.executors, f.node = e.node := by
    rcases JobSystem.mem_setExecutor hf he with rfl | he
    · exact ⟨f, List.mem_of_getElem? hf, rfl⟩
    · exact ⟨e, he, rfl⟩
  cases hs
  case dispatchedLocal t c ht hp =>
    rcases List.mem_append.mp he with he | he
    · exact .inl ⟨e, he, rfl⟩
    · obtain rfl := List.mem_singleton.mp he
      exact .inr (.inl ⟨t, List.mem_of_getElem? ht, c, hp⟩)
  case submitted t _ _ _ _ m _ _ ht hp hr hv =>
    rcases List.mem_append.mp he with he | he
    · exact .inl ⟨e, he, rfl⟩
    · obtain rfl := List.mem_singleton.mp he
      have hs := Task.submission_of_route hp hr
      refine .inr (.inr ⟨_, by rw [called, ht]; exact hs, ?_, rfl⟩)
      rw [t.job?_submission hs, if_pos hv]
      rfl
  case lateSubmitted hi hj =>
    rcases List.mem_append.mp he with he | he
    · exact .inl ⟨e, he, rfl⟩
    · obtain rfl := List.mem_singleton.mp he
      exact .inr (.inr ⟨_, hi, by rw [hj]; rfl, rfl⟩)
  case foreignSubmitted hj =>
    rcases List.mem_append.mp he with he | he
    · exact .inl ⟨e, he, rfl⟩
    · obtain rfl := List.mem_singleton.mp he
      exact .inr (.inr ⟨_, rfl, by rw [hj]; rfl, rfl⟩)
  case startGone hf _ _    => exact .inl (moved hf he)
  case started hf _        => exact .inl (moved hf he)
  case spawned hf _        => exact .inl (moved hf he)
  case exited hf _         => exact .inl (moved hf he)
  case finished hf _       => exact .inl (moved hf he)
  case reported hf _ _ _   => exact .inl (moved hf he)
  case reportLost hf _     => exact .inl (moved hf he)
  all_goals exact .inl ⟨e, he, rfl⟩

end Jobs

theorem Staffed.step (h : Staffed d s.jobs) (ha : Allowed d s ev) (hs : step d s ev = some s') :
    Staffed d s'.jobs := by
  cases ev
  case storage =>
    obtain rfl := Option.some.inj hs
    exact h
  case job je =>
    obtain ⟨j', hj, rfl⟩ := Option.map_eq_some_iff.mp hs
    constructor
    case dispatching =>
      intro u hu c a hp
      rcases dispatching_of_step hj hu hp with hu | ⟨n, hn⟩
      · exact h.dispatching u hu c a hp
      · obtain ⟨q, hq, node, hmem, hf, rfl⟩ := exists_isFirst_of_picks hn
        exact ha.1 q hq node hmem hf
    case executors =>
      intro e he
      rcases executor_of_step (JobSystem.Step.of_step hj) he with ⟨f, hf, hn⟩ | ⟨t, ht, c, hp⟩ |
        ⟨c, hc, hv, hn⟩
      · exact hn ▸ h.executors f hf
      · exact h.dispatching t ht c _ hp
      · exact hn ▸ ha.2 c hc hv

-- The handlers of objects and shards keep to the storage role in exactly the cases that are allowed.
theorem enforced_storage_iff {n : NodeId} {request : StorageRequest} {faults : List Fault} :
    Enforced d s (.storage n request faults) ↔ Allowed d s (.storage n request faults) := by
  by_cases hr : (d.roles n).storage = true
  case pos =>
    refine iff_of_true (fun h => absurd hr h) ?_
    cases request
    case fetch => exact .inl hr
    all_goals trivial
  case neg =>
    have ⟨hw, hrefuse⟩ := d.serve_of_not_storage ⟨s.disks n, faults⟩ request (Bool.eq_false_iff.mpr hr)
    have hdisk : (d.serve n ⟨s.disks n, faults⟩ request).2.disk = s.disks n := by rw [hw]
    rw [Enforced, imp_iff_right hr, and_iff_left hdisk]
    cases request
    case fetch payload => exact isRefusal_fetchChunk.trans (or_iff_right hr).symm
    all_goals exact iff_of_true (hrefuse fun _ h => nomatch h) trivial

theorem Staffed.of_allowed (h : Staffed d s.jobs) (ha : Allowed d s ev) : Enforced d s ev := by
  cases ev
  case job je =>
    constructor
    case left =>
      intro n hn
      cases je
      case spawn k =>
        obtain ⟨e, he, rfl⟩ := Option.map_eq_some_iff.mp hn
        exact h.executors e (List.mem_of_getElem? he)
      all_goals cases hn
    case right =>
      intro p hp _
      obtain ⟨q, hq, node, hmem, hf, hn⟩ := exists_isFirst_of_picks hp
      exact hn ▸ ha.1 q hq node hmem hf
  case storage => exact enforced_storage_iff.mpr ha

-- In every run in which nothing gets to a node without the role that its handlers do not ask for, all
-- nodes keep to their roles.
theorem enforced_of_allowed (d : Deployment) (clusters : NodeId → ClusterState)
    (disks : NodeId → Disk) (es : List Event)
    (g : Guarded (step d) (Allowed d) (init clusters disks) es) :
    Guarded (step d) (Enforced d) (init clusters disks) es :=
  g.imp (I := fun s => Staffed d s.jobs) (Staffed.init clusters)
    (fun _ _ _ h ha hs => h.step ha hs) fun _ _ _ h ha _ => h.of_allowed ha

section Sample

-- Nodes with the given roles that other nodes reach at their ids.
def sample (roles : NodeId → RolesConfig) : Deployment where
  net       := .plain
  roles     := roles
  dataDir _ := "/d"
  crates    := .reference
  text _    := ""
  ioText _  := ""

-- A job goes from one node to another, and an object to the one, each as its roles allow.
theorem enforced_of_allowed_sample :
    let d := sample fun n => if n = ⟨1⟩ then ⟨false, true⟩ else ⟨true, false⟩
    let es := [.job (.enqueue ⟨1⟩ .plain ⟨7⟩ 0), .job (.dispatch 0), .job (.submit 0 1),
      .job (.start 0 2), .job (.spawn 0), .storage ⟨1⟩ (.put "b" "k" (some "hot") [7] fun _ => "") [],
      .storage ⟨2⟩ (.get "b" "k") [], .storage ⟨2⟩ (.fetch ⟨"b", "k", 0⟩) []]
    (run (step d) (init (fun _ => .plain ⟨2⟩) fun _ => World.empty.disk) es).isSome ∧
    Guarded (step d) (Enforced d) (init (fun _ => .plain ⟨2⟩) fun _ => World.empty.disk) es := by
  refine ⟨by decide +kernel, enforced_of_allowed _ _ _ _ ?_⟩
  decide +kernel

-- The job goes to a node without the executor role, which starts its process.
theorem enforced_of_allowed_fails : ¬ ∀ (d : Deployment) (clusters : NodeId → ClusterState)
    (disks : NodeId → Disk) (es : List Event),
    Guarded (step d) (Enforced d) (init clusters disks) es := by
  intro hall
  let d := sample fun n => ⟨n ≠ ⟨2⟩, true⟩
  let s₀ := init (fun _ => .plain ⟨2⟩) fun _ => World.empty.disk
  let es : List Event := [.job (.enqueue ⟨1⟩ .plain ⟨7⟩ 0), .job (.dispatch 0), .job (.submit 0 1),
    .job (.start 0 2)]
  have hx : (run (step d) s₀ es).bind (fun s => s.jobs.executors[0]?.map fun e => (e.node, e.phase)) =
      some (⟨2⟩, .started) := by
    decide +kernel
  obtain ⟨s, hr, hx⟩ := Option.bind_eq_some_iff.mp hx
  obtain ⟨e, he, hx⟩ := Option.map_eq_some_iff.mp hx
  obtain ⟨hn, hp⟩ := Prod.mk.inj hx
  have hs : step d s (.job (.spawn 0)) = some { s with jobs := s.jobs.setExecutor 0 .running } := by
    rw [step, JobSystem.step_of_table_eq_none rfl, JobSystem.act, he, Option.bind_some,
      JobSystem.spawnProcess, hp]
    rfl
  have g := hall d (fun _ => .plain ⟨2⟩) (fun _ => World.empty.disk) (es ++ [.job (.spawn 0)])
  have henf : Enforced d s (.job (.spawn 0)) := ((guarded_append.mp g).2 s hr _ hs).1
  have hrole := henf.1 e.node (by rw [starts, he]; rfl)
  rw [hn] at hrole
  exact absurd hrole (by decide)

end Sample

end RoleSystem

end All4One
