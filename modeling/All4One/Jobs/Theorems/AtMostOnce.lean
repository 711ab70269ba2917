import All4One.Jobs.Theorems.Step

open Foundation Transition

namespace All4One

-- In these phases the task is about to have the job run, unless a failure stops it.
def TaskPhase.tries : TaskPhase → Nat
  | .dispatching .. | .submitting .. | .checked _ => 1
  | _                                             => 0

-- The call of `submit_remote` that a task has on its way is one for its own job.
theorem Task.count_submission_le (net : Network) (t : Task) (jobId : JobId) :
    ((t.submission net).toList.map (·.2.job?)).count (some jobId) ≤
    if t.jobId = jobId then 1 else 0 := by
  cases hs : t.submission net
  case none => simp
  case some c =>
    rw [Option.toList_some, List.map_singleton, t.job?_submission hs, List.count_singleton]
    split <;> split <;> simp_all

namespace JobSystem

-- How often `spawn_job` has been started for a job, over all nodes.
def executions (s : JobSystem) (jobId : JobId) : Nat :=
  (s.executors.map (·.jobId)).count jobId

-- How many failed calls of `submit_remote` may still start it.
def lateCalls (s : JobSystem) (jobId : JobId) : Nat :=
  (s.late.map (·.2.job?)).count (some jobId)

-- The retry task goes into another round only if no earlier round has had the job accepted or may
-- still have it accepted, and nobody but the origin submits the job.
def Idempotent (s : JobSystem) : Event → Prop
  | .wake k =>
    ∀ t, s.tasks[k]? = some t → s.status t.node t.jobId = some .queued →
      (∀ e ∈ s.executors, e.jobId ≠ t.jobId) ∧ ∀ c ∈ s.late, c.2.job? ≠ some t.jobId
  | .foreignSubmit _ request _ => ∀ t ∈ s.tasks, request.job? ≠ some t.jobId
  | _                          => True

instance (s : JobSystem) : DecidablePred (Idempotent s)
  | .wake k                    => inferInstanceAs (Decidable (∀ t ∈ s.tasks[k]?, _ → _ ∧ _))
  | .foreignSubmit _ request _ => inferInstanceAs (Decidable (∀ t ∈ s.tasks, request.job? ≠ _))
  | .enqueue .. | .pick _ | .dispatch _ | .submit .. | .loseSubmit _ | .submitLate .. | .reply ..
  | .loseReply _ | .start .. | .spawn _ | .exit .. | .finish .. | .report .. | .loseReport _
  | .delete .. | .gossip .. | .foreignReport .. => .isTrue trivial

section

variable {s : JobSystem} {n : NodeId} {jobs : Jobs} {k : Nat} {p : TaskPhase} {q : ExecutorPhase}
  {e : Executor} {i : JobId}

@[simp] theorem executions_setJobs : (s.setJobs n jobs).executions i = s.executions i := rfl
@[simp] theorem executions_setTask : (s.setTask k p).executions i = s.executions i := rfl
@[simp] theorem lateCalls_setJobs : (s.setJobs n jobs).lateCalls i = s.lateCalls i := rfl
@[simp] theorem lateCalls_setTask : (s.setTask k p).lateCalls i = s.lateCalls i := rfl
@[simp] theorem lateCalls_setExecutor : (s.setExecutor k q).lateCalls i = s.lateCalls i := rfl
@[simp] theorem lateCalls_spawn : (s.spawn e).lateCalls i = s.lateCalls i := rfl

@[simp]
theorem executions_setExecutor : (s.setExecutor k q).executions i = s.executions i := by
  simp only [executions, map_jobId_setExecutor]

@[simp]
theorem executions_spawn :
    (s.spawn e).executions i = s.executions i + if e.jobId = i then 1 else 0 := by
  simp [executions, List.count_cons]

@[simp]
theorem executions_setLate {late} : (s.setLate late).executions i = s.executions i := rfl

theorem lateCalls_append_submission_le (net : Network) (t : Task) :
    (s.setLate (s.late ++ (t.submission net).toList)).lateCalls i ≤
    s.lateCalls i + if t.jobId = i then 1 else 0 := by
  simp only [lateCalls, setLate_late, List.map_append, List.count_append]
  exact Nat.add_le_add_left (t.count_submission_le net i) _

theorem lateCalls_eraseIdx {c} (h : s.late[k]? = some c) :
    (s.setLate (s.late.eraseIdx k)).lateCalls i + (if c.2.job? = some i then 1 else 0) =
    s.lateCalls i := by
  have := Lists.count_map_eraseIdx (g := fun c : NodeId × Grpc.SubmitJobRequest => c.2.job?) h (some i)
  simpa only [lateCalls, setLate_late, beq_iff_eq] using this

theorem executions_eq_zero (h : ∀ e ∈ s.executors, e.jobId ≠ i) : s.executions i = 0 := by
  simpa [executions, List.count_eq_zero] using h

theorem lateCalls_eq_zero (h : ∀ c ∈ s.late, c.2.job? ≠ some i) : s.lateCalls i = 0 := by
  simp only [lateCalls, List.count_eq_zero, List.mem_map, not_exists, not_and]
  exact h

end

-- The executions of a job, those that may still come of failed calls, and the one that its task is
-- about to start are never more than one.
structure Single (s : JobSystem) : Prop where
  nodup : (s.tasks.map (·.jobId)).Nodup
  once  : ∀ t ∈ s.tasks, s.executions t.jobId + s.lateCalls t.jobId + t.phase.tries ≤ 1

namespace Single

variable {net : Network} {s s' : JobSystem} {k : Nat} {t : Task} {p : TaskPhase}

theorem init (clusters : NodeId → ClusterState) : Single (init clusters) where
  nodup := .nil
  once  := by simp [JobSystem.init]

-- A step of one task affects the count of its own job only.
theorem setTask (h : s.Single) (ht : s.tasks[k]? = some t)
    (htasks : s'.tasks = (s.setTask k p).tasks)
    (hother : ∀ i ≠ t.jobId, s'.executions i + s'.lateCalls i ≤ s.executions i + s.lateCalls i)
    (hself : s'.executions t.jobId + s'.lateCalls t.jobId + p.tries ≤ 1) : s'.Single where
  nodup := by
    rw [htasks, map_jobId_setTask]
    exact h.nodup
  once u hu := by
    rw [htasks] at hu
    rcases mem_setTask_of_nodup h.nodup ht hu with rfl | ⟨hu, hne⟩
    · exact hself
    · have := h.once u hu
      have := hother _ hne
      omega

theorem setTask' (h : s.Single) (ht : s.tasks[k]? = some t)
    (hp : p.tries ≤ t.phase.tries) : (s.setTask k p).Single := by
  refine h.setTask ht rfl (by simp) ?_
  have := h.once t (List.mem_of_getElem? ht)
  simp only [executions_setTask, lateCalls_setTask]
  omega

theorem of_tasks_eq (h : s.Single) (htasks : s'.tasks = s.tasks)
    (hle : ∀ t ∈ s.tasks, s'.executions t.jobId + s'.lateCalls t.jobId ≤
      s.executions t.jobId + s.lateCalls t.jobId) : s'.Single where
  nodup := htasks ▸ h.nodup
  once t ht := by
    rw [htasks] at ht
    have := h.once t ht
    have := hle t ht
    omega

theorem tries_resume (rounds : Nat) : (TaskPhase.resume rounds).tries = 0 := by
  cases rounds <;> rfl

theorem tries_afterFailure (caller : Caller) : (TaskPhase.afterFailure caller).tries = 0 := by
  cases caller
  case enqueue => rfl
  case retry   => exact tries_resume _

theorem step {e : Event} (h : s.Single) (hg : Idempotent s e) (hs : Step net s e s') :
    s'.Single := by
  have one {k t} (ht : s.tasks[k]? = some t) := h.once t (List.mem_of_getElem? ht)
  cases hs
  case enqueued t hf hv hn hi hr hp =>
    subst hi
    have he := executions_eq_zero hf.executors
    have hc := lateCalls_eq_zero hf.late
    constructor
    case nodup => exact nodup_tasks_append h.nodup hf
    case once =>
      intro u hu
      rcases List.mem_append.mp hu with hu | hu
      · exact h.once u hu
      · rw [List.mem_singleton.mp hu]
        change s.executions t.jobId + s.lateCalls t.jobId + t.phase.tries ≤ 1
        rw [he, hc]
        rcases hp with hp | ⟨_, hp⟩ <;> rw [hp] <;> exact Nat.le_of_ble_eq_true rfl
  case wakeDone ht hp hj => exact h.setTask' ht (Nat.zero_le _)
  case woken job ht hp hl hq =>
    have ⟨he, hc⟩ := hg _ ht (by simp [status, hl, hq])
    exact h.setTask ht rfl (by simp)
      (by simp [executions_eq_zero he, lateCalls_eq_zero hc, TaskPhase.tries])
  case unpicked ht hp hn => exact h.setTask' ht (by simp [tries_resume])
  case picked ht hp => exact h.setTask' ht (by simp [hp, TaskPhase.tries])
  case dispatchedLocal ht hp =>
    have := one ht
    refine h.setTask ht rfl (fun i hi => by simp [Executor.spawnJob, hi.symm]) ?_
    simp [Executor.spawnJob, TaskPhase.tries, hp] at *
    omega
  case dispatchedRemote ht hp => exact h.setTask' ht (by simp [hp, TaskPhase.tries])
  case dispatchFailed ht hp ha hl => exact h.setTask' ht (by simp [tries_afterFailure])
  case submitRefused ht hp hv => exact h.setTask' ht (by simp [tries_afterFailure])
  case submitted ht hp hr hv =>
    have := one ht
    refine h.setTask ht rfl (fun i hi => by simp [Executor.spawnJob, hi.symm]) ?_
    simp [Executor.spawnJob, TaskPhase.tries, hp] at *
    omega
  case submitLost k t c _ _ ht hp =>
    have ho := one ht
    rw [hp, TaskPhase.tries] at ho
    have hl (i : JobId) :=
      lateCalls_append_submission_le (s := s.setTask k (.afterFailure c)) (i := i) net t
    simp only [setTask_late, lateCalls_setTask] at hl
    refine h.setTask ht rfl (fun i hi => ?_) ?_
    · have := hl i
      simp only [hi.symm, ↓reduceIte] at this
      rw [executions_setLate, executions_setTask]
      omega
    · have := hl t.jobId
      simp only [↓reduceIte] at this
      rw [executions_setLate, executions_setTask, tries_afterFailure]
      omega
  case lateRefused hi hj =>
    refine h.of_tasks_eq rfl fun t _ => ?_
    have := lateCalls_eraseIdx (i := t.jobId) hi
    rw [executions_setLate]
    omega
  case lateSubmitted hi hj =>
    refine h.of_tasks_eq rfl fun t _ => ?_
    have := lateCalls_eraseIdx (i := t.jobId) hi
    simp only [hj, Option.some.injEq] at this
    simp only [executions_spawn, executions_setJobs, executions_setLate, lateCalls_spawn,
      lateCalls_setJobs, Executor.spawnJob]
    omega
  case replied ht hp =>
    have := one ht
    refine h.setTask ht rfl (by simp) ?_
    simp only [executions_setTask, executions_setJobs, lateCalls_setTask, lateCalls_setJobs,
      TaskPhase.tries]
    omega
  case replyLost ht hp => exact h.setTask' ht (by simp [tries_afterFailure])
  case foreignSubmitted hj =>
    refine h.of_tasks_eq rfl fun t ht => ?_
    have := hg t ht
    simp [hj] at this
    simp [Executor.spawnJob, this]
  case gossiped => exact h.of_tasks_eq rfl fun _ _ => le_refl _
  -- The other events start no job and move no task.
  all_goals exact h.of_tasks_eq rfl fun _ _ => by simp

end Single

section

variable {net : Network} {clusters : NodeId → ClusterState} {es : List Event} {s : JobSystem}

theorem single_of_visits (g : Guarded (step net) Idempotent (init clusters) es)
    (h : Visits (step net) (init clusters) es s) : s.Single :=
  g.invariant h (.init clusters) fun _ _ _ h hg hs => h.step hg (Step.of_step hs)

-- A job is executed at most once in the runs of idempotent rounds. A node that already knows a job
-- starts it again and replaces its record on every request for it that passes the checks.
theorem executed_at_most_once (g : Guarded (step net) Idempotent (init clusters) es)
    (h : Visits (step net) (init clusters) es s) :
    (∀ t ∈ s.tasks, s.executions t.jobId ≤ 1) ∧
    ∀ (n : NodeId) (request : Grpc.SubmitJobRequest) (now : DateTime) (uuid : Uuid),
      Uuid.parseStr request.jobId = some uuid → ((s.jobs n).lookup ⟨uuid⟩).isSome →
      ((∃ status, Grpc.submitJob n (s.jobs n) request now = .error status) ↔
        ¬ (Grpc.fromProto request).isValid) := by
  refine ⟨fun t ht => ?_, fun n request now uuid hp _ => ?_⟩
  · have := (single_of_visits g h).once t ht
    omega
  · by_cases hv : (Grpc.fromProto request).isValid = true
    case pos =>
      have hj : request.job? = some ⟨uuid⟩ := by simp [Grpc.SubmitJobRequest.job?, hv, hp]
      simp [Grpc.submitJob_of_job?_some hj, hv]
    case neg =>
      have hj : request.job? = none := by simp [Grpc.SubmitJobRequest.job?, hv]
      exact iff_of_true (Grpc.submitJob_of_job?_none _ _ _ hj) hv

end

-- The third node cannot be reached.
def withoutThird : Network where
  localNode      := .plain
  route endpoint := if endpoint = (NodeInfo.plain ⟨3⟩).grpcEndpoint then none else Network.plain.route endpoint

-- The call of the first round reaches nobody. The reply to that of the second one is lost, and the third
-- one finds the job reported.
theorem executed_at_most_once_retried :
    let es : List Event :=
      [.enqueue ⟨1⟩ .plain ⟨7⟩ 0,
       .wake 0, .gossip ⟨1⟩ (.plain ⟨3⟩), .pick 0, .dispatch 0, .loseSubmit 0,
       .wake 0, .gossip ⟨1⟩ (.plain ⟨2⟩), .pick 0, .dispatch 0, .submit 0 1, .loseReply 0,
       .start 0 2, .spawn 0, .exit 0 (.exited (some 0)), .finish 0 3, .report 0 4, .wake 0]
    ∃ s, Visits (step withoutThird) (init fun _ => .default) es s ∧ s.executions ⟨7⟩ = 1 ∧
      (∀ t ∈ s.tasks, s.executions t.jobId ≤ 1) ∧
      ¬ ∃ status, Grpc.submitJob ⟨2⟩ (s.jobs ⟨2⟩)
        (Grpc.submitRemoteRequest ⟨7⟩ (NodeInfo.plain ⟨1⟩).grpcEndpoint .plain) 5 = .error status := by
  intro es
  have hs : ∃ s ∈ run (step withoutThird) (init fun _ => .default) es,
      s.executions ⟨7⟩ = 1 ∧ ((s.jobs ⟨2⟩).lookup ⟨7⟩).isSome := by
    decide
  obtain ⟨s, hr, hx, hk⟩ := hs
  have g : Guarded (step withoutThird) Idempotent (init fun _ => .default) es := by decide
  obtain ⟨hmost, hknown⟩ := executed_at_most_once g (.last hr)
  refine ⟨s, .last hr, hx, hmost, ?_⟩
  rw [hknown ⟨2⟩ _ 5 7 (by decide) hk]
  decide

-- The reply to an accepted call is lost, and the next round finds another node.
theorem executed_twice :
    ¬ ∀ (net : Network) (clusters : NodeId → ClusterState) (es : List Event) (s : JobSystem),
      Visits (step net) (init clusters) es s → ∀ t ∈ s.tasks, s.executions t.jobId ≤ 1 := by
  intro h
  let round (n : NodeId) (now : DateTime) : List Event :=
    [.wake 0, .gossip ⟨1⟩ (.plain n), .pick 0, .dispatch 0, .submit 0 now, .loseReply 0]
  let clusters (_ : NodeId) : ClusterState := .default
  let es : List Event := .enqueue ⟨1⟩ .plain ⟨7⟩ 0 :: (round ⟨2⟩ 1 ++ round ⟨3⟩ 2)
  have hr : (run (step .plain) (init clusters) es).map
      (fun s => (s.tasks.map (·.jobId), s.executions ⟨7⟩)) = some ([⟨7⟩], 2) := by
    decide
  obtain ⟨s, hr, hs⟩ := Option.map_eq_some_iff.mp hr
  simp only [Prod.mk.injEq] at hs
  obtain ⟨t, ht, hi⟩ := List.mem_map.mp (hs.1 ▸ List.mem_singleton_self _)
  have := h .plain clusters es s (.last hr) t ht
  rw [hi, hs.2] at this
  revert this
  decide

end JobSystem

end All4One
