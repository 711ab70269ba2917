import All4One.Jobs.Command
import All4One.Jobs.Theorems.Order

open Foundation Transition

namespace All4One

-- A record is about a job and says what is run for it.
structure JobRecord.IsOf (job : JobRecord) (jobId : JobId) (args : JobArgs) : Prop where
  jobId   : job.jobId = jobId
  runtime : job.runtime = args.runtime
  source  : job.source = args.source
  command : job.command = args.command

namespace JobRecord.IsOf

variable {job : JobRecord} {jobId : JobId} {args : JobArgs} {now : DateTime}

theorem queued (jobId : JobId) (assignedTo : NodeId) (request : SubmitJobRequest) (now : DateTime) :
    (JobRecord.queued jobId assignedTo request now).IsOf jobId request.args where
  jobId   := rfl
  runtime := rfl
  source  := rfl
  command := rfl

theorem start (h : job.IsOf jobId args) : (job.start now).IsOf jobId args where
  __ := h

theorem cancel (h : job.IsOf jobId args) : (job.cancel now).IsOf jobId args where
  __ := h

theorem report {v : Verdict} (h : job.IsOf jobId args) : (job.report v now).IsOf jobId args where
  __ := h

theorem dispatched {assigned : NodeId} (h : job.IsOf jobId args) :
    (job.dispatched assigned now).IsOf jobId args := by
  rw [JobRecord.dispatched]
  split
  case isTrue  => exact { h with }
  case isFalse => exact h

theorem finish {o : Outcome} (h : job.IsOf jobId args) : (job.finish o now).IsOf jobId args := by
  cases o
  case exited =>
    simp only [JobRecord.finish]
    split
    · split <;> exact { h with }
    · exact h
  all_goals exact { h with }

end JobRecord.IsOf

namespace JobSystem

-- What the origins have been asked to run.
def requests (s : JobSystem) : List (JobId × SubmitJobRequest) :=
  s.tasks.map fun t => (t.jobId, t.request)

def executorIds (s : JobSystem) : List JobId :=
  s.executors.map (·.jobId)

section

variable {s : JobSystem} {n : NodeId} {jobs : Jobs} {k : Nat} {p : TaskPhase} {q : ExecutorPhase}
  {e : Executor}

@[simp] theorem requests_setJobs : (s.setJobs n jobs).requests = s.requests := rfl
@[simp] theorem requests_setExecutor : (s.setExecutor k q).requests = s.requests := rfl
@[simp] theorem requests_spawn : (s.spawn e).requests = s.requests := rfl
@[simp] theorem requests_setLate {late} : (s.setLate late).requests = s.requests := rfl
@[simp] theorem executorIds_setJobs : (s.setJobs n jobs).executorIds = s.executorIds := rfl
@[simp] theorem executorIds_setTask : (s.setTask k p).executorIds = s.executorIds := rfl
@[simp] theorem executorIds_setLate {late} : (s.setLate late).executorIds = s.executorIds := rfl

@[simp]
theorem requests_setTask : (s.setTask k p).requests = s.requests :=
  Lists.map_modify (f := fun t : Task => { t with phase := p })
    (g := fun t : Task => (t.jobId, t.request)) (fun _ => rfl) s.tasks k

@[simp]
theorem executorIds_setExecutor : (s.setExecutor k q).executorIds = s.executorIds :=
  map_jobId_setExecutor ..

@[simp]
theorem executorIds_spawn : (s.spawn e).executorIds = s.executorIds ++ [e.jobId] := by
  simp [executorIds]

theorem request_mem {t : Task} (ht : s.tasks[k]? = some t) : (t.jobId, t.request) ∈ s.requests :=
  List.mem_map_of_mem (List.mem_of_getElem? ht)

end

-- Who has a node run a job, and with which arguments.
inductive Orders (s : JobSystem) : Event → JobId → JobArgs → Prop
  | task {ev jobId request} : (jobId, request) ∈ s.requests → Orders s ev jobId request.args
  | late {ev c jobId} : c ∈ s.late → c.2.job? = some jobId →
    Orders s ev jobId (Grpc.fromProto c.2).args
  | foreign {n request now jobId} : request.job? = some jobId →
    Orders s (.foreignSubmit n request now) jobId (Grpc.fromProto request).args

variable {net : Network} {s s' : JobSystem} {ev : Event} {n m : NodeId} {jobId : JobId} {t : Task}
  {job' : JobRecord} {k : Nat} {now : DateTime}

-- The node gets to know all of the request but for its constraints.
theorem args_fromProto_submitRemoteRequest (jobId : JobId) (endpoint : String)
    (request : SubmitJobRequest) :
    (Grpc.fromProto (Grpc.submitRemoteRequest jobId endpoint request)).args = request.args := by
  rw [Grpc.fromProto_submitRemoteRequest]
  rfl

theorem isOf_of_submit {c a endpoint} (h : step net s (.submit k now) = some s')
    (ht : s.tasks[k]? = some t) (hp : t.phase = .submitting c a endpoint)
    (hr : net.route endpoint = some m) (hv : t.request.isValid)
    (hl : (s'.jobs m).lookup t.jobId = some job') : job'.IsOf t.jobId t.request.args := by
  have hj := Grpc.job?_submitRemoteRequest t.jobId (net.localNode t.node).grpcEndpoint t.request
  rw [if_pos hv] at hj
  have h := act_of_step h
  simp only [act, ht, Option.bind_some, submit, hp, Task.submission_of_route hp hr,
    Grpc.submitJob_of_job?_some hj, Option.some.injEq] at h
  subst h
  simp only [spawn_jobs, setTask_jobs, setJobs_jobs, Function.update_self, Finmap.lookup_insert,
    Option.some.injEq] at hl
  rw [← hl, ← args_fromProto_submitRemoteRequest t.jobId (net.localNode t.node).grpcEndpoint]
  exact .queued ..

-- A new record is one that `enqueue_job` or `enqueue_remote_job` writes.
theorem record_of_step (h : step net s ev = some s') (hl : (s'.jobs n).lookup jobId = some job') :
    (∃ job, (s.jobs n).lookup jobId = some job ∧ ∀ i args, job.IsOf i args → job'.IsOf i args) ∨
    (∃ args, Orders s ev jobId args ∧ job'.IsOf jobId args ∧ jobId ∈ s'.executorIds) ∨
    ∃ request now, ev = .enqueue n request jobId now ∧ job'.IsOf jobId request.args ∧
      (jobId, request) ∈ s'.requests := by
  have same (h : (s.jobs n).lookup jobId = some job') :
      ∃ job, (s.jobs n).lookup jobId = some job ∧ ∀ i args, job.IsOf i args → job'.IsOf i args :=
    ⟨job', h, fun _ _ h => h⟩
  have modified {m i f} (h : s'.jobs = Function.update s.jobs m (HashMap.modify (s.jobs m) i f))
      (hf : ∀ (job : JobRecord) i args, job.IsOf i args → (f job).IsOf i args) :
      ∃ job, (s.jobs n).lookup jobId = some job ∧ ∀ i args, job.IsOf i args → job'.IsOf i args := by
    rcases lookup_of_modify h hl with hl | ⟨_, _, job, hj, rfl⟩
    · exact same hl
    · exact ⟨job, hj, hf job⟩
  cases Step.of_step h
  case enqueued t _ _ _ hi hr _ =>
    rcases lookup_of_insert rfl hl with hl | ⟨rfl, rfl, rfl⟩
    · exact .inl (same hl)
    · exact .inr (.inr ⟨_, _, rfl, .queued .., by simp [requests, hi, hr]⟩)
  case submitted t _ _ _ _ _ request callback ht hp hr hv =>
    rcases lookup_of_insert rfl hl with hl | ⟨rfl, rfl, rfl⟩
    · exact .inl (same hl)
    · have := isOf_of_submit h ht hp hr hv hl
      exact .inr (.inl ⟨_, .task (request_mem ht), this, by simp [executorIds, Executor.spawnJob]⟩)
  case lateSubmitted hi hj =>
    rcases lookup_of_insert rfl hl with hl | ⟨rfl, rfl, rfl⟩
    · exact .inl (same hl)
    · exact .inr (.inl ⟨_, .late (List.mem_of_getElem? hi) hj, .queued .., by simp [executorIds, Executor.spawnJob]⟩)
  case foreignSubmitted hj =>
    rcases lookup_of_insert rfl hl with hl | ⟨rfl, rfl, rfl⟩
    · exact .inl (same hl)
    · exact .inr (.inl ⟨_, .foreign hj, .queued .., by simp [executorIds, Executor.spawnJob]⟩)
  case deleted job hj _ =>
    rcases lookup_of_insert rfl hl with hl | ⟨rfl, rfl, rfl⟩
    · exact .inl (same hl)
    · exact .inl ⟨job, hj, fun _ _ h => h.cancel⟩
  case replied         => exact .inl (modified rfl fun _ _ _ h => h.dispatched)
  case started         => exact .inl (modified rfl fun _ _ _ h => h.start)
  case finished        => exact .inl (modified rfl fun _ _ _ h => h.finish)
  case reported        => exact .inl (modified rfl fun _ _ _ h => h.report)
  case foreignReported => exact .inl (modified rfl fun _ _ _ h => h.report)
  -- The other events write no record.
  all_goals exact .inl (same hl)

-- Only `enqueue_job` adds a request.
theorem Step.requests (hs : Step net s ev s') :
    s'.requests = s.requests ∨
    ∃ n request jobId now, ev = .enqueue n request jobId now ∧ s.IsFresh n jobId ∧ request.isValid ∧
      s'.requests = s.requests ++ [(jobId, request)] := by
  cases hs
  case enqueued hf hv _ hi hr _ =>
    exact .inr ⟨_, _, _, _, rfl, hf, hv, by simp [JobSystem.requests, hi, hr]⟩
  case gossiped => exact .inl rfl
  all_goals exact .inl (by simp)

theorem Step.mem_requests {r : JobId × SubmitJobRequest} (hs : Step net s ev s')
    (hr : r ∈ s'.requests) :
    r ∈ s.requests ∨ ∃ n now, ev = .enqueue n r.2 r.1 now ∧ s.IsFresh n r.1 ∧ r.2.isValid := by
  rcases hs.requests with he | ⟨n, request, jobId, now, rfl, hf, hv, he⟩
  · exact .inl (he ▸ hr)
  · rw [he, List.mem_append, List.mem_singleton] at hr
    rcases hr with hr | rfl
    · exact .inl hr
    · exact .inr ⟨n, now, rfl, hf, hv⟩

theorem Step.requests_subset (hs : Step net s ev s') : s.requests ⊆ s'.requests := by
  rcases hs.requests with he | ⟨_, _, _, _, _, _, _, he⟩ <;> rw [he]
  · exact List.Subset.refl _
  · exact List.subset_append_left ..

-- What is late is the call of a task.
theorem Step.late (hs : Step net s ev s') {c : NodeId × Grpc.SubmitJobRequest} (hc : c ∈ s'.late) :
    c ∈ s.late ∨ ∃ r ∈ s.requests, (Grpc.fromProto c.2).args = r.2.args ∧
      (c.2.job? = none ∨ c.2.job? = some r.1) := by
  cases hs
  case submitLost t _ _ _ ht hp =>
    rcases List.mem_append.mp hc with hc | hc
    · exact .inl hc
    · have hsub := Option.mem_toList.mp hc
      have hj := t.job?_submission hsub
      refine .inr ⟨_, request_mem ht, ?_, ?_⟩
      · simp only [Task.submission, hp, Option.map_eq_some_iff] at hsub
        obtain ⟨_, _, rfl⟩ := hsub
        exact args_fromProto_submitRemoteRequest ..
      · rw [hj]
        split <;> simp
  case lateRefused   => exact .inl (List.mem_of_mem_eraseIdx hc)
  case lateSubmitted => exact .inl (List.mem_of_mem_eraseIdx hc)
  all_goals exact .inl hc

end JobSystem

end All4One
