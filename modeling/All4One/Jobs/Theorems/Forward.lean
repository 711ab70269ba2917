import All4One.Jobs.Theorems.Step

open Foundation Transition

namespace All4One

def Outcome.isExit : Outcome → Bool
  | exited _ => true
  | _        => false

-- The end of a process moves a status backwards where the job has already ended in another way, but
-- for an exit of a job that has been cancelled.
theorem JobRecord.status_le_finish_status {o : Outcome} {now : DateTime} {job : JobRecord} :
    job.status ≤ (job.finish o now).status ↔
    (job.status.isTerminal → job.status = o.verdict.status ∨ job.status = .cancelled ∧ o.isExit) := by
  constructor
  case mp =>
    intro h ht
    have h := JobStatus.eq_of_le_of_isTerminal h ht
    rw [finish_status] at h
    cases o
    case exited =>
      by_cases hc : job.status = .cancelled
      case pos => exact .inr ⟨hc, rfl⟩
      case neg => simp only [hc, ↓reduceIte] at h; exact .inl h.symm
    all_goals exact .inl h.symm
  case mpr =>
    intro h
    by_cases ht : job.status.isTerminal = true
    case neg => exact JobStatus.le_of_not_isTerminal ht (finish_isTerminal ..)
    case pos =>
      refine .inl ?_
      rw [finish_status]
      rcases h ht with h | ⟨hc, ho⟩
      · cases o <;> grind
      · cases o <;> simp_all [Outcome.isExit]

theorem JobRecord.status_le_start_status {now : DateTime} {job : JobRecord} :
    job.status ≤ (job.start now).status ↔ ¬ job.status.isTerminal := by
  rw [start_status]
  generalize job.status = a
  revert a
  decide

theorem JobRecord.status_le_dispatched_status (assigned : NodeId) (now : DateTime)
    (job : JobRecord) : job.status ≤ (job.dispatched assigned now).status := by
  rw [dispatched_status]
  split
  case isTrue h => exact h ▸ JobStatus.queued_le _
  case isFalse  => exact le_refl _

namespace JobSystem

-- A node keeps the record of a job, and its status stays or moves on.
def Forward (s s' : JobSystem) : Prop :=
  ∀ n jobId job, (s.jobs n).lookup jobId = some job →
    ∃ job', (s'.jobs n).lookup jobId = some job' ∧ job.status ≤ job'.status

namespace Forward

variable {s s' s₁ s₂ s₃ : JobSystem} {n : NodeId} {jobId : JobId} {r : JobRecord}
  {f : JobRecord → JobRecord}

theorem of_jobs_eq (h : s'.jobs = s.jobs) : Forward s s' :=
  fun _ _ job hl => ⟨job, h ▸ hl, le_refl _⟩

theorem trans (h₁ : Forward s₁ s₂) (h₂ : Forward s₂ s₃) : Forward s₁ s₃ := by
  intro n jobId job hl
  have ⟨_, hl, hle⟩ := h₁ n jobId job hl
  have ⟨_, hl, hle'⟩ := h₂ n jobId _ hl
  exact ⟨_, hl, hle.trans hle'⟩

-- Where a step writes the record of one job on one node, only that job matters.
theorem iff_of_modify
    (h : s'.jobs = Function.update s.jobs n (HashMap.modify (s.jobs n) jobId f)) :
    Forward s s' ↔ ∀ job, (s.jobs n).lookup jobId = some job → job.status ≤ (f job).status := by
  constructor
  case mp =>
    intro hf job hl
    have ⟨_, hl', hle⟩ := hf n jobId job hl
    simp only [h, Function.update_self, HashMap.lookup_modify_self, hl, Option.map_some,
      Option.some.injEq] at hl'
    exact hl' ▸ hle
  case mpr =>
    intro hf m i job hl
    by_cases hm : m = n ∧ i = jobId
    case pos =>
      obtain ⟨rfl, rfl⟩ := hm
      exact ⟨f job, by simp [h, hl], hf job hl⟩
    case neg =>
      refine ⟨job, ?_, le_refl _⟩
      by_cases hm' : m = n
      case pos => subst hm'; simp [h, HashMap.lookup_modify, hl]; grind
      case neg => simp [h, hm', hl]

theorem iff_of_insert
    (h : s'.jobs = Function.update s.jobs n (Finmap.insert jobId r (s.jobs n))) :
    Forward s s' ↔ ∀ job, (s.jobs n).lookup jobId = some job → job.status ≤ r.status := by
  constructor
  case mp =>
    intro hf job hl
    have ⟨_, hl', hle⟩ := hf n jobId job hl
    simp only [h, Function.update_self, Finmap.lookup_insert, Option.some.injEq] at hl'
    exact hl' ▸ hle
  case mpr =>
    intro hf m i job hl
    by_cases hm : m = n ∧ i = jobId
    case pos =>
      obtain ⟨rfl, rfl⟩ := hm
      exact ⟨r, by simp [h], hf job hl⟩
    case neg =>
      refine ⟨job, ?_, le_refl _⟩
      by_cases hm' : m = n
      case pos => subst hm'; simp [h, HashMap.lookup_insert', hl]; grind
      case neg => simp [h, hm', hl]

end Forward

-- A node that accepts the request does not know the job yet, or has not started it.
def SubmitsForward (s : JobSystem) (m : NodeId) (request : Grpc.SubmitJobRequest) : Prop :=
  ∀ jobId, request.job? = some jobId →
    ∀ job, (s.jobs m).lookup jobId = some job → job.status = .queued

-- The status that is reported does not lie behind the one that is recorded.
def ReportsForward (s : JobSystem) (n : NodeId) (payload : Grpc.ReportJobStatusRequest) : Prop :=
  ∀ uuid, Uuid.parseStr payload.jobId = some uuid →
    ∀ job, (s.jobs n).lookup ⟨uuid⟩ = some job →
      job.status ≤ Grpc.jobStatusFromString payload.status

-- What the writers that do not look at the status of the record find there.
def Orderly (net : Network) (s : JobSystem) : Event → Prop
  | .submit k _ =>
    ∀ t, s.tasks[k]? = some t → ∀ c, t.submission net = some c → s.SubmitsForward c.1 c.2
  | .submitLate i _ =>
    ∀ c, s.late[i]? = some c → s.SubmitsForward c.1 c.2
  | .foreignSubmit n request _ =>
    s.SubmitsForward n request
  | .start k _ =>
    ∀ e, s.executors[k]? = some e →
      ∀ job, (s.jobs e.node).lookup e.jobId = some job → ¬ job.status.isTerminal
  | .finish k _ =>
    ∀ e, s.executors[k]? = some e → ∀ o, e.phase = .ended o →
      ∀ job, (s.jobs e.node).lookup e.jobId = some job → job.status.isTerminal →
        job.status = o.verdict.status ∨ job.status = .cancelled ∧ o.isExit
  | .report k _ =>
    ∀ e, s.executors[k]? = some e → ∀ c, e.submission net = some c → s.ReportsForward c.1 c.2
  | .foreignReport n payload _ =>
    s.ReportsForward n payload
  | _ => True

section

variable {net : Network} {s s' : JobSystem} {e : Event}

theorem submitsForward_of_job?_none {m request} (h : request.job? = none) :
    s.SubmitsForward m request := by
  intro _ hj
  simp [h] at hj

theorem submitsForward_iff {m request jobId} (h : request.job? = some jobId) :
    s.SubmitsForward m request ↔
    ∀ job, (s.jobs m).lookup jobId = some job → job.status ≤ .queued := by
  simp [SubmitsForward, h]

theorem reportsForward_iff {n payload uuid} (h : Uuid.parseStr payload.jobId = some uuid) :
    s.ReportsForward n payload ↔
    ∀ job, (s.jobs n).lookup ⟨uuid⟩ = some job → job.status ≤ payload.verdict.status := by
  simp [ReportsForward, h, Grpc.ReportJobStatusRequest.verdict]

theorem Step.forward_iff_orderly (h : Step net s e s') : Forward s s' ↔ Orderly net s e := by
  cases h
  case enqueued hf hv hn hi hr hp =>
    subst hn
    refine iff_of_true ((Forward.iff_of_insert rfl).mpr fun job hl => ?_) trivial
    rw [hf.jobs] at hl
    cases hl
  case submitRefused t _ _ _ _ ht hp hv =>
    refine iff_of_true (.of_jobs_eq rfl) ?_
    simp only [Orderly, ht, Option.some.injEq, forall_eq']
    intro c hc
    simp only [Task.submission, hp, Option.map_eq_some_iff] at hc
    obtain ⟨_, _, rfl⟩ := hc
    exact submitsForward_of_job?_none (by simp [Grpc.job?_submitRemoteRequest, hv])
  case submitted t _ _ _ _ m _ _ ht hp hr hv =>
    have hc : t.submission net =
      some (m, Grpc.submitRemoteRequest t.jobId (net.localNode t.node).grpcEndpoint t.request) := by
      simp [Task.submission, hp, hr]
    have hj := Grpc.job?_submitRemoteRequest t.jobId (net.localNode t.node).grpcEndpoint t.request
    rw [if_pos hv] at hj
    simp only [Orderly, ht, hc, Option.some.injEq, forall_eq']
    rw [Forward.iff_of_insert rfl, submitsForward_iff hj]
    rfl
  case lateRefused hi hj =>
    refine iff_of_true (.of_jobs_eq rfl) ?_
    simp only [Orderly, hi, Option.some.injEq, forall_eq']
    exact submitsForward_of_job?_none hj
  case lateSubmitted hi hj =>
    simp only [Orderly, hi, Option.some.injEq, forall_eq']
    rw [Forward.iff_of_insert rfl, submitsForward_iff hj]
    rfl
  case foreignRefused hj =>
    exact iff_of_true (.of_jobs_eq rfl) (submitsForward_of_job?_none hj)
  case foreignSubmitted hj =>
    rw [Forward.iff_of_insert rfl]
    exact (submitsForward_iff hj).symm
  case replied =>
    exact iff_of_true
      ((Forward.iff_of_modify rfl).mpr fun _ _ => JobRecord.status_le_dispatched_status ..) trivial
  case startGone he hp hl =>
    refine iff_of_true (.of_jobs_eq rfl) ?_
    simp [Orderly, he, hl]
  case started he hp =>
    simp only [Orderly, he, Option.some.injEq, forall_eq']
    rw [Forward.iff_of_modify rfl]
    simp only [JobRecord.status_le_start_status]
  case finished he hp =>
    simp only [Orderly, he, hp, Option.some.injEq, ExecutorPhase.ended.injEq, forall_eq']
    rw [Forward.iff_of_modify rfl]
    simp only [JobRecord.status_le_finish_status]
  case reported e _ o callback n he hp hc hr =>
    have hs : e.submission net =
      some (n, Grpc.reportJobStatusRequest e.jobId o.verdict callback.sourceNodeId) := by
      simp [Executor.submission, hp, hc, hr]
    simp only [Orderly, he, hs, Option.some.injEq, forall_eq']
    rw [Forward.iff_of_modify rfl, reportsForward_iff (by simp [Grpc.reportJobStatusRequest]; rfl)]
    rfl
  case deleted job hl ht =>
    refine iff_of_true ((Forward.iff_of_insert rfl).mpr fun job' hl' => ?_) trivial
    obtain rfl : job = job' := by simpa [hl] using hl'
    exact JobStatus.le_of_not_isTerminal ht rfl
  case foreignUnparsed hp =>
    refine iff_of_true (.of_jobs_eq rfl) ?_
    simp [Orderly, ReportsForward, hp]
  case foreignReported hp =>
    rw [Forward.iff_of_modify rfl]
    exact (reportsForward_iff hp).symm
  -- The other events write no record.
  all_goals exact iff_of_true (.of_jobs_eq rfl) trivial

end

-- In exactly the runs in which no writer finds a record that it would move backwards, no status
-- ever moves backwards.
theorem status_forward_iff (net : Network) (clusters : NodeId → ClusterState) (es : List Event) :
    Along (step net) Forward (init clusters) es ↔
    Guarded (step net) (Orderly net) (init clusters) es :=
  along_iff_guarded (fun _ => .of_jobs_eq rfl) (fun _ _ _ => .trans)
    fun _ _ _ h => (Step.of_step h).forward_iff_orderly

-- A job that is cancelled before its executor starts it is run all the same.
theorem status_moves_backwards :
    ¬ ∀ (net : Network) (clusters : NodeId → ClusterState) (es : List Event),
      Along (step net) Forward (init clusters) es := by
  intro h
  let clusters (_ : NodeId) : ClusterState := .plain ⟨1⟩
  let pre : List Event := [.enqueue ⟨1⟩ .plain ⟨7⟩ 0, .dispatch 0, .delete ⟨1⟩ ⟨7⟩ 1]
  let mid : List Event := [.start 0 2]
  have h₁ : (run (step .plain) (init clusters) pre).bind (status · ⟨1⟩ ⟨7⟩) = some .cancelled := by
    decide
  have h₂ : (run (step .plain) (init clusters) (pre ++ mid)).bind (status · ⟨1⟩ ⟨7⟩) =
      some .running := by
    decide
  obtain ⟨s₁, hr₁, h₁⟩ := Option.bind_eq_some_iff.mp h₁
  obtain ⟨s₂, hr₂, h₂⟩ := Option.bind_eq_some_iff.mp h₂
  rw [run_append, hr₁] at hr₂
  obtain ⟨job, hl, hs₁⟩ := Option.map_eq_some_iff.mp h₁
  obtain ⟨job', hl', hle⟩ := h .plain clusters (pre ++ mid) pre mid s₁ s₂ (List.prefix_refl _) hr₁ hr₂
    ⟨1⟩ ⟨7⟩ job hl
  simp only [status, hl', Option.map_some, Option.some.injEq] at h₂
  rw [hs₁, h₂] at hle
  revert hle
  decide

end JobSystem

end All4One
