import All4One.Jobs.Theorems.Forward

open Foundation Transition

namespace All4One

theorem JobRecord.status_finish_cancelled {o : Outcome} {now : DateTime} {job : JobRecord}
    (h : job.status = .cancelled) : (job.finish o now).status = .cancelled ↔ o.isExit := by
  cases o <;> simp [finish, Outcome.isExit, h]

namespace JobSystem

-- The record that a node has of a job says that it has been cancelled.
def Cancelled (s : JobSystem) (n : NodeId) (jobId : JobId) : Prop :=
  s.status n jobId = some .cancelled

-- `delete_job` answers 200.
def Cancels (s : JobSystem) (n : NodeId) (jobId : JobId) : Prop :=
  ∃ status, s.status n jobId = some status ∧ ¬ status.isTerminal

-- A job that is cancelled stays cancelled.
def Lasting (s s' : JobSystem) : Prop :=
  ∀ n jobId, s.Cancelled n jobId → s'.Cancelled n jobId

namespace Lasting

variable {s s' : JobSystem} {n : NodeId} {jobId : JobId} {r : JobRecord}
  {f : JobRecord → JobRecord}

theorem of_jobs_eq (h : s'.jobs = s.jobs) : Lasting s s' := by
  intro n i hc
  simpa only [Cancelled, status, h] using hc

theorem iff_of_modify
    (h : s'.jobs = Function.update s.jobs n (HashMap.modify (s.jobs n) jobId f)) :
    Lasting s s' ↔ ∀ job, (s.jobs n).lookup jobId = some job → job.status = .cancelled →
      (f job).status = .cancelled := by
  have hs (m i) : s'.status m i = (s.setJobs n (HashMap.modify (s.jobs n) jobId f)).status m i := by
    simp only [status, h, setJobs_jobs]
  constructor
  case mp =>
    intro hl job hj hc
    have := hl n jobId (by simp [Cancelled, status, hj, hc])
    simpa [Cancelled, hs, status_modify, hj] using this
  case mpr =>
    intro hf m i hc
    rw [Cancelled, hs, status_modify]
    split
    case isFalse => exact hc
    case isTrue he =>
      obtain ⟨rfl, rfl⟩ := he
      obtain ⟨job, hj, hc⟩ := Option.map_eq_some_iff.mp hc
      rw [hj, Option.map_some, hf job hj hc]

theorem iff_of_insert
    (h : s'.jobs = Function.update s.jobs n (Finmap.insert jobId r (s.jobs n))) :
    Lasting s s' ↔ (s.Cancelled n jobId → r.status = .cancelled) := by
  have hs (m i) : s'.status m i = (s.setJobs n (Finmap.insert jobId r (s.jobs n))).status m i := by
    simp only [status, h, setJobs_jobs]
  constructor
  case mp =>
    intro hl hc
    simpa [Cancelled, hs, status_insert] using hl n jobId hc
  case mpr =>
    intro hr m i hc
    rw [Cancelled, hs, status_insert]
    split
    case isFalse   => exact hc
    case isTrue he => obtain ⟨rfl, rfl⟩ := he; rw [hr hc]

end Lasting

-- The job that is submitted has not been cancelled on the node that accepts it.
def SubmitsUncancelled (s : JobSystem) (m : NodeId) (request : Grpc.SubmitJobRequest) : Prop :=
  ∀ jobId, request.job? = some jobId → ¬ s.Cancelled m jobId

def ReportsUncancelled (s : JobSystem) (n : NodeId) (payload : Grpc.ReportJobStatusRequest) : Prop :=
  ∀ uuid, Uuid.parseStr payload.jobId = some uuid → s.Cancelled n ⟨uuid⟩ →
    Grpc.jobStatusFromString payload.status = .cancelled

-- The steps that write a status find no cancelled job, but for the end of a process, which spares
-- it.
def Uncancelled (net : Network) (s : JobSystem) : Event → Prop
  | .submit k _ =>
    ∀ t, s.tasks[k]? = some t → ∀ c, t.submission net = some c → s.SubmitsUncancelled c.1 c.2
  | .submitLate i _ =>
    ∀ c, s.late[i]? = some c → s.SubmitsUncancelled c.1 c.2
  | .foreignSubmit n request _ =>
    s.SubmitsUncancelled n request
  | .start k _ =>
    ∀ e, s.executors[k]? = some e → ¬ s.Cancelled e.node e.jobId
  | .finish k _ =>
    ∀ e, s.executors[k]? = some e → ∀ o, e.phase = .ended o → s.Cancelled e.node e.jobId → o.isExit
  | .report k _ =>
    ∀ e, s.executors[k]? = some e → ∀ c, e.submission net = some c → s.ReportsUncancelled c.1 c.2
  | .foreignReport n payload _ =>
    s.ReportsUncancelled n payload
  | _ => True

-- The retry task dispatches no job that has been cancelled since it looked at the record.
def Rechecked (s : JobSystem) : Event → Prop
  | .dispatch k =>
    ∀ t, s.tasks[k]? = some t → ∀ rounds assigned,
      t.phase = .dispatching (.retry rounds) assigned → ¬ s.Cancelled t.node t.jobId
  | _ => True

section

variable {net : Network} {s s' : JobSystem} {e : Event} {n : NodeId} {jobId : JobId} {k : Nat}
  {x : Executor}

theorem submitsUncancelled_of_job?_none {m request} (h : request.job? = none) :
    s.SubmitsUncancelled m request := by
  intro _ hj
  simp [h] at hj

theorem submitsUncancelled_iff {m request} (h : request.job? = some jobId) :
    s.SubmitsUncancelled m request ↔ (s.Cancelled m jobId → JobStatus.queued = .cancelled) := by
  simp [SubmitsUncancelled, h]

theorem reportsUncancelled_iff {n payload uuid} (h : Uuid.parseStr payload.jobId = some uuid) :
    s.ReportsUncancelled n payload ↔
    ∀ job, (s.jobs n).lookup ⟨uuid⟩ = some job → job.status = .cancelled →
      payload.verdict.status = .cancelled := by
  simp [ReportsUncancelled, h, Cancelled, status, Grpc.ReportJobStatusRequest.verdict]

theorem Step.lasting_iff_uncancelled (h : Step net s e s') :
    Lasting s s' ↔ Uncancelled net s e := by
  cases h
  case enqueued hf hv hn hi hr hp =>
    subst hn
    refine iff_of_true ((Lasting.iff_of_insert rfl).mpr fun hc => ?_) trivial
    simp [Cancelled, status, hf.jobs] at hc
  case submitRefused t _ _ _ _ ht hp hv =>
    refine iff_of_true (.of_jobs_eq rfl) ?_
    simp only [Uncancelled, ht, Option.some.injEq, forall_eq']
    intro c hc
    exact submitsUncancelled_of_job?_none (by rw [t.job?_submission hc, if_neg hv])
  case submitted t _ _ _ _ m _ _ ht hp hr hv =>
    have hc : t.submission net =
      some (m, Grpc.submitRemoteRequest t.jobId (net.localNode t.node).grpcEndpoint t.request) := by
      simp [Task.submission, hp, hr]
    have hj := t.job?_submission hc
    rw [if_pos hv] at hj
    simp only [Uncancelled, ht, hc, Option.some.injEq, forall_eq']
    rw [Lasting.iff_of_insert rfl, submitsUncancelled_iff hj]
    rfl
  case lateRefused hi hj =>
    refine iff_of_true (.of_jobs_eq rfl) ?_
    simp only [Uncancelled, hi, Option.some.injEq, forall_eq']
    exact submitsUncancelled_of_job?_none hj
  case lateSubmitted hi hj =>
    simp only [Uncancelled, hi, Option.some.injEq, forall_eq']
    rw [Lasting.iff_of_insert rfl, submitsUncancelled_iff hj]
    rfl
  case foreignRefused hj =>
    exact iff_of_true (.of_jobs_eq rfl) (submitsUncancelled_of_job?_none hj)
  case foreignSubmitted hj =>
    rw [Lasting.iff_of_insert rfl]
    exact (submitsUncancelled_iff hj).symm
  case replied =>
    refine iff_of_true ((Lasting.iff_of_modify rfl).mpr fun job _ hc => ?_) trivial
    simp [JobRecord.dispatched_status, hc]
  case startGone he hp hl =>
    refine iff_of_true (.of_jobs_eq rfl) ?_
    simp [Uncancelled, he, Cancelled, status, hl]
  case started he hp =>
    simp only [Uncancelled, he, Option.some.injEq, forall_eq']
    rw [Lasting.iff_of_modify rfl]
    simp [Cancelled, status]
  case finished e _ o he hp =>
    simp only [Uncancelled, he, hp, Option.some.injEq, ExecutorPhase.ended.injEq, forall_eq']
    rw [Lasting.iff_of_modify rfl]
    constructor
    case mp =>
      intro h hc
      obtain ⟨job, hl, hc⟩ := Option.map_eq_some_iff.mp hc
      exact (JobRecord.status_finish_cancelled hc).mp (h job hl hc)
    case mpr =>
      intro h job hl hc
      exact (JobRecord.status_finish_cancelled hc).mpr (h (by simp [Cancelled, status, hl, hc]))
  case reported e _ o callback n he hp hc hr =>
    have hs : e.submission net =
      some (n, Grpc.reportJobStatusRequest e.jobId o.verdict callback.sourceNodeId) := by
      simp [Executor.submission, hp, hc, hr]
    simp only [Uncancelled, he, hs, Option.some.injEq, forall_eq']
    rw [Lasting.iff_of_modify rfl,
      reportsUncancelled_iff (by simp [Grpc.reportJobStatusRequest]; rfl)]
    rfl
  case deleted job hl ht =>
    exact iff_of_true ((Lasting.iff_of_insert rfl).mpr fun _ => rfl) trivial
  case foreignUnparsed hp =>
    refine iff_of_true (.of_jobs_eq rfl) ?_
    simp [Uncancelled, ReportsUncancelled, hp]
  case foreignReported hp =>
    rw [Lasting.iff_of_modify rfl]
    exact (reportsUncancelled_iff hp).symm
  -- The other events write no record.
  all_goals exact iff_of_true (.of_jobs_eq rfl) trivial

-- An executor is as it was, new, or one step further. Only its start step makes the first one.
theorem Step.executor (h : Step net s e s') (hx : s'.executors[k]? = some x) :
    s.executors[k]? = some x ∨ s.executors[k]? = none ∧ x.phase = .spawned ∨
    ∃ y q, s.executors[k]? = some y ∧ x = { y with phase := q } ∧
      (y.phase = .spawned → ∃ now, e = .start k now) := by
  have spawned {y} (h : (s.executors ++ [y])[k]? = some x) (hy : y.phase = .spawned) :
      s.executors[k]? = some x ∨ s.executors[k]? = none ∧ x.phase = .spawned :=
    (Lists.getElem?_concat h).imp_right fun ⟨h, hx⟩ => ⟨h, hx ▸ hy⟩
  have moved {i y q} (hy : s.executors[i]? = some y)
      (h : (s.setExecutor i q).executors[k]? = some x)
      (hs : y.phase = .spawned → ∃ now, e = .start i now) :
      s.executors[k]? = some x ∨ ∃ y q, s.executors[k]? = some y ∧ x = { y with phase := q } ∧
        (y.phase = .spawned → ∃ now, e = .start k now) := by
    rcases Lists.getElem?_modify_some hy h with ⟨rfl, rfl⟩ | h
    · exact .inr ⟨y, q, hy, rfl, hs⟩
    · exact .inl h
  cases h
  case dispatchedLocal     => exact (spawned hx rfl).imp_right .inl
  case submitted           => exact (spawned hx rfl).imp_right .inl
  case lateSubmitted       => exact (spawned hx rfl).imp_right .inl
  case foreignSubmitted    => exact (spawned hx rfl).imp_right .inl
  case startGone he hp _   => exact (moved he hx fun _ => ⟨_, rfl⟩).imp_right .inr
  case started he hp       => exact (moved he hx fun _ => ⟨_, rfl⟩).imp_right .inr
  case spawned he hp       => exact (moved he hx (by simp [hp])).imp_right .inr
  case exited he hp        => exact (moved he hx (by rcases hp with hp | hp <;> simp [hp])).imp_right .inr
  case finished he hp      => exact (moved he hx (by simp [hp])).imp_right .inr
  case reported he hp _ _  => exact (moved he hx (by simp [hp])).imp_right .inr
  case reportLost he hp    => exact (moved he hx (by simp [hp])).imp_right .inr
  all_goals exact .inl hx

end

-- After a cancellation that is answered 200, the processes that are spawned for the job on its node
-- belong to executors that had already started it, and no retry task of the node dispatches it.
def CancelHolds (net : Network) (s₀ : JobSystem) (es : List Event) : Prop :=
  ∀ pre n jobId now mid e s₁ s₂ s₃,
    pre ++ .delete n jobId now :: mid ++ [e] <+: es →
    run (step net) s₀ pre = some s₁ → s₁.Cancels n jobId →
    run (step net) s₁ (.delete n jobId now :: mid) = some s₂ → step net s₂ e = some s₃ →
    (∀ k x, e = .spawn k → s₂.executors[k]? = some x → x.node = n → x.jobId = jobId →
      ∃ y, s₁.executors[k]? = some y ∧ y.phase ≠ .spawned) ∧
    ∀ k t rounds assigned, e = .dispatch k → s₂.tasks[k]? = some t → t.node = n → t.jobId = jobId →
      t.phase ≠ .dispatching (.retry rounds) assigned

section

variable {net : Network} {s s' : JobSystem} {n : NodeId} {jobId : JobId} {es : List Event}

theorem cancelled_delete {now} (h : s.Cancels n jobId) : (s.delete n jobId now).Cancelled n jobId := by
  obtain ⟨_, hs, ht⟩ := h
  obtain ⟨job, hl, rfl⟩ := Option.map_eq_some_iff.mp hs
  simp [delete, hl, ht, Cancelled, status_insert]

theorem executors_delete {now} : (s.delete n jobId now).executors = s.executors := by
  simp only [delete]
  split
  case h_1 => rfl
  case h_2 => split <;> rfl

-- The job is cancelled, and it has been started since by no executor.
structure Unstarted (n : NodeId) (jobId : JobId) (s₁ s : JobSystem) : Prop where
  cancelled : s.Cancelled n jobId
  started   : ∀ (k : Nat) (x : Executor), s.executors[k]? = some x → x.node = n → x.jobId = jobId →
    x.phase ≠ .spawned → ∃ y, s₁.executors[k]? = some y ∧ y.phase ≠ .spawned

theorem Unstarted.of_delete {now} (h : s.Cancels n jobId) :
    Unstarted n jobId s (s.delete n jobId now) where
  cancelled := cancelled_delete h
  started _ x hx _ _ hp := ⟨x, executors_delete ▸ hx, hp⟩

theorem Unstarted.step {s₁ : JobSystem} {e : Event} (h : Unstarted n jobId s₁ s)
    (hu : Uncancelled net s e) (hs : Step net s e s') : Unstarted n jobId s₁ s' where
  cancelled := hs.lasting_iff_uncancelled.mpr hu n jobId h.cancelled
  started k x hx hn hi hp := by
    rcases hs.executor hx with hx | ⟨_, hx⟩ | ⟨y, q, hy, rfl, hy'⟩
    · exact h.started k x hx hn hi hp
    · exact absurd hx hp
    · refine h.started k y hy hn hi fun hy'' => ?_
      obtain ⟨now, rfl⟩ := hy' hy''
      exact hu y hy (hn ▸ hi ▸ h.cancelled)

-- Where no step that writes a status finds a cancelled job, and no retry task dispatches one, no
-- cancelled job is started or dispatched.
theorem cancelled_never_starts (net : Network) (clusters : NodeId → ClusterState) (es : List Event)
    (g : Guarded (step net) (fun s e => Uncancelled net s e ∧ Rechecked s e) (init clusters) es) :
    CancelHolds net (init clusters) es := by
  intro pre n jobId now mid e s₁ s₂ s₃ hes h₁ hc h₂ h₃
  obtain ⟨post, rfl⟩ := hes
  have ⟨g, ge⟩ := guarded_append.mp (guarded_append.mp g).1
  have ⟨_, (g : ∀ s', _ → Guarded (step net) _ s' (.delete n jobId now :: mid))⟩ := guarded_append.mp g
  have ge := (ge s₂ (run_append_of_some h₁ h₂) s₃ h₃).1
  obtain ⟨s₁', hd, h₂⟩ := run_cons_some.mp h₂
  have g := (g s₁ h₁ s₁' hd).2
  obtain rfl := Option.some.inj (act_of_step hd)
  have hu : Unstarted n jobId s₁ s₂ := g.invariant (.last h₂) (.of_delete hc)
    fun _ _ _ h hg hs => h.step hg.1 (Step.of_step hs)
  constructor
  case left =>
    rintro k x rfl hx hn hi
    refine hu.started k x hx hn hi fun hp => ?_
    have h₃ := act_of_step h₃
    simp [act, hx, spawnProcess, hp] at h₃
  case right =>
    rintro k t rounds assigned rfl ht hn hi hp
    exact ge.2 t ht rounds assigned hp (hn ▸ hi ▸ hu.cancelled)

end

theorem cancelled_never_starts_again :
    CancelHolds .plain (init fun _ => .plain ⟨1⟩)
      [.enqueue ⟨1⟩ .plain ⟨7⟩ 0, .dispatch 0, .start 0 1, .delete ⟨1⟩ ⟨7⟩ 2, .spawn 0] := by
  have h₁ : (step .plain (init fun _ => .plain ⟨1⟩) (.enqueue ⟨1⟩ .plain ⟨7⟩ 0)).map
      (·.tasks.map (·.phase)) = some [.dispatching .enqueue ⟨1⟩] := by
    decide
  have h₂ : (run (step .plain) (init fun _ => .plain ⟨1⟩)
      [.enqueue ⟨1⟩ .plain ⟨7⟩ 0, .dispatch 0]).map (fun s => (s.status ⟨1⟩ ⟨7⟩, s.executors)) =
      some (some .queued, [.spawnJob ⟨1⟩ ⟨7⟩ none]) := by
    decide
  refine cancelled_never_starts .plain _ _ fun s hs => ⟨⟨trivial, trivial⟩, fun s' hs' => ?_⟩
  refine ⟨⟨trivial, fun t ht rounds assigned hp => ?_⟩, fun _ hs'' => ⟨⟨fun e he => ?_, trivial⟩,
    fun _ _ => ⟨⟨trivial, trivial⟩, fun _ _ => ⟨⟨trivial, trivial⟩, trivial⟩⟩⟩⟩
  · have ht : t.phase ∈ s.tasks.map (·.phase) := List.mem_map_of_mem (List.mem_of_getElem? ht)
    simp only [hs, Option.map_some, Option.some.injEq] at h₁
    rw [h₁, hp] at ht
    simp at ht
  · simp only [run, hs, hs', Option.bind_some, Option.map_some, Option.some.injEq, Prod.mk.injEq] at h₂
    simp only [h₂.2, List.getElem?_cons_zero, Option.some.injEq] at he
    subst he
    exact fun hc => absurd (h₂.1.symm.trans hc) (by decide)

-- A job is cancelled before it is started, and its process is spawned all the same.
theorem cancelled_starts :
    ¬ ∀ (net : Network) (clusters : NodeId → ClusterState) (es : List Event),
      CancelHolds net (init clusters) es := by
  intro h
  let clusters (_ : NodeId) : ClusterState := .plain ⟨1⟩
  let pre : List Event := [.enqueue ⟨1⟩ .plain ⟨7⟩ 0, .dispatch 0]
  let mid : List Event := [.start 0 2]
  have h₁ : (run (step .plain) (init clusters) pre).map
      (fun s => (s.status ⟨1⟩ ⟨7⟩, s.executors)) =
      some (some .queued, [.spawnJob ⟨1⟩ ⟨7⟩ none]) := by
    decide
  have h₂ : (run (step .plain) (init clusters) (pre ++ .delete ⟨1⟩ ⟨7⟩ 1 :: mid)).map
      (·.executors) = some [{ Executor.spawnJob ⟨1⟩ ⟨7⟩ none with phase := .started }] := by
    decide
  obtain ⟨s₁, hr₁, h₁⟩ := Option.map_eq_some_iff.mp h₁
  obtain ⟨s₂, hr₂, h₂⟩ := Option.map_eq_some_iff.mp h₂
  rw [run_append, hr₁] at hr₂
  obtain ⟨hs, he⟩ := Prod.mk.inj h₁
  have h₃ : step .plain s₂ (.spawn 0) = some (s₂.setExecutor 0 .running) := by
    rw [step_of_table_eq_none rfl]
    simp [act, h₂, spawnProcess]
  obtain ⟨y, hy, hp⟩ := (h .plain clusters _ pre ⟨1⟩ ⟨7⟩ 1 mid (.spawn 0) s₁ s₂ _
    (List.prefix_refl _) hr₁ ⟨_, hs, by decide⟩ hr₂ h₃).1 0 _ rfl (by rw [h₂]; rfl) rfl rfl
  rw [he] at hy
  cases hy
  exact hp rfl

end JobSystem

end All4One
