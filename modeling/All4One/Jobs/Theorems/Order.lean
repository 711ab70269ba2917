import All4One.Jobs.Theorems.Writes

open Foundation Transition

namespace All4One

-- All of a record but the time of its last update.
def JobRecord.undated (job : JobRecord) : JobRecord :=
  { job with updatedAt := 0 }

-- A job of `node` that `target` has accepted from a task of it and that has ended there.
structure Handover where
  node     : NodeId
  jobId    : JobId
  target   : NodeId
  outcome  : Outcome
  caller   : Caller
  task     : Nat
  executor : Nat

namespace Handover

section

variable (net : Network) (d : Handover) (s s' : JobSystem)

def record : Option JobRecord :=
  (s.jobs d.node).lookup d.jobId

-- The reply to `submit_remote` is on its way.
def AwaitsReply : Prop :=
  ∃ t ∈ s.tasks[d.task]?, t.node = d.node ∧ t.jobId = d.jobId ∧
    t.phase = .accepted d.caller d.target

instance : Decidable (d.AwaitsReply s) :=
  inferInstanceAs (Decidable (∃ t ∈ _, _))

-- `ReportJobStatus` is on its way.
def AwaitsReport : Prop :=
  ∃ e ∈ s.executors[d.executor]?, e.node = d.target ∧ e.jobId = d.jobId ∧
    e.phase = .reporting d.outcome ∧
    ∃ callback ∈ e.callback, net.route callback.originEndpoint = some d.node

instance : Decidable (d.AwaitsReport net s) :=
  inferInstanceAs (Decidable (∃ e ∈ _, _))

-- The record of the job, its task and its executor are the same.
structure Same : Prop where
  record   : d.record s' = d.record s
  task     : s'.tasks[d.task]? = s.tasks[d.task]?
  executor : s'.executors[d.executor]? = s.executors[d.executor]?

-- An event of something else.
def Spares (s : JobSystem) (ev : JobSystem.Event) : Prop :=
  ∀ s', s.step net ev = some s' → d.Same s s'

def Aside : Prop :=
  ∃ es, Guarded (JobSystem.step net) (d.Spares net) s es ∧ run (JobSystem.step net) s es = some s'

-- One message is processed and then the other, with whatever else there is around them.
def Settles (first second : JobSystem.Event) : Prop :=
  ∃ s₁ s₂ s₃ s₄, d.Aside net s s₁ ∧ s₁.step net first = some s₂ ∧ d.Aside net s₂ s₃ ∧
    s₃.step net second = some s₄ ∧ d.Aside net s₄ s'

end

variable {net : Network} {d : Handover} {s s' s'' : JobSystem} {now now' : DateTime}
  {first second : JobSystem.Event}

theorem Same.refl : d.Same s s :=
  ⟨rfl, rfl, rfl⟩

theorem Same.trans (h : d.Same s s') (h' : d.Same s' s'') : d.Same s s'' :=
  ⟨h'.record.trans h.record, h'.task.trans h.task, h'.executor.trans h.executor⟩

theorem Aside.refl : d.Aside net s s :=
  ⟨[], trivial, rfl⟩

theorem Aside.same (h : d.Aside net s s') : d.Same s s' := by
  have ⟨es, g, hr⟩ := h
  exact g.invariant (.last hr) .refl fun _ _ _ h hs he => h.trans (hs _ he)

theorem AwaitsReply.of_same (h : d.AwaitsReply s) (hs : d.Same s s') : d.AwaitsReply s' := by
  rwa [AwaitsReply, hs.task]

theorem AwaitsReport.of_same (h : d.AwaitsReport net s) (hs : d.Same s s') :
    d.AwaitsReport net s' := by
  rwa [AwaitsReport, hs.executor]

theorem Settles.of_run (h : run (JobSystem.step net) s [first, second] = some s') :
    d.Settles net s s' first second := by
  have ⟨s₁, h₁, h⟩ := run_cons_some.mp h
  have ⟨s₂, h₂, h⟩ := run_cons_some.mp h
  obtain rfl := Option.some.inj h
  exact ⟨s, s₁, s₁, s₂, .refl, h₁, .refl, h₂, .refl⟩

-- The reply changes the record if it is still that of a queued job.
theorem AwaitsReply.step (h : d.AwaitsReply s) (hs : s.step net (.reply d.task now) = some s') :
    d.record s' = (d.record s).map (·.dispatched d.target now) ∧ s'.executors = s.executors := by
  have ⟨t, ht, hn, hj, hp⟩ := h
  have hs := JobSystem.act_of_step hs
  rw [JobSystem.act, ht, Option.bind_some, JobSystem.reply, hp] at hs
  obtain rfl := Option.some.inj hs
  refine ⟨?_, rfl⟩
  simp [record, hn, hj]

-- The report changes it in any case.
theorem AwaitsReport.step (h : d.AwaitsReport net s)
    (hs : s.step net (.report d.executor now) = some s') :
    d.record s' = (d.record s).map (·.report d.outcome.verdict now) ∧ s'.tasks = s.tasks := by
  have ⟨e, he, _, hj, hp, callback, hc, hr⟩ := h
  have hs := JobSystem.act_of_step hs
  rw [JobSystem.act, he, Option.bind_some, JobSystem.report,
    Executor.submission_of_route hp hc hr] at hs
  obtain rfl := Option.some.inj hs
  refine ⟨?_, rfl⟩
  simp [record, hj, Grpc.afterReport_request, Grpc.reportJobStatusRequest_verdict]

theorem AwaitsReply.enabled (h : d.AwaitsReply s) (hl : ¬ s.IsLocked d.node) (net : Network)
    (now : DateTime) : ∃ s', s.step net (.reply d.task now) = some s' := by
  have ⟨t, ht, hn, _, hp⟩ := h
  have ht : s.tasks[d.task]? = some t := ht
  rw [JobSystem.step_of_table_eq_some (by simp [JobSystem.table, ht]) (hn ▸ hl)]
  exact ⟨_, by rw [JobSystem.act, ht, Option.bind_some, JobSystem.reply, hp]⟩

theorem AwaitsReport.enabled (h : d.AwaitsReport net s) (hl : ¬ s.IsLocked d.node) (now : DateTime) :
    ∃ s', s.step net (.report d.executor now) = some s' := by
  have ⟨e, he, _, _, hp, callback, hc, hr⟩ := h
  have he : s.executors[d.executor]? = some e := he
  have hs := Executor.submission_of_route hp hc hr
  rw [JobSystem.step_of_table_eq_some (by simp [JobSystem.table, he, hs]) hl]
  exact ⟨_, by rw [JobSystem.act, he, Option.bind_some, JobSystem.report, hs]⟩

-- Each of the messages is left alone by the processing of the other.
theorem AwaitsReport.of_reply (h : d.AwaitsReport net s) (hreply : d.AwaitsReply s)
    (hs : s.step net (.reply d.task now) = some s') : d.AwaitsReport net s' := by
  rwa [AwaitsReport, (hreply.step hs).2]

theorem AwaitsReply.of_report (h : d.AwaitsReply s) (hreport : d.AwaitsReport net s)
    (hs : s.step net (.report d.executor now) = some s') : d.AwaitsReply s' := by
  rwa [AwaitsReply, (hreport.step hs).2]

theorem report_dispatched {v : Verdict} {job : JobRecord} {target : NodeId}
    (h : v.status.isTerminal) : (job.report v now).dispatched target now' = job.report v now := by
  rw [JobRecord.dispatched, if_neg]
  intro hq
  rw [JobRecord.report_status] at hq
  rw [hq] at h
  cases h

-- If the reply is first, the report finds what the reply has made of the record.
theorem record_of_reply_first (hreply : d.AwaitsReply s) (hreport : d.AwaitsReport net s)
    (h : d.Settles net s s' (.reply d.task now) (.report d.executor now')) :
    d.record s' = (d.record s).map fun job =>
      (job.dispatched d.target now).report d.outcome.verdict now' := by
  have ⟨s₁, s₂, s₃, s₄, h₁, hs, h₂, hs', h₃⟩ := h
  have hreply := hreply.of_same h₁.same
  have hreport := ((hreport.of_same h₁.same).of_reply hreply hs).of_same h₂.same
  rw [h₃.same.record, (hreport.step hs').1, h₂.same.record, (hreply.step hs).1, h₁.same.record, Option.map_map]
  rfl

-- If the report is first, the reply finds a job that has ended and leaves the record alone.
theorem record_of_report_first (hreply : d.AwaitsReply s) (hreport : d.AwaitsReport net s)
    (h : d.Settles net s s' (.report d.executor now) (.reply d.task now')) :
    d.record s' = (d.record s).map (·.report d.outcome.verdict now) := by
  have ⟨s₁, s₂, s₃, s₄, h₁, hs, h₂, hs', h₃⟩ := h
  have hreport := hreport.of_same h₁.same
  have hreply := ((hreply.of_same h₁.same).of_report hreport hs).of_same h₂.same
  rw [h₃.same.record, (hreply.step hs').1, h₂.same.record, (hreport.step hs).1, h₁.same.record, Option.map_map]
  refine congrArg (Option.map · _) (funext fun job => ?_)
  exact report_dispatched d.outcome.verdict_isTerminal

-- Both messages can be processed in either order, if no other report keeps them from the job table.
theorem exists_run (hreply : d.AwaitsReply s) (hreport : d.AwaitsReport net s)
    (hl : ¬ s.IsLocked d.node) (now now' : DateTime) :
    (∃ s', run (JobSystem.step net) s [.reply d.task now, .report d.executor now'] = some s') ∧
    ∃ s', run (JobSystem.step net) s [.report d.executor now, .reply d.task now'] = some s' := by
  constructor
  case left =>
    obtain ⟨s₁, hs⟩ := hreply.enabled hl net now
    have hl : ¬ s₁.IsLocked d.node := by rwa [JobSystem.IsLocked, (hreply.step hs).2]
    obtain ⟨s₂, hs'⟩ := (hreport.of_reply hreply hs).enabled hl now'
    exact ⟨s₂, run_of_step hs (run_of_step hs' rfl)⟩
  case right =>
    obtain ⟨s₁, hs⟩ := hreport.enabled hl now
    have hl : ¬ s₁.IsLocked d.node := fun h => hl ((JobSystem.Step.of_step hs).isLocked_of_report h)
    obtain ⟨s₂, hs'⟩ := (hreply.of_report hreport hs).enabled hl net now'
    exact ⟨s₂, run_of_step hs (run_of_step hs' rfl)⟩

-- The two orders leave the same record, of the outcome and of the node that has run the job, if the
-- record has been for that node before.
theorem order_iff (net : Network) (d : Handover) (s s₁ s₂ : JobSystem) (job : JobRecord)
    (now₁ now₁' now₂ now₂' : DateTime) (hreply : d.AwaitsReply s) (hreport : d.AwaitsReport net s)
    (hjob : d.record s = some job)
    (h₁ : d.Settles net s s₁ (.reply d.task now₁) (.report d.executor now₁'))
    (h₂ : d.Settles net s s₂ (.report d.executor now₂) (.reply d.task now₂')) :
    (∃ job₁ job₂, d.record s₁ = some job₁ ∧ d.record s₂ = some job₂ ∧ job₁.undated = job₂.undated ∧
      ∀ job' ∈ [job₁, job₂], job'.verdict = d.outcome.verdict ∧ job'.assignedTo = d.target) ↔
    job.assignedTo = d.target := by
  rw [record_of_reply_first hreply hreport h₁, record_of_report_first hreply hreport h₂, hjob]
  constructor
  case mp =>
    rintro ⟨job₁, job₂, _, hj₂, _, h⟩
    obtain rfl := Option.some.inj hj₂
    exact (h _ (List.mem_cons_of_mem _ List.mem_cons_self)).2
  case mpr =>
    intro ha
    refine ⟨_, _, rfl, rfl, ?_, ?_⟩
    · by_cases hq : job.status = .queued <;>
        simp [JobRecord.undated, JobRecord.report, JobRecord.dispatched, hq, ha]
    · by_cases hq : job.status = .queued <;>
        simp [JobRecord.verdict, JobRecord.report, JobRecord.dispatched, hq, ha]

section Sample

open JobSystem

-- A job of one node that another one has run, which its process has ended with an exit code of 3.
def sample (caller : Caller) : Handover where
  node     := ⟨1⟩
  jobId    := ⟨7⟩
  target   := ⟨2⟩
  outcome  := .exited (some 3)
  caller   := caller
  task     := 0
  executor := 0

def completion : List Event :=
  [.dispatch 0, .submit 0 1, .start 0 2, .spawn 0, .exit 0 (.exited (some 3)), .finish 0 3]

def direct : Option JobSystem :=
  run (step .plain) (init fun _ => .plain ⟨2⟩) (.enqueue ⟨1⟩ .plain ⟨7⟩ 0 :: completion)

-- The origin knows of no node at first.
def retried : Option JobSystem :=
  run (step .plain) (init fun _ => ⟨∅, 0⟩) <|
    [.enqueue ⟨1⟩ .plain ⟨7⟩ 0, .wake 0, .gossip ⟨1⟩ (.plain ⟨2⟩), .pick 0] ++ completion

theorem order_iff_sample : ∃ s s₁ s₂ job₁ job₂, direct = some s ∧
    run (step .plain) s [.reply 0 4, .report 0 5] = some s₁ ∧
    run (step .plain) s [.report 0 4, .reply 0 5] = some s₂ ∧
    (sample .enqueue).record s₁ = some job₁ ∧ (sample .enqueue).record s₂ = some job₂ ∧
    job₁.undated = job₂.undated ∧ ∀ job ∈ [job₁, job₂],
      job.verdict = Outcome.verdict (.exited (some 3)) ∧ job.assignedTo = ⟨2⟩ := by
  have hs : ∃ s ∈ direct, (sample .enqueue).AwaitsReply s ∧ (sample .enqueue).AwaitsReport .plain s ∧
      ¬ s.IsLocked ⟨1⟩ ∧ ∃ job ∈ (sample .enqueue).record s, job.assignedTo = ⟨2⟩ := by
    decide
  obtain ⟨s, hd, hreply, hreport, hl, job, hjob, ha⟩ := hs
  obtain ⟨⟨s₁, h₁⟩, ⟨s₂, h₂⟩⟩ := exists_run hreply hreport hl 4 5
  obtain ⟨job₁, job₂, hj₁, hj₂, hu, hall⟩ := (order_iff .plain _ s s₁ s₂ job 4 5 4 5 hreply hreport
    hjob (.of_run h₁) (.of_run h₂)).mpr ha
  exact ⟨s, s₁, s₂, job₁, job₂, hd, h₁, h₂, hj₁, hj₂, hu, hall⟩

-- The record that the retry task starts from names the origin, and so it does at the end if the job
-- has ended before the call that dispatches it has returned.
theorem order_fails : ¬ ∀ (net : Network) (clusters : NodeId → ClusterState) (d : Handover)
    (s s₁ s₂ : JobSystem) (job : JobRecord) (now₁ now₁' now₂ now₂' : DateTime),
    Reachable (step net) (init clusters) s → d.AwaitsReply s → d.AwaitsReport net s →
    d.record s = some job → job.status = .queued →
    d.Settles net s s₁ (.reply d.task now₁) (.report d.executor now₁') →
    d.Settles net s s₂ (.report d.executor now₂) (.reply d.task now₂') →
    ∃ job₁ job₂, d.record s₁ = some job₁ ∧ d.record s₂ = some job₂ ∧ job₁.undated = job₂.undated ∧
      ∀ job' ∈ [job₁, job₂], job'.verdict = d.outcome.verdict ∧ job'.assignedTo = d.target := by
  intro hall
  have hs : ∃ s ∈ retried, (sample (.retry 59)).AwaitsReply s ∧
      (sample (.retry 59)).AwaitsReport .plain s ∧ ¬ s.IsLocked ⟨1⟩ ∧
      ∃ job ∈ (sample (.retry 59)).record s, job.status = .queued ∧ job.assignedTo = ⟨1⟩ := by
    decide
  obtain ⟨s, hr, hreply, hreport, hl, job, hjob, hq, ha⟩ := hs
  obtain ⟨⟨s₁, h₁⟩, ⟨s₂, h₂⟩⟩ := exists_run hreply hreport hl 4 5
  obtain ⟨_, job₂, _, hj₂, _, h⟩ := hall .plain _ _ s s₁ s₂ job 4 5 4 5 ⟨_, hr⟩ hreply hreport hjob hq
    (.of_run h₁) (.of_run h₂)
  rw [record_of_report_first hreply hreport (.of_run h₂), hjob] at hj₂
  have h := (h job₂ (by simp)).2
  rw [← Option.some.inj hj₂] at h
  exact absurd (ha.symm.trans h) (by decide)

end Sample

end Handover

def Caller.isRetry : Caller → Bool
  | enqueue => false
  | retry _ => true

-- The retry task has the job in its hands.
def TaskPhase.isRetry : TaskPhase → Bool
  | sleeping _           => true
  | checked _            => true
  | dispatching caller _ => caller.isRetry
  | submitting caller .. => caller.isRetry
  | accepted caller _    => caller.isRetry
  | finished             => false

-- The node that a job is being given to.
def TaskPhase.target? : TaskPhase → Option NodeId
  | .submitting _ assigned _ | .accepted _ assigned => some assigned
  | _                                               => none

theorem TaskPhase.target?_resume {rounds : Nat} : (resume rounds).target? = none := by
  cases rounds <;> rfl

theorem TaskPhase.target?_afterFailure {caller : Caller} : (afterFailure caller).target? = none := by
  cases caller
  case enqueue => rfl
  case retry   => exact target?_resume

theorem TaskPhase.isRetry_of_afterFailure {caller : Caller} (h : (afterFailure caller).isRetry) :
    caller.isRetry := by
  cases caller
  case enqueue => cases h
  case retry   => rfl

namespace JobSystem

-- As long as the retry task has a job in its hands, the record of the job names the origin, and the
-- job is being given to somebody else.
structure Unplaced (s : JobSystem) : Prop where
  nodup  : (s.tasks.map (·.jobId)).Nodup
  remote : ∀ t ∈ s.tasks, t.phase.target? ≠ some t.node
  origin : ∀ t ∈ s.tasks, t.phase.isRetry → ∀ job, (s.jobs t.node).lookup t.jobId = some job →
    job.assignedTo = t.node

section

variable {net : Network} {s s' : JobSystem} {ev : Event} {n : NodeId} {jobId : JobId}
  {job' : JobRecord} {u : Task} {a : NodeId}

theorem lookup_of_insert {m : NodeId} {i : JobId} {r : JobRecord}
    (h : s'.jobs = Function.update s.jobs m (Finmap.insert i r (s.jobs m)))
    (hl : (s'.jobs n).lookup jobId = some job') :
    (s.jobs n).lookup jobId = some job' ∨ n = m ∧ jobId = i ∧ job' = r := by
  rw [h] at hl
  by_cases hn : n = m
  case neg => exact .inl (by simpa [hn] using hl)
  case pos =>
    subst hn
    rw [Function.update_self, HashMap.lookup_insert'] at hl
    split at hl
    case isTrue hi => exact .inr ⟨rfl, hi, (Option.some.inj hl).symm⟩
    case isFalse   => exact .inl hl

theorem lookup_of_modify {m : NodeId} {i : JobId} {f : JobRecord → JobRecord}
    (h : s'.jobs = Function.update s.jobs m (HashMap.modify (s.jobs m) i f))
    (hl : (s'.jobs n).lookup jobId = some job') :
    (s.jobs n).lookup jobId = some job' ∨
    n = m ∧ jobId = i ∧ ∃ job, (s.jobs n).lookup jobId = some job ∧ job' = f job := by
  rw [h] at hl
  by_cases hn : n = m
  case neg => exact .inl (by simpa [hn] using hl)
  case pos =>
    subst hn
    rw [Function.update_self, HashMap.lookup_modify] at hl
    split at hl
    case isFalse => exact .inl hl
    case isTrue hi =>
      subst hi
      obtain ⟨job, hj, rfl⟩ := Option.map_eq_some_iff.mp hl
      exact .inr ⟨rfl, rfl, job, hj, rfl⟩

theorem assignedTo_finish {o : Outcome} {now : DateTime} {job : JobRecord} :
    (job.finish o now).assignedTo = job.assignedTo := by
  cases o
  case exited =>
    simp only [JobRecord.finish]
    split
    · split <;> rfl
    · rfl
  all_goals rfl

-- A record names the node that it has named before, its own node, or the node that a task has given
-- the job to.
theorem Step.assignedTo (hs : Step net s ev s') (hl : (s'.jobs n).lookup jobId = some job') :
    (∃ job, (s.jobs n).lookup jobId = some job ∧ job'.assignedTo = job.assignedTo) ∨
    job'.assignedTo = n ∨
    (∃ request now, ev = .enqueue n request jobId now ∧ s.IsFresh n jobId) ∨
    ∃ k now t, ev = .reply k now ∧ s.tasks[k]? = some t ∧ t.node = n ∧ t.jobId = jobId := by
  have same (h : (s.jobs n).lookup jobId = some job') :
      ∃ job, (s.jobs n).lookup jobId = some job ∧ job'.assignedTo = job.assignedTo :=
    ⟨job', h, rfl⟩
  have modified {m i f} (h : s'.jobs = Function.update s.jobs m (HashMap.modify (s.jobs m) i f))
      (hf : ∀ job : JobRecord, (f job).assignedTo = job.assignedTo) :
      ∃ job, (s.jobs n).lookup jobId = some job ∧ job'.assignedTo = job.assignedTo := by
    rcases lookup_of_modify h hl with hl | ⟨_, _, job, hj, rfl⟩
    · exact same hl
    · exact ⟨job, hj, hf job⟩
  cases hs
  case enqueued hf _ _ _ _ _ =>
    rcases lookup_of_insert rfl hl with hl | ⟨rfl, rfl, _⟩
    · exact .inl (same hl)
    · exact .inr (.inr (.inl ⟨_, _, rfl, hf⟩))
  case submitted =>
    rcases lookup_of_insert rfl hl with hl | ⟨rfl, rfl, rfl⟩
    · exact .inl (same hl)
    · exact .inr (.inl rfl)
  case lateSubmitted =>
    rcases lookup_of_insert rfl hl with hl | ⟨rfl, rfl, rfl⟩
    · exact .inl (same hl)
    · exact .inr (.inl rfl)
  case foreignSubmitted =>
    rcases lookup_of_insert rfl hl with hl | ⟨rfl, rfl, rfl⟩
    · exact .inl (same hl)
    · exact .inr (.inl rfl)
  case deleted job hj _ =>
    rcases lookup_of_insert rfl hl with hl | ⟨rfl, rfl, rfl⟩
    · exact .inl (same hl)
    · exact .inl ⟨job, hj, rfl⟩
  case replied ht _ =>
    rcases lookup_of_modify rfl hl with hl | ⟨rfl, rfl, _⟩
    · exact .inl (same hl)
    · exact .inr (.inr (.inr ⟨_, _, _, rfl, ht, rfl, rfl⟩))
  case started         => exact .inl (modified rfl fun _ => rfl)
  case finished        => exact .inl (modified rfl fun _ => assignedTo_finish)
  case reported        => exact .inl (modified rfl fun _ => rfl)
  case foreignReported => exact .inl (modified rfl fun _ => rfl)
  -- The other events write no record.
  all_goals exact .inl (same hl)

-- A new task either gives the job to somebody or has the record name the origin.
theorem new_task {request : SubmitJobRequest} {now : DateTime}
    (h : s.enqueue net n request jobId now = some s') (hu : u ∈ s'.tasks) :
    u ∈ s.tasks ∨ u.phase.target? = none ∧
      (u.phase.isRetry → u.node = n ∧ u.jobId = jobId ∧
        ∃ job, (s'.jobs n).lookup jobId = some job ∧ job.assignedTo = n) := by
  rcases enqueue_cases h with ⟨_, rfl⟩ | ⟨_, _, t, rfl, hn, hi, _, hp⟩
  · exact .inl hu
  · rcases List.mem_append.mp hu with hu | hu
    · exact .inl hu
    · obtain rfl := List.mem_singleton.mp hu
      right
      cases hpick : pickNode (net.localNode n) (s.clusters n) request.scheduling
      case some =>
        rw [hpick] at hp
        rw [hp]
        exact ⟨rfl, fun h => nomatch h⟩
      case none =>
        rw [hpick] at hp
        rw [hp]
        exact ⟨rfl, fun _ => ⟨hn, hi, .queued jobId n request now, by simp, rfl⟩⟩

-- A task that retries has done so before, or is new.
theorem Step.isRetry (hs : Step net s ev s') (hu : u ∈ s'.tasks) (hr : u.phase.isRetry) :
    (∃ t ∈ s.tasks, t.node = u.node ∧ t.jobId = u.jobId ∧ t.phase.isRetry) ∨
    ∃ n request jobId now, ev = .enqueue n request jobId now := by
  have moved {k t p} (ht : s.tasks[k]? = some t) (hu : u ∈ (s.setTask k p).tasks)
      (hp : p.isRetry → t.phase.isRetry) :
      ∃ t ∈ s.tasks, t.node = u.node ∧ t.jobId = u.jobId ∧ t.phase.isRetry := by
    rcases mem_setTask ht hu with rfl | hu
    · exact ⟨t, List.mem_of_getElem? ht, rfl, rfl, hp hr⟩
    · exact ⟨u, hu, rfl, rfl, hr⟩
  cases hs
  case enqueued => exact .inr ⟨_, _, _, _, rfl⟩
  case wakeDone ht _ _          => exact .inl (moved ht hu fun h => nomatch h)
  case woken ht hp _ _          => exact .inl (moved ht hu fun _ => hp ▸ rfl)
  case unpicked ht hp _         => exact .inl (moved ht hu fun _ => hp ▸ rfl)
  case picked ht hp             => exact .inl (moved ht hu fun _ => hp ▸ rfl)
  case dispatchedLocal ht _     => exact .inl (moved ht hu fun h => nomatch h)
  case dispatchedRemote ht hp   => exact .inl (moved ht hu fun h => hp ▸ h)
  case dispatchFailed ht hp _ _ =>
    exact .inl (moved ht hu fun h => hp ▸ TaskPhase.isRetry_of_afterFailure h)
  case submitRefused ht hp _    =>
    exact .inl (moved ht hu fun h => hp ▸ TaskPhase.isRetry_of_afterFailure h)
  case submitted ht hp _ _      => exact .inl (moved ht hu fun h => hp ▸ h)
  case submitLost ht hp         =>
    exact .inl (moved ht hu fun h => hp ▸ TaskPhase.isRetry_of_afterFailure h)
  case replied ht _             => exact .inl (moved ht hu fun h => nomatch h)
  case replyLost ht hp          =>
    exact .inl (moved ht hu fun h => hp ▸ TaskPhase.isRetry_of_afterFailure h)
  -- The other events move no task.
  all_goals exact .inl ⟨u, hu, rfl, rfl, hr⟩

-- A task gives its job to nobody but the node that it has given it to before, or to another node.
theorem target_of_step (hs : s.step net ev = some s') (hu : u ∈ s'.tasks)
    (ha : u.phase.target? = some a) :
    (∃ t ∈ s.tasks, t.node = u.node ∧ t.phase.target? = some a) ∨ a ≠ u.node := by
  have moved {k t p} (ht : s.tasks[k]? = some t) (hu : u ∈ (s.setTask k p).tasks)
      (hp : p.target? = some a → t.phase.target? = some a) :
      ∃ t ∈ s.tasks, t.node = u.node ∧ t.phase.target? = some a := by
    rcases mem_setTask ht hu with rfl | hu
    · exact ⟨t, List.mem_of_getElem? ht, rfl, hp ha⟩
    · exact ⟨u, hu, rfl, ha⟩
  have failed {c : Caller} {P : Prop} (h : (TaskPhase.afterFailure c).target? = some a) : P := by
    rw [TaskPhase.target?_afterFailure] at h
    cases h
  have he := Step.of_step hs
  cases he
  case enqueued =>
    rcases new_task (act_of_step hs) hu with hu | ⟨hn, _⟩
    · exact .inl ⟨u, hu, rfl, ha⟩
    · rw [hn] at ha; cases ha
  case wakeDone ht _ _          => exact .inl (moved ht hu fun h => nomatch h)
  case woken ht hp _ _          => exact .inl (moved ht hu fun h => nomatch h)
  case unpicked ht _ _          =>
    refine .inl (moved ht hu fun h => ?_)
    rw [TaskPhase.target?_resume] at h
    cases h
  case picked ht hp             => exact .inl (moved ht hu fun h => nomatch h)
  case dispatchedLocal ht _     => exact .inl (moved ht hu fun h => nomatch h)
  case dispatchedRemote k t c b endpoint ht hp =>
    rcases mem_setTask ht hu with rfl | hu
    case inr => exact .inl ⟨u, hu, rfl, ha⟩
    case inl =>
      right
      obtain rfl : b = a := Option.some.inj ha
      intro hb
      have hs := act_of_step hs
      rw [act, ht, Option.bind_some, dispatch, hp] at hs
      dsimp only at hs
      rw [if_pos hb] at hs
      have hx := congrArg (fun s => s.executors.length) (Option.some.inj hs)
      simp at hx
  case dispatchFailed ht hp _ _ => exact .inl (moved ht hu failed)
  case submitRefused ht hp _    => exact .inl (moved ht hu failed)
  case submitted ht hp _ _      => exact .inl (moved ht hu fun h => hp ▸ h)
  case submitLost ht hp         => exact .inl (moved ht hu failed)
  case replied ht _             => exact .inl (moved ht hu fun h => nomatch h)
  case replyLost ht hp          => exact .inl (moved ht hu failed)
  -- The other events move no task.
  all_goals exact .inl ⟨u, hu, rfl, ha⟩

theorem Unplaced.init (clusters : NodeId → ClusterState) : Unplaced (init clusters) where
  nodup  := .nil
  remote := by simp [JobSystem.init]
  origin := by simp [JobSystem.init]

theorem Unplaced.step (h : s.Unplaced) (hs : s.step net ev = some s') : s'.Unplaced where
  nodup := (Step.of_step hs).nodup_tasks h.nodup
  remote u hu ha := by
    rcases target_of_step hs hu ha with ⟨t, ht, hn, hta⟩ | hne
    · exact h.remote t ht (hn ▸ hta)
    · exact hne rfl
  origin u hu hr job' hl := by
    have he := Step.of_step hs
    -- What holds of a task that has retried before.
    have old {t} (ht : t ∈ s.tasks) (hn : t.node = u.node) (hj : t.jobId = u.jobId)
        (htr : t.phase.isRetry) : job'.assignedTo = u.node := by
      rcases he.assignedTo hl with ⟨job, hl, hsame⟩ | hself | ⟨_, _, _, hf⟩ | ⟨k, now, v, rfl, hv, hvn, hvj⟩
      · rw [hsame, ← hn]
        exact h.origin t ht htr job (hn ▸ hj ▸ hl)
      · exact hself
      · exact absurd hj (hf.tasks t ht)
      · cases he
        case replied hp hv' =>
          obtain rfl := Option.some.inj (hv.symm.trans hv')
          rcases mem_setTask_of_nodup h.nodup hv hu with rfl | ⟨_, hne⟩
          · cases hr
          · exact absurd hvj.symm hne
    rcases he.isRetry hu hr with ⟨t, ht, hn, hj, htr⟩ | ⟨n, request, jobId, now, rfl⟩
    · exact old ht hn hj htr
    · rcases new_task (act_of_step hs) hu with hu' | ⟨_, hnew⟩
      · exact old hu' rfl rfl hr
      · obtain ⟨rfl, rfl, job, hj, ha⟩ := hnew hr
        rw [Option.some.inj (hl.symm.trans hj)]
        exact ha

end

end JobSystem

-- Where the retry task has dispatched the job, the two orders never leave the same record.
theorem Handover.assignedTo_ne_of_retry {net : Network} {d : Handover} {s : JobSystem}
    {clusters : NodeId → ClusterState} {job : JobRecord}
    (h : Reachable (JobSystem.step net) (.init clusters) s) (hc : d.caller.isRetry)
    (hreply : d.AwaitsReply s) (hjob : d.record s = some job) : job.assignedTo ≠ d.target := by
  have hu : s.Unplaced := h.invariant (.init clusters) fun _ _ _ h hs => h.step hs
  have ⟨t, ht, hn, hj, hp⟩ := hreply
  have ht := List.mem_of_getElem? ht
  have ho := hu.origin t ht (by rw [hp]; exact hc) job (by rw [hn, hj]; exact hjob)
  have hr := hu.remote t ht
  rw [hp] at hr
  intro ha
  exact hr (congrArg some (ha.symm.trans ho))

end All4One
