import All4One.Jobs.Theorems.Step

open Foundation Transition

namespace All4One

theorem Task.submitting_of_submission {net : Network} {t : Task} {c}
    (h : t.submission net = some c) :
    ∃ caller assigned endpoint, t.phase = .submitting caller assigned endpoint := by
  simp only [submission] at h
  split at h
  case h_1 hp => exact ⟨_, _, _, hp⟩
  case h_2    => cases h

theorem Executor.reporting_of_submission {net : Network} {x : Executor} {c}
    (h : x.submission net = some c) :
    ∃ o callback, x.phase = .reporting o ∧ x.callback = some callback ∧
      net.route callback.originEndpoint = some c.1 ∧
      c.2 = Grpc.reportJobStatusRequest x.jobId o.verdict callback.sourceNodeId := by
  simp only [submission] at h
  split at h
  case h_1 hp hc =>
    obtain ⟨_, hr, rfl⟩ := Option.map_eq_some_iff.mp h
    exact ⟨_, _, hp, hc, hr, rfl⟩
  case h_2 => cases h

namespace Verdict

def queued : Verdict :=
  ⟨.queued, none, none⟩

def dispatched (v : Verdict) : Verdict :=
  if v.status = .queued then { v with status := .running } else v

def start (v : Verdict) : Verdict :=
  { v with status := .running }

def finish (o : Outcome) (v : Verdict) : Verdict :=
  match o with
  | .exited code =>
    if v.status = .cancelled then
      v
    else if Outcome.code code = 0 then
      { v with status := .completed, exitCode := some 0 }
    else
      o.verdict
  | _ => { o.verdict with exitCode := v.exitCode }

def cancel (v : Verdict) : Verdict :=
  { v with status := .cancelled }

end Verdict

namespace JobRecord

-- What a record says about the outcome of its job.
def verdict (job : JobRecord) : Verdict :=
  ⟨job.status, job.exitCode, job.error⟩

variable {now : DateTime} {job : JobRecord}

@[simp]
theorem verdict_queued {jobId assignedTo request} :
    (queued jobId assignedTo request now).verdict = .queued :=
  rfl

@[simp]
theorem verdict_start : (job.start now).verdict = job.verdict.start :=
  rfl

@[simp]
theorem verdict_cancel : (job.cancel now).verdict = job.verdict.cancel :=
  rfl

@[simp]
theorem verdict_report {v : Verdict} : (job.report v now).verdict = v :=
  rfl

@[simp]
theorem verdict_dispatched {assigned : NodeId} :
    (job.dispatched assigned now).verdict = job.verdict.dispatched := by
  by_cases h : job.status = .queued <;> simp [dispatched, Verdict.dispatched, verdict, h]

@[simp]
theorem verdict_finish {o : Outcome} : (job.finish o now).verdict = job.verdict.finish o := by
  cases o
  case exited code =>
    by_cases hc : job.status = .cancelled <;> by_cases h0 : Outcome.code code = 0 <;>
      simp [finish, Verdict.finish, Outcome.verdict, verdict, hc, h0]
  all_goals rfl

end JobRecord

namespace JobSystem

def verdict (s : JobSystem) (n : NodeId) (jobId : JobId) : Option Verdict :=
  ((s.jobs n).lookup jobId).map (·.verdict)

section

variable {s s' : JobSystem} {m n : NodeId} {i jobId : JobId} {r : JobRecord}
  {f : JobRecord → JobRecord}

theorem status_eq_map_verdict : s.status n jobId = (s.verdict n jobId).map (·.status) := by
  simp only [status, verdict, Option.map_map]
  rfl

theorem verdict_of_jobs_eq (h : s'.jobs = s.jobs) : s'.verdict m i = s.verdict m i := by
  simp only [verdict, h]

theorem verdict_of_insert
    (h : s'.jobs = Function.update s.jobs n (Finmap.insert jobId r (s.jobs n))) :
    s'.verdict m i = if m = n ∧ i = jobId then some r.verdict else s.verdict m i := by
  by_cases hm : m = n
  case neg => simp [verdict, h, hm]
  case pos =>
    subst hm
    simp only [verdict, h, Function.update_self, HashMap.lookup_insert', true_and]
    split <;> rfl

theorem verdict_of_modify {g : Verdict → Verdict}
    (h : s'.jobs = Function.update s.jobs n (HashMap.modify (s.jobs n) jobId f))
    (hf : ∀ job, (f job).verdict = g job.verdict) :
    s'.verdict m i =
    if m = n ∧ i = jobId then (s.verdict n jobId).map g else s.verdict m i := by
  by_cases hm : m = n
  case neg => simp [verdict, h, hm]
  case pos =>
    subst hm
    simp only [verdict, h, Function.update_self, HashMap.lookup_modify, true_and]
    split
    case isTrue  => simp only [Option.map_map, Function.comp_def, hf]
    case isFalse => rfl

end

-- What a step writes into the record of which job on which node.
inductive Write (net : Network) (s : JobSystem) : Event → NodeId → JobId → Verdict → Prop
  | enqueued {n request jobId now} :
    s.IsFresh n jobId → request.isValid →
    Write net s (.enqueue n request jobId now) n jobId .queued
  | submitted {k now t m request jobId} :
    s.tasks[k]? = some t → t.submission net = some (m, request) → request.job? = some jobId →
    Write net s (.submit k now) m jobId .queued
  | lateSubmitted {i now m request jobId} :
    s.late[i]? = some (m, request) → request.job? = some jobId →
    Write net s (.submitLate i now) m jobId .queued
  | replied {k now t c a v} :
    s.tasks[k]? = some t → t.phase = .accepted c a → s.verdict t.node t.jobId = some v →
    Write net s (.reply k now) t.node t.jobId v.dispatched
  | started {k now e v} :
    s.executors[k]? = some e → e.phase = .spawned → s.verdict e.node e.jobId = some v →
    Write net s (.start k now) e.node e.jobId v.start
  | finished {k now e o v} :
    s.executors[k]? = some e → e.phase = .ended o → s.verdict e.node e.jobId = some v →
    Write net s (.finish k now) e.node e.jobId (v.finish o)
  | reported {k now e n payload uuid v} :
    s.executors[k]? = some e → e.submission net = some (n, payload) →
    Uuid.parseStr payload.jobId = some uuid → s.verdict n ⟨uuid⟩ = some v →
    Write net s (.report k now) n ⟨uuid⟩ payload.verdict
  | deleted {n jobId now v} :
    s.verdict n jobId = some v → ¬ v.status.isTerminal →
    Write net s (.delete n jobId now) n jobId v.cancel
  | foreignSubmitted {n request now jobId} :
    request.job? = some jobId →
    Write net s (.foreignSubmit n request now) n jobId .queued
  | foreignReported {n payload now uuid v} :
    Uuid.parseStr payload.jobId = some uuid → s.verdict n ⟨uuid⟩ = some v →
    Write net s (.foreignReport n payload now) n ⟨uuid⟩ payload.verdict

section

variable {net : Network} {s s' : JobSystem} {e : Event} {m n : NodeId} {i jobId : JobId}
  {r : JobRecord} {f : JobRecord → JobRecord} {v : Verdict}

theorem verdict_of_lookup {job : JobRecord} (h : (s.jobs n).lookup jobId = some job) :
    s.verdict n jobId = some job.verdict := by
  rw [verdict, h, Option.map_some]

theorem Write.of_insert
    (h : s'.jobs = Function.update s.jobs n (Finmap.insert jobId r (s.jobs n)))
    (w : Write net s e n jobId r.verdict) (m : NodeId) (i : JobId) :
    s'.verdict m i = s.verdict m i ∨ ∃ v, s'.verdict m i = some v ∧ Write net s e m i v := by
  rw [verdict_of_insert h]
  split
  case isFalse   => exact .inl rfl
  case isTrue hi => obtain ⟨rfl, rfl⟩ := hi; exact .inr ⟨_, rfl, w⟩

theorem Write.of_modify {g : Verdict → Verdict}
    (h : s'.jobs = Function.update s.jobs n (HashMap.modify (s.jobs n) jobId f))
    (hf : ∀ job, (f job).verdict = g job.verdict)
    (w : ∀ v, s.verdict n jobId = some v → Write net s e n jobId (g v)) (m : NodeId) (i : JobId) :
    s'.verdict m i = s.verdict m i ∨ ∃ v, s'.verdict m i = some v ∧ Write net s e m i v := by
  rw [verdict_of_modify h hf]
  split
  case isFalse => exact .inl rfl
  case isTrue hi =>
    obtain ⟨rfl, rfl⟩ := hi
    cases hv : s.verdict m i
    case none   => exact .inl rfl
    case some v => exact .inr ⟨_, rfl, w v hv⟩

-- A step leaves a record as it is or writes into it.
theorem Step.written (h : Step net s e s') (m : NodeId) (i : JobId) :
    s'.verdict m i = s.verdict m i ∨ ∃ v, s'.verdict m i = some v ∧ Write net s e m i v := by
  cases h
  case enqueued hf hv hn hi hr hp => exact Write.of_insert rfl (.enqueued hf hv) m i
  case submitted t _ _ _ _ _ _ _ ht hp hr hv =>
    have hs := Task.submission_of_route hp hr
    exact Write.of_insert rfl (.submitted ht hs (by rw [t.job?_submission hs, if_pos hv])) m i
  case lateSubmitted hi hj  => exact Write.of_insert rfl (.lateSubmitted hi hj) m i
  case foreignSubmitted hj  => exact Write.of_insert rfl (.foreignSubmitted hj) m i
  case deleted job hl ht =>
    exact Write.of_insert rfl (.deleted (verdict_of_lookup hl) ht) m i
  case replied ht hp =>
    exact Write.of_modify rfl (fun _ => JobRecord.verdict_dispatched)
      (fun _ hv => .replied ht hp hv) m i
  case started he hp =>
    exact Write.of_modify rfl (fun _ => JobRecord.verdict_start) (fun _ hv => .started he hp hv) m i
  case finished he hp =>
    exact Write.of_modify rfl (fun _ => JobRecord.verdict_finish)
      (fun _ hv => .finished he hp hv) m i
  case reported he hp hc hr =>
    refine Write.of_modify (g := fun _ => _) rfl (fun _ => JobRecord.verdict_report)
      (fun _ hv => ?_) m i
    exact .reported he (Executor.submission_of_route hp hc hr) (Uuid.parseStr_toText _) hv
  case foreignReported hp =>
    exact Write.of_modify (g := fun _ => _) rfl (fun _ => JobRecord.verdict_report)
      (fun _ hv => .foreignReported hp hv) m i
  -- The other events write no record.
  all_goals exact .inl (verdict_of_jobs_eq rfl)

theorem Write.verdict (w : Write net s e m i v) (h : Step net s e s') : s'.verdict m i = some v := by
  have insert {r : JobRecord} (h : s'.jobs = Function.update s.jobs m (Finmap.insert i r (s.jobs m))) :
      s'.verdict m i = some r.verdict := by
    rw [verdict_of_insert h, if_pos ⟨rfl, rfl⟩]
  have modify {f : JobRecord → JobRecord} {g : Verdict → Verdict} {u : Verdict}
      (h : s'.jobs = Function.update s.jobs m (HashMap.modify (s.jobs m) i f))
      (hl : s.verdict m i = some u) (hf : ∀ job, (f job).verdict = g job.verdict) :
      s'.verdict m i = some (g u) := by
    rw [verdict_of_modify h hf, if_pos ⟨rfl, rfl⟩, hl, Option.map_some]
  cases w with
  | enqueued hf hv =>
    cases h with
    | enqueueRefused hn    => exact absurd hv hn
    | enqueued _ _ hn _ _ _ => subst hn; exact insert rfl
  | @submitted _ _ t _ _ _ ht hs hj =>
    cases h with
    | submitRefused ht' _ hv =>
      obtain rfl := Option.some.inj (ht.symm.trans ht')
      simp [t.job?_submission hs, hv] at hj
    | submitted ht' hp hr hv =>
      obtain rfl := Option.some.inj (ht.symm.trans ht')
      have hs' := Task.submission_of_route hp hr
      obtain ⟨rfl, rfl⟩ := Prod.mk.inj (Option.some.inj (hs.symm.trans hs'))
      rw [t.job?_submission hs', if_pos hv, Option.some.injEq] at hj
      subst hj
      exact insert rfl
  | lateSubmitted hi hj =>
    cases h with
    | lateRefused hi' hn =>
      obtain ⟨rfl, rfl⟩ := Prod.mk.inj (Option.some.inj (hi.symm.trans hi'))
      simp [hj] at hn
    | lateSubmitted hi' hj' =>
      obtain ⟨rfl, rfl⟩ := Prod.mk.inj (Option.some.inj (hi.symm.trans hi'))
      obtain rfl := Option.some.inj (hj.symm.trans hj')
      exact insert rfl
  | replied ht hp hl =>
    cases h with
    | replied ht' hp' =>
      obtain rfl := Option.some.inj (ht.symm.trans ht')
      exact modify rfl hl fun _ => JobRecord.verdict_dispatched
  | started he _ hl =>
    cases h with
    | startGone he' _ hn =>
      obtain rfl := Option.some.inj (he.symm.trans he')
      simp [JobSystem.verdict, hn] at hl
    | started he' _ =>
      obtain rfl := Option.some.inj (he.symm.trans he')
      exact modify rfl hl fun _ => rfl
  | finished he hp hl =>
    cases h with
    | finished he' hp' =>
      obtain rfl := Option.some.inj (he.symm.trans he')
      obtain rfl := ExecutorPhase.ended.inj (hp.symm.trans hp')
      exact modify rfl hl fun _ => JobRecord.verdict_finish
  | reported he hs hu hl =>
    cases h with
    | reported he' hp hc hr =>
      obtain rfl := Option.some.inj (he.symm.trans he')
      have hs' := Executor.submission_of_route hp hc hr
      obtain ⟨rfl, rfl⟩ := Prod.mk.inj (Option.some.inj (hs.symm.trans hs'))
      obtain rfl := Option.some.inj ((Uuid.parseStr_toText _).symm.trans hu)
      exact modify (g := fun _ => _) rfl hl fun _ => JobRecord.verdict_report
  | deleted hl ht =>
    cases h with
    | deleteRefused hn =>
      obtain ⟨job, hj, rfl⟩ := Option.map_eq_some_iff.mp hl
      exact absurd (hn job hj) ht
    | deleted hl' _ =>
      obtain rfl := Option.some.inj (hl.symm.trans (verdict_of_lookup hl'))
      exact insert rfl
  | foreignSubmitted hj =>
    cases h with
    | foreignRefused hn => simp [hj] at hn
    | foreignSubmitted hj' =>
      obtain rfl := Option.some.inj (hj.symm.trans hj')
      exact insert rfl
  | foreignReported hu hl =>
    cases h with
    | foreignUnparsed hn => simp [hu] at hn
    | foreignReported hu' =>
      obtain rfl := Option.some.inj (hu.symm.trans hu')
      exact modify (g := fun _ => _) rfl hl fun _ => JobRecord.verdict_report

end

end JobSystem

end All4One
