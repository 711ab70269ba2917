import All4One.Jobs.Theorems.AtMostOnce
import All4One.Jobs.Theorems.Cancel
import All4One.Jobs.Theorems.NoOrphan
import All4One.Jobs.Theorems.Writes

open Foundation Transition

namespace All4One

theorem Outcome.verdict_status_ne_cancelled (o : Outcome) : o.verdict.status ≠ .cancelled := by
  cases o
  case exited => simp only [verdict]; split <;> simp
  all_goals simp [verdict]

-- What the record of its job says while an executor is in a phase.
def ExecutorPhase.Records : ExecutorPhase → Verdict → Prop
  | .reporting o, v => v = o.verdict ∨ v = ⟨.cancelled, none, none⟩
  | .finished, v    => v.status.isTerminal
  | _, v            => v.exitCode = none ∧ v.error = none

namespace ExecutorPhase.Records

variable {p : ExecutorPhase} {v : Verdict} {o : Outcome}

theorem isTerminal (h : (reporting o).Records v) : v.status.isTerminal := by
  rcases h with rfl | rfl
  · exact o.verdict_isTerminal
  · rfl

theorem dispatched (h : p.Records v) : p.Records v.dispatched := by
  by_cases hq : v.status = .queued
  case neg => simpa only [Verdict.dispatched, hq, ↓reduceIte] using h
  case pos =>
    cases p
    case reporting => exact absurd h.isTerminal (by simp [hq, JobStatus.isTerminal])
    case finished => simp [Records, hq, JobStatus.isTerminal] at h
    all_goals simpa [Records, Verdict.dispatched, hq] using h

theorem cancel (h : p.Records v) (ht : ¬ v.status.isTerminal) : p.Records v.cancel := by
  cases p
  case reporting => exact absurd h.isTerminal ht
  case finished  => exact absurd h ht
  all_goals exact h

theorem finish (h : (ended o).Records v) : (reporting o).Records (v.finish o) := by
  obtain ⟨status, exitCode, error⟩ := v
  obtain ⟨rfl, rfl⟩ : exitCode = none ∧ error = none := h
  cases o
  case exited code =>
    by_cases hc : status = .cancelled <;> by_cases h0 : Outcome.code code = 0 <;>
      simp [Records, Verdict.finish, Outcome.verdict, hc, h0]
  all_goals exact .inl rfl

end ExecutorPhase.Records

namespace JobSystem

-- What a node has processed is answered and reported, a call that fails is not processed later on,
-- and no calls come from outside of the agents' own code.
def Event.isReliable : Event → Bool
  | .submitLate .. | .loseReply _ | .loseReport _ | .foreignSubmit .. | .foreignReport .. => false
  | _ => true

-- A job is run by at most one executor, and by none as long as its task still has it dispatched.
structure Sole (s : JobSystem) : Prop where
  nodup : (s.tasks.map (·.jobId)).Nodup
  once  : ∀ t ∈ s.tasks, s.executions t.jobId + t.phase.isPending.toNat ≤ 1
  owned : ∀ e ∈ s.executors, ∃ t ∈ s.tasks, t.jobId = e.jobId

namespace Sole

variable {net : Network} {s s' : JobSystem} {ev : Event} {k : Nat} {t : Task} {p : TaskPhase}
  {e : Executor}

theorem init (clusters : NodeId → ClusterState) : Sole (init clusters) where
  nodup := .nil
  once  := by simp [JobSystem.init]
  owned := by simp [JobSystem.init]

theorem setTask (h : s.Sole) (ht : s.tasks[k]? = some t)
    (htasks : s'.tasks = (s.setTask k p).tasks)
    (hother : ∀ i ≠ t.jobId, s'.executions i ≤ s.executions i)
    (hself : s'.executions t.jobId + p.isPending.toNat ≤ 1)
    (hx : ∀ e ∈ s'.executors, e ∈ s.executors ∨ e.jobId = t.jobId) : s'.Sole where
  nodup := by
    rw [htasks, map_jobId_setTask]
    exact h.nodup
  once u hu := by
    rw [htasks] at hu
    rcases mem_setTask_of_nodup h.nodup ht hu with rfl | ⟨hu, hne⟩
    · exact hself
    · have := h.once u hu
      have := hother _ hne
      omega
  owned e he := by
    have hmem (i : JobId) : (∃ u ∈ s.tasks, u.jobId = i) → ∃ u ∈ s'.tasks, u.jobId = i := by
      rw [htasks, ← List.mem_map, ← List.mem_map, map_jobId_setTask]
      exact id
    rcases hx e he with he | he
    · exact hmem _ (h.owned e he)
    · exact hmem _ ⟨t, List.mem_of_getElem? ht, he.symm⟩

theorem of_isPending (h : s.Sole) (ht : s.tasks[k]? = some t)
    (htasks : s'.tasks = (s.setTask k p).tasks) (hx : s'.executors = s.executors)
    (hp : p.isPending → t.phase.isPending) : s'.Sole := by
  have hs (i : JobId) : s'.executions i = s.executions i := by simp only [executions, hx]
  refine h.setTask ht htasks (fun i _ => (hs i).le) ?_ fun e he => .inl (hx ▸ he)
  have := h.once t (List.mem_of_getElem? ht)
  have := Bool.toNat_le_toNat hp
  rw [hs]
  omega

theorem spawn (h : s.Sole) (ht : s.tasks[k]? = some t) (hp : t.phase.isPending)
    (hq : p.isPending = false) (he : e.jobId = t.jobId) (htasks : s'.tasks = (s.setTask k p).tasks)
    (hx : s'.executors = s.executors ++ [e]) : s'.Sole := by
  have hs (i : JobId) : s'.executions i = s.executions i + if e.jobId = i then 1 else 0 := by
    rw [executions, hx]
    exact executions_spawn
  have := h.once t (List.mem_of_getElem? ht)
  refine h.setTask ht htasks (fun i hi => ?_) ?_ fun f hf => ?_
  · rw [hs, he, if_neg hi.symm]
    exact le_refl _
  · rw [hs, if_pos he, hq]
    simp only [hp, Bool.toNat_true, Bool.toNat_false] at *
    omega
  · rw [hx] at hf
    rcases List.mem_append.mp hf with hf | hf
    · exact .inl hf
    · exact .inr (List.mem_singleton.mp hf ▸ he)

theorem of_executors (h : s.Sole) (htasks : s'.tasks = s.tasks)
    (hx : s'.executors.map (·.jobId) = s.executors.map (·.jobId)) : s'.Sole where
  nodup := htasks ▸ h.nodup
  once t ht := by
    rw [executions, hx]
    exact h.once t (htasks ▸ ht)
  owned e he := by
    have : e.jobId ∈ s.executors.map (·.jobId) := hx ▸ List.mem_map_of_mem he
    obtain ⟨f, hf, hi⟩ := List.mem_map.mp this
    obtain ⟨t, ht, hi'⟩ := h.owned f hf
    exact ⟨t, htasks ▸ ht, hi'.trans hi⟩

theorem step (h : s.Sole) (hr : ev.isReliable) (hs : Step net s ev s') : s'.Sole := by
  have pending {t : Task} {p : TaskPhase} (h : t.phase = p) (hp : p.isPending) : t.phase.isPending :=
    h ▸ hp
  cases hs
  case enqueued t hf hv hn hi _ hp =>
    subst hi
    constructor
    case nodup => exact nodup_tasks_append h.nodup hf
    case once =>
      intro u hu
      rcases List.mem_append.mp hu with hu | hu
      · exact h.once u hu
      · rw [List.mem_singleton.mp hu]
        change s.executions t.jobId + _ ≤ 1
        rw [executions_eq_zero hf.executors, Nat.zero_add]
        exact Bool.toNat_le _
    case owned =>
      intro e he
      obtain ⟨u, hu, hi⟩ := h.owned e he
      exact ⟨u, List.mem_append_left _ hu, hi⟩
  case wakeDone ht hp hj           => exact h.of_isPending ht rfl rfl (by simp [TaskPhase.isPending])
  case woken ht hp hl hq           => exact h.of_isPending ht rfl rfl fun _ => pending hp rfl
  case unpicked ht hp hn           => exact h.of_isPending ht rfl rfl fun _ => pending hp rfl
  case picked ht hp                => exact h.of_isPending ht rfl rfl fun _ => pending hp rfl
  case dispatchedLocal ht hp       => exact h.spawn ht (pending hp rfl) rfl rfl rfl rfl
  case dispatchedRemote ht hp      => exact h.of_isPending ht rfl rfl fun _ => pending hp rfl
  case dispatchFailed ht hp ha hl  => exact h.of_isPending ht rfl rfl fun _ => pending hp rfl
  case submitRefused ht hp hv      => exact h.of_isPending ht rfl rfl fun _ => pending hp rfl
  case submitted ht hp _ hv        => exact h.spawn ht (pending hp rfl) rfl rfl rfl rfl
  case submitLost ht hp            => exact h.of_isPending ht rfl rfl fun _ => pending hp rfl
  case replied ht hp               => exact h.of_isPending ht rfl rfl (by simp [TaskPhase.isPending])
  case gossiped                    => exact h.of_executors rfl rfl
  case lateRefused                 => cases hr
  case lateSubmitted               => cases hr
  case replyLost                   => cases hr
  case reportLost                  => cases hr
  case foreignSubmitted            => cases hr
  case foreignReported             => cases hr
  -- The other events start no executor and move no task.
  all_goals exact h.of_executors rfl (by simp)

theorem nodup_executors (h : s.Sole) : (s.executors.map (·.jobId)).Nodup := by
  refine List.nodup_iff_count_le_one.mpr fun i => ?_
  by_cases hi : i ∈ s.executors.map (·.jobId)
  case neg => rw [List.count_eq_zero.mpr hi]; exact Nat.zero_le 1
  case pos =>
    obtain ⟨e, he, rfl⟩ := List.mem_map.mp hi
    obtain ⟨t, ht, hi⟩ := h.owned e he
    have := h.once t ht
    rw [hi, executions] at this
    omega

theorem jobId_ne (h : s.Sole) (ht : t ∈ s.tasks) (hp : t.phase.isPending) (he : e ∈ s.executors) :
    e.jobId ≠ t.jobId := by
  intro hi
  have := h.once t ht
  have hm : t.jobId ∈ s.executors.map (·.jobId) := hi ▸ List.mem_map_of_mem he
  have := List.one_le_count_iff.mpr hm
  simp only [executions, hp, Bool.toNat_true] at *
  omega

end Sole

structure Recorded (s : JobSystem) : Prop where
  sole     : s.Sole
  known    : ∀ t ∈ s.tasks, (s.status t.node t.jobId).isSome
  recorded : ∀ e ∈ s.executors, e.callback.isSome →
    ∃ v, s.verdict e.node e.jobId = some v ∧ e.phase.Records v

-- The node that has run a job and the origin that has been told record the same outcome.
def Agrees (net : Network) (s : JobSystem) : Prop :=
  ∀ e ∈ s.executors, e.phase = .finished → ∀ callback, e.callback = some callback →
    ∀ t ∈ s.tasks, t.jobId = e.jobId → net.route callback.originEndpoint = some t.node →
      ∃ v, s.verdict e.node e.jobId = some v ∧ s.verdict t.node t.jobId = some v

-- The origin hears of the end of no job that has been cancelled on the node that has run it.
def EndsUncancelled (net : Network) (s : JobSystem) : Event → Prop
  | .report k _ =>
    ∀ e, s.executors[k]? = some e → ∀ c, e.submission net = some c →
      ∀ t ∈ s.tasks, t.jobId = e.jobId → c.1 = t.node → t.node ≠ e.node →
        ¬ s.Cancelled e.node e.jobId
  | _ => True

-- What a report says about the outcome arrives as it was.
theorem verdict_of_report {s : JobSystem} {k : Nat} {e : Executor} {n : NodeId} {o : Outcome}
    {c : JobCompletionCallback} (now : DateTime) (m : NodeId) (i : JobId) :
    ((s.setJobs n ((s.jobs n).modify e.jobId <| (·.report
      (Grpc.reportJobStatusRequest e.jobId o.verdict c.sourceNodeId).verdict now))).setExecutor k
        .finished).verdict m i =
    if m = n ∧ i = e.jobId then (s.verdict n e.jobId).map fun _ => o.verdict
    else s.verdict m i := by
  rw [Grpc.reportJobStatusRequest_verdict]
  exact verdict_of_modify rfl fun _ => JobRecord.verdict_report

namespace Recorded

variable {net : Network} {s s' : JobSystem} {ev : Event} {n : NodeId} {i : JobId} {k : Nat}
  {t : Task} {e x : Executor} {q : ExecutorPhase}

theorem init (clusters : NodeId → ClusterState) : Recorded (init clusters) where
  sole     := .init clusters
  known    := by simp [JobSystem.init]
  recorded := by simp [JobSystem.init]

-- A step changes the record of an executor that it leaves alone in ways that the executor allows
-- for.
theorem recorded_of_kept (h : s.Recorded) (hx : x ∈ s.executors) (hc : x.callback.isSome)
    (hv : ∀ v, s.verdict x.node x.jobId = some v → x.phase.Records v →
      ∃ v', s'.verdict x.node x.jobId = some v' ∧ x.phase.Records v') :
    ∃ v, s'.verdict x.node x.jobId = some v ∧ x.phase.Records v := by
  obtain ⟨v, hl, hr⟩ := h.recorded x hx hc
  exact hv v hl hr

theorem recorded_of_eq (h : s.Recorded) (hx : x ∈ s.executors) (hc : x.callback.isSome)
    (hv : s'.verdict x.node x.jobId = s.verdict x.node x.jobId) :
    ∃ v, s'.verdict x.node x.jobId = some v ∧ x.phase.Records v :=
  h.recorded_of_kept hx hc fun v hl hr => ⟨v, hv.trans hl, hr⟩

-- A step of one executor changes the record of its own job only.
theorem recorded_of_setExecutor (h : s.Recorded) (he : s.executors[k]? = some e)
    (hx : x ∈ (s.setExecutor k q).executors) (hc : x.callback.isSome)
    (hother : ∀ m i, i ≠ e.jobId → s'.verdict m i = s.verdict m i)
    (hself : ∀ v, s.verdict e.node e.jobId = some v → e.phase.Records v →
      ∃ v', s'.verdict e.node e.jobId = some v' ∧ q.Records v') :
    ∃ v, s'.verdict x.node x.jobId = some v ∧ x.phase.Records v := by
  rcases Lists.mem_modify_of_nodup h.sole.nodup_executors he hx with rfl | ⟨hx, hne⟩
  · obtain ⟨v, hv, hr⟩ := h.recorded e (List.mem_of_getElem? he) hc
    exact hself v hv hr
  · exact h.recorded_of_eq hx hc (hother _ _ hne)

theorem recorded_of_modify {f : JobRecord → JobRecord} {g : Verdict → Verdict} (h : s.Recorded)
    (he : s.executors[k]? = some e) (hx : x ∈ (s.setExecutor k q).executors)
    (hc : x.callback.isSome)
    (hj : s'.jobs = Function.update s.jobs e.node (HashMap.modify (s.jobs e.node) e.jobId f))
    (hf : ∀ job, (f job).verdict = g job.verdict) (hg : ∀ v, e.phase.Records v → q.Records (g v)) :
    ∃ v, s'.verdict x.node x.jobId = some v ∧ x.phase.Records v := by
  refine h.recorded_of_setExecutor he hx hc (fun m i hi => ?_) fun v hv hr => ⟨g v, ?_, hg v hr⟩
  · rw [verdict_of_modify hj hf, if_neg fun he => hi he.2]
  · rw [verdict_of_modify hj hf, if_pos ⟨rfl, rfl⟩, hv, Option.map_some]

theorem step (h : s.Recorded) (hr : ev.isReliable) (hs : Step net s ev s') : s'.Recorded where
  sole := h.sole.step hr hs
  known u hu := by
    rcases hs.task_cases hu with ⟨t, ht, hn, hi, _⟩ | ⟨hq, _⟩
    · exact hn ▸ hi ▸ hs.isSome_status (h.known t ht)
    · simp [hq]
  recorded x hx hc := by
    cases hs
    case enqueued hf hv hn _ _ _ =>
      refine h.recorded_of_eq hx hc ?_
      rw [verdict_of_insert rfl, if_neg fun hi => hf.executors x hx hi.2]
    case dispatchedLocal t _ ht hp =>
      rcases List.mem_append.mp hx with hx | hx
      · exact h.recorded_of_eq hx hc rfl
      · obtain rfl := List.mem_singleton.mp hx
        cases hc
    case submitted t _ _ _ _ m _ _ ht hp _ hv =>
      rcases List.mem_append.mp hx with hx | hx
      · have hne := h.sole.jobId_ne (List.mem_of_getElem? ht) (by rw [hp]; rfl) hx
        refine h.recorded_of_eq hx hc ?_
        rw [verdict_of_insert rfl, if_neg fun hi => hne hi.2]
      · obtain rfl := List.mem_singleton.mp hx
        exact ⟨_, (verdict_of_insert rfl).trans (if_pos ⟨rfl, rfl⟩), rfl, rfl⟩
    case replied k t now c a ht hp =>
      have hf (job : JobRecord) : (job.dispatched a now).verdict = job.verdict.dispatched :=
        JobRecord.verdict_dispatched
      refine h.recorded_of_kept hx hc fun v hv hr => ?_
      rw [verdict_of_modify rfl hf]
      split
      case isFalse   => exact ⟨v, hv, hr⟩
      case isTrue he => exact ⟨_, by rw [← he.1, ← he.2, hv]; rfl, hr.dispatched⟩
    case startGone e _ he hp hl =>
      refine h.recorded_of_setExecutor he hx hc (fun _ _ _ => rfl) fun v hv _ => ?_
      simp [verdict, hl] at hv
    case started k e now he hp =>
      refine h.recorded_of_modify (f := (·.start now)) he hx hc rfl
        (fun _ => JobRecord.verdict_start) fun v hr => ?_
      rwa [hp] at hr
    case spawned he hp =>
      refine h.recorded_of_setExecutor he hx hc (fun _ _ _ => rfl) fun v hv hr => ?_
      exact ⟨v, hv, by rwa [hp] at hr⟩
    case exited he hp =>
      refine h.recorded_of_setExecutor he hx hc (fun _ _ _ => rfl) fun v hv hr => ?_
      exact ⟨v, hv, by rcases hp with hp | hp <;> rwa [hp] at hr⟩
    case finished k e now o he hp =>
      refine h.recorded_of_modify (f := (·.finish o now)) he hx hc rfl
        (fun _ => JobRecord.verdict_finish) fun v hr => ?_
      rw [hp] at hr
      split
      case isTrue  => exact hr.finish
      case isFalse => exact hr.finish.isTerminal
    case reported k e now o callback n he hp hcb hn =>
      have hw (m : NodeId) (i : JobId) := verdict_of_report (s := s) (k := k) (o := o) (n := n)
        (c := callback) (e := e) now m i
      refine h.recorded_of_setExecutor he hx hc (fun m i hi => ?_) fun v hv hr => ?_
      · rw [hw, if_neg fun he => hi he.2]
      · rw [hp] at hr
        by_cases hn : e.node = n
        case pos => exact ⟨o.verdict, by rw [hw, if_pos ⟨hn, rfl⟩, ← hn, hv]; rfl, o.verdict_isTerminal⟩
        case neg => exact ⟨v, by rw [hw, if_neg fun he => hn he.1, hv], hr.isTerminal⟩
    case deleted n jobId now job hl ht =>
      refine h.recorded_of_kept hx hc fun v hv hr => ?_
      rw [verdict_of_insert rfl]
      split
      case isFalse => exact ⟨v, hv, hr⟩
      case isTrue he =>
        obtain rfl := Option.some.inj (hv.symm.trans (he.1 ▸ he.2 ▸ verdict_of_lookup hl))
        exact ⟨_, rfl, hr.cancel ht⟩
    case lateRefused      => cases hr
    case lateSubmitted    => cases hr
    case replyLost        => cases hr
    case reportLost       => cases hr
    case foreignSubmitted => cases hr
    case foreignReported  => cases hr
    all_goals exact h.recorded_of_eq hx hc rfl

theorem eq_of_jobId (h : s.Recorded) (hx : x ∈ s.executors) (he : s.executors[k]? = some e)
    (hi : e.jobId = x.jobId) : e = x :=
  List.inj_on_of_nodup_map h.sole.nodup_executors (List.mem_of_getElem? he) hx hi

-- Once the executor of a job has finished, no terminal record of the job changes any more.
theorem verdict_kept {m : NodeId} {v : Verdict} (h : s.Recorded) (hr : ev.isReliable)
    (hs : Step net s ev s') (hx : x ∈ s.executors) (hp : x.phase = .finished)
    (hv : s.verdict m x.jobId = some v) (ht : v.status.isTerminal) :
    s'.verdict m x.jobId = some v := by
  rcases hs.written m x.jobId with he | ⟨v', hv', w⟩
  · exact he.trans hv
  · generalize hi : x.jobId = i at *
    have idle {k} {e : Executor} (he : s.executors[k]? = some e) (hi' : e.jobId = i) :
        e.phase = .finished :=
      h.eq_of_jobId hx he (hi'.trans hi.symm) ▸ hp
    cases w with
    | enqueued hf _ => exact absurd hi (hf.executors x hx)
    | submitted hk hsub hj =>
      obtain ⟨_, _, _, hp'⟩ := Task.submitting_of_submission hsub
      rw [Task.job?_submission _ hsub, Option.ite_none_right_eq_some, Option.some.injEq] at hj
      refine absurd (hi.trans hj.2.symm) ?_
      exact h.sole.jobId_ne (List.mem_of_getElem? hk) (by rw [hp']; rfl) hx
    | replied hk hp' hl =>
      obtain rfl := Option.some.inj (hl.symm.trans hv)
      rw [hv', Verdict.dispatched, if_neg fun hq => by simp [hq, JobStatus.isTerminal] at ht]
    | started he hp' _  => exact absurd (hp'.symm.trans (idle he rfl)) (by simp)
    | finished he hp' _ => exact absurd (hp'.symm.trans (idle he rfl)) (by simp)
    | reported he hsub hu _ =>
      obtain ⟨_, _, hp', _, _, rfl⟩ := Executor.reporting_of_submission hsub
      rw [Grpc.reportJobStatusRequest, Uuid.parseStr_toText, Option.some.injEq] at hu
      exact absurd (hp'.symm.trans (idle he (by rw [← hu]))) (by simp)
    | deleted hl hnt =>
      obtain rfl := Option.some.inj (hl.symm.trans hv)
      exact absurd ht hnt
    | lateSubmitted    => cases hr
    | foreignSubmitted => cases hr
    | foreignReported  => cases hr

-- An executor with a report to make finishes with its report.
theorem finished_before (h : s.Recorded) (hr : ev.isReliable) (hs : Step net s ev s')
    (hev : ∀ k now, ev ≠ .report k now) (hx : x ∈ s'.executors) (hp : x.phase = .finished)
    (hc : x.callback.isSome) : x ∈ s.executors := by
  have moved {k : Nat} {e : Executor} {q : ExecutorPhase} (he : s.executors[k]? = some e)
      (hx : x ∈ (s.setExecutor k q).executors) (hq : e.callback.isSome → q ≠ .finished) :
      x ∈ s.executors := by
    rcases mem_setExecutor he hx with rfl | hx
    · exact absurd hp (hq hc)
    · exact hx
  have spawned {e : Executor} (hx : x ∈ s.executors ++ [e]) (he : e.phase = .spawned) :
      x ∈ s.executors := by
    rcases List.mem_append.mp hx with hx | hx
    · exact hx
    · exact absurd (List.mem_singleton.mp hx ▸ hp) (by simp [he])
  cases hs
  case dispatchedLocal       => exact spawned hx rfl
  case submitted             => exact spawned hx rfl
  case started he hp         => exact moved he hx (by simp)
  case spawned he hp         => exact moved he hx (by simp)
  case exited he hp          => exact moved he hx (by simp)
  case finished he hp        => exact moved he hx fun hc => by simp [hc]
  case startGone he hp hl =>
    refine moved he hx fun hc => ?_
    obtain ⟨_, hv, _⟩ := h.recorded _ (List.mem_of_getElem? he) hc
    simp [verdict, hl] at hv
  case reported              => exact absurd rfl (hev _ _)
  case lateSubmitted         => cases hr
  case reportLost            => cases hr
  case foreignSubmitted      => cases hr
  all_goals exact hx

theorem agrees_of_not_report (h : s.Recorded) (ha : Agrees net s) (hr : ev.isReliable)
    (hs : Step net s ev s') (hev : ∀ k now, ev ≠ .report k now) : Agrees net s' := by
  intro x hx hp callback hc u hu hi hn
  have hc' : x.callback.isSome := by simp [hc]
  have hx' := h.finished_before hr hs hev hx hp hc'
  have ⟨t, ht, hnode, hid⟩ : ∃ t ∈ s.tasks, u.node = t.node ∧ u.jobId = t.jobId := by
    rcases hs.task_cases hu with ⟨t, ht, hnode, hid, _⟩ | ⟨_, hpend, _⟩
    · exact ⟨t, ht, hnode, hid⟩
    · exact absurd hi.symm ((h.sole.step hr hs).jobId_ne hu hpend hx)
  obtain ⟨v, hv, hv'⟩ := ha x hx' hp callback hc t ht (hid ▸ hi) (hnode ▸ hn)
  obtain ⟨v₀, hv₀, hterm⟩ := h.recorded x hx' hc'
  obtain rfl := Option.some.inj (hv.symm.trans hv₀)
  rw [hp] at hterm
  rw [← hid, hi] at hv'
  exact ⟨v, h.verdict_kept hr hs hx' hp hv hterm,
    hi ▸ hnode ▸ h.verdict_kept hr hs hx' hp hv' hterm⟩

theorem agrees_iff (h : s.Recorded) (ha : Agrees net s) (hr : ev.isReliable)
    (hs : Step net s ev s') : Agrees net s' ↔ EndsUncancelled net s ev := by
  have other := h.agrees_of_not_report ha hr hs
  cases hs
  case reported k e now o callback n he hp hc hn =>
    have hw (m : NodeId) (i : JobId) := verdict_of_report (s := s) (k := k) (o := o) (n := n)
      (c := callback) (e := e) now m i
    have hmem := List.mem_of_getElem? he
    constructor
    case mp =>
      intro hA e' he' c hsub t ht hi hct hne hcan
      obtain rfl := Option.some.inj (he.symm.trans he')
      obtain rfl := Option.some.inj (hsub.symm.trans (Executor.submission_of_route hp hc hn))
      obtain rfl : n = t.node := hct
      have hmem' : { e with phase := .finished } ∈ (s.setExecutor k .finished).executors :=
        List.mem_of_getElem? (i := k) (by simp [JobSystem.setExecutor, he])
      obtain ⟨v, hv, hv'⟩ := hA _ hmem' rfl callback hc t ht hi hn
      rw [hw, if_neg fun heq => hne heq.1.symm] at hv
      rw [hw, if_pos ⟨rfl, hi⟩] at hv'
      obtain ⟨_, _, rfl⟩ := Option.map_eq_some_iff.mp hv'
      rw [Cancelled, status_eq_map_verdict, hv, Option.map_some, Option.some.injEq] at hcan
      exact o.verdict_status_ne_cancelled hcan
    case mpr =>
      intro hg x hx hpx cb hcx t ht hi hnx
      rcases Lists.mem_modify_of_nodup h.sole.nodup_executors he hx with rfl | ⟨hx, hne⟩
      case inr =>
        obtain ⟨v, hv, hv'⟩ := ha x hx hpx cb hcx t ht hi hnx
        refine ⟨v, ?_, ?_⟩
        · rw [hw, if_neg fun heq => hne heq.2, hv]
        · rw [hw, if_neg fun heq => hne (hi.symm.trans heq.2), hv']
      case inl =>
        obtain rfl := Option.some.inj (hc.symm.trans hcx)
        obtain rfl := Option.some.inj (hn.symm.trans hnx)
        replace hi : t.jobId = e.jobId := hi
        obtain ⟨status, hst⟩ := Option.isSome_iff_exists.mp (h.known t ht)
        rw [status_eq_map_verdict, hi] at hst
        obtain ⟨u, hu, _⟩ := Option.map_eq_some_iff.mp hst
        -- The origin records the outcome that is reported.
        have ho (m : NodeId) (hm : m = t.node) : JobSystem.verdict (JobSystem.setExecutor
            (s.setJobs t.node ((s.jobs t.node).modify e.jobId (·.report
              (Grpc.reportJobStatusRequest e.jobId o.verdict callback.sourceNodeId).verdict now)))
                k .finished) m e.jobId = some o.verdict := by
          rw [hw, if_pos ⟨hm, rfl⟩, hu, Option.map_some]
        refine ⟨o.verdict, ?_, hi ▸ ho t.node rfl⟩
        by_cases hne : t.node = e.node
        case pos => exact ho e.node hne.symm
        case neg =>
          obtain ⟨v, hv, hrec⟩ := h.recorded e hmem (by simp [hc])
          rw [hp] at hrec
          rcases hrec with rfl | rfl
          · exact (hw _ _).trans ((if_neg fun heq => hne heq.1.symm).trans hv)
          · refine absurd ?_ (hg e he _ (Executor.submission_of_route hp hc hn) t ht hi rfl hne)
            rw [Cancelled, status_eq_map_verdict, hv]
            rfl
  -- The other events report nothing.
  all_goals exact iff_of_true (other (by simp)) trivial

end Recorded

-- In exactly the runs in which no origin hears of the end of a job that the executing node has
-- cancelled, the two nodes record the same outcome once the origin has heard of it.
theorem outcome_agrees_iff (net : Network) (clusters : NodeId → ClusterState) (es : List Event)
    (hr : ∀ e ∈ es, e.isReliable) :
    (∀ s, Visits (step net) (init clusters) es s → Agrees net s) ↔
    Guarded (step net) (EndsUncancelled net) (init clusters) es :=
  visits_iff_guarded (Recorded.init clusters) (fun _ he => nomatch he) hr
    (fun _ _ _ h hr hs => h.step hr (Step.of_step hs))
    fun _ _ _ h ha hr hs => h.agrees_iff ha hr (Step.of_step hs)

-- A cancellation at the origin gives way to the outcome that is reported.
theorem outcome_agrees_cancelled_at_origin :
    ∃ s, Visits (step .plain) (init fun _ => .plain ⟨2⟩)
        [.enqueue ⟨1⟩ .plain ⟨7⟩ 0, .dispatch 0, .submit 0 1, .reply 0 2, .start 0 3, .spawn 0,
          .delete ⟨1⟩ ⟨7⟩ 4, .exit 0 (.exited (some 3)), .finish 0 5, .report 0 6] s ∧
      s.status ⟨1⟩ ⟨7⟩ = some .failed ∧ Agrees .plain s := by
  let pre : List Event :=
    [.enqueue ⟨1⟩ .plain ⟨7⟩ 0, .dispatch 0, .submit 0 1, .reply 0 2, .start 0 3, .spawn 0,
      .delete ⟨1⟩ ⟨7⟩ 4, .exit 0 (.exited (some 3)), .finish 0 5]
  have h₁ : (run (step .plain) (init fun _ => .plain ⟨2⟩) pre).map
      (fun s => (s.executors.map fun e => (e.node, e.jobId), s.status ⟨2⟩ ⟨7⟩)) =
      some ([(⟨2⟩, ⟨7⟩)], some .failed) := by
    decide
  have h₂ : (run (step .plain) (init fun _ => .plain ⟨2⟩) (pre ++ [.report 0 6])).bind
      (·.status ⟨1⟩ ⟨7⟩) = some .failed := by
    decide
  obtain ⟨s, hr, hs⟩ := Option.bind_eq_some_iff.mp h₂
  refine ⟨s, .last hr, hs, (outcome_agrees_iff .plain _ (pre ++ [.report 0 6]) (by decide)).mpr ?_ s
    (.last hr)⟩
  refine guarded_append.mpr ⟨.of_forall fun _ e he => ?_, fun s hr _ _ => ⟨?_, trivial⟩⟩
  · simp only [pre, List.mem_cons, List.not_mem_nil, or_false] at he
    rcases he with rfl | rfl | rfl | rfl | rfl | rfl | rfl | rfl | rfl <;> trivial
  · intro e he _ _ _ _ _ _ _ hc
    rw [hr, Option.map_some, Option.some.injEq, Prod.mk.injEq] at h₁
    have he : (e.node, e.jobId) ∈ s.executors.map fun e => (e.node, e.jobId) :=
      List.mem_map_of_mem (List.mem_of_getElem? he)
    rw [h₁.1, List.mem_singleton, Prod.mk.injEq] at he
    rw [Cancelled, he.1, he.2, h₁.2] at hc
    cases hc

-- A job is cancelled where it runs. Its process ends well, and the origin hears of nothing else.
theorem outcome_disagrees :
    ¬ ∀ (net : Network) (clusters : NodeId → ClusterState) (es : List Event),
      (∀ e ∈ es, e.isReliable) →
      ∀ s, Visits (step net) (init clusters) es s → Agrees net s := by
  intro h
  let es : List Event :=
    [.enqueue ⟨1⟩ .plain ⟨7⟩ 0, .dispatch 0, .submit 0 1, .reply 0 2, .start 0 3, .spawn 0,
      .delete ⟨2⟩ ⟨7⟩ 4, .exit 0 (.exited (some 0)), .finish 0 5, .report 0 6]
  have hs : (run (step .plain) (init fun _ => .plain ⟨2⟩) es).map (fun s =>
      (s.executors, s.tasks.map fun t => (t.node, t.jobId), s.status ⟨2⟩ ⟨7⟩, s.status ⟨1⟩ ⟨7⟩)) =
      some ([⟨⟨2⟩, ⟨7⟩, some ⟨(NodeInfo.plain ⟨1⟩).grpcEndpoint, ⟨2⟩⟩, .finished⟩], [(⟨1⟩, ⟨7⟩)],
        some .cancelled, some .completed) := by
    decide
  obtain ⟨s, hr, hs⟩ := Option.map_eq_some_iff.mp hs
  simp only [Prod.mk.injEq] at hs
  obtain ⟨hx, ht, hs₂, hs₁⟩ := hs
  obtain ⟨t, ht, hp⟩ := List.mem_map.mp (ht ▸ List.mem_singleton_self _)
  obtain ⟨hn, hi⟩ := Prod.mk.inj hp
  obtain ⟨v, hv, hv'⟩ := h .plain (fun _ => .plain ⟨2⟩) es (by decide) s (.last hr) _
    (hx ▸ List.mem_singleton_self _) rfl _ rfl t ht hi (by rw [hn]; decide)
  rw [status_eq_map_verdict, hv] at hs₂
  rw [status_eq_map_verdict, ← hn, ← hi, hv'] at hs₁
  exact absurd (hs₂.symm.trans hs₁) (by decide)

end JobSystem

end All4One
