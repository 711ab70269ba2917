import All4One.Foundation.Lists
import All4One.Jobs.System

open Foundation Transition

namespace All4One

-- Nodes that run executables and nothing else, each reached at its id, and a job for them.
def NodeInfo.plain (n : NodeId) : NodeInfo where
  status       := .online
  version      := ""
  grpcEndpoint := n.uuid.toText
  restEndpoint := ""
  profile      := {
    id                := n
    tier              := 0
    availability      := "always"
    quorumParticipant := true
    resources         := ⟨1, 1, none⟩
    capabilities      := ⟨false, none, none, false, false, false⟩
  }

def Network.plain : Network where
  localNode      := .plain
  route endpoint := (Uuid.parseStr endpoint).map NodeId.mk

def ClusterState.plain (n : NodeId) : ClusterState where
  nodes   := AList.singleton n (.plain n)
  version := 0

def SubmitJobRequest.plain : SubmitJobRequest where
  runtime     := .executable
  source      := "true"
  command     := []
  resources   := ⟨1, 1⟩
  constraints := {}

theorem Task.submission_of_route {net : Network} {t : Task} {c a endpoint m}
    (hp : t.phase = .submitting c a endpoint) (hr : net.route endpoint = some m) :
    t.submission net =
      some (m, Grpc.submitRemoteRequest t.jobId (net.localNode t.node).grpcEndpoint t.request) := by
  simp [Task.submission, hp, hr]

theorem Executor.submission_of_route {net : Network} {x : Executor} {o callback n}
    (hp : x.phase = .reporting o) (hc : x.callback = some callback)
    (hr : net.route callback.originEndpoint = some n) :
    x.submission net =
      some (n, Grpc.reportJobStatusRequest x.jobId o.verdict callback.sourceNodeId) := by
  simp [Executor.submission, hp, hc, hr]

theorem Task.job?_submission {net : Network} (t : Task) {c : NodeId × Grpc.SubmitJobRequest}
    (h : t.submission net = some c) :
    c.2.job? = if t.request.isValid then some t.jobId else none := by
  simp only [submission] at h
  split at h
  case h_1 =>
    obtain ⟨_, _, rfl⟩ := Option.map_eq_some_iff.mp h
    exact Grpc.job?_submitRemoteRequest ..
  case h_2 => cases h

namespace JobSystem

def status (s : JobSystem) (n : NodeId) (jobId : JobId) : Option JobStatus :=
  ((s.jobs n).lookup jobId).map (·.status)

section Setters

variable (s : JobSystem) (n : NodeId) (jobs : Jobs) (k : Nat) (p : TaskPhase) (q : ExecutorPhase)
  (e : Executor) (late : List (NodeId × Grpc.SubmitJobRequest))

@[simp] theorem setJobs_jobs : (s.setJobs n jobs).jobs = Function.update s.jobs n jobs := rfl
@[simp] theorem setJobs_tasks : (s.setJobs n jobs).tasks = s.tasks := rfl
@[simp] theorem setJobs_executors : (s.setJobs n jobs).executors = s.executors := rfl
@[simp] theorem setJobs_late : (s.setJobs n jobs).late = s.late := rfl
@[simp] theorem setTask_jobs : (s.setTask k p).jobs = s.jobs := rfl
@[simp] theorem setTask_executors : (s.setTask k p).executors = s.executors := rfl
@[simp] theorem setTask_late : (s.setTask k p).late = s.late := rfl
@[simp] theorem setExecutor_jobs : (s.setExecutor k q).jobs = s.jobs := rfl
@[simp] theorem setExecutor_tasks : (s.setExecutor k q).tasks = s.tasks := rfl
@[simp] theorem setExecutor_late : (s.setExecutor k q).late = s.late := rfl
@[simp] theorem spawn_jobs : (s.spawn e).jobs = s.jobs := rfl
@[simp] theorem spawn_tasks : (s.spawn e).tasks = s.tasks := rfl
@[simp] theorem spawn_executors : (s.spawn e).executors = s.executors ++ [e] := rfl
@[simp] theorem spawn_late : (s.spawn e).late = s.late := rfl

@[simp] theorem setLate_jobs : (s.setLate late).jobs = s.jobs := rfl
@[simp] theorem setLate_tasks : (s.setLate late).tasks = s.tasks := rfl
@[simp] theorem setLate_executors : (s.setLate late).executors = s.executors := rfl
@[simp] theorem setLate_late : (s.setLate late).late = late := rfl

@[simp]
theorem map_jobId_setTask : (s.setTask k p).tasks.map (·.jobId) = s.tasks.map (·.jobId) :=
  Lists.map_modify (f := ({ · with phase := p })) (g := (·.jobId)) (fun _ => rfl) s.tasks k

@[simp]
theorem map_jobId_setExecutor :
    (s.setExecutor k q).executors.map (·.jobId) = s.executors.map (·.jobId) :=
  Lists.map_modify (f := ({ · with phase := q })) (g := (·.jobId)) (fun _ => rfl) s.executors k

variable {s k p q e} {t u : Task} {f : Executor}

theorem mem_setTask (ht : s.tasks[k]? = some t) (hu : u ∈ (s.setTask k p).tasks) :
    u = { t with phase := p } ∨ u ∈ s.tasks :=
  Lists.mem_modify ht hu

theorem mem_setTask_of_nodup (hn : (s.tasks.map (·.jobId)).Nodup) (ht : s.tasks[k]? = some t)
    (hu : u ∈ (s.setTask k p).tasks) :
    u = { t with phase := p } ∨ u ∈ s.tasks ∧ u.jobId ≠ t.jobId :=
  Lists.mem_modify_of_nodup hn ht hu

-- A new task is for a job that no other task is for.
theorem nodup_tasks_append {n : NodeId} (hn : (s.tasks.map (·.jobId)).Nodup)
    (hf : s.IsFresh n t.jobId) : ((s.tasks ++ [t]).map (·.jobId)).Nodup := by
  rw [List.map_append, List.nodup_append]
  refine ⟨hn, List.nodup_singleton _, fun i hi j hj => ?_⟩
  obtain ⟨u, hu, rfl⟩ := List.mem_map.mp hi
  simp only [List.map_cons, List.map_nil, List.mem_singleton] at hj
  exact hj ▸ hf.tasks u hu

theorem mem_setExecutor (he : s.executors[k]? = some e) (hf : f ∈ (s.setExecutor k q).executors) :
    f = { e with phase := q } ∨ f ∈ s.executors :=
  Lists.mem_modify he hf

end Setters

section Status

variable {s : JobSystem} {m n : NodeId} {i jobId : JobId} {k : Nat} {e : Executor}
  {q : ExecutorPhase} {r : JobRecord} {f : JobRecord → JobRecord}

@[simp] theorem status_setTask {k p} : (s.setTask k p).status n i = s.status n i := rfl
@[simp] theorem status_setExecutor : (s.setExecutor k q).status n i = s.status n i := rfl
@[simp] theorem status_setLate {late} : (s.setLate late).status n i = s.status n i := rfl
@[simp] theorem status_spawn : (s.spawn e).status n i = s.status n i := rfl

theorem status_insert :
    (s.setJobs n (Finmap.insert jobId r (s.jobs n))).status m i =
    if m = n ∧ i = jobId then some r.status else s.status m i := by
  by_cases hm : m = n
  case neg => simp [status, hm]
  case pos =>
    subst hm
    simp only [status, setJobs_jobs, Function.update_self, HashMap.lookup_insert', true_and]
    split <;> rfl

theorem status_modify :
    (s.setJobs n (HashMap.modify (s.jobs n) jobId f)).status m i =
    if m = n ∧ i = jobId then ((s.jobs n).lookup jobId).map fun job => (f job).status
    else s.status m i := by
  by_cases hm : m = n
  case neg => simp [status, hm]
  case pos =>
    subst hm
    simp only [status, setJobs_jobs, Function.update_self, HashMap.lookup_modify, true_and]
    split
    case isTrue  => simp [Function.comp_def]
    case isFalse => rfl

end Status

-- `enqueue_job` refuses the request, or leaves a queued job with a task that has picked its node or is
-- to try again.
theorem enqueue_cases {net : Network} {s s' : JobSystem} {n : NodeId} {request : SubmitJobRequest}
    {jobId : JobId} {now : DateTime} (h : s.enqueue net n request jobId now = some s') :
    ¬ request.isValid ∧ s' = s ∨
    request.isValid ∧ s.IsFresh n jobId ∧ ∃ t : Task,
      s' = { s.setJobs n (Finmap.insert jobId (.queued jobId
          ((pickNode (net.localNode n) (s.clusters n) request.scheduling).getD n) request now)
            (s.jobs n)) with
        tasks := s.tasks ++ [t] } ∧
      t.node = n ∧ t.jobId = jobId ∧ t.request = request ∧
      t.phase = match pickNode (net.localNode n) (s.clusters n) request.scheduling with
        | some a => .dispatching .enqueue a
        | none   => .sleeping 60 := by
  simp only [enqueue] at h
  split at h
  case isFalse => cases h
  case isTrue hf =>
    by_cases hv : request.isValid = true
    case neg =>
      have : s' = s := by simpa [enqueueJob, hv, eq_comm] using h
      exact .inl ⟨hv, this⟩
    case pos =>
      simp only [enqueueJob, hv, not_true_eq_false, ↓reduceIte, Option.some.injEq] at h
      exact .inr ⟨hv, hf, _, h.symm, rfl, rfl, rfl, rfl⟩

section Table

variable {net : Network} {s s' : JobSystem} {ev : Event} {n : NodeId} {k : Nat} {e : Executor}
  {q : ExecutorPhase}

-- An executor that takes no guard locks no job table.
theorem IsLocked.of_setExecutor (h : (s.setExecutor k q).IsLocked n) (he : s.executors[k]? = some e)
    (hq : ¬ q.holdsGuard) : s.IsLocked n := by
  obtain ⟨x, hx, hn, hp⟩ := h
  rcases mem_setExecutor he hx with rfl | hx
  · exact absurd hp hq
  · exact ⟨x, hx, hn, hp⟩

theorem step_of_unlocked (h : ∀ n ∈ s.table net ev, ¬ s.IsLocked n) :
    s.step net ev = s.act net ev :=
  if_pos h

theorem step_of_table_eq_none (h : s.table net ev = none) : s.step net ev = s.act net ev :=
  step_of_unlocked fun _ hn => nomatch h.symm.trans hn

theorem step_of_table_eq_some (h : s.table net ev = some n) (hn : ¬ s.IsLocked n) :
    s.step net ev = s.act net ev :=
  step_of_unlocked fun _ hm => Option.some.inj (h.symm.trans hm) ▸ hn

theorem act_of_step (h : s.step net ev = some s') : s.act net ev = some s' :=
  (Option.ite_none_right_eq_some.mp h).2

theorem unlocked_of_step (h : s.step net ev = some s') : ∀ n ∈ s.table net ev, ¬ s.IsLocked n :=
  (Option.ite_none_right_eq_some.mp h).1

end Table

-- What each event does to a state, with all that its functions have checked.
inductive Step (net : Network) (s : JobSystem) : Event → JobSystem → Prop
  | enqueueRefused {n request jobId now} :
    ¬ request.isValid →
    Step net s (.enqueue n request jobId now) s
  | enqueued {n request jobId now assignedTo t} :
    s.IsFresh n jobId → request.isValid → t.node = n → t.jobId = jobId → t.request = request →
    (t.phase = .sleeping 60 ∨ ∃ a, t.phase = .dispatching .enqueue a) →
    Step net s (.enqueue n request jobId now) {
      s.setJobs n (Finmap.insert jobId (.queued jobId assignedTo request now) (s.jobs n)) with
      tasks := s.tasks ++ [t]
    }
  | wakeDone {k t r} :
    s.tasks[k]? = some t → t.phase = .sleeping (r + 1) →
    (∀ job, (s.jobs t.node).lookup t.jobId = some job → job.status ≠ .queued) →
    Step net s (.wake k) (s.setTask k .finished)
  | woken {k t r job} :
    s.tasks[k]? = some t → t.phase = .sleeping (r + 1) →
    (s.jobs t.node).lookup t.jobId = some job → job.status = .queued →
    Step net s (.wake k) (s.setTask k (.checked r))
  | unpicked {k t r} :
    s.tasks[k]? = some t → t.phase = .checked r →
    pickNode (net.localNode t.node) (s.clusters t.node) t.scheduling = none →
    Step net s (.pick k) (s.setTask k (.resume r))
  | picked {k t r a} :
    s.tasks[k]? = some t → t.phase = .checked r →
    Step net s (.pick k) (s.setTask k (.dispatching (.retry r) a))
  | dispatchedLocal {k t c} :
    s.tasks[k]? = some t → t.phase = .dispatching c t.node →
    Step net s (.dispatch k) ((s.setTask k .finished).spawn (.spawnJob t.node t.jobId none))
  | dispatchedRemote {k t c a endpoint} :
    s.tasks[k]? = some t → t.phase = .dispatching c a →
    Step net s (.dispatch k) (s.setTask k (.submitting c a endpoint))
  | dispatchFailed {k t c a} :
    s.tasks[k]? = some t → t.phase = .dispatching c a → a ≠ t.node →
    (s.clusters t.node).nodes.lookup a = none →
    Step net s (.dispatch k) (s.setTask k (.afterFailure c))
  | submitRefused {k t now c a endpoint} :
    s.tasks[k]? = some t → t.phase = .submitting c a endpoint → ¬ t.request.isValid →
    Step net s (.submit k now) (s.setTask k (.afterFailure c))
  | submitted {k t now c a endpoint m request callback} :
    s.tasks[k]? = some t → t.phase = .submitting c a endpoint →
    net.route endpoint = some m → t.request.isValid →
    Step net s (.submit k now) (
      ((s.setJobs m (Finmap.insert t.jobId (.queued t.jobId m request now) (s.jobs m))).setTask k
        (.accepted c a)).spawn (.spawnJob m t.jobId callback))
  | submitLost {k t c a endpoint} :
    s.tasks[k]? = some t → t.phase = .submitting c a endpoint →
    Step net s (.loseSubmit k)
      ((s.setTask k (.afterFailure c)).setLate (s.late ++ (t.submission net).toList))
  | lateRefused {i now m request} :
    s.late[i]? = some (m, request) → request.job? = none →
    Step net s (.submitLate i now) (s.setLate (s.late.eraseIdx i))
  | lateSubmitted {i now m request jobId} :
    s.late[i]? = some (m, request) → request.job? = some jobId →
    Step net s (.submitLate i now) (
      ((s.setLate (s.late.eraseIdx i)).setJobs m
        (Finmap.insert jobId (.queued jobId m (Grpc.fromProto request) now) (s.jobs m))).spawn
          (.spawnJob m jobId (request.callback m)))
  | replied {k t now c a} :
    s.tasks[k]? = some t → t.phase = .accepted c a →
    Step net s (.reply k now) (
      (s.setJobs t.node ((s.jobs t.node).modify t.jobId (·.dispatched a now))).setTask k .finished)
  | replyLost {k t c a} :
    s.tasks[k]? = some t → t.phase = .accepted c a →
    Step net s (.loseReply k) (s.setTask k (.afterFailure c))
  | startGone {k e now} :
    s.executors[k]? = some e → e.phase = .spawned → (s.jobs e.node).lookup e.jobId = none →
    Step net s (.start k now) (s.setExecutor k .finished)
  | started {k e now} :
    s.executors[k]? = some e → e.phase = .spawned →
    Step net s (.start k now) (
      (s.setJobs e.node ((s.jobs e.node).modify e.jobId (·.start now))).setExecutor k .started)
  | spawned {k e} :
    s.executors[k]? = some e → e.phase = .started →
    Step net s (.spawn k) (s.setExecutor k .running)
  | exited {k e o} :
    s.executors[k]? = some e → e.phase = .started ∨ e.phase = .running →
    Step net s (.exit k o) (s.setExecutor k (.ended o))
  | finished {k e now o} :
    s.executors[k]? = some e → e.phase = .ended o →
    Step net s (.finish k now) (
      (s.setJobs e.node ((s.jobs e.node).modify e.jobId (·.finish o now))).setExecutor k
        (if e.callback.isSome then .reporting o else .finished))
  | reported {k e now o callback n} :
    s.executors[k]? = some e → e.phase = .reporting o → e.callback = some callback →
    net.route callback.originEndpoint = some n →
    Step net s (.report k now) (
      (s.setJobs n ((s.jobs n).modify e.jobId <| (·.report
        (Grpc.reportJobStatusRequest e.jobId o.verdict callback.sourceNodeId).verdict now))
      ).setExecutor k .finished)
  | reportLost {k e o} :
    s.executors[k]? = some e → e.phase = .reporting o →
    Step net s (.loseReport k) (s.setExecutor k .finished)
  | deleteRefused {n jobId now} :
    (∀ job, (s.jobs n).lookup jobId = some job → job.status.isTerminal) →
    Step net s (.delete n jobId now) s
  | deleted {n jobId now job} :
    (s.jobs n).lookup jobId = some job → ¬ job.status.isTerminal →
    Step net s (.delete n jobId now) (s.setJobs n (Finmap.insert jobId (job.cancel now) (s.jobs n)))
  | gossiped {n cluster} :
    Step net s (.gossip n cluster) { s with clusters := Function.update s.clusters n cluster }
  | foreignRefused {n request now} :
    request.job? = none →
    Step net s (.foreignSubmit n request now) s
  | foreignSubmitted {n request now jobId} :
    request.job? = some jobId →
    Step net s (.foreignSubmit n request now) (
      (s.setJobs n (Finmap.insert jobId (.queued jobId n (Grpc.fromProto request) now) (s.jobs n))
        ).spawn (.spawnJob n jobId (request.callback n)))
  | foreignUnparsed {n payload now} :
    Uuid.parseStr payload.jobId = none →
    Step net s (.foreignReport n payload now) s
  | foreignReported {n payload now uuid} :
    Uuid.parseStr payload.jobId = some uuid →
    Step net s (.foreignReport n payload now) (
      s.setJobs n ((s.jobs n).modify ⟨uuid⟩ (·.report payload.verdict now)))

namespace Step

variable {net : Network} {s s' : JobSystem} {k : Nat} {t : Task} {e : Executor}

theorem of_enqueue {n request jobId now} (h : s.enqueue net n request jobId now = some s') :
    Step net s (.enqueue n request jobId now) s' := by
  rcases enqueue_cases h with ⟨hv, rfl⟩ | ⟨hv, hf, t, rfl, hn, hi, hr, hp⟩
  · exact enqueueRefused hv
  · refine enqueued hf hv hn hi hr ?_
    rw [hp]
    cases pickNode (net.localNode n) (s.clusters n) request.scheduling
    case none   => exact .inl rfl
    case some a => exact .inr ⟨a, rfl⟩

theorem of_wake (ht : s.tasks[k]? = some t) (h : s.wake k t = some s') : Step net s (.wake k) s' := by
  simp only [wake] at h
  split at h
  case h_2 => cases h
  case h_1 hp =>
    split at h
    case h_1 hl => cases h; exact wakeDone ht hp (by simp [hl])
    case h_2 hl =>
      split at h
      case isTrue hq  => cases h; exact wakeDone ht hp (by simpa [hl] using hq)
      case isFalse hq => cases h; exact woken ht hp hl (not_not.mp hq)

theorem of_pick (ht : s.tasks[k]? = some t) (h : s.pick net k t = some s') :
    Step net s (.pick k) s' := by
  simp only [pick] at h
  split at h
  case h_2 => cases h
  case h_1 hp =>
    split at h
    case h_1 hn => cases h; exact unpicked ht hp hn
    case h_2    => cases h; exact picked ht hp

theorem of_dispatch (ht : s.tasks[k]? = some t) (h : s.dispatch k t = some s') :
    Step net s (.dispatch k) s' := by
  simp only [dispatch] at h
  split at h
  case h_2 => cases h
  case h_1 hp =>
    split at h
    case isTrue ha => cases h; exact dispatchedLocal ht (ha ▸ hp)
    case isFalse ha =>
      split at h
      case h_1    => cases h; exact dispatchedRemote ht hp
      case h_2 hl => cases h; exact dispatchFailed ht hp ha hl

theorem of_submit {now} (ht : s.tasks[k]? = some t) (h : s.submit net k t now = some s') :
    Step net s (.submit k now) s' := by
  simp only [submit] at h
  split at h
  case h_2 => cases h
  case h_1 caller assigned endpoint m request hp hs =>
    simp only [Task.submission, hp, Option.map_eq_some_iff, Prod.mk.injEq] at hs
    obtain ⟨m, hr, rfl, rfl⟩ := hs
    have hj := Grpc.job?_submitRemoteRequest t.jobId (net.localNode t.node).grpcEndpoint t.request
    by_cases hv : t.request.isValid = true
    case neg =>
      have ⟨_, hs⟩ := Grpc.submitJob_of_job?_none m (s.jobs m) now
        (hj.trans (by simp [hv]))
      simp only [hs, Option.some.injEq] at h
      exact h ▸ submitRefused ht hp hv
    case pos =>
      rw [if_pos hv] at hj
      simp only [Grpc.submitJob_of_job?_some hj, Option.some.injEq] at h
      exact h ▸ submitted ht hp hr hv

theorem of_loseSubmit (ht : s.tasks[k]? = some t) (h : s.loseSubmit net k t = some s') :
    Step net s (.loseSubmit k) s' := by
  simp only [loseSubmit] at h
  split at h
  case h_1 hp => cases h; exact submitLost ht hp
  case h_2    => cases h

theorem of_submitLate {i m request now} (hi : s.late[i]? = some (m, request)) :
    Step net s (.submitLate i now) (s.submitLate i m request now) := by
  simp only [submitLate, setLate_jobs]
  cases hj : request.job?
  case none =>
    have ⟨_, hs⟩ := Grpc.submitJob_of_job?_none m (s.jobs m) now hj
    simp only [hs]
    exact lateRefused hi hj
  case some =>
    simp only [Grpc.submitJob_of_job?_some hj]
    exact lateSubmitted hi hj

theorem of_reply {now} (ht : s.tasks[k]? = some t) (h : s.reply k t now = some s') :
    Step net s (.reply k now) s' := by
  simp only [reply] at h
  split at h
  case h_1 hp => cases h; exact replied ht hp
  case h_2    => cases h

theorem of_loseReply (ht : s.tasks[k]? = some t) (h : s.loseReply k t = some s') :
    Step net s (.loseReply k) s' := by
  simp only [loseReply] at h
  split at h
  case h_1 hp => cases h; exact replyLost ht hp
  case h_2    => cases h

theorem of_start {now} (he : s.executors[k]? = some e) (h : s.start k e now = some s') :
    Step net s (.start k now) s' := by
  simp only [start] at h
  split at h
  case h_2 => cases h
  case h_1 hp =>
    split at h
    case h_1 hl => cases h; exact startGone he hp hl
    case h_2    => cases h; exact started he hp

theorem of_spawn (he : s.executors[k]? = some e) (h : s.spawnProcess k e = some s') :
    Step net s (.spawn k) s' := by
  simp only [spawnProcess] at h
  split at h
  case h_1 hp => cases h; exact spawned he hp
  case h_2    => cases h

theorem of_exit {o} (he : s.executors[k]? = some e) (h : s.exit k e o = some s') :
    Step net s (.exit k o) s' := by
  simp only [exit] at h
  split at h
  case h_1 hp => cases h; exact exited he (.inl hp)
  case h_2 hp => cases h; exact exited he (.inr hp)
  case h_3 hp => cases h; exact exited he (.inr hp)
  case h_4    => cases h

theorem of_finish {now} (he : s.executors[k]? = some e) (h : s.finish k e now = some s') :
    Step net s (.finish k now) s' := by
  simp only [finish] at h
  split at h
  case h_1 hp => cases h; exact finished he hp
  case h_2    => cases h

theorem of_report {now} (he : s.executors[k]? = some e) (h : s.report net k e now = some s') :
    Step net s (.report k now) s' := by
  simp only [report] at h
  split at h
  case h_2 => cases h
  case h_1 n payload hs =>
    simp only [Executor.submission] at hs
    split at hs
    case h_2 => cases hs
    case h_1 hp hc =>
      simp only [Option.map_eq_some_iff, Prod.mk.injEq] at hs
      obtain ⟨n, hr, rfl, rfl⟩ := hs
      rw [Grpc.afterReport_request] at h
      cases h
      exact reported he hp hc hr

theorem of_loseReport (he : s.executors[k]? = some e) (h : s.loseReport k e = some s') :
    Step net s (.loseReport k) s' := by
  simp only [loseReport] at h
  split at h
  case h_1 hp => cases h; exact reportLost he hp
  case h_2    => cases h

theorem of_delete (n : NodeId) (jobId : JobId) (now : DateTime) :
    Step net s (.delete n jobId now) (s.delete n jobId now) := by
  simp only [delete]
  split
  case h_1 hl => exact deleteRefused (by simp [hl])
  case h_2 hl =>
    split
    case isTrue ht  => exact deleteRefused (by simpa [hl] using ht)
    case isFalse ht => exact deleted hl ht

theorem of_foreignSubmit {n request now} (h : s.foreignSubmit n request now = some s') :
    Step net s (.foreignSubmit n request now) s' := by
  simp only [foreignSubmit] at h
  split at h
  case isTrue => cases h
  case isFalse =>
    cases hj : request.job?
    case none =>
      have ⟨_, hs⟩ := Grpc.submitJob_of_job?_none n (s.jobs n) now hj
      simp only [hs, Option.some.injEq] at h
      exact h ▸ foreignRefused hj
    case some =>
      simp only [Grpc.submitJob_of_job?_some hj, Option.some.injEq] at h
      exact h ▸ foreignSubmitted hj

theorem of_foreignReport (n : NodeId) (payload : Grpc.ReportJobStatusRequest) (now : DateTime) :
    Step net s (.foreignReport n payload now)
      (s.setJobs n (Grpc.afterReport (s.jobs n) payload now)) := by
  rw [Grpc.afterReport_eq_modify]
  cases hp : Uuid.parseStr payload.jobId
  case none =>
    have hs : s.setJobs n (s.jobs n) = s := by simp [setJobs]
    simp only [hs]
    exact foreignUnparsed hp
  case some => exact foreignReported hp

theorem of_act {e : Event} (h : act net s e = some s') : Step net s e s' := by
  have task {k : Nat} {f} (h : s.tasks[k]?.bind f = some s') : ∃ t, s.tasks[k]? = some t ∧ f t = some s' :=
    Option.bind_eq_some_iff.mp h
  have executor {k : Nat} {f} (h : s.executors[k]?.bind f = some s') :
      ∃ e, s.executors[k]? = some e ∧ f e = some s' :=
    Option.bind_eq_some_iff.mp h
  cases e <;> simp only [act] at h
  case enqueue       => exact of_enqueue h
  case wake          => have ⟨_, ht, h⟩ := task h; exact of_wake ht h
  case pick          => have ⟨_, ht, h⟩ := task h; exact of_pick ht h
  case dispatch      => have ⟨_, ht, h⟩ := task h; exact of_dispatch ht h
  case submit        => have ⟨_, ht, h⟩ := task h; exact of_submit ht h
  case loseSubmit    => have ⟨_, ht, h⟩ := task h; exact of_loseSubmit ht h
  case reply         => have ⟨_, ht, h⟩ := task h; exact of_reply ht h
  case loseReply     => have ⟨_, ht, h⟩ := task h; exact of_loseReply ht h
  case submitLate    =>
    have ⟨⟨_, _⟩, hi, h⟩ := Option.map_eq_some_iff.mp h
    exact h ▸ of_submitLate hi
  case start         => have ⟨_, he, h⟩ := executor h; exact of_start he h
  case spawn         => have ⟨_, he, h⟩ := executor h; exact of_spawn he h
  case exit          => have ⟨_, he, h⟩ := executor h; exact of_exit he h
  case finish        => have ⟨_, he, h⟩ := executor h; exact of_finish he h
  case report        => have ⟨_, he, h⟩ := executor h; exact of_report he h
  case loseReport    => have ⟨_, he, h⟩ := executor h; exact of_loseReport he h
  case delete        => cases h; exact of_delete _ _ _
  case gossip        => cases h; exact gossiped
  case foreignSubmit => exact of_foreignSubmit h
  case foreignReport => cases h; exact of_foreignReport _ _ _

theorem of_step {e : Event} (h : step net s e = some s') : Step net s e s' :=
  of_act (act_of_step h)

-- A report that has been processed gives a guard back.
theorem isLocked_of_report {now : DateTime} {n : NodeId} (h : Step net s (.report k now) s')
    (hl : s'.IsLocked n) : s.IsLocked n := by
  cases h
  case reported he =>
    exact IsLocked.of_setExecutor (s := s.setJobs _ _) hl he (by simp [ExecutorPhase.holdsGuard])

theorem nodup_tasks {ev : Event} (h : Step net s ev s') (hn : (s.tasks.map (·.jobId)).Nodup) :
    (s'.tasks.map (·.jobId)).Nodup := by
  cases h
  case enqueued t hf _ _ hi _ _ => exact nodup_tasks_append hn (hi ▸ hf)
  all_goals simpa using hn

end Step

end JobSystem

end All4One
