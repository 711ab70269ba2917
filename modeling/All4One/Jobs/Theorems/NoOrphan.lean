import All4One.Jobs.Theorems.Step

open Foundation Transition

namespace All4One

-- A task that gives up after a failure: `enqueue_job` itself, and the retry task in its last round.
def Caller.isLast : Caller → Bool
  | .enqueue      => true
  | .retry rounds => rounds = 0

-- In these phases the task has the job dispatched sooner or later, or gives it up.
def TaskPhase.isPending : TaskPhase → Bool
  | .dispatching .. | .submitting .. | .sleeping _ | .checked _ => true
  | _                                                           => false

theorem TaskPhase.isPending_resume {rounds : Nat} (h : rounds ≠ 0) : (resume rounds).isPending := by
  simp [resume, h, isPending]

theorem TaskPhase.isPending_afterFailure {caller : Caller} (h : ¬ caller.isLast) :
    (afterFailure caller).isPending := by
  cases caller
  case enqueue => exact absurd rfl h
  case retry   => exact isPending_resume (by simpa [Caller.isLast] using h)

namespace TaskPhase

instance {P : Caller → NodeId → Prop} [∀ caller assigned, Decidable (P caller assigned)] :
    (p : TaskPhase) → Decidable (∀ caller assigned, p = .dispatching caller assigned → P caller assigned)
  | .dispatching caller assigned =>
    decidable_of_iff (P caller assigned) ⟨fun h _ _ e => by cases e; exact h, fun h => h _ _ rfl⟩
  | .submitting .. | .accepted .. | .sleeping _ | .checked _ | .finished => .isTrue nofun

instance {P : Caller → NodeId → String → Prop}
    [∀ caller assigned endpoint, Decidable (P caller assigned endpoint)] : (p : TaskPhase) →
    Decidable (∀ caller assigned endpoint, p = .submitting caller assigned endpoint →
      P caller assigned endpoint)
  | .submitting caller assigned endpoint =>
    decidable_of_iff (P caller assigned endpoint)
      ⟨fun h _ _ _ e => by cases e; exact h, fun h => h _ _ _ rfl⟩
  | .dispatching .. | .accepted .. | .sleeping _ | .checked _ | .finished => .isTrue nofun

end TaskPhase

namespace JobSystem

-- The `j`-th executor runs the job and has not finished.
def RunBy (s : JobSystem) (jobId : JobId) (j : Nat) : Prop :=
  ∃ e, s.executors[j]? = some e ∧ e.jobId = jobId ∧ e.phase ≠ .finished

theorem RunBy.lt_length {s : JobSystem} {jobId : JobId} {j : Nat} (h : s.RunBy jobId j) :
    j < s.executors.length :=
  have ⟨_, he, _⟩ := h
  (List.getElem?_eq_some_iff.mp he).1

-- The origin of the job knows that it has ended.
def Closed (s : JobSystem) (t : Task) : Prop :=
  ∃ status, s.status t.node t.jobId = some status ∧ status.isTerminal

-- The job is queued at its origin, and the task still has it dispatched.
def Pending (s : JobSystem) (t : Task) : Prop :=
  s.status t.node t.jobId = some .queued ∧ t.phase.isPending

def Covered (s : JobSystem) (t : Task) : Prop :=
  s.Closed t ∨ s.Pending t ∨ ∃ j, s.RunBy t.jobId j

-- Something is responsible for the job of a task.
def Responsible (s : JobSystem) (t : Task) : Prop :=
  t.phase ≠ .finished ∨ ∃ j, s.RunBy t.jobId j

-- The `k`-th executor finishes without a report to the origin of its job.
def EndsUnreported (s : JobSystem) (k : Nat) (e : Executor) (t : Task) : Prop :=
  t.jobId = e.jobId → s.Closed t ∨ s.Pending t ∨ ∃ j ≠ k, s.RunBy t.jobId j

-- A task gives up, and an executor's report is lost, only where the origin knows that the job has
-- ended or another executor or round takes care of it. Reports from elsewhere are of terminal
-- states.
def Reliable (net : Network) (s : JobSystem) : Event → Prop
  | .pick k =>
    ∀ t, s.tasks[k]? = some t → t.phase = .checked 0 →
      pickNode (net.localNode t.node) (s.clusters t.node) t.scheduling = none →
      s.Closed t ∨ ∃ j, s.RunBy t.jobId j
  | .dispatch k =>
    ∀ t, s.tasks[k]? = some t → ∀ caller assigned, t.phase = .dispatching caller assigned →
      caller.isLast → assigned ≠ t.node → (s.clusters t.node).nodes.lookup assigned = none →
      s.Closed t ∨ ∃ j, s.RunBy t.jobId j
  | .loseSubmit k =>
    ∀ t, s.tasks[k]? = some t → ∀ caller assigned endpoint,
      t.phase = .submitting caller assigned endpoint → caller.isLast →
      s.Closed t ∨ ∃ j, s.RunBy t.jobId j
  | .finish k _ =>
    ∀ e, s.executors[k]? = some e → e.callback = none →
      ∀ t ∈ s.tasks, e.node ≠ t.node → s.EndsUnreported k e t
  | .report k _ =>
    ∀ e, s.executors[k]? = some e → ∀ c, e.submission net = some c →
      ∀ t ∈ s.tasks, c.1 ≠ t.node → s.EndsUnreported k e t
  | .loseReport k =>
    ∀ e, s.executors[k]? = some e → ∀ t ∈ s.tasks, s.EndsUnreported k e t
  | .foreignReport n payload _ =>
    ∀ t ∈ s.tasks, t.node = n → Uuid.parseStr payload.jobId = some t.jobId.uuid →
      (Grpc.jobStatusFromString payload.status).isTerminal
  | _ => True

section Decidable

variable (net : Network) (s : JobSystem) (jobId : JobId) (j k : Nat) (e : Executor) (t : Task)

instance : Decidable (s.RunBy jobId j) :=
  inferInstanceAs (Decidable (∃ e ∈ s.executors[j]?, _))

instance : Decidable (∃ j, s.RunBy jobId j) :=
  decidable_of_iff (∃ j < s.executors.length, s.RunBy jobId j)
    ⟨fun ⟨j, _, h⟩ => ⟨j, h⟩, fun ⟨j, h⟩ => ⟨j, h.lt_length, h⟩⟩

instance : Decidable (∃ j ≠ k, s.RunBy jobId j) :=
  decidable_of_iff (∃ j < s.executors.length, j ≠ k ∧ s.RunBy jobId j)
    ⟨fun ⟨j, _, h⟩ => ⟨j, h⟩, fun ⟨j, hk, h⟩ => ⟨j, h.lt_length, hk, h⟩⟩

instance : Decidable (s.Closed t) :=
  inferInstanceAs (Decidable (∃ status ∈ s.status _ _, _))

instance : Decidable (s.Pending t) :=
  inferInstanceAs (Decidable (_ ∧ _))

instance : Decidable (s.EndsUnreported k e t) :=
  inferInstanceAs (Decidable (_ → _ ∨ _ ∨ ∃ j ≠ k, s.RunBy _ j))

instance : DecidablePred (Reliable net s)
  | .pick k => inferInstanceAs (Decidable (∀ t ∈ s.tasks[k]?, _ → _ → _ ∨ ∃ _, _))
  | .dispatch k =>
    inferInstanceAs (Decidable (∀ t ∈ s.tasks[k]?, ∀ _ _, t.phase = _ → _ → _ → _ → _ ∨ ∃ _, _))
  | .loseSubmit k =>
    inferInstanceAs (Decidable (∀ t ∈ s.tasks[k]?, ∀ _ _ _, t.phase = _ → _ → _ ∨ ∃ _, _))
  | .finish k _ => inferInstanceAs (Decidable (∀ e ∈ s.executors[k]?, _ → ∀ t ∈ s.tasks, _ → _))
  | .report k _ =>
    inferInstanceAs (Decidable (∀ e ∈ s.executors[k]?, ∀ c ∈ e.submission net, ∀ t ∈ s.tasks, _ → _))
  | .loseReport k => inferInstanceAs (Decidable (∀ e ∈ s.executors[k]?, ∀ t ∈ s.tasks, _))
  | .foreignReport .. => inferInstanceAs (Decidable (∀ t ∈ s.tasks, _ → _ → _))
  | .enqueue .. | .wake _ | .submit .. | .submitLate .. | .reply .. | .loseReply _ | .start ..
  | .spawn _ | .exit .. | .delete .. | .gossip .. | .foreignSubmit .. => .isTrue trivial

end Decidable

section

variable {s s' : JobSystem} {m n : NodeId} {i jobId : JobId} {k j : Nat} {e : Executor}
  {q : ExecutorPhase} {r : JobRecord} {f : JobRecord → JobRecord}

theorem RunBy.spawn (h : s.RunBy i j) : (s.spawn e).RunBy i j := by
  obtain ⟨f, hf, h⟩ := h
  exact ⟨f, by simp [List.getElem?_append_left (List.getElem?_eq_some_iff.mp hf).1, hf], h⟩

theorem RunBy.of_spawn (s : JobSystem) (he : e.phase ≠ .finished) :
    (s.spawn e).RunBy e.jobId s.executors.length :=
  ⟨e, by simp, rfl, he⟩

theorem RunBy.setExecutor (h : s.RunBy i j) (hne : j ≠ k) : (s.setExecutor k q).RunBy i j := by
  obtain ⟨f, hf, h⟩ := h
  exact ⟨f, by simp [JobSystem.setExecutor, hne.symm, hf], h⟩

theorem RunBy.setExecutor_self (he : s.executors[k]? = some e) (hq : q ≠ .finished) :
    (s.setExecutor k q).RunBy e.jobId k :=
  ⟨{ e with phase := q }, by simp [JobSystem.setExecutor, he], rfl, hq⟩

-- An executor that goes on still runs its job.
theorem RunBy.setExecutor_of_ne (he : s.executors[k]? = some e) (hq : q ≠ .finished)
    (h : s.RunBy i j) : (s.setExecutor k q).RunBy i j := by
  by_cases hk : j = k
  case neg => exact h.setExecutor hk
  case pos =>
    subst hk
    obtain ⟨f, hf, rfl, _⟩ := h
    obtain rfl : e = f := by simpa [he] using hf
    exact setExecutor_self he hq

theorem isSome_status_insert_self :
    ((s.setJobs n (Finmap.insert jobId r (s.jobs n))).status n jobId).isSome := by
  rw [status_insert, if_pos ⟨rfl, rfl⟩]
  rfl

theorem isSome_status_insert (h : (s.status m i).isSome) :
    ((s.setJobs n (Finmap.insert jobId r (s.jobs n))).status m i).isSome := by
  rw [status_insert]
  split
  · rfl
  · exact h

-- The reply to `submit_remote` changes the status of a queued job only.
theorem status_dispatched {assigned : NodeId} {now : DateTime} {status : JobStatus}
    (h : s.status m i = some status) (hq : status ≠ .queued) :
    (s.setJobs n ((s.jobs n).modify jobId (·.dispatched assigned now))).status m i = some status := by
  rw [status_modify]
  split
  case isFalse => exact h
  case isTrue he =>
    obtain ⟨rfl, rfl⟩ := he
    obtain ⟨job, hl, rfl⟩ := Option.map_eq_some_iff.mp h
    rw [hl, Option.map_some, JobRecord.dispatched_status, if_neg hq]

theorem isSome_status_modify (h : (s.status m i).isSome) :
    ((s.setJobs n (HashMap.modify (s.jobs n) jobId f)).status m i).isSome := by
  rw [status_modify]
  split
  case isTrue he => obtain ⟨rfl, rfl⟩ := he; simpa [status] using h
  case isFalse   => exact h

-- No step removes a record.
theorem Step.isSome_status {net : Network} {e : Event} (hs : Step net s e s')
    (h : (s.status m i).isSome) : (s'.status m i).isSome := by
  cases hs
  case enqueued hn _ _ _          => exact isSome_status_insert h
  case submitted                  => exact isSome_status_insert h
  case lateSubmitted              => exact isSome_status_insert (s := s.setLate _) h
  case deleted                    => exact isSome_status_insert h
  case foreignSubmitted           => exact isSome_status_insert h
  case replied                    => exact isSome_status_modify h
  case started                    => exact isSome_status_modify h
  case finished                   => exact isSome_status_modify h
  case reported                   => exact isSome_status_modify h
  case foreignReported            => exact isSome_status_modify h
  all_goals exact h

end

-- The job of every task is closed, pending or run by an executor.
structure Owned (s : JobSystem) : Prop where
  known    : ∀ t ∈ s.tasks, (s.status t.node t.jobId).isSome
  valid    : ∀ t ∈ s.tasks, t.request.isValid
  recorded : ∀ e ∈ s.executors, (s.status e.node e.jobId).isSome
  covered  : ∀ t ∈ s.tasks, s.Covered t

section

variable {net : Network} {s s' : JobSystem} {n : NodeId} {jobId : JobId} {k : Nat} {t u : Task}
  {e : Executor} {p : TaskPhase} {q : ExecutorPhase} {ev : Event}

theorem Covered.mono (h : s.Covered t) (hst : s'.status t.node t.jobId = s.status t.node t.jobId)
    (hr : ∀ j, s.RunBy t.jobId j → ∃ j, s'.RunBy t.jobId j) : s'.Covered t := by
  rcases h with h | h | ⟨j, h⟩
  · exact .inl (by rwa [Closed, hst])
  · exact .inr (.inl (by rwa [Pending, hst]))
  · exact .inr (.inr (hr j h))

theorem Covered.of_spawn (he : e.phase ≠ .finished) (ht : t.jobId = e.jobId) :
    (s.spawn e).Covered t :=
  .inr (.inr ⟨_, ht ▸ RunBy.of_spawn s he⟩)

theorem Covered.of_isTerminal {status : JobStatus} (h : s.status t.node t.jobId = some status)
    (ht : status.isTerminal) : s.Covered t :=
  .inl ⟨_, h, ht⟩

theorem Owned.init (clusters : NodeId → ClusterState) : Owned (init clusters) := by
  constructor <;> simp [JobSystem.init]

-- A task that goes on covers its job as before. One that gives up has to leave it to others.
theorem Owned.covered_setTask (h : s.Owned) (ht : s.tasks[k]? = some t)
    (hp : s.Pending t → p.isPending ∨ s.Closed t ∨ ∃ j, s.RunBy t.jobId j)
    (hu : u ∈ (s.setTask k p).tasks) : s.Covered u := by
  rcases mem_setTask ht hu with rfl | hu
  case inr => exact h.covered u hu
  case inl =>
    rcases h.covered t (List.mem_of_getElem? ht) with hc | hc | hc
    · exact .inl hc
    · rcases hp hc with hp | hp | hp
      · exact .inr (.inl ⟨hc.1, hp⟩)
      · exact .inl hp
      · exact .inr (.inr hp)
    · exact .inr (.inr hc)

theorem Owned.covered_setTask_afterFailure {caller : Caller} (h : s.Owned)
    (ht : s.tasks[k]? = some t) (hg : caller.isLast → s.Closed t ∨ ∃ j, s.RunBy t.jobId j)
    (hu : u ∈ (s.setTask k (.afterFailure caller)).tasks) : s.Covered u := by
  refine h.covered_setTask ht (fun _ => ?_) hu
  by_cases hl : caller.isLast = true
  case pos => exact .inr (hg hl)
  case neg => exact .inl (TaskPhase.isPending_afterFailure hl)

-- A request that a node accepts makes the job run there, and touches no other job.
theorem Owned.covered_submit (h : s.Owned) (m : NodeId) (jobId : JobId) (r : JobRecord)
    (callback : Option JobCompletionCallback) (hu : u ∈ s.tasks ∨ u.jobId = jobId) :
    ((s.setJobs m (Finmap.insert jobId r (s.jobs m))).spawn (.spawnJob m jobId callback)).Covered u := by
  by_cases hi : u.jobId = jobId
  case pos => exact .of_spawn (by simp [Executor.spawnJob]) hi
  case neg =>
    refine (h.covered u (hu.resolve_right hi)).mono ?_ fun j hj => ⟨j, RunBy.spawn hj⟩
    rw [status_spawn, status_insert, if_neg fun h => hi h.2]

-- An executor that goes on covers its job whatever it writes into the record.
theorem Owned.covered_setExecutor (h : s.Owned) (he : s.executors[k]? = some e)
    (hq : q ≠ .finished) (f : JobRecord → JobRecord) (hu : u ∈ s.tasks) :
    ((s.setJobs n (HashMap.modify (s.jobs n) e.jobId f)).setExecutor k q).Covered u := by
  by_cases hi : u.jobId = e.jobId
  case pos =>
    refine .inr (.inr ⟨k, ?_⟩)
    rw [hi]
    exact RunBy.setExecutor_self (s := s.setJobs ..) he hq
  case neg =>
    refine (h.covered u hu).mono ?_ fun j hj =>
      ⟨j, RunBy.setExecutor_of_ne (s := s.setJobs ..) he hq hj⟩
    rw [status_setExecutor, status_modify, if_neg fun h => hi h.2]

-- An executor that finishes without a report leaves its job to others.
theorem Owned.covered_unreported (h : s.Owned) (he : s.executors[k]? = some e)
    (hx : s'.executors = (s.setExecutor k .finished).executors)
    (hst : s'.status u.node u.jobId = s.status u.node u.jobId)
    (hg : s.EndsUnreported k e u) (hu : u ∈ s.tasks) : s'.Covered u := by
  have other (j : Nat) (hj : j ≠ k) (hr : s.RunBy u.jobId j) : s'.RunBy u.jobId j := by
    rw [RunBy, hx]
    exact hr.setExecutor hj
  by_cases hi : u.jobId = e.jobId
  case pos =>
    rcases hg hi with hc | hc | ⟨j, hj, hr⟩
    · exact .inl (by rwa [Closed, hst])
    · exact .inr (.inl (by rwa [Pending, hst]))
    · exact .inr (.inr ⟨j, other j hj hr⟩)
  case neg =>
    refine (h.covered u hu).mono hst fun j hr => ⟨j, other j (fun hj => ?_) hr⟩
    obtain ⟨e', he', hi', _⟩ := hr
    obtain rfl : e = e' := by simpa [hj, he] using he'
    exact hi hi'.symm

-- An executor that finishes with a terminal status at the origin has closed its job.
theorem Owned.covered_finished (h : s.Owned) (he : s.executors[k]? = some e)
    (f : JobRecord → JobRecord) (hf : ∀ job, (f job).status.isTerminal)
    (hg : n ≠ u.node → s.EndsUnreported k e u) (hu : u ∈ s.tasks) :
    ((s.setJobs n (HashMap.modify (s.jobs n) e.jobId f)).setExecutor k .finished).Covered u := by
  by_cases hn : n = u.node ∧ u.jobId = e.jobId
  case pos =>
    obtain ⟨rfl, hi⟩ := hn
    have ⟨job, hl⟩ : ∃ job, (s.jobs u.node).lookup e.jobId = some job := by
      have := h.known u hu
      rw [hi, status, Option.isSome_map] at this
      exact Option.isSome_iff_exists.mp this
    have hs : ((s.setJobs u.node (HashMap.modify (s.jobs u.node) e.jobId f)).setExecutor k
        .finished).status u.node u.jobId = some (f job).status := by
      rw [status_setExecutor, status_modify, if_pos ⟨rfl, hi⟩, hl]
      rfl
    exact .of_isTerminal hs (hf job)
  case neg =>
    refine h.covered_unreported he rfl ?_ (fun hi => hg (fun hn' => hn ⟨hn', hi⟩) hi) hu
    rw [status_setExecutor, status_modify, if_neg fun h => hn ⟨h.1.symm, h.2⟩]

-- A task in a step is one that was there before, or a new one whose job is queued.
theorem Step.task_cases (hs : Step net s ev s') (hu : u ∈ s'.tasks) :
    (∃ t ∈ s.tasks, u.node = t.node ∧ u.jobId = t.jobId ∧ u.request = t.request) ∨
    s'.status u.node u.jobId = some .queued ∧ u.phase.isPending ∧ u.request.isValid := by
  have moved {k t p} (ht : s.tasks[k]? = some t) (hu : u ∈ (s.setTask k p).tasks) :
      ∃ t ∈ s.tasks, u.node = t.node ∧ u.jobId = t.jobId ∧ u.request = t.request := by
    rcases mem_setTask ht hu with rfl | hu
    · exact ⟨t, List.mem_of_getElem? ht, rfl, rfl, rfl⟩
    · exact ⟨u, hu, rfl, rfl, rfl⟩
  cases hs
  case enqueued t hf hv hn hi hr hp =>
    subst hn hi hr
    rcases List.mem_append.mp hu with hu | hu
    · exact .inl ⟨u, hu, rfl, rfl, rfl⟩
    · obtain rfl := List.mem_singleton.mp hu
      refine .inr ⟨?_, ?_, hv⟩
      · exact status_insert.trans (if_pos ⟨rfl, rfl⟩)
      · rcases hp with hp | ⟨_, hp⟩ <;> rw [hp] <;> rfl
  case wakeDone ht _ _           => exact .inl (moved ht hu)
  case woken ht _ _ _            => exact .inl (moved ht hu)
  case unpicked ht _ _           => exact .inl (moved ht hu)
  case picked ht _               => exact .inl (moved ht hu)
  case dispatchedLocal ht _      => exact .inl (moved ht hu)
  case dispatchedRemote ht _     => exact .inl (moved ht hu)
  case dispatchFailed ht _ _ _   => exact .inl (moved ht hu)
  case submitRefused ht _ _      => exact .inl (moved ht hu)
  case submitted ht _ _ _        => exact .inl (moved ht hu)
  case submitLost ht _           => exact .inl (moved ht hu)
  case replied ht _              => exact .inl (moved ht hu)
  case replyLost ht _            => exact .inl (moved ht hu)
  all_goals exact .inl ⟨u, hu, rfl, rfl, rfl⟩

-- An executor in a step is one that was there before, one whose node has just got its record, or
-- the one of a local dispatch.
theorem Step.executor_cases (hs : Step net s ev s') (he : e ∈ s'.executors) :
    (∃ f ∈ s.executors, e.node = f.node ∧ e.jobId = f.jobId) ∨
    (s'.status e.node e.jobId).isSome ∨
    ∃ t ∈ s.tasks, e.node = t.node ∧ e.jobId = t.jobId := by
  have moved {k f q} (hf : s.executors[k]? = some f) (he : e ∈ (s.setExecutor k q).executors) :
      ∃ f ∈ s.executors, e.node = f.node ∧ e.jobId = f.jobId := by
    rcases mem_setExecutor hf he with rfl | he
    · exact ⟨f, List.mem_of_getElem? hf, rfl, rfl⟩
    · exact ⟨e, he, rfl, rfl⟩
  cases hs
  case dispatchedLocal ht _ =>
    rcases List.mem_append.mp he with he | he
    · exact .inl ⟨e, he, rfl, rfl⟩
    · obtain rfl := List.mem_singleton.mp he
      exact .inr (.inr ⟨_, List.mem_of_getElem? ht, rfl, rfl⟩)
  case submitted =>
    rcases List.mem_append.mp he with he | he
    · exact .inl ⟨e, he, rfl, rfl⟩
    · obtain rfl := List.mem_singleton.mp he
      exact .inr (.inl isSome_status_insert_self)
  case lateSubmitted =>
    rcases List.mem_append.mp he with he | he
    · exact .inl ⟨e, he, rfl, rfl⟩
    · obtain rfl := List.mem_singleton.mp he
      exact .inr (.inl (isSome_status_insert_self (s := s.setLate _)))
  case foreignSubmitted =>
    rcases List.mem_append.mp he with he | he
    · exact .inl ⟨e, he, rfl, rfl⟩
    · obtain rfl := List.mem_singleton.mp he
      exact .inr (.inl isSome_status_insert_self)
  case startGone hf _ _          => exact .inl (moved hf he)
  case started hf _              => exact .inl (moved hf he)
  case spawned hf _              => exact .inl (moved hf he)
  case exited hf _               => exact .inl (moved hf he)
  case finished hf _             => exact .inl (moved hf he)
  case reported hf _ _ _         => exact .inl (moved hf he)
  case reportLost hf _           => exact .inl (moved hf he)
  all_goals exact .inl ⟨e, he, rfl, rfl⟩

theorem Owned.covered_step (h : s.Owned) (hg : Reliable net s ev) (hs : Step net s ev s')
    (hu : u ∈ s'.tasks) : s'.Covered u := by
  cases hs
  case enqueued t hf hv hn hi hr hp =>
    subst hn hi hr
    rcases List.mem_append.mp hu with hu | hu
    · refine (h.covered u hu).mono ?_ fun j hj => ⟨j, hj⟩
      exact status_insert.trans (if_neg fun he => hf.tasks u hu he.2)
    · obtain rfl := List.mem_singleton.mp hu
      refine .inr (.inl ⟨status_insert.trans (if_pos ⟨rfl, rfl⟩), ?_⟩)
      rcases hp with hp | ⟨_, hp⟩ <;> rw [hp] <;> rfl
  case wakeDone ht hp hj =>
    refine h.covered_setTask ht (fun ⟨hq, _⟩ => ?_) hu
    obtain ⟨job, hl, hq⟩ := Option.map_eq_some_iff.mp hq
    exact absurd hq (hj job hl)
  case woken ht hp hl hq         => exact h.covered_setTask ht (fun _ => .inl rfl) hu
  case picked ht hp              => exact h.covered_setTask ht (fun _ => .inl rfl) hu
  case dispatchedRemote ht hp    => exact h.covered_setTask ht (fun _ => .inl rfl) hu
  case unpicked r ht hp hn =>
    refine h.covered_setTask ht (fun _ => ?_) hu
    by_cases hr : r = 0
    case pos => exact .inr (hg _ ht (hr ▸ hp) hn)
    case neg => exact .inl (TaskPhase.isPending_resume hr)
  case dispatchFailed ht hp ha hl =>
    exact h.covered_setTask_afterFailure ht (fun hc => hg _ ht _ _ hp hc ha hl) hu
  case submitRefused ht hp hv    => exact absurd (h.valid _ (List.mem_of_getElem? ht)) hv
  case submitLost ht hp =>
    exact h.covered_setTask_afterFailure ht (fun hc => hg _ ht _ _ _ hp hc) hu
  case replyLost ht hp =>
    refine h.covered_setTask ht (fun ⟨_, hc⟩ => ?_) hu
    simp [hp, TaskPhase.isPending] at hc
  case dispatchedLocal _ t _ ht hp =>
    rcases mem_setTask ht hu with rfl | hu
    · exact .of_spawn (by simp [Executor.spawnJob]) rfl
    · exact (h.covered u hu).mono rfl fun j hj => ⟨j, RunBy.spawn (s := s.setTask ..) hj⟩
  case submitted _ t _ _ _ _ m _ _ ht hp hr hv =>
    refine h.covered_submit m t.jobId _ _ ?_
    rcases mem_setTask ht hu with rfl | hu
    · exact .inr rfl
    · exact .inl hu
  case lateSubmitted             => exact h.covered_submit (s := s) _ _ _ _ (.inl hu)
  case foreignSubmitted          => exact h.covered_submit _ _ _ _ (.inl hu)
  case replied k t now c a ht hp =>
    have ht' := List.mem_of_getElem? ht
    -- The task has had its call accepted, and is not pending any more.
    have hc : s.Closed t ∨ ∃ j, s.RunBy t.jobId j := by
      rcases h.covered t ht' with hc | ⟨_, hc⟩ | hc
      · exact .inl hc
      · simp [hp, TaskPhase.isPending] at hc
      · exact .inr hc
    have kept {v : Task} (hv : s.Closed v ∨ ∃ j, s.RunBy v.jobId j) :
        Covered ((s.setJobs t.node ((s.jobs t.node).modify t.jobId (·.dispatched a now))).setTask k
          .finished) v := by
      rcases hv with ⟨status, hst, hv⟩ | hv
      · refine .of_isTerminal (status_dispatched hst ?_) hv
        rintro rfl
        cases hv
      · exact .inr (.inr hv)
    rcases mem_setTask ht hu with rfl | hu
    case inl => exact kept hc
    case inr =>
      rcases h.covered u hu with hu | hu | hu
      · exact kept (.inl hu)
      · by_cases he : u.node = t.node ∧ u.jobId = t.jobId
        case neg =>
          exact .inr (.inl ⟨status_modify.trans ((if_neg he).trans hu.1), hu.2⟩)
        case pos => exact kept (by rwa [Closed, he.1, he.2])
      · exact kept (.inr hu)
  case startGone he hp hl =>
    have := h.recorded _ (List.mem_of_getElem? he)
    simp [status, hl] at this
  case started he hp             => exact h.covered_setExecutor he (by simp) _ hu
  case spawned he hp =>
    exact (h.covered u hu).mono rfl fun j hj => ⟨j, hj.setExecutor_of_ne he (by simp)⟩
  case exited he hp =>
    exact (h.covered u hu).mono rfl fun j hj => ⟨j, hj.setExecutor_of_ne he (by simp)⟩
  case finished e now o he hp =>
    cases hc : e.callback
    case some => exact h.covered_setExecutor he (by simp) _ hu
    case none =>
      exact h.covered_finished he _ (JobRecord.finish_isTerminal o now)
        (fun hn => hg _ he hc u hu hn) hu
  case reported e now o callback n he hp hc hr =>
    have hs : e.submission net =
        some (n, Grpc.reportJobStatusRequest e.jobId o.verdict callback.sourceNodeId) := by
      simp [Executor.submission, hp, hc, hr]
    refine h.covered_finished he _ (fun job => ?_) (fun hn => hg _ he _ hs u hu hn) hu
    rw [JobRecord.report_status, Grpc.reportJobStatusRequest_verdict_status]
    exact o.verdict_isTerminal
  case reportLost he hp =>
    exact h.covered_unreported he rfl rfl (hg _ he u hu) hu
  case deleted n jobId now job hl ht =>
    by_cases he : u.node = n ∧ u.jobId = jobId
    case pos => exact .of_isTerminal (status_insert.trans (if_pos he)) rfl
    case neg => exact (h.covered u hu).mono (status_insert.trans (if_neg he)) fun j hj => ⟨j, hj⟩
  case foreignReported n payload now uuid hp =>
    by_cases he : u.node = n ∧ u.jobId = ⟨uuid⟩
    case pos =>
      have hk := h.known u hu
      rw [he.1, he.2, status, Option.isSome_map] at hk
      obtain ⟨job, hl⟩ := Option.isSome_iff_exists.mp hk
      refine .of_isTerminal (status_modify.trans ((if_pos he).trans (by rw [hl]; rfl))) ?_
      exact hg u hu he.1 (by rw [hp, he.2])
    case neg => exact (h.covered u hu).mono (status_modify.trans (if_neg he)) fun j hj => ⟨j, hj⟩
  all_goals exact h.covered u hu

theorem Owned.step (h : s.Owned) (hg : Reliable net s ev) (hs : Step net s ev s') : s'.Owned where
  known u hu := by
    rcases hs.task_cases hu with ⟨t, ht, hn, hi, _⟩ | ⟨hq, _⟩
    · exact hn ▸ hi ▸ hs.isSome_status (h.known t ht)
    · simp [hq]
  valid u hu := by
    rcases hs.task_cases hu with ⟨t, ht, _, _, hr⟩ | ⟨_, _, hv⟩
    · exact hr ▸ h.valid t ht
    · exact hv
  recorded e he := by
    rcases hs.executor_cases he with ⟨f, hf, hn, hi⟩ | hr | ⟨t, ht, hn, hi⟩
    · exact hn ▸ hi ▸ hs.isSome_status (h.recorded f hf)
    · exact hr
    · exact hn ▸ hi ▸ hs.isSome_status (h.known t ht)
  covered u hu := h.covered_step hg hs hu

theorem Covered.responsible {job : JobRecord} (h : s.Covered t)
    (hl : (s.jobs t.node).lookup t.jobId = some job) (ht : ¬ job.status.isTerminal) :
    s.Responsible t := by
  rcases h with ⟨_, hs, hc⟩ | ⟨_, hp⟩ | hr
  · simp only [status, hl, Option.map_some, Option.some.injEq] at hs
    exact absurd (hs ▸ hc) ht
  · exact .inl fun hf => by simp [hf, TaskPhase.isPending] at hp
  · exact .inr hr

variable {clusters : NodeId → ClusterState} {es : List Event}

-- In the runs in which no failure is the last word on a job, no job that has not ended is without
-- anything that is responsible for it.
theorem no_orphan (g : Guarded (step net) (Reliable net) (init clusters) es)
    (h : Visits (step net) (init clusters) es s) :
    ∀ t ∈ s.tasks, ∀ job, (s.jobs t.node).lookup t.jobId = some job → ¬ job.status.isTerminal →
      s.Responsible t := by
  have ho := g.invariant h (Owned.init clusters) fun _ _ _ h hg hs => h.step hg (Step.of_step hs)
  exact fun t ht job hl hj => (ho.covered t ht).responsible hl hj

end

-- The call of the first round fails, the reply to that of the second one is lost, and so is the report
-- of what has come of it. The third round has the job run once more.
theorem no_orphan_retried :
    let round : List Event := [.wake 0, .pick 0, .dispatch 0]
    let es : List Event := [.enqueue ⟨1⟩ .plain ⟨7⟩ 0, .gossip ⟨1⟩ (.plain ⟨2⟩)] ++
      round ++ [.loseSubmit 0] ++ round ++ [.submit 0 1, .loseReply 0] ++
      [.start 0 2, .spawn 0, .exit 0 (.exited (some 3)), .finish 0 3, .loseReport 0] ++
      round ++ [.submit 0 4, .reply 0 5, .start 1 6]
    ∃ s, Visits (step .plain) (init fun _ => .default) es s ∧
      s.status ⟨1⟩ ⟨7⟩ = some .running ∧ s.tasks.map (·.phase) = [.finished] ∧
      ∀ t ∈ s.tasks, ∀ job, (s.jobs t.node).lookup t.jobId = some job →
        ¬ job.status.isTerminal → s.Responsible t := by
  intro round es
  have hs : ∃ s ∈ run (step .plain) (init fun _ => .default) es,
      s.status ⟨1⟩ ⟨7⟩ = some .running ∧ s.tasks.map (·.phase) = [.finished] := by
    decide
  obtain ⟨s, hr, hs, hp⟩ := hs
  have g : Guarded (step .plain) (Reliable .plain) (init fun _ => .default) es := by decide
  exact ⟨s, .last hr, hs, hp, no_orphan g (.last hr)⟩

-- The only call for a job is lost, and `enqueue_job` does not try again.
theorem orphan_reachable :
    ¬ ∀ (net : Network) (clusters : NodeId → ClusterState) (es : List Event) (s : JobSystem),
      Visits (step net) (init clusters) es s →
      ∀ t ∈ s.tasks, ∀ job, (s.jobs t.node).lookup t.jobId = some job →
        ¬ job.status.isTerminal → s.Responsible t := by
  intro h
  let clusters (_ : NodeId) : ClusterState := .plain ⟨2⟩
  let es : List Event := [.enqueue ⟨1⟩ .plain ⟨7⟩ 0, .dispatch 0, .loseSubmit 0]
  have hr : (run (step .plain) (init clusters) es).map (fun s =>
      (s.tasks.map fun t => (t.node, t.jobId, t.phase), s.executors, s.status ⟨1⟩ ⟨7⟩)) =
      some ([(⟨1⟩, ⟨7⟩, .finished)], [], some .queued) := by
    decide
  obtain ⟨s, hr, hs⟩ := Option.map_eq_some_iff.mp hr
  simp only [Prod.mk.injEq] at hs
  obtain ⟨ht, he, hq⟩ := hs
  obtain ⟨t, ht, hp⟩ := List.mem_map.mp (ht ▸ List.mem_singleton_self _)
  simp only [Prod.mk.injEq] at hp
  obtain ⟨hn, hi, hp⟩ := hp
  obtain ⟨job, hl, hq⟩ := Option.map_eq_some_iff.mp hq
  rcases h .plain clusters es s (.last hr) t ht job (by rw [hn, hi, hl]) (by rw [hq]; decide) with
    hf | ⟨j, e, hj, _⟩
  · exact hf hp
  · simp [he] at hj

end JobSystem

end All4One
