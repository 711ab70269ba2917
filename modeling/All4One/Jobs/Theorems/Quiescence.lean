import All4One.Foundation.Cycle
import All4One.Jobs.Theorems.Step

open Foundation Transition

namespace All4One

namespace JobSystem

-- The steps of the agents' own tasks, and of the calls between them, also of those that are lost.
def Event.isInternal : Event → Bool
  | enqueue .. | delete .. | gossip .. | foreignSubmit .. | foreignReport .. => false
  | _                                                                       => true

-- How many steps a request may lead to: those of sixty rounds of the retry task, each with an executor
-- of its own, or those of one executor.
def Event.work : Event → Nat
  | enqueue ..       => 600
  | foreignSubmit .. => 5
  | _                => 0

variable (net : Network) (s : JobSystem)

-- The steps that the agents make without a fault of the network: only calls to endpoints that lead to
-- no agent fail.
def IsOwn : Event → Prop
  | .loseSubmit k                => ∀ t ∈ s.tasks[k]?, t.submission net = none
  | .loseReport k                => ∀ e ∈ s.executors[k]?, e.submission net = none
  | .loseReply _ | .submitLate .. => False
  | ev                           => ev.isInternal

def IsStill : Prop :=
  ∀ ev, s.IsOwn net ev → s.step net ev = none

-- No task and no executor has anything left to do.
structure IsAtRest : Prop where
  tasks     : ∀ t ∈ s.tasks, t.phase = .finished
  executors : ∀ e ∈ s.executors, e.phase = .finished

-- All that is left to do are reports to nodes whose job tables are locked.
structure IsBlocked : Prop where
  tasks     : ∀ t ∈ s.tasks, t.phase = .finished
  executors : ∀ e ∈ s.executors, e.phase = .finished ∨ ∃ c ∈ e.submission net, s.IsLocked c.1

-- An executor on `m` keeps its node's job table locked until its report to `n` has been processed.
def WaitsFor (m n : NodeId) : Prop :=
  ∃ e ∈ s.executors, e.node = m ∧ ∃ c ∈ e.submission net, c.1 = n

end JobSystem

-- The steps that may still follow, each of an attempt to dispatch the job and of its executor counted.
def ExecutorPhase.left : ExecutorPhase → Nat
  | spawned     => 5
  | started     => 4
  | running     => 3
  | ended _     => 2
  | reporting _ => 1
  | finished    => 0

def Caller.left : Caller → Nat
  | enqueue      => 0
  | retry rounds => 10 * rounds

def TaskPhase.left : TaskPhase → Nat
  | sleeping rounds       => 10 * rounds
  | checked rounds        => 10 * rounds + 9
  | dispatching caller _  => caller.left + 8
  | submitting caller _ _ => caller.left + 7
  | accepted caller _     => caller.left + 1
  | finished              => 0

namespace TaskPhase

variable {rounds : Nat} {caller : Caller} {assigned : NodeId} {endpoint : String}

@[simp] theorem left_sleeping : (sleeping rounds).left = 10 * rounds := rfl
@[simp] theorem left_checked : (checked rounds).left = 10 * rounds + 9 := rfl
@[simp] theorem left_dispatching : (dispatching caller assigned).left = caller.left + 8 := rfl
@[simp] theorem left_submitting : (submitting caller assigned endpoint).left = caller.left + 7 := rfl
@[simp] theorem left_accepted : (accepted caller assigned).left = caller.left + 1 := rfl
@[simp] theorem left_finished : finished.left = 0 := rfl

@[simp]
theorem left_resume : (resume rounds).left = 10 * rounds := by
  rw [resume]
  split
  case isTrue h => simp [h]
  case isFalse  => rfl

@[simp]
theorem left_afterFailure : (afterFailure caller).left = caller.left := by
  cases caller
  case enqueue => rfl
  case retry   => exact left_resume

end TaskPhase

namespace JobSystem

variable {net : Network} {clusters : NodeId → ClusterState} {s s' : JobSystem} {ev : Event}
  {es : List Event} {k : Nat} {t : Task} {e : Executor}

def left (s : JobSystem) : Nat :=
  (s.tasks.map (·.phase.left)).sum + (s.executors.map (·.phase.left)).sum + 6 * s.late.length

section Left

variable {n : NodeId} {jobs : Jobs} {p : TaskPhase} {q : ExecutorPhase}
  {late : List (NodeId × Grpc.SubmitJobRequest)}

@[simp] theorem left_setJobs : (s.setJobs n jobs).left = s.left := rfl

theorem left_setTask (ht : s.tasks[k]? = some t) :
    (s.setTask k p).left + t.phase.left = s.left + p.left := by
  have := Lists.sum_map_modify (f := ({ · with phase := p })) (w := (·.phase.left)) ht
  simp only at this
  simp only [left, setTask]
  omega

theorem left_setExecutor (he : s.executors[k]? = some e) :
    (s.setExecutor k q).left + e.phase.left = s.left + q.left := by
  have := Lists.sum_map_modify (f := ({ · with phase := q })) (w := (·.phase.left)) he
  simp only at this
  simp only [left, setExecutor]
  omega

theorem left_spawn : (s.spawn e).left = s.left + e.phase.left := by
  simp only [left, spawn, List.map_append, List.sum_append, List.map_cons, List.map_nil,
    List.sum_cons, List.sum_nil]
  omega

theorem left_setLate : (s.setLate late).left + 6 * s.late.length = s.left + 6 * late.length := by
  simp only [left, setLate]
  omega

theorem left_addTask (ht : s'.tasks = s.tasks ++ [t]) (he : s'.executors = s.executors)
    (hl : s'.late = s.late) (hp : t.phase.left ≤ k) : s'.left ≤ s.left + k := by
  simp only [left, ht, he, hl, List.map_append, List.sum_append, List.map_cons, List.map_nil,
    List.sum_cons, List.sum_nil]
  omega

theorem left_task (ht : s.tasks[k]? = some t) (hp : p.left < t.phase.left) :
    (s.setTask k p).left + 1 ≤ s.left := by
  have := left_setTask (p := p) ht
  omega

theorem left_executor (he : s.executors[k]? = some e) (hq : q.left < e.phase.left) :
    (s.setExecutor k q).left + 1 ≤ s.left := by
  have := left_setExecutor (q := q) he
  omega

-- A task hands its job over to an executor.
theorem left_spawned (ht : s.tasks[k]? = some t) (hp : p.left + e.phase.left < t.phase.left) :
    ((s.setTask k p).spawn e).left + 1 ≤ s.left := by
  have := left_setTask (p := p) ht
  rw [left_spawn]
  omega

theorem left_eraseIdx {c : NodeId × Grpc.SubmitJobRequest} (hc : s.late[k]? = some c) :
    (s.setLate (s.late.eraseIdx k)).left + 6 = s.left := by
  have ⟨hk, _⟩ := List.getElem?_eq_some_iff.mp hc
  have := @left_setLate s (s.late.eraseIdx k)
  rw [List.length_eraseIdx_of_lt hk] at this
  omega

end Left

-- Each step of an agent's own takes from what is left, and only requests add to it.
theorem Step.left (h : Step net s ev s') : s'.left + (if ev.isInternal then 1 else 0) ≤ s.left + ev.work := by
  have length (t : Task) : (t.submission net).toList.length ≤ 1 := by
    cases t.submission net <;> simp
  cases h
  case enqueueRefused          => exact Nat.le_add_right ..
  case enqueued t hf hv hn hi hr hp =>
    refine left_addTask (t := t) rfl rfl rfl ?_
    rcases hp with hp | ⟨_, hp⟩ <;> simp [hp, Event.work, Caller.left]
  case wakeDone ht hp _        => exact left_task ht (by simp [hp])
  case woken ht hp _ _         =>
    exact left_task ht (by simp only [hp, TaskPhase.left_sleeping, TaskPhase.left_checked]; omega)
  case unpicked ht hp _        => exact left_task ht (by simp [hp])
  case picked ht hp            => exact left_task ht (by simp [hp, Caller.left])
  case dispatchedLocal ht hp   =>
    exact left_spawned ht (by simp [hp, Executor.spawnJob, ExecutorPhase.left])
  case dispatchedRemote ht hp  => exact left_task ht (by simp [hp])
  case dispatchFailed ht hp _ _ =>
    exact left_task ht (by simp [hp])
  case submitRefused ht hp _   => exact left_task ht (by simp [hp])
  case submitted ht hp _ _     =>
    exact left_spawned (s := s.setJobs _ _) ht
      (by simp [hp, Executor.spawnJob, ExecutorPhase.left])
  case submitLost k t c a endpoint ht hp =>
    have ht := left_setTask (p := .afterFailure c) ht
    have hl := @left_setLate (s.setTask k (.afterFailure c)) (s.late ++ (t.submission net).toList)
    have := length t
    simp only [hp, TaskPhase.left_submitting, TaskPhase.left_afterFailure, setTask_late, List.length_append,
      Event.isInternal, Event.work, ↓reduceIte] at *
    omega
  case lateRefused hi hj       =>
    have := left_eraseIdx hi
    simp only [Event.isInternal, Event.work, ↓reduceIte]
    omega
  case lateSubmitted hi hj     =>
    have := left_eraseIdx hi
    simp only [left_spawn, left_setJobs, Executor.spawnJob, ExecutorPhase.left, Event.isInternal,
      Event.work, ↓reduceIte]
    omega
  case replied ht hp           => exact left_task (s := s.setJobs _ _) ht (by simp [hp])
  case replyLost ht hp         => exact left_task ht (by simp [hp])
  case startGone he hp _       => exact left_executor he (by simp [hp, ExecutorPhase.left])
  case started he hp           => exact left_executor (s := s.setJobs _ _) he (by simp [hp, ExecutorPhase.left])
  case spawned he hp           => exact left_executor he (by simp [hp, ExecutorPhase.left])
  case exited he hp            =>
    exact left_executor he (by rcases hp with hp | hp <;> simp [hp, ExecutorPhase.left])
  case finished he hp          =>
    exact left_executor (s := s.setJobs _ _) he (by split <;> simp [hp, ExecutorPhase.left])
  case reported he hp _ _      => exact left_executor (s := s.setJobs _ _) he (by simp [hp, ExecutorPhase.left])
  case reportLost he hp        => exact left_executor he (by simp [hp, ExecutorPhase.left])
  case deleteRefused           => exact Nat.le_add_right ..
  case deleted                 => exact Nat.le_refl _
  case gossiped                => exact Nat.le_refl _
  case foreignRefused          => exact Nat.le_add_right ..
  case foreignSubmitted hj     =>
    simp [left_spawn, Executor.spawnJob, ExecutorPhase.left, Event.isInternal, Event.work]
  case foreignUnparsed         => exact Nat.le_refl _
  case foreignReported         => exact Nat.le_refl _

theorem IsOwn.isInternal (h : s.IsOwn net ev) : ev.isInternal := by
  cases ev
  case enqueue | delete | gossip | foreignSubmit | foreignReport => exact h
  all_goals rfl

theorem Event.work_of_isInternal (h : ev.isInternal) : ev.work = 0 := by
  cases ev
  case enqueue       => cases h
  case foreignSubmit => cases h
  all_goals rfl

theorem left_lt_of_isOwn (h : s.IsOwn net ev) (hs : step net s ev = some s') : s'.left < s.left := by
  have := (Step.of_step hs).left
  simp only [h.isInternal, Event.work_of_isInternal h.isInternal, ↓reduceIte] at this
  omega

-- A retry task sleeps only if it has a round before it.
def IsWakeable (s : JobSystem) : Prop :=
  ∀ t ∈ s.tasks, t.phase ≠ .sleeping 0

namespace IsWakeable

theorem init (clusters : NodeId → ClusterState) : (init clusters).IsWakeable :=
  fun _ ht => absurd ht List.not_mem_nil

theorem setTask (h : s.IsWakeable) (ht : s.tasks[k]? = some t) {p : TaskPhase} (hp : p ≠ .sleeping 0)
    (htasks : s'.tasks = (s.setTask k p).tasks) : s'.IsWakeable := by
  intro u hu
  rw [htasks] at hu
  rcases mem_setTask ht hu with rfl | hu
  · exact hp
  · exact h u hu

theorem resume_ne (rounds : Nat) : TaskPhase.resume rounds ≠ .sleeping 0 := by
  cases rounds <;> simp [TaskPhase.resume]

theorem afterFailure_ne (caller : Caller) : TaskPhase.afterFailure caller ≠ .sleeping 0 := by
  cases caller
  case enqueue => exact TaskPhase.noConfusion
  case retry   => exact resume_ne _

theorem step (h : s.IsWakeable) (hs : Step net s ev s') : s'.IsWakeable := by
  cases hs
  case enqueued t hf hv hn hi hr hp =>
    intro u hu
    rcases List.mem_append.mp hu with hu | hu
    · exact h u hu
    · rw [List.mem_singleton.mp hu]
      rcases hp with hp | ⟨_, hp⟩ <;> simp [hp]
  case wakeDone ht _ _         => exact h.setTask ht (by simp) rfl
  case woken ht _ _ _          => exact h.setTask ht (by simp) rfl
  case unpicked ht _ _         => exact h.setTask ht (resume_ne _) rfl
  case picked ht _             => exact h.setTask ht (by simp) rfl
  case dispatchedLocal ht _    => exact h.setTask ht (by simp) rfl
  case dispatchedRemote ht _   => exact h.setTask ht (by simp) rfl
  case dispatchFailed ht _ _ _ => exact h.setTask ht (afterFailure_ne _) rfl
  case submitRefused ht _ _    => exact h.setTask ht (afterFailure_ne _) rfl
  case submitted ht _ _ _      => exact h.setTask ht (by simp) rfl
  case submitLost ht _         => exact h.setTask ht (afterFailure_ne _) rfl
  case replied ht _            => exact h.setTask ht (by simp) rfl
  case replyLost ht _          => exact h.setTask ht (afterFailure_ne _) rfl
  -- The other events move no task.
  all_goals exact h

end IsWakeable

theorem exists_own_of_task (ht : s.tasks[k]? = some t) (hp : t.phase ≠ .finished)
    (hw : t.phase ≠ .sleeping 0) : ∃ ev s', s.IsOwn net ev ∧ s.act net ev = some s' := by
  have ok {f : Task → Option JobSystem} (hf : (f t).isSome) : ∃ s', s.tasks[k]?.bind f = some s' := by
    rw [ht]
    exact Option.isSome_iff_exists.mp hf
  cases hph : t.phase
  case sleeping rounds =>
    cases rounds
    case zero => exact absurd hph hw
    case succ =>
      obtain ⟨s', h⟩ := ok (f := s.wake k) (by simp only [wake, hph]; split <;> [rfl; split <;> rfl])
      exact ⟨.wake k, s', rfl, h⟩
  case checked =>
    obtain ⟨s', h⟩ := ok (f := s.pick net k) (by simp only [pick, hph]; split <;> rfl)
    exact ⟨.pick k, s', rfl, h⟩
  case dispatching =>
    obtain ⟨s', h⟩ := ok (f := s.dispatch k) (by simp only [dispatch, hph]; split <;> [rfl; split <;> rfl])
    exact ⟨.dispatch k, s', rfl, h⟩
  case submitting =>
    -- The call reaches an agent, or fails.
    cases hc : t.submission net
    case none =>
      obtain ⟨s', h⟩ := ok (f := s.loseSubmit net k) (by simp only [loseSubmit, hph, Option.isSome_some])
      exact ⟨.loseSubmit k, s', by simp [IsOwn, ht, hc], h⟩
    case some =>
      obtain ⟨s', h⟩ := ok (f := (s.submit net k · 0)) (by simp only [submit, hph, hc]; split <;> rfl)
      exact ⟨.submit k 0, s', rfl, h⟩
  case accepted =>
    obtain ⟨s', h⟩ := ok (f := (s.reply k · 0)) (by simp only [reply, hph, Option.isSome_some])
    exact ⟨.reply k 0, s', rfl, h⟩
  case finished => exact absurd hph hp

theorem exists_own_of_executor (he : s.executors[k]? = some e) (hp : e.phase ≠ .finished) :
    ∃ ev s', s.IsOwn net ev ∧ s.act net ev = some s' := by
  have ok {f : Executor → Option JobSystem} (hf : (f e).isSome) :
      ∃ s', s.executors[k]?.bind f = some s' := by
    rw [he]
    exact Option.isSome_iff_exists.mp hf
  cases hph : e.phase
  case spawned =>
    obtain ⟨s', h⟩ := ok (f := (s.start k · 0)) (by simp only [start, hph]; split <;> rfl)
    exact ⟨.start k 0, s', rfl, h⟩
  case started =>
    obtain ⟨s', h⟩ := ok (f := s.spawnProcess k) (by simp only [spawnProcess, hph, Option.isSome_some])
    exact ⟨.spawn k, s', rfl, h⟩
  case running =>
    obtain ⟨s', h⟩ := ok (f := (s.exit k · (.exited none))) (by simp only [exit, hph, Option.isSome_some])
    exact ⟨.exit k (.exited none), s', rfl, h⟩
  case ended =>
    obtain ⟨s', h⟩ := ok (f := (s.finish k · 0)) (by simp only [finish, hph, Option.isSome_some])
    exact ⟨.finish k 0, s', rfl, h⟩
  case reporting =>
    cases hc : e.submission net
    case none =>
      obtain ⟨s', h⟩ := ok (f := s.loseReport k) (by simp only [loseReport, hph, Option.isSome_some])
      exact ⟨.loseReport k, s', by simp [IsOwn, he, hc], h⟩
    case some =>
      obtain ⟨s', h⟩ := ok (f := (s.report net k · 0)) (by simp only [report, hc, Option.isSome_some])
      exact ⟨.report k 0, s', rfl, h⟩
  case finished => exact absurd hph hp

-- Where nobody keeps a job table locked, only a state at rest is still.
theorem IsStill.isAtRest_of_unlocked (h : s.IsStill net) (hw : s.IsWakeable) (hl : ∀ n, ¬ s.IsLocked n) :
    s.IsAtRest := by
  have idle : ¬ ∃ ev s', s.IsOwn net ev ∧ s.act net ev = some s' := by
    rintro ⟨ev, s', ho, ha⟩
    have hs := h ev ho
    rw [step_of_unlocked fun n _ => hl n, ha] at hs
    cases hs
  constructor
  case tasks =>
    intro t ht
    obtain ⟨k, hk⟩ := List.mem_iff_getElem?.mp ht
    exact by_contra fun hp => idle <| exists_own_of_task hk hp (hw t ht)
  case executors =>
    intro e he
    obtain ⟨k, hk⟩ := List.mem_iff_getElem?.mp he
    exact by_contra fun hp => idle <| exists_own_of_executor hk hp

-- A report that cannot be processed is on its way to a node whose job table is locked.
theorem IsStill.exists_locked (h : s.IsStill net) (he : e ∈ s.executors) (hp : e.phase.holdsGuard) :
    ∃ c ∈ e.submission net, s.IsLocked c.1 := by
  obtain ⟨k, hk⟩ := List.mem_iff_getElem?.mp he
  cases hph : e.phase <;> simp only [hph, ExecutorPhase.holdsGuard, Bool.false_eq_true] at hp
  case reporting =>
    cases hc : e.submission net
    case none =>
      have hs := h (.loseReport k) (by simp [IsOwn, hk, hc])
      rw [step_of_table_eq_none rfl] at hs
      simp [act, hk, loseReport, hph] at hs
    case some c =>
      refine ⟨c, rfl, by_contra fun hl => ?_⟩
      have hs := h (.report k 0) rfl
      rw [step_of_table_eq_some (n := c.1) (by simp [table, hk, hc]) hl] at hs
      simp [act, hk, report, hc] at hs

-- Nodes that wait for each other without a circle do not wait at all.
theorem IsStill.unlocked_of_acyclic (h : s.IsStill net) (ha : Acyclic (s.WaitsFor net)) (n : NodeId) :
    ¬ s.IsLocked n := by
  intro hn
  have hf : { m | ∃ n, s.WaitsFor net m n }.Finite := by
    refine (s.executors.map (·.node)).finite_toSet.subset ?_
    rintro m ⟨_, e, he, rfl, _⟩
    exact List.mem_map_of_mem he
  have ⟨m, ⟨e, he, hm, hp⟩, hsink⟩ := ha.exists_sink hf (S := { n | s.IsLocked n }) ⟨n, hn⟩
  have ⟨c, hc, hl⟩ := h.exists_locked he hp
  exact hsink c.1 hl ⟨e, he, hm, c, hc, rfl⟩

theorem IsAtRest.isBlocked (h : s.IsAtRest) : s.IsBlocked net where
  tasks         := h.tasks
  executors e he := .inl (h.executors e he)

theorem IsAtRest.acyclic (h : s.IsAtRest) : Acyclic (s.WaitsFor net) := by
  intro m hm
  obtain ⟨n, e, he, _, c, hc, _⟩ : ∃ n, s.WaitsFor net m n := by
    cases Relation.TransGen.head'_iff.mp hm
    case intro n hn => exact ⟨n, hn.1⟩
  simp [Executor.submission, h.executors e he] at hc

theorem IsBlocked.isStill (h : s.IsBlocked net) : s.IsStill net := by
  intro ev ho
  rw [Option.eq_none_iff_forall_ne_some]
  intro s' hs
  have task {k : Nat} {t : Task} {p : TaskPhase} (ht : s.tasks[k]? = some t) (hp : t.phase = p) :
      p = .finished :=
    hp.symm.trans (h.tasks t (List.mem_of_getElem? ht))
  have executor {k : Nat} {e : Executor} {q : ExecutorPhase} (he : s.executors[k]? = some e)
      (hp : e.phase = q) : q = .finished ∨ ∃ c ∈ e.submission net, s.IsLocked c.1 :=
    hp ▸ h.executors e (List.mem_of_getElem? he)
  cases Step.of_step hs
  case wakeDone ht hp _         => cases task ht hp
  case woken ht hp _ _          => cases task ht hp
  case unpicked ht hp _         => cases task ht hp
  case picked ht hp             => cases task ht hp
  case dispatchedLocal ht hp    => cases task ht hp
  case dispatchedRemote ht hp   => cases task ht hp
  case dispatchFailed ht hp _ _ => cases task ht hp
  case submitRefused ht hp _    => cases task ht hp
  case submitted ht hp _ _      => cases task ht hp
  case submitLost ht hp         => cases task ht hp
  case replied ht hp            => cases task ht hp
  case startGone he hp _        => simpa [Executor.submission, hp] using executor he hp
  case started he hp            => simpa [Executor.submission, hp] using executor he hp
  case spawned he hp            => simpa [Executor.submission, hp] using executor he hp
  case exited k e _ he hp       => rcases hp with hp | hp <;> simpa [Executor.submission, hp] using executor he hp
  case finished he hp           => simpa [Executor.submission, hp] using executor he hp
  case reported k e now o callback n he hp hc hr =>
    have hsub := Executor.submission_of_route hp hc hr
    obtain hf | ⟨c, hcall, hl⟩ := executor he hp
    · cases hf
    · obtain rfl := Option.some.inj (hsub.symm.trans hcall)
      exact unlocked_of_step hs n (by simp [table, he, hsub]) hl
  case reportLost k e o he hp   =>
    obtain hf | ⟨c, hcall, _⟩ := executor he hp
    · cases hf
    · cases hcall.symm.trans (ho e he)
  -- The other events are none of the agents' own.
  all_goals cases ho

section

variable (h : run (step net) (init clusters) es = some s)

include h in
theorem isWakeable_of_run : s.IsWakeable :=
  Reachable.invariant ⟨es, h⟩ (.init clusters) fun _ _ _ h hs => h.step (.of_step hs)

-- The agents make no more steps than those that the requests give them. From everywhere they get to
-- where they can make none on their own, and there nothing is left to do, unless nodes wait in a circle
-- for each other's job tables.
include h in
theorem comes_to_rest :
    es.countP Event.isInternal ≤ (es.map Event.work).sum ∧
    (∃ es' s', Guarded (step net) (IsOwn net) s es' ∧ run (step net) s es' = some s' ∧ s'.IsStill net) ∧
    (s.IsAtRest ↔ s.IsStill net ∧ Acyclic (s.WaitsFor net)) := by
  refine ⟨?_, exists_run_of_measure (μ := left) (fun _ _ _ => left_lt_of_isOwn) s, ?_, ?_⟩
  · have := countP_le_of_run h (μ := left) fun _ _ _ hs => (Step.of_step hs).left
    have : (init clusters).left = 0 := rfl
    omega
  · exact fun hr => ⟨hr.isBlocked.isStill, hr.acyclic⟩
  · exact fun ⟨hs, ha⟩ => hs.isAtRest_of_unlocked (isWakeable_of_run h) (hs.unlocked_of_acyclic ha)

end

-- Two nodes that know each other, each with a job of the other whose process has ended.
def bothWays : NodeId → ClusterState :=
  fun n => .plain (if n = ⟨1⟩ then ⟨2⟩ else ⟨1⟩)

def bothWaysJobs : List Event :=
  [.enqueue ⟨1⟩ .plain ⟨7⟩ 0, .dispatch 0, .submit 0 1, .reply 0 2,
   .enqueue ⟨2⟩ .plain ⟨8⟩ 0, .dispatch 1, .submit 1 1, .reply 1 2,
   .start 0 3, .spawn 0, .exit 0 (.exited (some 0)), .start 1 3, .spawn 1, .exit 1 (.exited (some 0))]

-- If one job is recorded after the other has been reported, the nodes come to rest. If not, each of them
-- waits for ever for the job table of the other.
theorem comes_to_rest_mutual :
    (∃ s, run (step .plain) (init bothWays)
        (bothWaysJobs ++ [.finish 0 4, .report 0 5, .finish 1 6, .report 1 7]) = some s ∧
      s.IsAtRest ∧ s.IsStill .plain ∧ Acyclic (s.WaitsFor .plain)) ∧
    ∃ s, run (step .plain) (init bothWays) (bothWaysJobs ++ [.finish 0 4, .finish 1 5]) = some s ∧
      ¬ s.IsAtRest ∧ s.IsStill .plain ∧ ¬ Acyclic (s.WaitsFor .plain) := by
  constructor
  case left =>
    have hs : ∃ s ∈ run (step .plain) (init bothWays)
          (bothWaysJobs ++ [.finish 0 4, .report 0 5, .finish 1 6, .report 1 7]),
        (∀ t ∈ s.tasks, t.phase = .finished) ∧ ∀ e ∈ s.executors, e.phase = .finished := by
      decide
    obtain ⟨s, hr, ht, he⟩ := hs
    exact ⟨s, hr, ⟨ht, he⟩, (comes_to_rest hr).2.2.mp ⟨ht, he⟩⟩
  case right =>
    have hs : ∃ s ∈ run (step .plain) (init bothWays) (bothWaysJobs ++ [.finish 0 4, .finish 1 5]),
        (∀ t ∈ s.tasks, t.phase = .finished) ∧
        (∀ e ∈ s.executors, e.phase = .finished ∨
          ∃ c ∈ e.submission .plain, s.IsLocked c.1) ∧
        ∃ e ∈ s.executors, e.phase ≠ .finished := by
      decide
    obtain ⟨s, hr, ht, hb, e, he, hp⟩ := hs
    have hn : ¬ s.IsAtRest := fun h => hp (h.executors e he)
    have hstill : s.IsStill .plain := (IsBlocked.mk ht hb).isStill
    exact ⟨s, hr, hn, hstill, fun ha => hn ((comes_to_rest hr).2.2.mpr ⟨hstill, ha⟩)⟩

end JobSystem

end All4One
