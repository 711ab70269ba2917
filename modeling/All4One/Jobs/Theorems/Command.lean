import All4One.Jobs.Theorems.Records

open Foundation Transition
open All4One.JobSystem (Step)

namespace All4One

namespace JobSystem

open CommandSystem (spawnArgs dispatchArgs submitJobArgs)

variable {net : Network} {s s' : JobSystem} {ev : Event} {n : NodeId} {jobs : Jobs}
  {request : Grpc.SubmitJobRequest} {now : DateTime} {jobId : JobId} {k : Nat}

theorem CommandSystem.submitJobArgs_of_job?_some (h : request.job? = some jobId) :
    submitJobArgs n jobs request now = some (Grpc.fromProto request).args := by
  simp only [submitJobArgs, Grpc.submitJob_of_job?_some h]

theorem CommandSystem.submitJobArgs_of_job?_none (h : request.job? = none) :
    submitJobArgs n jobs request now = none := by
  obtain ⟨_, hs⟩ := Grpc.submitJob_of_job?_none n jobs now h
  simp only [submitJobArgs, hs]

-- The event starts no executor, or it starts one with what somebody has asked for.
def Spawns (net : Network) (s : JobSystem) (ev : Event) (s' : JobSystem) : Prop :=
  spawnArgs net s ev = none ∧ s'.executorIds = s.executorIds ∨
  ∃ jobId args, spawnArgs net s ev = some args ∧ s'.executorIds = s.executorIds ++ [jobId] ∧
    Orders s ev jobId args

theorem Spawns.of_dispatch (h : act net s (.dispatch k) = some s') : Spawns net s (.dispatch k) s' := by
  obtain ⟨t, ht, h⟩ := Option.bind_eq_some_iff.mp h
  simp only [dispatch] at h
  split at h
  case h_2 => cases h
  case h_1 hp =>
    split at h
    case isTrue ha =>
      cases h
      refine .inr ⟨t.jobId, t.request.args, ?_, by simp [Executor.spawnJob], .task (request_mem ht)⟩
      simp [spawnArgs, ht, dispatchArgs, hp, ha]
    case isFalse ha =>
      have hargs : spawnArgs net s (.dispatch k) = none := by simp [spawnArgs, ht, dispatchArgs, hp, ha]
      split at h <;> cases h <;> exact .inl ⟨hargs, by simp⟩

theorem Spawns.of_submit (h : act net s (.submit k now) = some s') :
    Spawns net s (.submit k now) s' := by
  obtain ⟨t, ht, h⟩ := Option.bind_eq_some_iff.mp h
  simp only [submit] at h
  split at h
  case h_2 => cases h
  case h_1 m request hp hsub =>
    have hargs : spawnArgs net s (.submit k now) = submitJobArgs m (s.jobs m) request now := by
      simp [spawnArgs, ht, hsub]
    have hj := t.job?_submission hsub
    by_cases hv : t.request.isValid = true
    case neg =>
      rw [if_neg hv] at hj
      obtain ⟨_, hs⟩ := Grpc.submitJob_of_job?_none m (s.jobs m) now hj
      simp only [hs, Option.some.injEq] at h
      subst h
      exact .inl ⟨hargs.trans (CommandSystem.submitJobArgs_of_job?_none hj), by simp⟩
    case pos =>
      rw [if_pos hv] at hj
      simp only [Grpc.submitJob_of_job?_some hj, Option.some.injEq] at h
      subst h
      have hr : (Grpc.fromProto request).args = t.request.args := by
        simp only [Task.submission, hp, Option.map_eq_some_iff, Prod.mk.injEq] at hsub
        obtain ⟨_, _, _, rfl⟩ := hsub
        exact args_fromProto_submitRemoteRequest ..
      refine .inr ⟨t.jobId, _, hargs.trans (CommandSystem.submitJobArgs_of_job?_some hj), by simp [Executor.spawnJob], ?_⟩
      exact hr ▸ .task (request_mem ht)

theorem Spawns.of_submitLate (h : act net s (.submitLate k now) = some s') :
    Spawns net s (.submitLate k now) s' := by
  obtain ⟨⟨m, request⟩, hi, h⟩ := Option.map_eq_some_iff.mp h
  have hargs : spawnArgs net s (.submitLate k now) = submitJobArgs m (s.jobs m) request now := by
    simp [spawnArgs, hi]
  subst h
  simp only [submitLate, setLate_jobs]
  cases hj : request.job?
  case none =>
    obtain ⟨_, hs⟩ := Grpc.submitJob_of_job?_none m (s.jobs m) now hj
    simp only [hs]
    exact .inl ⟨hargs.trans (CommandSystem.submitJobArgs_of_job?_none hj), by simp⟩
  case some jobId =>
    simp only [Grpc.submitJob_of_job?_some hj]
    refine .inr ⟨jobId, _, hargs.trans (CommandSystem.submitJobArgs_of_job?_some hj), by simp [Executor.spawnJob], ?_⟩
    exact .late (c := (m, request)) (List.mem_of_getElem? hi) hj

theorem Spawns.of_foreignSubmit (h : act net s (.foreignSubmit n request now) = some s') :
    Spawns net s (.foreignSubmit n request now) s' := by
  simp only [act, foreignSubmit] at h
  split at h
  case isTrue => cases h
  case isFalse =>
    cases hj : request.job?
    case none =>
      obtain ⟨_, hs⟩ := Grpc.submitJob_of_job?_none n (s.jobs n) now hj
      simp only [hs, Option.some.injEq] at h
      exact .inl ⟨CommandSystem.submitJobArgs_of_job?_none hj, h ▸ rfl⟩
    case some jobId =>
      simp only [Grpc.submitJob_of_job?_some hj, Option.some.injEq] at h
      subst h
      exact .inr ⟨jobId, _, CommandSystem.submitJobArgs_of_job?_some hj, by simp [Executor.spawnJob], .foreign hj⟩

theorem spawns_of_step (h : step net s ev = some s') : Spawns net s ev s' := by
  cases ev
  case dispatch      => exact .of_dispatch (act_of_step h)
  case submit        => exact .of_submit (act_of_step h)
  case submitLate    => exact .of_submitLate (act_of_step h)
  case foreignSubmit => exact .of_foreignSubmit (act_of_step h)
  -- The other events start no executor.
  all_goals
    refine .inl ⟨rfl, ?_⟩
    cases Step.of_step h <;> first | rfl | simp

end JobSystem

namespace CommandSystem

-- Nobody else submits a job under the id of one that an origin has been asked to run.
def Unhijacked (s : CommandSystem) : JobSystem.Event → Prop
  | .foreignSubmit _ request _ => ∀ t ∈ s.system.tasks, request.job? ≠ some t.jobId
  | _                          => True

-- What the executors have been started with, each for its job.
def started (s : CommandSystem) : List (JobId × JobArgs) :=
  s.system.executorIds.zip s.args

-- Wherever a job is on its way, known or run, it is what has been asked for.
structure Faithful (s : CommandSystem) : Prop where
  nodup   : (s.system.requests.map Prod.fst).Nodup
  valid   : ∀ r ∈ s.system.requests, r.2.isValid
  late    : ∀ c ∈ s.system.late, ∀ r ∈ s.system.requests, c.2.job? = some r.1 →
    (Grpc.fromProto c.2).args = r.2.args
  length  : s.system.executorIds.length = s.args.length
  started : ∀ p ∈ s.started, ∀ r ∈ s.system.requests, p.1 = r.1 → p.2 = r.2.args
  known   : ∀ n i job, (s.system.jobs n).lookup i = some job →
    i ∈ s.system.executorIds ∨ i ∈ s.system.requests.map Prod.fst
  records : ∀ n job, ∀ r ∈ s.system.requests, (s.system.jobs n).lookup r.1 = some job →
    job.IsOf r.1 r.2.args

namespace Faithful

variable {net : Network} {s s' : CommandSystem} {ev : JobSystem.Event} {jobId : JobId} {args : JobArgs}
  {r : JobId × SubmitJobRequest}

theorem init (clusters : NodeId → ClusterState) : Faithful (init clusters) where
  nodup   := .nil
  valid   := by simp [CommandSystem.init, JobSystem.init, JobSystem.requests]
  late    := by simp [CommandSystem.init, JobSystem.init]
  length  := rfl
  started := by simp [CommandSystem.init, CommandSystem.started]
  known   := by simp [CommandSystem.init, JobSystem.init]
  records := by simp [CommandSystem.init, JobSystem.init]

-- Two requests for one job are one.
theorem eq_of_jobId (h : s.Faithful) {r' : JobId × SubmitJobRequest} (hr : r ∈ s.system.requests)
    (hr' : r' ∈ s.system.requests) (hi : r.1 = r'.1) : r = r' :=
  List.inj_on_of_nodup_map h.nodup hr hr' hi

theorem args_eq (h : s.Faithful) (hg : Unhijacked s ev) (ho : s.system.Orders ev jobId args)
    (hr : r ∈ s.system.requests) (hi : r.1 = jobId) : args = r.2.args := by
  cases ho
  case task hq     => exact congrArg _ (congrArg Prod.snd (h.eq_of_jobId hq hr hi.symm))
  case late hc hj  => exact h.late _ hc r hr (hi ▸ hj)
  case foreign hj  =>
    obtain ⟨t, ht, rfl⟩ := List.mem_map.mp hr
    exact absurd (hj.trans (congrArg some hi.symm)) (hg t ht)

-- Nothing is known yet of a job that is new.
theorem isNew (h : s.Faithful) {n : NodeId} (hf : s.system.IsFresh n jobId) :
    jobId ∉ s.system.executorIds ∧ jobId ∉ s.system.requests.map Prod.fst ∧
      ∀ m, (s.system.jobs m).lookup jobId = none := by
  have he : jobId ∉ s.system.executorIds := by
    simpa [JobSystem.executorIds] using hf.executors
  have ht : jobId ∉ s.system.requests.map Prod.fst := by
    simpa [JobSystem.requests, eq_comm] using hf.tasks
  refine ⟨he, ht, fun m => ?_⟩
  cases hl : (s.system.jobs m).lookup jobId
  case none => rfl
  case some => exact absurd (h.known _ _ _ hl) (not_or.mpr ⟨he, ht⟩)

variable {system : JobSystem}

theorem nodup_step (h : s.Faithful) (hs : s.system.step net ev = some system) :
    (system.requests.map Prod.fst).Nodup := by
  rcases (Step.of_step hs).requests with he | ⟨_, _, _, _, _, hf, _, he⟩ <;> rw [he]
  · exact h.nodup
  · rw [List.map_append, List.map_singleton, List.nodup_append]
    refine ⟨h.nodup, List.nodup_singleton _, fun i hi j hj => ?_⟩
    rw [List.mem_singleton.mp hj]
    rintro rfl
    exact (h.isNew hf).2.1 hi

theorem late_step (h : s.Faithful) (hs : s.system.step net ev = some system)
    {c : NodeId × Grpc.SubmitJobRequest} (hc : c ∈ system.late) (hr : r ∈ system.requests)
    (hj : c.2.job? = some r.1) : (Grpc.fromProto c.2).args = r.2.args := by
  have hs := Step.of_step hs
  rcases hs.late hc with hc | ⟨r', hr', ha, hj' | hj'⟩
  · rcases hs.mem_requests hr with hr | ⟨_, _, _, hf, _⟩
    · exact h.late c hc r hr hj
    · exact absurd hj (hf.late c hc)
  · cases hj'.symm.trans hj
  · have hi := Option.some.inj (hj'.symm.trans hj)
    rcases hs.mem_requests hr with hr | ⟨_, _, _, hf, _⟩
    · rw [ha, h.eq_of_jobId hr' hr hi]
    · exact absurd (List.mem_map_of_mem hr') (hi ▸ (h.isNew hf).2.1)

theorem length_step (h : s.Faithful) (hs : s.system.step net ev = some system) :
    system.executorIds.length = (s.args ++ (spawnArgs net s.system ev).toList).length := by
  rcases JobSystem.spawns_of_step hs with ⟨ha, he⟩ | ⟨_, _, ha, he, _⟩ <;> simp [ha, he, h.length]

theorem started_step (h : s.Faithful) (hg : Unhijacked s ev)
    (hs : s.system.step net ev = some system) {p : JobId × JobArgs}
    (hp : p ∈ system.executorIds.zip (s.args ++ (spawnArgs net s.system ev).toList))
    (hr : r ∈ system.requests) (hi : p.1 = r.1) : p.2 = r.2.args := by
  have hm := (Step.of_step hs).mem_requests hr
  have old (hp : p ∈ s.started) : p.2 = r.2.args := by
    rcases hm with hr | ⟨_, _, _, hf, _⟩
    · exact h.started p hp r hr hi
    · exact absurd (hi ▸ (List.of_mem_zip (show (p.1, p.2) ∈ _ from hp)).1) (h.isNew hf).1
  rcases JobSystem.spawns_of_step hs with ⟨ha, he⟩ | ⟨jobId, args, ha, he, ho⟩
  · rw [ha, he, Option.toList_none, List.append_nil] at hp
    exact old hp
  · rw [ha, he, Option.toList_some, List.zip_append h.length, List.mem_append] at hp
    rcases hp with hp | hp
    · exact old hp
    · obtain rfl : p = (jobId, args) := by simpa using hp
      rcases hm with hr | ⟨_, _, rfl, hf, _⟩
      · exact h.args_eq hg ho hr hi.symm
      · cases ho
        case task hq    => exact absurd (List.mem_map_of_mem hq) (hi ▸ (h.isNew hf).2.1)
        case late hc hj => exact absurd (hj.trans (congrArg some hi)) (hf.late _ hc)

theorem known_step (h : s.Faithful) (hs : s.system.step net ev = some system) {n : NodeId}
    {job : JobRecord} (hl : (system.jobs n).lookup jobId = some job) :
    jobId ∈ system.executorIds ∨ jobId ∈ system.requests.map Prod.fst := by
  rcases JobSystem.record_of_step hs hl with ⟨job', hl, _⟩ | ⟨_, _, _, he⟩ | ⟨_, _, _, _, hr⟩
  · refine (h.known _ _ _ hl).imp (fun he => ?_) (List.map_subset _ (Step.of_step hs).requests_subset ·)
    rcases JobSystem.spawns_of_step hs with ⟨_, hx⟩ | ⟨_, _, _, hx, _⟩ <;> simp [hx, he]
  · exact .inl he
  · exact .inr (List.mem_map_of_mem hr)

theorem records_step (h : s.Faithful) (hg : Unhijacked s ev)
    (hs : s.system.step net ev = some system) {n : NodeId} {job : JobRecord}
    (hr : r ∈ system.requests) (hl : (system.jobs n).lookup r.1 = some job) :
    job.IsOf r.1 r.2.args := by
  have hm := (Step.of_step hs).mem_requests hr
  rcases JobSystem.record_of_step hs hl with ⟨job', hl, hj⟩ | ⟨args, ho, hj, _⟩ | ⟨_, _, _, hj, hq⟩
  · rcases hm with hr | ⟨_, _, _, hf, _⟩
    · exact hj _ _ (h.records n job' r hr hl)
    · simp [(h.isNew hf).2.2 n] at hl
  · rcases hm with hr | ⟨_, _, rfl, hf, _⟩
    · exact h.args_eq hg ho hr rfl ▸ hj
    · cases ho
      case task hq    => exact absurd (List.mem_map_of_mem hq) (h.isNew hf).2.1
      case late hc hi => exact absurd hi (hf.late _ hc)
  · have := List.inj_on_of_nodup_map (h.nodup_step hs) hr hq rfl
    exact this ▸ hj

theorem step (h : s.Faithful) (hg : Unhijacked s ev) (hs : s.step net ev = some s') : s'.Faithful := by
  obtain ⟨system, h', rfl⟩ := Option.map_eq_some_iff.mp hs
  constructor
  case nodup   => exact h.nodup_step h'
  case late    => exact fun c hc r hr hj => h.late_step h' hc hr hj
  case length  => exact h.length_step h'
  case started => exact fun p hp r hr hi => h.started_step hg h' hp hr hi
  case known   => exact fun n i job hl => h.known_step h' hl
  case records => exact fun n job r hr hl => h.records_step hg h' hr hl
  case valid =>
    intro r hr
    rcases (Step.of_step h').mem_requests hr with hr | ⟨_, _, _, _, hv⟩
    · exact h.valid r hr
    · exact hv

end Faithful

theorem toNat_saturatingMul {a b : UInt64} (h : a.toNat * b.toNat < 2 ^ 64) :
    (saturatingMul a b).toNat = a.toNat * b.toNat := by
  rw [saturatingMul, if_pos h, UInt64.toNat_mul, Nat.mod_eq_of_lt h]

-- No limit in MiB is too large in bytes.
theorem addrLimit_buildCommand (args : JobArgs) :
    ((buildCommand args).addrLimit = none ↔ args.runtime = .docker) ∧
    ∀ limit, (buildCommand args).addrLimit = some limit →
      limit.toNat = args.resources.memoryMb.toNat * 1024 * 1024 := by
  have hm := args.resources.memoryMb.toNat_lt
  have h1024 : (1024 : UInt64).toNat = 1024 := rfl
  have hk : (saturatingMul args.resources.memoryMb.toUInt64 1024).toNat =
      args.resources.memoryMb.toNat * 1024 := by
    refine (toNat_saturatingMul ?_).trans rfl
    rw [UInt32.toNat_toUInt64, h1024]
    omega
  have hb : (saturatingMul (saturatingMul args.resources.memoryMb.toUInt64 1024) 1024).toNat =
      args.resources.memoryMb.toNat * 1024 * 1024 := by
    refine (toNat_saturatingMul ?_).trans (by rw [hk, h1024])
    rw [hk, h1024]
    omega
  rw [buildCommand]
  cases args.runtime
  case docker => simp [Command.addArgs, Command.arg, Command.new]
  all_goals
    refine ⟨by simp [applyNonDockerMemoryLimit], fun limit hl => ?_⟩
    rw [← Option.some.inj hl]
    exact hb

section

variable {net : Network} {clusters : NodeId → ClusterState} {es : List JobSystem.Event}
  {s : CommandSystem}

-- Wherever a job runs, and however it has got there, its process is the one that has been asked for
-- at its origin, under the limit that has been asked for.
theorem runs_as_requested (g : Guarded (step net) Unhijacked (init clusters) es)
    (h : Visits (step net) (init clusters) es s) :
    ∀ t ∈ s.system.tasks,
      (∀ k e, s.system.executors[k]? = some e → e.jobId = t.jobId →
        s.command k = some (buildCommand t.request.args)) ∧
      (∀ n job, (s.system.jobs n).lookup t.jobId = some job → job.IsOf t.jobId t.request.args) ∧
      ((buildCommand t.request.args).addrLimit = none ↔ t.request.runtime = .docker) ∧
      ∀ limit, (buildCommand t.request.args).addrLimit = some limit →
        limit.toNat = t.request.resources.memoryMb.toNat * 1024 * 1024 ∧ 0 < limit.toNat := by
  intro t ht
  have hf : s.Faithful := g.invariant h (.init clusters) fun _ _ _ h hg hs => h.step hg hs
  have hr : (t.jobId, t.request) ∈ s.system.requests := List.mem_map_of_mem ht
  have ⟨hdocker, hlimit⟩ := addrLimit_buildCommand t.request.args
  refine ⟨fun k e he hi => ?_, fun n job hl => hf.records n job _ hr hl, hdocker, fun limit hl => ?_⟩
  · have ⟨hk, _⟩ := List.getElem?_eq_some_iff.mp he
    have hk : k < s.args.length := by simpa [← hf.length, JobSystem.executorIds] using hk
    have hz : s.started[k]? = some (e.jobId, s.args[k]) := by
      simp [started, List.getElem?_zip_eq_some, JobSystem.executorIds, he, hk]
    have := hf.started _ (List.mem_of_getElem? hz) _ hr hi
    simp only at this
    rw [command, List.getElem?_eq_getElem hk, Option.map_some, this]
  · have : limit.toNat = t.request.resources.memoryMb.toNat * 1024 * 1024 := hlimit limit hl
    have hv := hf.valid _ hr
    have hm : t.request.resources.memoryMb.toNat ≠ 0 := by
      rw [SubmitJobRequest.isValid, decide_eq_true_eq, not_or] at hv
      exact fun h0 => hv.2 (UInt32.toNat_inj.mp h0)
    exact ⟨this, by omega⟩

end

theorem runs_as_requested_late :
    ∃ s, Visits (step .plain) (init fun _ => .plain ⟨2⟩)
        [.enqueue ⟨1⟩ .plain ⟨7⟩ 0, .dispatch 0, .loseSubmit 0, .submitLate 0 1] s ∧
      s.system.executors.map (·.node) = [⟨2⟩] ∧
      ∀ t ∈ s.system.tasks, ∀ k e, s.system.executors[k]? = some e → e.jobId = t.jobId →
        s.command k = some (buildCommand t.request.args) := by
  let es : List JobSystem.Event :=
    [.enqueue ⟨1⟩ .plain ⟨7⟩ 0, .dispatch 0, .loseSubmit 0, .submitLate 0 1]
  have hr : (run (step .plain) (init fun _ => .plain ⟨2⟩) es).map
      (fun s => s.system.executors.map (·.node)) = some [⟨2⟩] := by
    decide
  obtain ⟨s, hr, hs⟩ := Option.map_eq_some_iff.mp hr
  have g : Guarded (step .plain) Unhijacked (init fun _ => .plain ⟨2⟩) es :=
    .of_forall fun _ e he => by
      simp only [es, List.mem_cons, List.not_mem_nil, or_false] at he
      rcases he with rfl | rfl | rfl | rfl <;> trivial
  exact ⟨s, .last hr, hs, fun t ht => (runs_as_requested g (.last hr) t ht).1⟩

end CommandSystem

end All4One
