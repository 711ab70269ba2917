import All4One.Jobs.Listing
import All4One.Jobs.Theorems.NoOrphan
import All4One.Jobs.Theorems.Records

open Foundation Transition

namespace All4One

-- The records that a query asks for, whatever its limit.
structure ListJobsQuery.Matches (query : ListJobsQuery) (job : JobRecord) : Prop where
  status : ∀ expected, query.status = some expected → job.status.isNamed expected
  node   : ∀ nodeId, query.nodeId = some nodeId → job.assignedTo.uuid.toText = nodeId

namespace listJobs

variable {values : List JobRecord} {query : ListJobsQuery} {job job' : JobRecord}

-- All that a query asks for, the oldest job first.
def sorted (values : List JobRecord) (query : ListJobsQuery) : List JobRecord :=
  (listJobs values { query with limit := none }).jobs

theorem eq_drop :
    ∃ k, (listJobs values query).jobs = (sorted values query).drop k ∧
      (k = 0 ∨ query.limit = some (listJobs values query).jobs.length) := by
  cases hq : query.limit
  case none => exact ⟨0, by simp only [sorted, listJobs, hq, List.drop_zero], .inl rfl⟩
  case some limit =>
    have hl : (listJobs values query).jobs =
        if (sorted values query).length > limit then
          (sorted values query).drop ((sorted values query).length - limit)
        else sorted values query := by
      simp only [sorted, listJobs, hq]
      rfl
    rw [hl]
    split
    case isTrue h  => exact ⟨_, rfl, .inr (by rw [List.length_drop]; congr; omega)⟩
    case isFalse h => exact ⟨0, rfl, .inl rfl⟩

theorem mem_sorted : job ∈ sorted values query ↔ job ∈ values ∧ query.Matches job := by
  have hm : query.Matches job ↔ (∀ expected, query.status = some expected → job.status.isNamed expected) ∧
      ∀ nodeId, query.nodeId = some nodeId → job.assignedTo.uuid.toText = nodeId :=
    ⟨fun ⟨hs, hn⟩ => ⟨hs, hn⟩, fun ⟨hs, hn⟩ => ⟨hs, hn⟩⟩
  rw [hm]
  simp only [sorted, listJobs, List.mem_insertionSort]
  cases query.status <;> cases query.nodeId <;> simp [and_comm]

theorem perm_sorted : ∃ p : JobRecord → Bool, (sorted values query).Perm (values.filter p) := by
  simp only [sorted, listJobs]
  cases query.status <;> cases query.nodeId <;> simp only [List.filter_filter]
  case none.none => exact ⟨fun _ => true, by simpa using List.perm_insertionSort ..⟩
  all_goals exact ⟨_, List.perm_insertionSort ..⟩

theorem pairwise_sorted : (sorted values query).Pairwise (·.createdAt ≤ ·.createdAt) := by
  have : Std.Total fun job job' : JobRecord => job.createdAt ≤ job'.createdAt :=
    ⟨fun _ _ => Nat.le_total ..⟩
  have : IsTrans JobRecord fun job job' => job.createdAt ≤ job'.createdAt :=
    ⟨fun _ _ _ => Nat.le_trans⟩
  exact List.pairwise_insertionSort ..

-- What the limit leaves out is no newer than what is listed.
theorem createdAt_le_of_not_mem (h : job ∈ sorted values query)
    (hn : job ∉ (listJobs values query).jobs) (h' : job' ∈ (listJobs values query).jobs) :
    job.createdAt ≤ job'.createdAt := by
  have ⟨k, hk, _⟩ := @eq_drop values query
  rw [hk] at hn h'
  have hp := @pairwise_sorted values query
  rw [← List.take_append_drop k (sorted values query), List.mem_append] at h
  rw [← List.take_append_drop k (sorted values query), List.pairwise_append] at hp
  exact hp.2.2 _ (h.resolve_right hn) _ h'

end listJobs

namespace JobSystem

variable {net : Network} {clusters : NodeId → ClusterState} {s s' : JobSystem} {es es' : List Event}
  {n : NodeId} {values values' : List JobRecord} {query : ListJobsQuery} {job : JobRecord}

-- A record is found under the id of its job.
def IsKeyed (s : JobSystem) : Prop :=
  ∀ n jobId job, (s.jobs n).lookup jobId = some job → job.jobId = jobId

theorem isKeyed_of_run (h : run (step net) (init clusters) es = some s) : s.IsKeyed := by
  refine Reachable.invariant ⟨es, h⟩ (by simp [IsKeyed, init]) fun s ev s' hk hs n i job hl => ?_
  rcases record_of_step hs hl with ⟨job', hl', hj⟩ | ⟨_, _, hj, _⟩ | ⟨_, _, _, hj, _⟩
  · rw [← hk _ _ _ hl']
    exact (hj job'.jobId ⟨job'.runtime, job'.source, job'.command, ⟨1, 1⟩⟩ ⟨rfl, rfl, rfl, rfl⟩).jobId
  · exact hj.jobId
  · exact hj.jobId

theorem isSome_lookup_of_run (h : run (step net) s es = some s') {i : JobId}
    (hl : ((s.jobs n).lookup i).isSome) : ((s'.jobs n).lookup i).isSome := by
  refine Reachable.invariant (I := fun s => ((s.jobs n).lookup i).isSome) ⟨es, h⟩ hl ?_
  intro s ev s' hl hs
  have := (Step.of_step hs).isSome_status (m := n) (i := i)
  simp only [status, Option.isSome_map] at this
  exact this hl

section Iteration

variable {jobs : Jobs} (hv : jobs.IsIteration values)

include hv in
theorem mem_iteration : job ∈ values ↔ ∃ i, jobs.lookup i = some job := by
  obtain ⟨entries, rfl, rfl⟩ := hv
  simp only [Finmap.lookup_toFinmap, List.mem_map]
  constructor
  case mp =>
    rintro ⟨⟨i, _⟩, he, rfl⟩
    exact ⟨i, AList.mem_lookup_iff.mpr he⟩
  case mpr =>
    rintro ⟨i, hl⟩
    exact ⟨⟨i, job⟩, AList.mem_lookup_iff.mp hl, rfl⟩

-- Where each record has the id under which it is found, no id is met twice.
include hv in
theorem nodup_iteration (hk : ∀ i job, jobs.lookup i = some job → job.jobId = i) :
    (values.map (·.jobId)).Nodup := by
  obtain ⟨entries, rfl, rfl⟩ := hv
  have : (entries.entries.map Sigma.snd).map (·.jobId) = entries.entries.map Sigma.fst := by
    rw [List.map_map]
    refine List.map_congr_left fun ⟨i, job⟩ he => hk i job ?_
    rw [Finmap.lookup_toFinmap]
    exact AList.mem_lookup_iff.mpr he
  rw [this]
  exact entries.nodupKeys

end Iteration

-- On every node, at any time and in whatever order its table is visited, a list of jobs is what has
-- been asked for: the newest records of those that match, in the order of their age and none of them
-- twice, each as it is found under its id. No job is ever lost from it.
theorem list_is_exact (h : run (step net) (init clusters) es = some s)
    (hv : Jobs.IsIteration (s.jobs n) values) :
    let list := (listJobs values query).jobs
    (listJobs values query).total = list.length ∧
    list.Pairwise (·.createdAt ≤ ·.createdAt) ∧ (list.map (·.jobId)).Nodup ∧
    (∀ job ∈ list, query.Matches job ∧ getJob (s.jobs n) job.jobId.uuid.toText = .ok job) ∧
    (∀ id job, getJob (s.jobs n) id = .ok job → query.Matches job → job ∉ list →
      query.limit = some list.length ∧ ∀ job' ∈ list, job.createdAt ≤ job'.createdAt) ∧
    ∀ es' s' values', run (step net) s es' = some s' → Jobs.IsIteration (s'.jobs n) values' →
      ∀ job ∈ list, ∃ job' ∈ (listJobs values' ⟨none, none, none⟩).jobs, job'.jobId = job.jobId := by
  have hk := isKeyed_of_run h
  have ⟨k, hd, hlimit⟩ := @listJobs.eq_drop values query
  have mem {job} (hj : job ∈ (listJobs values query).jobs) :
      query.Matches job ∧ (s.jobs n).lookup job.jobId = some job := by
    have ⟨hj, hm⟩ := listJobs.mem_sorted.mp (List.mem_of_mem_drop (hd ▸ hj))
    have ⟨i, hl⟩ := (mem_iteration hv).mp hj
    exact ⟨hm, hk _ _ _ hl ▸ hl⟩
  refine ⟨rfl, ?_, ?_, fun job hj => ?_, fun id job hg hm hn => ?_, ?_⟩
  · exact hd ▸ listJobs.pairwise_sorted.sublist (List.drop_sublist ..)
  · have ⟨p, hp⟩ := @listJobs.perm_sorted values query
    rw [hd]
    refine List.Nodup.sublist ((List.drop_sublist ..).map _) ?_
    rw [(hp.map _).nodup_iff]
    exact (nodup_iteration hv (hk n)).sublist ((List.filter_sublist ..).map _)
  · have ⟨hm, hl⟩ := mem hj
    exact ⟨hm, by simp [getJob, hl]⟩
  · have hl : ∃ i, (s.jobs n).lookup i = some job := by
      simp only [getJob] at hg
      split at hg
      case h_1 => cases hg
      case h_2 => split at hg <;> cases hg; exact ⟨_, ‹_›⟩
    have hs := listJobs.mem_sorted.mpr ⟨(mem_iteration hv).mpr hl, hm⟩
    refine ⟨hlimit.resolve_left ?_, fun job' hj => listJobs.createdAt_le_of_not_mem hs hn hj⟩
    rintro rfl
    exact hn (hd ▸ hs)
  · intro es' s' values' hr hv' job hj
    have ⟨job', hl⟩ := Option.isSome_iff_exists.mp <|
      isSome_lookup_of_run hr (n := n) (i := job.jobId) (by simp [(mem hj).2])
    refine ⟨job', ?_, isKeyed_of_run (run_append_of_some h hr) _ _ _ hl⟩
    change job' ∈ listJobs.sorted values' ⟨none, none, none⟩
    refine listJobs.mem_sorted.mpr ⟨(mem_iteration hv').mpr ⟨_, hl⟩, ?_⟩
    exact ⟨by simp, by simp⟩

theorem list_is_exact_newest :
    ∃ s values, run (step .plain) (init fun _ => .plain ⟨1⟩)
        [.enqueue ⟨1⟩ .plain ⟨7⟩ 3, .enqueue ⟨1⟩ .plain ⟨8⟩ 5] = some s ∧
      Jobs.IsIteration (s.jobs ⟨1⟩) values ∧
      (listJobs values ⟨some "QUEUED", none, some 1⟩).jobs.map (·.jobId) = [⟨8⟩] ∧
      ((listJobs values ⟨some "QUEUED", none, some 1⟩).jobs.map (·.jobId)).Nodup := by
  let record (jobId : JobId) (now : DateTime) := JobRecord.queued jobId ⟨1⟩ .plain now
  let values := [record ⟨8⟩ 5, record ⟨7⟩ 3]
  have hr : (run (step .plain) (init fun _ => .plain ⟨1⟩)
      [.enqueue ⟨1⟩ .plain ⟨7⟩ 3, .enqueue ⟨1⟩ .plain ⟨8⟩ 5]).map (·.jobs ⟨1⟩) =
      some (Finmap.insert ⟨8⟩ (record ⟨8⟩ 5) (Finmap.insert ⟨7⟩ (record ⟨7⟩ 3) ∅)) := by
    decide
  obtain ⟨s, hr, hs⟩ := Option.map_eq_some_iff.mp hr
  have hv : Jobs.IsIteration (s.jobs ⟨1⟩) values :=
    ⟨(AList.insert ⟨8⟩ (record ⟨8⟩ 5) (AList.insert ⟨7⟩ (record ⟨7⟩ 3) ∅)), hs.symm, rfl⟩
  exact ⟨s, values, hr, hv, by decide, (list_is_exact hr hv).2.2.1⟩

end JobSystem

end All4One
