import All4One.Raft.Snapshot

open Foundation

namespace All4One.Raft

namespace Entry

def registeredJob (e : Entry) : Option String :=
  match e.payload with
  | .normal (.registerJob jobId ..) => some jobId
  | _                               => none

def updatedJob (e : Entry) : Option String :=
  match e.payload with
  | .normal (.updateJobStatus jobId ..) => some jobId
  | _                                   => none

variable {e : Entry} {jobId : String}

theorem payload_of_registeredJob (h : e.registeredJob = some jobId) :
    ∃ nodeId runtime createdAt,
      e.payload = .normal (.registerJob jobId nodeId runtime createdAt) := by
  simp only [registeredJob] at h
  split at h <;> simp_all

theorem payload_of_updatedJob (h : e.updatedJob = some jobId) :
    ∃ status nodeId, e.payload = .normal (.updateJobStatus jobId status nodeId) := by
  simp only [updatedJob] at h
  split at h <;> simp_all

end Entry

-- A job is known after a log prefix if it was known before it, or is registered in it.
def Registered (s : RaftState) (pre : List Entry) (jobId : String) : Prop :=
  jobId ∈ s.jobRegistry ∨ ∃ e ∈ pre, e.registeredJob = some jobId

-- The entry at index `i` updates a job that is known by then, and none after it updates that job.
structure LastUpdate (s : RaftState) (log : List Entry) (jobId : String) (i : Nat) : Prop where
  updates    : log[i]?.bind Entry.updatedJob = some jobId
  registered : Registered s (log.take i) jobId
  last       : ∀ j > i, log[j]?.bind Entry.updatedJob ≠ some jobId

-- A way for one replica to apply a log: some split into `apply` calls, and a clock reading for
-- every entry.
structure Replay (log : List Entry) where
  batches    : List (List TimedEntry)
  entries_eq : batches.flatten.map Prod.fst = log

namespace Replay

variable {log : List Entry}

def clock (r : Replay log) (i : Nat) : String :=
  (r.batches.flatten[i]?).elim "" Prod.snd

end Replay

theorem timed_append_append (clock : Nat → String) (log log' : List Entry) :
    timed clock (log ++ log') = timed clock log ++ timed (fun i => clock (log.length + i)) log' := by
  simp only [timed, List.zipIdx_append, List.map_append, List.append_cancel_left_eq, Nat.zero_add]
  rw [List.zipIdx_eq_map_add, List.map_map]
  rfl

theorem timed_append (clock : Nat → String) (log : List Entry) (e : Entry) :
    timed clock (log ++ [e]) = timed clock log ++ [(e, clock log.length)] := by
  simp [timed, List.zipIdx_append]

theorem Replay.flatten_eq_timed {log : List Entry} (r : Replay log) :
    r.batches.flatten = timed r.clock log := by
  apply List.ext_getElem?
  intro i
  have h : (r.batches.flatten.map Prod.fst)[i]? = log[i]? := by rw [r.entries_eq]
  simp only [timed, List.getElem?_map, List.getElem?_zipIdx] at h ⊢
  cases hi : r.batches.flatten[i]?
  case none => simp_all
  case some => simp_all [clock, ← h]

namespace LastUpdate

variable {s : RaftState} {log : List Entry} {e : Entry} {jobId : String} {i : Nat}

theorem lt_length (h : LastUpdate s log jobId i) : i < log.length := by
  have ⟨_, he, _⟩ := Option.bind_eq_some_iff.mp h.updates
  exact (List.getElem?_eq_some_iff.mp he).1

theorem append_iff_of_not_updates (he : e.updatedJob ≠ some jobId) :
    LastUpdate s (log ++ [e]) jobId i ↔ LastUpdate s log jobId i := by
  have hb (j : Nat) : (log ++ [e])[j]?.bind Entry.updatedJob = some jobId ↔
      log[j]?.bind Entry.updatedJob = some jobId := by
    rcases Nat.lt_trichotomy j log.length with hj | rfl | hj
    · rw [List.getElem?_append_left hj]
    · simp [he]
    · rw [List.getElem?_eq_none (by simp; omega), List.getElem?_eq_none (by omega)]
  constructor
  all_goals
    intro h
    have hi := h.lt_length
    have hu := h.updates
  case mp =>
    have hl : i < log.length := (List.getElem?_eq_some_iff.mp
      (Option.bind_eq_some_iff.mp ((hb i).mp hu)).choose_spec.1).1
    refine ⟨(hb i).mp hu, ?_, fun j hj => (hb j).not.mp (h.last j hj)⟩
    have hr := h.registered
    rwa [List.take_append_of_le_length (le_of_lt hl)] at hr
  case mpr =>
    refine ⟨(hb i).mpr hu, ?_, fun j hj => (hb j).not.mpr (h.last j hj)⟩
    rw [List.take_append_of_le_length (le_of_lt hi)]
    exact h.registered

theorem append_iff_of_updates (he : e.updatedJob = some jobId) :
    LastUpdate s (log ++ [e]) jobId i ↔ i = log.length ∧ Registered s log jobId := by
  constructor
  case mp =>
    intro h
    have hi := h.lt_length
    have hn : ¬ i < log.length := fun hl => h.last log.length hl (by simp [he])
    have hi : i = log.length := by simp at hi; omega
    subst hi
    simpa using h.registered
  case mpr =>
    rintro ⟨rfl, hr⟩
    refine ⟨by simp [he], by simpa using hr, fun j hj => ?_⟩
    rw [List.getElem?_eq_none (by simp; omega)]
    simp

end LastUpdate

theorem registered_append {s : RaftState} {log : List Entry} {e : Entry} {jobId : String} :
    Registered s (log ++ [e]) jobId ↔ Registered s log jobId ∨ e.registeredJob = some jobId := by
  simp [Registered, or_and_right, exists_or, or_assoc]

namespace RegisteredJob

def eraseUpdatedAt (job : RegisteredJob) : RegisteredJob :=
  { job with updatedAt := "" }

theorem eq_iff_of_eraseUpdatedAt_eq {job₁ job₂ : RegisteredJob}
    (h : job₁.eraseUpdatedAt = job₂.eraseUpdatedAt) :
    job₁ = job₂ ↔ job₁.updatedAt = job₂.updatedAt := by
  cases job₁; cases job₂
  simp_all [eraseUpdatedAt]

end RegisteredJob

-- Two states that may differ in nothing but the `updatedAt` of their jobs.
structure SameButStamps (s₁ s₂ : RaftState) : Prop where
  lastApplied    : s₁.lastApplied = s₂.lastApplied
  lastMembership : s₁.lastMembership = s₂.lastMembership
  enrollTokens   : s₁.enrollTokens = s₂.enrollTokens
  jobRegistry    : ∀ jobId,
    (s₁.jobRegistry.lookup jobId).map RegisteredJob.eraseUpdatedAt =
    (s₂.jobRegistry.lookup jobId).map RegisteredJob.eraseUpdatedAt

namespace SameButStamps

variable {s₁ s₂ : RaftState}

theorem refl (s : RaftState) : SameButStamps s s :=
  ⟨rfl, rfl, rfl, fun _ => rfl⟩

theorem eq_iff (h : SameButStamps s₁ s₂) :
    s₁ = s₂ ↔ ∀ jobId, s₁.jobRegistry.lookup jobId = s₂.jobRegistry.lookup jobId := by
  constructor
  case mp => rintro rfl _; rfl
  case mpr =>
    intro hj
    ext1
    · exact h.lastApplied
    · exact h.lastMembership
    · exact Finmap.ext_lookup hj
    · exact h.enrollTokens

theorem lookup_cases (h : SameButStamps s₁ s₂) (jobId : String) :
    (s₁.jobRegistry.lookup jobId = none ∧ s₂.jobRegistry.lookup jobId = none) ∨
    ∃ job₁ job₂, s₁.jobRegistry.lookup jobId = some job₁ ∧ s₂.jobRegistry.lookup jobId = some job₂ ∧
      job₁.eraseUpdatedAt = job₂.eraseUpdatedAt := by
  have hj := h.jobRegistry jobId
  cases h₁ : s₁.jobRegistry.lookup jobId <;> cases h₂ : s₂.jobRegistry.lookup jobId <;>
    simp_all

theorem insert (h : SameButStamps s₁ s₂) {jobId : String} {job₁ job₂ : RegisteredJob}
    (hj : job₁.eraseUpdatedAt = job₂.eraseUpdatedAt) :
    SameButStamps
      { s₁ with jobRegistry := s₁.jobRegistry.insert jobId job₁ }
      { s₂ with jobRegistry := s₂.jobRegistry.insert jobId job₂ } where
  lastApplied    := h.lastApplied
  lastMembership := h.lastMembership
  enrollTokens   := h.enrollTokens
  jobRegistry id := by
    by_cases hi : id = jobId
    case pos => subst hi; simp [hj]
    case neg => simpa [Finmap.lookup_insert_of_ne _ hi] using h.jobRegistry id

end SameButStamps

namespace SledStateMachine

section Command

variable {s₁ s₂ : RaftState} {cmd : RaftCommand} {now₁ now₂ : String}

-- The only field that the clock can reach is the `updatedAt` of the job being updated.
theorem applyCommand_sameButStamps (h : SameButStamps s₁ s₂) :
    (applyCommand s₁ now₁ cmd).1 = (applyCommand s₂ now₂ cmd).1 ∧
    SameButStamps (applyCommand s₁ now₁ cmd).2 (applyCommand s₂ now₂ cmd).2 := by
  cases cmd
  case registerJob jobId _ _ _ =>
    rcases h.lookup_cases jobId with ⟨h₁, h₂⟩ | ⟨job₁, job₂, h₁, h₂, -⟩
    · simpa [applyCommand, h₁, h₂] using h.insert rfl
    · simpa [applyCommand, h₁, h₂] using h
  case updateJobStatus jobId _ _ =>
    rcases h.lookup_cases jobId with ⟨h₁, h₂⟩ | ⟨job₁, job₂, h₁, h₂, hj⟩
    · simpa [applyCommand, h₁, h₂] using h
    · simp only [applyCommand, h₁, h₂, true_and]
      refine h.insert ?_
      simp only [RegisteredJob.eraseUpdatedAt, RegisteredJob.mk.injEq] at hj ⊢
      simp [hj]
  case addMember    => exact ⟨rfl, h⟩
  case removeMember => exact ⟨rfl, h⟩
  case storeEnrollToken =>
    exact ⟨rfl, h.lastApplied, h.lastMembership, by simp [applyCommand, h.enrollTokens],
      h.jobRegistry⟩
  case consumeEnrollToken token =>
    simp only [applyCommand, h.enrollTokens]
    cases s₂.enrollTokens.lookup token
    case none => exact ⟨rfl, h⟩
    case some t =>
      cases ht : t.used
      · exact ⟨by simp [ht], by simpa [ht] using ⟨h.1, h.2, by simp, h.4⟩⟩
      · exact ⟨by simp [ht], by simpa [ht] using h⟩

-- A command leaves a job alone unless it registers or updates it.
theorem applyCommand_lookup_of_ne {s : RaftState} {now : String} {jobId : String}
    (hr : ∀ n r c, cmd ≠ .registerJob jobId n r c) (hu : ∀ st n, cmd ≠ .updateJobStatus jobId st n) :
    (applyCommand s now cmd).2.jobRegistry.lookup jobId = s.jobRegistry.lookup jobId := by
  cases cmd
  case registerJob id n r c =>
    have hi : jobId ≠ id := by rintro rfl; exact hr n r c rfl
    cases h : s.jobRegistry.lookup id <;> simp [applyCommand, h, Finmap.lookup_insert_of_ne _ hi]
  case updateJobStatus id st n =>
    have hi : jobId ≠ id := by rintro rfl; exact hu st n rfl
    cases h : s.jobRegistry.lookup id <;> simp [applyCommand, h, Finmap.lookup_insert_of_ne _ hi]
  case consumeEnrollToken token =>
    cases h : s.enrollTokens.lookup token
    case none => simp [applyCommand, h]
    case some t => cases ht : t.used <;> simp [applyCommand, h, ht]
  all_goals rfl

end Command

section Entry

variable {s s₁ s₂ : RaftState} {e : Entry} {t t₁ t₂ : String} {jobId : String}

theorem applyEntry_sameButStamps (h : SameButStamps s₁ s₂) :
    (applyEntry s₁ (e, t₁)).1 = (applyEntry s₂ (e, t₂)).1 ∧
    SameButStamps (applyEntry s₁ (e, t₁)).2 (applyEntry s₂ (e, t₂)).2 := by
  have h : SameButStamps { s₁ with lastApplied := some e.logId }
      { s₂ with lastApplied := some e.logId } := ⟨rfl, h.2, h.3, h.4⟩
  cases hp : e.payload <;> simp only [applyEntry, hp]
  case blank      => exact ⟨trivial, h⟩
  case normal     => exact applyCommand_sameButStamps h
  case membership => exact ⟨trivial, rfl, rfl, h.3, h.4⟩

theorem applyEntry_lookup_of_ne (hr : e.registeredJob ≠ some jobId) (hu : e.updatedJob ≠ some jobId) :
    (applyEntry s (e, t)).2.jobRegistry.lookup jobId = s.jobRegistry.lookup jobId := by
  cases hp : e.payload <;> simp only [applyEntry, hp]
  case normal cmd =>
    apply applyCommand_lookup_of_ne
    · rintro n r c rfl; simp [Entry.registeredJob, hp] at hr
    · rintro st n rfl; simp [Entry.updatedJob, hp] at hu

-- A registration that goes through stores the same job on every replica, one that does not
-- leaves the job that is there.
theorem applyEntry_lookup_eq_iff_of_not_updates
    (h : SameButStamps s₁ s₂) (hu : e.updatedJob ≠ some jobId) :
    ((applyEntry s₁ (e, t₁)).2.jobRegistry.lookup jobId =
      (applyEntry s₂ (e, t₂)).2.jobRegistry.lookup jobId) ↔
    s₁.jobRegistry.lookup jobId = s₂.jobRegistry.lookup jobId := by
  by_cases hr : e.registeredJob = some jobId
  case neg => rw [applyEntry_lookup_of_ne hr hu, applyEntry_lookup_of_ne hr hu]
  case pos =>
    have ⟨n, r, c, hp⟩ := Entry.payload_of_registeredJob hr
    rcases h.lookup_cases jobId with ⟨h₁, h₂⟩ | ⟨job₁, job₂, h₁, h₂, -⟩ <;>
      simp [applyEntry, hp, applyCommand, h₁, h₂]

theorem applyEntry_lookup_of_updates (hu : e.updatedJob = some jobId) :
    ∃ status, (applyEntry s (e, t)).2.jobRegistry.lookup jobId =
      (s.jobRegistry.lookup jobId).map ({ · with status, updatedAt := t }) := by
  have ⟨st, n, hp⟩ := Entry.payload_of_updatedJob hu
  refine ⟨st, ?_⟩
  cases hj : s.jobRegistry.lookup jobId <;> simp [applyEntry, hp, applyCommand, hj]

theorem applyEntry_lookup_eq_iff_of_updates
    (h : SameButStamps s₁ s₂) (hu : e.updatedJob = some jobId) :
    ((applyEntry s₁ (e, t₁)).2.jobRegistry.lookup jobId =
      (applyEntry s₂ (e, t₂)).2.jobRegistry.lookup jobId) ↔
    (jobId ∈ s₁.jobRegistry → t₁ = t₂) := by
  have ha : SameButStamps (applyEntry s₁ (e, t₁)).2 (applyEntry s₂ (e, t₂)).2 :=
    (applyEntry_sameButStamps h).2
  have ⟨_, h₁⟩ := applyEntry_lookup_of_updates (s := s₁) (t := t₁) hu
  have ⟨_, h₂⟩ := applyEntry_lookup_of_updates (s := s₂) (t := t₂) hu
  rcases h.lookup_cases jobId with ⟨hj₁, hj₂⟩ | ⟨job₁, job₂, hj₁, hj₂, -⟩
  case inl =>
    have hn : jobId ∉ s₁.jobRegistry := Finmap.lookup_eq_none.mp hj₁
    simp [h₁, h₂, hj₁, hj₂, hn]
  case inr =>
    have hm : jobId ∈ s₁.jobRegistry := Finmap.mem_of_lookup_eq_some hj₁
    have he := ha.jobRegistry jobId
    simp only [h₁, h₂, hj₁, hj₂, Option.map_some, Option.some.injEq] at he ⊢
    rw [RegisteredJob.eq_iff_of_eraseUpdatedAt_eq he]
    simp [hm]

theorem applyEntry_mem_jobRegistry_iff :
    jobId ∈ (applyEntry s (e, t)).2.jobRegistry ↔
    jobId ∈ s.jobRegistry ∨ e.registeredJob = some jobId := by
  simp only [← Finmap.lookup_isSome]
  by_cases hu : e.updatedJob = some jobId
  case pos =>
    have ⟨_, h⟩ := applyEntry_lookup_of_updates (s := s) (t := t) hu
    have ⟨_, _, hp⟩ := Entry.payload_of_updatedJob hu
    have hr : e.registeredJob ≠ some jobId := by simp [Entry.registeredJob, hp]
    simp [h, hr]
  by_cases hr : e.registeredJob = some jobId
  case neg => simp [applyEntry_lookup_of_ne hr hu, hr]
  case pos =>
    have ⟨n, r, c, hp⟩ := Entry.payload_of_registeredJob hr
    cases h : s.jobRegistry.lookup jobId <;> simp [applyEntry, hp, applyCommand, h, hr]

end Entry

section Log

variable {s : RaftState} {log : List Entry} {c₁ c₂ : Nat → String} {jobId : String}

theorem applyEntries_append (s : RaftState) (es es' : List TimedEntry) :
    applyEntries s (es ++ es') =
    ((applyEntries s es).1 ++ (applyEntries (applyEntries s es).2 es').1,
      (applyEntries (applyEntries s es).2 es').2) := by
  induction es generalizing s
  case nil       => rfl
  case cons _ hi => simp [applyEntries, hi]

theorem applyEntries_timed_append (s : RaftState) (c : Nat → String) (log : List Entry) (e : Entry) :
    applyEntries s (timed c (log ++ [e])) =
    let s' := (applyEntries s (timed c log)).2
    ((applyEntries s (timed c log)).1 ++ [(applyEntry s' (e, c log.length)).1],
      (applyEntry s' (e, c log.length)).2) := by
  simp [timed_append, applyEntries_append, applyEntries]

theorem applyEntries_congr {s₁ s₂ : RaftState} (h : SameButStamps s₁ s₂) (c₁ c₂ : Nat → String)
    (log : List Entry) :
    (applyEntries s₁ (timed c₁ log)).1 = (applyEntries s₂ (timed c₂ log)).1 ∧
    SameButStamps (applyEntries s₁ (timed c₁ log)).2 (applyEntries s₂ (timed c₂ log)).2 := by
  induction log using List.reverseRecOn
  case nil => exact ⟨rfl, h⟩
  case append_singleton log e hi =>
    simp only [applyEntries_timed_append]
    refine ⟨?_, (applyEntry_sameButStamps hi.2).2⟩
    rw [hi.1, (applyEntry_sameButStamps hi.2).1]

theorem applyEntries_mem_jobRegistry_iff (s : RaftState) (c : Nat → String) (log : List Entry) :
    jobId ∈ (applyEntries s (timed c log)).2.jobRegistry ↔ Registered s log jobId := by
  induction log using List.reverseRecOn
  case nil => simp [timed, applyEntries, Registered]
  case append_singleton log e hi =>
    simp only [applyEntries_timed_append, applyEntry_mem_jobRegistry_iff, hi, registered_append]

-- The records of one job agree exactly if the clocks agree on the last update of that job.
theorem applyEntries_lookup_eq_iff (s : RaftState) (c₁ c₂ : Nat → String) (log : List Entry)
    (jobId : String) :
    ((applyEntries s (timed c₁ log)).2.jobRegistry.lookup jobId =
      (applyEntries s (timed c₂ log)).2.jobRegistry.lookup jobId) ↔
    ∀ i, LastUpdate s log jobId i → c₁ i = c₂ i := by
  induction log using List.reverseRecOn
  case nil =>
    simp only [timed, List.zipIdx_nil, List.map_nil, applyEntries, true_iff]
    intro i h
    exact absurd h.lt_length (Nat.not_lt_zero i)
  case append_singleton log e hi =>
    have h := (applyEntries_congr (.refl s) c₁ c₂ log).2
    simp only [applyEntries_timed_append]
    by_cases hu : e.updatedJob = some jobId
    case pos =>
      rw [applyEntry_lookup_eq_iff_of_updates h hu, applyEntries_mem_jobRegistry_iff]
      simp [LastUpdate.append_iff_of_updates hu]
    case neg =>
      rw [applyEntry_lookup_eq_iff_of_not_updates h hu, hi]
      simp only [LastUpdate.append_iff_of_not_updates hu]

variable {β : Type} (serde : Serde RaftState β)

theorem applyBatches_eq (sm : SledStateMachine β) (bs : List (List TimedEntry)) :
    (applyBatches serde sm bs).1 = (applyEntries sm.state bs.flatten).1 ∧
    (applyBatches serde sm bs).2.state = (applyEntries sm.state bs.flatten).2 := by
  induction bs generalizing sm
  case nil => exact ⟨rfl, rfl⟩
  case cons b bs hi =>
    have ⟨h₁, h₂⟩ := hi (apply serde sm b).2
    simp only [applyBatches, List.flatten_cons, applyEntries_append, h₁, h₂]
    exact ⟨rfl, rfl⟩

-- Two replicas that start from one state and apply one log end with the same state and the same
-- responses exactly if their clocks agree, as RFC 3339 texts, on the last update of each job.
theorem replica_agreement_iff (s : RaftState) (db₁ db₂ : HashMap String β) (log : List Entry)
    (r₁ r₂ : Replay log) :
    ((applyBatches serde ⟨db₁, s⟩ r₁.batches).2.state =
        (applyBatches serde ⟨db₂, s⟩ r₂.batches).2.state ∧
      (applyBatches serde ⟨db₁, s⟩ r₁.batches).1 = (applyBatches serde ⟨db₂, s⟩ r₂.batches).1) ↔
    ∀ jobId i, LastUpdate s log jobId i → r₁.clock i = r₂.clock i := by
  have ⟨h₁, h₁'⟩ := applyBatches_eq serde ⟨db₁, s⟩ r₁.batches
  have ⟨h₂, h₂'⟩ := applyBatches_eq serde ⟨db₂, s⟩ r₂.batches
  rw [h₁, h₁', h₂, h₂', r₁.flatten_eq_timed, r₂.flatten_eq_timed]
  have ⟨hr, hs⟩ := applyEntries_congr (.refl s) r₁.clock r₂.clock log
  simp only [hr, and_true, hs.eq_iff, applyEntries_lookup_eq_iff]

-- One update of one job, applied a second apart.
theorem replica_agreement_fails :
    ∃ (log : List Entry) (r₁ r₂ : Replay log),
      (applyBatches (.raw RaftState) ⟨∅, .default⟩ r₁.batches).2.state ≠
        (applyBatches (.raw RaftState) ⟨∅, .default⟩ r₂.batches).2.state := by
  let id (index : Nat) : LogId := ⟨⟨1, ⟨0⟩⟩, index⟩
  let log : List Entry := [
    ⟨id 1, .normal (.registerJob "job" "node" "python" "2026-04-08T10:00:00+00:00")⟩,
    ⟨id 2, .normal (.updateJobStatus "job" "running" "node")⟩
  ]
  let r₁ : Replay log := ⟨[timed (fun _ => "2026-04-08T10:00:01+00:00") log], rfl⟩
  let r₂ : Replay log := ⟨[timed (fun _ => "2026-04-08T10:00:02+00:00") log], rfl⟩
  refine ⟨log, r₁, r₂, ?_⟩
  decide

end Log

end SledStateMachine

end All4One.Raft
