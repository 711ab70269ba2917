import All4One.Raft.Theorems.Agreement

open Foundation

namespace All4One.Raft

namespace RaftCommand

-- The job that a command registers.
def registeredJob : RaftCommand → Option String
  | registerJob jobId .. => some jobId
  | _                    => none

-- The status that a command gives to a job.
def newStatus (jobId : String) : RaftCommand → Option String
  | updateJobStatus id status _ => if id = jobId then some status else none
  | _                           => none

end RaftCommand

-- A command together with the wall clock at the moment it is applied.
abbrev TimedCommand := RaftCommand × String

namespace SledStateMachine

-- What a sequence of commands makes of a fresh state.
def after (cmds : List TimedCommand) : RaftState :=
  cmds.foldl (fun s c => (applyCommand s c.2 c.1).2) .default

-- The response to a command that follows a sequence of commands.
def respond (cmds : List TimedCommand) (cmd : RaftCommand) (now : String) : RaftCommandResponse :=
  (applyCommand (after cmds) now cmd).1

-- The last status that a sequence of commands gives to a job.
def lastStatus (jobId : String) (cmds : List TimedCommand) : Option String :=
  (cmds.filterMap fun c => c.1.newStatus jobId).getLast?

variable {s : RaftState} {cmd : RaftCommand} {now : String} {cmds : List TimedCommand}
  {jobId nodeId runtime createdAt status : String}

@[simp]
theorem after_append :
    after (cmds ++ [(cmd, now)]) = (applyCommand (after cmds) now cmd).2 := by
  simp [after]

section Command

theorem applyCommand_lookup (hr : cmd.registeredJob ≠ some jobId) (hn : cmd.newStatus jobId = none) :
    (applyCommand s now cmd).2.jobRegistry.lookup jobId = s.jobRegistry.lookup jobId := by
  apply applyCommand_lookup_of_ne
  · rintro n r c rfl
    exact hr rfl
  · rintro st n rfl
    simp [RaftCommand.newStatus] at hn

theorem applyCommand_mem_iff : jobId ∈ (applyCommand s now cmd).2.jobRegistry ↔
    jobId ∈ s.jobRegistry ∨ cmd.registeredJob = some jobId := by
  simp only [← Finmap.lookup_isSome]
  cases cmd
  case registerJob id n r c =>
    by_cases hi : jobId = id
    case pos =>
      subst hi
      cases h : s.jobRegistry.lookup jobId <;> simp [applyCommand, h, RaftCommand.registeredJob]
    case neg =>
      have hr : RaftCommand.registeredJob (.registerJob id n r c) ≠ some jobId := by
        simpa [RaftCommand.registeredJob] using Ne.symm hi
      simp [applyCommand_lookup hr rfl, hr]
  case updateJobStatus id st n =>
    by_cases hi : jobId = id
    case pos =>
      subst hi
      cases h : s.jobRegistry.lookup jobId <;> simp [applyCommand, h, RaftCommand.registeredJob]
    case neg =>
      have hr : RaftCommand.registeredJob (.updateJobStatus id st n) ≠ some jobId := by
        simp [RaftCommand.registeredJob]
      have hn : RaftCommand.newStatus jobId (.updateJobStatus id st n) = none :=
        if_neg (Ne.symm hi)
      simp [applyCommand_lookup hr hn, hr]
  all_goals
    rw [applyCommand_lookup (by simp [RaftCommand.registeredJob]) rfl]
    simp [RaftCommand.registeredJob]

theorem registerJob_success :
    (applyCommand s now (.registerJob jobId nodeId runtime createdAt)).1.success = true ↔
    jobId ∉ s.jobRegistry := by
  rw [← Finmap.lookup_eq_none]
  cases h : s.jobRegistry.lookup jobId <;>
    simp [applyCommand, h, RaftCommandResponse.accepted, RaftCommandResponse.rejected]

theorem updateJobStatus_success :
    (applyCommand s now (.updateJobStatus jobId status nodeId)).1.success = true ↔
    jobId ∈ s.jobRegistry := by
  rw [← Finmap.lookup_isSome]
  cases h : s.jobRegistry.lookup jobId <;>
    simp [applyCommand, h, RaftCommandResponse.accepted, RaftCommandResponse.rejected]

-- A job that is registered keeps what it was registered with. Only its status is ever replaced.
theorem applyCommand_lookup_of_registered {job : RegisteredJob} (cmd : RaftCommand) (now : String)
    (h : s.jobRegistry.lookup jobId = some job) :
    ∃ updatedAt, (applyCommand s now cmd).2.jobRegistry.lookup jobId =
      some { job with status := (cmd.newStatus jobId).getD job.status, updatedAt } := by
  cases hn : cmd.newStatus jobId
  case some status =>
    have ⟨n, hc⟩ : ∃ n, cmd = .updateJobStatus jobId status n := by
      simp only [RaftCommand.newStatus] at hn
      split at hn
      case h_1 id st n =>
        split at hn
        case isTrue hi => cases hn; exact ⟨n, by rw [hi]⟩
        case isFalse => cases hn
      case h_2 => cases hn
    subst hc
    exact ⟨now, by simp [applyCommand, h]⟩
  case none =>
    refine ⟨job.updatedAt, ?_⟩
    by_cases hr : cmd.registeredJob = some jobId
    case neg => rw [applyCommand_lookup hr hn, h]; rfl
    case pos =>
      -- It can not be registered again.
      simp only [RaftCommand.registeredJob] at hr
      split at hr
      case h_1 => cases hr; simp [applyCommand, h]
      case h_2 => cases hr

end Command

section Commands

theorem mem_after_iff :
    jobId ∈ (after cmds).jobRegistry ↔ ∃ c ∈ cmds, c.1.registeredJob = some jobId := by
  induction cmds using List.reverseRecOn
  case nil =>
    have hn : jobId ∉ (after []).jobRegistry := Finmap.notMem_empty
    simp [hn]
  case append_singleton cmds c hi =>
    have ⟨cmd, now⟩ := c
    rw [after_append, applyCommand_mem_iff, hi]
    simp only [List.mem_append, List.mem_singleton, or_and_right, exists_or, exists_eq_left]

theorem lastStatus_append : lastStatus jobId (cmds ++ [(cmd, now)]) =
    (cmd.newStatus jobId).or (lastStatus jobId cmds) := by
  rw [lastStatus, List.filterMap_append, List.getLast?_append, lastStatus]
  cases h : cmd.newStatus jobId <;> simp [h]

-- A job is stored as its first registration has it, with the last status it was given since.
theorem after_lookup {before rest : List TimedCommand}
    (hb : ∀ c ∈ before, c.1.registeredJob ≠ some jobId) :
    ∃ updatedAt, (after (before ++ (.registerJob jobId nodeId runtime createdAt, now) :: rest)
      ).jobRegistry.lookup jobId =
      some ⟨jobId, nodeId, runtime, (lastStatus jobId rest).getD "queued", createdAt, updatedAt⟩ := by
  induction rest using List.reverseRecOn
  case nil =>
    have hn : (after before).jobRegistry.lookup jobId = none := by
      rw [Finmap.lookup_eq_none, mem_after_iff]
      simpa using hb
    exact ⟨createdAt, by simp [applyCommand, hn, lastStatus]⟩
  case append_singleton rest c hi =>
    obtain ⟨updatedAt, hi⟩ := hi
    obtain ⟨updatedAt, h⟩ := applyCommand_lookup_of_registered c.1 c.2 hi
    refine ⟨updatedAt, ?_⟩
    rw [← List.cons_append, ← List.append_assoc, after_append, h, lastStatus_append]
    cases c.1.newStatus jobId <;> rfl

-- What a sequence of commands has to do with one job.
theorem first_writer_wins (cmds : List TimedCommand) (jobId : String) :
    (∀ nodeId runtime createdAt now,
      (respond cmds (.registerJob jobId nodeId runtime createdAt) now).success = true ↔
      ∀ c ∈ cmds, c.1.registeredJob ≠ some jobId) ∧
    (jobId ∈ (after cmds).jobRegistry ↔ ∃ c ∈ cmds, c.1.registeredJob = some jobId) ∧
    (∀ before nodeId runtime createdAt now rest,
      cmds = before ++ (.registerJob jobId nodeId runtime createdAt, now) :: rest →
      (∀ c ∈ before, c.1.registeredJob ≠ some jobId) →
      ∃ updatedAt, (after cmds).jobRegistry.lookup jobId = some ⟨jobId, nodeId, runtime,
        (lastStatus jobId rest).getD "queued", createdAt, updatedAt⟩) ∧
    (∀ status nodeId now,
      (respond cmds (.updateJobStatus jobId status nodeId) now).success = true ↔
      ∃ c ∈ cmds, c.1.registeredJob = some jobId) ∧
    ∀ cmd now, cmd.registeredJob ≠ some jobId → cmd.newStatus jobId = none →
      (after (cmds ++ [(cmd, now)])).jobRegistry.lookup jobId =
      (after cmds).jobRegistry.lookup jobId := by
  refine ⟨fun _ _ _ _ => ?_, mem_after_iff, ?_, fun _ _ _ => ?_, fun cmd now hr hn => ?_⟩
  · rw [respond, registerJob_success, mem_after_iff]
    simp
  · rintro before nodeId runtime createdAt now rest rfl hb
    exact after_lookup hb
  · rw [respond, updateJobStatus_success, mem_after_iff]
  · rw [after_append, applyCommand_lookup hr hn]

end Commands

end SledStateMachine

end All4One.Raft
