import All4One.Common.Id
import All4One.Common.Job
import All4One.Foundation.HashMap

open Foundation

namespace All4One

-- The reading of a wall clock.
abbrev DateTime := Nat

structure JobRecord where
  jobId      : JobId
  status     : JobStatus
  assignedTo : NodeId
  runtime    : Runtime
  source     : String
  command    : List String
  createdAt  : DateTime
  updatedAt  : DateTime
  exitCode   : Option Int32
  error      : Option String
  deriving DecidableEq, Repr

-- What becomes of a job's process: it cannot be spawned, it ends (without an exit code if a signal
-- ends it), or waiting for it fails.
inductive Outcome
  | spawnFailed (err : String)
  | exited (code : Option Int32)
  | waitFailed (err : String)
  deriving DecidableEq, Repr

-- What an executor reports to the origin of a job.
structure Verdict where
  status   : JobStatus
  exitCode : Option Int32
  error    : Option String
  deriving DecidableEq, Repr

namespace Outcome

-- `exit.code().unwrap_or(-1)`
def code (code : Option Int32) : Int32 :=
  code.getD (-1)

def verdict : Outcome → Verdict
  | spawnFailed err => ⟨.failed, none, some s!"spawn failed: {err}"⟩
  | exited code     =>
    let code := Outcome.code code
    if code = 0 then
      ⟨.completed, some code, none⟩
    else
      ⟨.failed, some code, some s!"process exited with code {code}"⟩
  | waitFailed err => ⟨.failed, none, some s!"wait failed: {err}"⟩

theorem verdict_isTerminal (o : Outcome) : o.verdict.status.isTerminal := by
  cases o
  case exited => simp only [verdict]; split <;> rfl
  all_goals rfl

end Outcome

namespace JobRecord

-- The start step of `spawn_job`.
def start (now : DateTime) (job : JobRecord) : JobRecord :=
  { job with status := .running, updatedAt := now }

-- The step of `spawn_job` that follows the end of the process. Only an exit looks at the status.
def finish (o : Outcome) (now : DateTime) (job : JobRecord) : JobRecord :=
  match o with
  | .spawnFailed err =>
    { job with status := .failed, error := some s!"spawn failed: {err}", updatedAt := now }
  | .exited code =>
    let code := Outcome.code code
    if job.status ≠ .cancelled then
      if code = 0 then
        { job with status := .completed, exitCode := some 0, updatedAt := now }
      else
        { job with
          status := .failed, exitCode := some code,
          error := some s!"process exited with code {code}", updatedAt := now }
    else
      job
  | .waitFailed err =>
    { job with status := .failed, error := some s!"wait failed: {err}", updatedAt := now }

-- The update in `delete_job`.
def cancel (now : DateTime) (job : JobRecord) : JobRecord :=
  { job with status := .cancelled, updatedAt := now }

-- The update in `dispatch_to_assigned` once the remote node has accepted the job.
def dispatched (assigned : NodeId) (now : DateTime) (job : JobRecord) : JobRecord :=
  if job.status = .queued then
    { job with status := .running, assignedTo := assigned, updatedAt := now }
  else
    job

-- The update in `apply_terminal_job_update`.
def report (v : Verdict) (now : DateTime) (job : JobRecord) : JobRecord :=
  { job with status := v.status, exitCode := v.exitCode, error := v.error, updatedAt := now }

@[simp]
theorem start_status (now : DateTime) (job : JobRecord) : (job.start now).status = .running :=
  rfl

@[simp]
theorem cancel_status (now : DateTime) (job : JobRecord) : (job.cancel now).status = .cancelled :=
  rfl

@[simp]
theorem report_status (v : Verdict) (now : DateTime) (job : JobRecord) :
    (job.report v now).status = v.status :=
  rfl

theorem dispatched_status (assigned : NodeId) (now : DateTime) (job : JobRecord) :
    (job.dispatched assigned now).status =
    if job.status = .queued then .running else job.status := by
  simp only [dispatched]
  split <;> rfl

-- An exit leaves a cancelled job cancelled. Otherwise the job gets the status that is reported.
theorem finish_status (o : Outcome) (now : DateTime) (job : JobRecord) :
    (job.finish o now).status =
    match o with
    | .exited _ => if job.status = .cancelled then .cancelled else o.verdict.status
    | _         => o.verdict.status := by
  cases o
  case exited code =>
    by_cases hc : job.status = .cancelled <;> by_cases h0 : Outcome.code code = 0 <;>
      simp [finish, Outcome.verdict, hc, h0]
  all_goals rfl

theorem finish_isTerminal (o : Outcome) (now : DateTime) (job : JobRecord) :
    (job.finish o now).status.isTerminal := by
  rw [finish_status]
  cases o
  case exited =>
    simp only
    split
    · rfl
    · exact Outcome.verdict_isTerminal _
  all_goals exact Outcome.verdict_isTerminal _

end JobRecord

-- The job table of one node.
abbrev Jobs := HashMap JobId JobRecord

end All4One
