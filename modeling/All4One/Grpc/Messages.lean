import All4One.Foundation.Text
import All4One.Jobs.Record

open Foundation

namespace All4One.Grpc

inductive Code
  | invalidArgument
  | notFound
  | failedPrecondition
  | unauthenticated
  | internal
  | unavailable
  deriving DecidableEq, Repr

structure Status where
  code    : Code
  message : String
  deriving DecidableEq, Repr

structure ReportJobStatusRequest where
  jobId        : String
  status       : String
  exitCode     : Int32
  error        : String
  sourceNodeId : String
  deriving DecidableEq, Repr

def jobStatusToString : JobStatus → String
  | .queued    => "queued"
  | .scheduled => "scheduled"
  | .running   => "running"
  | .completed => "completed"
  | .failed    => "failed"
  | .cancelled => "cancelled"

def jobStatusFromString (value : String) : JobStatus :=
  match value with
  | "queued"    => .queued
  | "scheduled" => .scheduled
  | "running"   => .running
  | "completed" => .completed
  | "failed"    => .failed
  | "cancelled" => .cancelled
  | _           => .failed

@[simp]
theorem jobStatusFromString_toString (status : JobStatus) :
    jobStatusFromString (jobStatusToString status) = status := by
  cases status <;> rfl

-- The request that the client side of `report_job_status` sends.
def reportJobStatusRequest (jobId : JobId) (v : Verdict) (sourceNodeId : NodeId) :
    ReportJobStatusRequest where
  jobId        := jobId.uuid.toText
  status       := jobStatusToString v.status
  exitCode     := v.exitCode.getD 0
  error        := v.error.getD ""
  sourceNodeId := sourceNodeId.uuid.toText

namespace ReportJobStatusRequest

-- What the server side of `report_job_status` makes of a request.
def verdict (payload : ReportJobStatusRequest) : Verdict :=
  let status := jobStatusFromString payload.status
  { status
    exitCode :=
      match status with
      | .completed => some payload.exitCode
      | .failed    => if payload.exitCode = 0 then none else some payload.exitCode
      | _          => none
    error := if Text.isBlank payload.error then none else some payload.error }

end ReportJobStatusRequest

def applyTerminalJobUpdate (jobs : Jobs) (jobId : JobId) (v : Verdict) (now : DateTime) :
    Except String Jobs :=
  match jobs.lookup jobId with
  | none     => .error s!"job {jobId.uuid.toText} not found on origin node"
  | some job => .ok (jobs.insert jobId (job.report v now))

def reportJobStatus (jobs : Jobs) (payload : ReportJobStatusRequest) (now : DateTime) :
    Except Status Jobs :=
  match Uuid.parseStr payload.jobId with
  | none      => .error ⟨.invalidArgument, "invalid job id in status report"⟩
  | some uuid =>
    match applyTerminalJobUpdate jobs ⟨uuid⟩ payload.verdict now with
    | .error msg => .error ⟨.notFound, msg⟩
    | .ok jobs   => .ok jobs

-- The job table after a report, whatever the answer.
def afterReport (jobs : Jobs) (payload : ReportJobStatusRequest) (now : DateTime) : Jobs :=
  match reportJobStatus jobs payload now with
  | .error _ => jobs
  | .ok jobs => jobs

-- A report changes at most the record of the job it names.
theorem afterReport_eq_modify (jobs : Jobs) (payload : ReportJobStatusRequest) (now : DateTime) :
    afterReport jobs payload now =
    match Uuid.parseStr payload.jobId with
    | none      => jobs
    | some uuid => HashMap.modify jobs ⟨uuid⟩ (·.report payload.verdict now) := by
  cases hp : Uuid.parseStr payload.jobId
  case none => simp [afterReport, reportJobStatus, hp]
  case some uuid =>
    cases hj : jobs.lookup ⟨uuid⟩ <;>
      simp [afterReport, reportJobStatus, hp, applyTerminalJobUpdate, HashMap.modify, hj]

@[simp]
theorem reportJobStatusRequest_verdict_status (jobId : JobId) (v : Verdict) (source : NodeId) :
    (reportJobStatusRequest jobId v source).verdict.status = v.status := by
  simp [reportJobStatusRequest, ReportJobStatusRequest.verdict]

theorem not_isBlank_error {o : Outcome} {err : String} (h : o.verdict.error = some err) :
    Text.isBlank err = false := by
  cases o
  case exited code =>
    simp only [Outcome.verdict] at h
    split at h
    case isTrue => cases h
    case isFalse =>
      cases h
      simp only [Text.isBlank_append, Bool.and_eq_false_imp]
      exact fun h => absurd h (by decide)
  all_goals
    cases h
    simp only [Text.isBlank_append, Bool.and_eq_false_imp]
    exact fun h => absurd h (by decide)

-- An exit code of 0 and an empty error stand for none, and the outcome of a process needs neither:
-- it comes back as it was sent.
theorem reportJobStatusRequest_verdict (jobId : JobId) (o : Outcome) (source : NodeId) :
    (reportJobStatusRequest jobId o.verdict source).verdict = o.verdict := by
  have herr : (if Text.isBlank (o.verdict.error.getD "") then none
      else some (o.verdict.error.getD "")) = o.verdict.error := by
    cases he : o.verdict.error
    case none     => simp [Text.isBlank]
    case some err => simp [not_isBlank_error he]
  have hexit : (match o.verdict.status with
      | .completed => some (o.verdict.exitCode.getD 0)
      | .failed    => if o.verdict.exitCode.getD 0 = 0 then none else some (o.verdict.exitCode.getD 0)
      | _          => none) = o.verdict.exitCode := by
    cases o
    case exited code => by_cases h : Outcome.code code = 0 <;> simp [Outcome.verdict, h]
    all_goals rfl
  simp only [ReportJobStatusRequest.verdict, reportJobStatusRequest, jobStatusFromString_toString]
  exact congrArg₂ (Verdict.mk o.verdict.status) hexit herr

theorem afterReport_request (jobs : Jobs) (jobId : JobId) (v : Verdict) (source : NodeId)
    (now : DateTime) :
    afterReport jobs (reportJobStatusRequest jobId v source) now =
    HashMap.modify jobs jobId (·.report (reportJobStatusRequest jobId v source).verdict now) := by
  rw [afterReport_eq_modify]
  simp [reportJobStatusRequest]

end All4One.Grpc
