import All4One.Grpc.Messages
import All4One.Jobs.Scheduler

open Foundation

namespace All4One

structure SubmitCapabilities where
  docker : Bool := false
  deriving DecidableEq, Repr

structure SubmitConstraints where
  tierMin              : UInt8              := 0
  requiresCapabilities : SubmitCapabilities := {}
  deriving DecidableEq, Repr

structure SubmitJobRequest where
  runtime     : Runtime
  source      : String
  command     : List String
  resources   : JobResources
  constraints : SubmitConstraints
  deriving DecidableEq, Repr

structure SubmitJobResponse where
  jobId      : JobId
  status     : JobStatus
  assignedTo : NodeId
  createdAt  : DateTime
  deriving DecidableEq, Repr

namespace SubmitJobRequest

-- The check that `enqueue_job` and `enqueue_remote_job` share.
def isValid (request : SubmitJobRequest) : Bool :=
  ¬ (request.resources.cpuCores = 0 ∨ request.resources.memoryMb = 0)

def invalidResources : String :=
  "resources.cpu_cores and resources.memory_mb must be > 0"

def scheduling (request : SubmitJobRequest) : SchedulingRequest where
  runtime       := request.runtime
  tierMin       := request.constraints.tierMin
  requireDocker := request.constraints.requiresCapabilities.docker

end SubmitJobRequest

def JobRecord.queued (jobId : JobId) (assignedTo : NodeId) (request : SubmitJobRequest)
    (now : DateTime) : JobRecord where
  jobId      := jobId
  status     := .queued
  assignedTo := assignedTo
  runtime    := request.runtime
  source     := request.source
  command    := request.command
  createdAt  := now
  updatedAt  := now
  exitCode   := none
  error      := none

structure JobCompletionCallback where
  originEndpoint : String
  sourceNodeId   : NodeId
  deriving DecidableEq, Repr

-- Where the task of `spawn_job` is.
inductive ExecutorPhase
  | spawned
  | started
  | running
  | ended (o : Outcome)
  | reporting (o : Outcome)
  | finished
  deriving DecidableEq, Repr

-- The write guard that the end of a job is recorded under is kept until its report has been answered.
def ExecutorPhase.holdsGuard : ExecutorPhase → Bool
  | .reporting _ => true
  | _            => false

-- A task started by `spawn_job` on a node.
structure Executor where
  node     : NodeId
  jobId    : JobId
  callback : Option JobCompletionCallback
  phase    : ExecutorPhase
  deriving DecidableEq, Repr

namespace Executor

def spawnJob (node : NodeId) (jobId : JobId) (callback : Option JobCompletionCallback) :
    Executor where
  node     := node
  jobId    := jobId
  callback := callback
  phase    := .spawned

end Executor

def enqueueRemoteJob (node : NodeId) (jobs : Jobs) (jobId : JobId) (request : SubmitJobRequest)
    (originEndpoint : Option String) (now : DateTime) :
    Except String (SubmitJobResponse × Jobs × Executor) :=
  if ¬ request.isValid then
    .error SubmitJobRequest.invalidResources
  else
    let jobs     := Finmap.insert jobId (.queued jobId node request now) jobs
    let callback := originEndpoint.map fun endpoint => ⟨endpoint, node⟩
    .ok (⟨jobId, .queued, node, now⟩, jobs, .spawnJob node jobId callback)

namespace Grpc

structure SubmitJobRequest where
  runtime        : String
  source         : String
  command        : List String
  cpuCores       : UInt32
  memoryMb       : UInt32
  jobId          : String
  originEndpoint : String
  deriving DecidableEq, Repr

def runtimeToString : Runtime → String
  | .docker     => "docker"
  | .python     => "python"
  | .jar        => "jar"
  | .executable => "executable"
  | .wasm       => "wasm"

def runtimeFromString (value : String) : Runtime :=
  match value with
  | "docker" => .docker
  | "python" => .python
  | "jar"    => .jar
  | "wasm"   => .wasm
  | _        => .executable

@[simp]
theorem runtimeFromString_toString (runtime : Runtime) :
    runtimeFromString (runtimeToString runtime) = runtime := by
  cases runtime <;> rfl

-- The request that `submit_remote` sends.
def submitRemoteRequest (jobId : JobId) (originEndpoint : String)
    (request : All4One.SubmitJobRequest) : SubmitJobRequest where
  runtime        := runtimeToString request.runtime
  source         := request.source
  command        := request.command
  cpuCores       := request.resources.cpuCores
  memoryMb       := request.resources.memoryMb
  jobId          := jobId.uuid.toText
  originEndpoint := originEndpoint

def fromProto (request : SubmitJobRequest) : All4One.SubmitJobRequest where
  runtime     := runtimeFromString request.runtime
  source      := request.source
  command     := request.command
  resources   := ⟨request.cpuCores, request.memoryMb⟩
  constraints := {}

-- The constraints have done their work at the origin and are not sent along.
theorem fromProto_submitRemoteRequest (jobId : JobId) (endpoint : String)
    (request : All4One.SubmitJobRequest) :
    fromProto (submitRemoteRequest jobId endpoint request) = { request with constraints := {} } := by
  simp [fromProto, submitRemoteRequest]

theorem isValid_fromProto_submitRemoteRequest (jobId : JobId) (endpoint : String)
    (request : All4One.SubmitJobRequest) :
    (fromProto (submitRemoteRequest jobId endpoint request)).isValid = request.isValid := by
  rw [fromProto_submitRemoteRequest]
  rfl

-- The job that a node runs on a request, where the request passes its checks.
def SubmitJobRequest.job? (request : SubmitJobRequest) : Option JobId :=
  if (fromProto request).isValid then (Uuid.parseStr request.jobId).map JobId.mk else none

theorem job?_submitRemoteRequest (jobId : JobId) (endpoint : String)
    (request : All4One.SubmitJobRequest) :
    (submitRemoteRequest jobId endpoint request).job? =
    if request.isValid then some jobId else none := by
  rw [SubmitJobRequest.job?, isValid_fromProto_submitRemoteRequest]
  simp [submitRemoteRequest]

-- `submit_job` for a request that names a job. One that does not is a new job of the node.
def submitJob (node : NodeId) (jobs : Jobs) (request : SubmitJobRequest) (now : DateTime) :
    Except Status (SubmitJobResponse × Jobs × Executor) :=
  match Uuid.parseStr request.jobId with
  | none      => .error ⟨.invalidArgument, "invalid delegated job id"⟩
  | some uuid =>
    let originEndpoint :=
      if Text.isBlank request.originEndpoint then none else some request.originEndpoint
    match enqueueRemoteJob node jobs ⟨uuid⟩ (fromProto request) originEndpoint now with
    | .error msg => .error ⟨.invalidArgument, msg⟩
    | .ok result => .ok result

def SubmitJobRequest.callback (request : SubmitJobRequest) (node : NodeId) :
    Option JobCompletionCallback :=
  if Text.isBlank request.originEndpoint then none else some ⟨request.originEndpoint, node⟩

section Cases

variable {node : NodeId} {jobs : Jobs} {request : SubmitJobRequest} {now : DateTime} {jobId : JobId}

-- A request that passes the checks starts an executor, whatever the node knows about the job.
theorem submitJob_of_job?_some (h : request.job? = some jobId) :
    submitJob node jobs request now = .ok (
      ⟨jobId, .queued, node, now⟩,
      Finmap.insert jobId (.queued jobId node (fromProto request) now) jobs,
      .spawnJob node jobId (request.callback node)
    ) := by
  simp only [SubmitJobRequest.job?, Option.ite_none_right_eq_some, Option.map_eq_some_iff] at h
  have ⟨hv, _, hp, hj⟩ := h
  subst hj
  by_cases hb : Text.isBlank request.originEndpoint <;>
    simp [submitJob, enqueueRemoteJob, SubmitJobRequest.callback, hp, hv, hb]

theorem submitJob_of_job?_none (node : NodeId) (jobs : Jobs) (now : DateTime)
    (h : request.job? = none) :
    ∃ status, submitJob node jobs request now = .error status := by
  cases hp : Uuid.parseStr request.jobId
  case none => simp [submitJob, hp]
  case some =>
    have hv : (fromProto request).isValid = false := by simpa [SubmitJobRequest.job?, hp] using h
    simp [submitJob, enqueueRemoteJob, hp, hv]

end Cases

end Grpc

end All4One
