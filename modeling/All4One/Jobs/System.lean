import All4One.Foundation.Transition
import All4One.Jobs.Submit
import Mathlib.Logic.Function.Basic

open Foundation Transition

namespace All4One

-- What the agents are told about themselves, and the agent that is reached at an endpoint.
structure Network where
  localNode : NodeId → NodeInfo
  route     : String → Option NodeId

-- On whose behalf `dispatch_to_assigned` runs: `enqueue_job` itself, or the retry task in a round
-- after which so many remain.
inductive Caller
  | enqueue
  | retry (rounds : Nat)
  deriving DecidableEq, Repr

-- What the origin of a job does about it next.
inductive TaskPhase
  | dispatching (caller : Caller) (assigned : NodeId)
  | submitting (caller : Caller) (assigned : NodeId) (endpoint : String)
  -- The remote node has processed the call of `submit_remote`, its reply is on its way.
  | accepted (caller : Caller) (assigned : NodeId)
  | sleeping (rounds : Nat)
  | checked (rounds : Nat)
  | finished
  deriving DecidableEq, Repr

-- The task that a call of `enqueue_job` leaves behind on the origin of the job.
structure Task where
  node       : NodeId
  jobId      : JobId
  request    : SubmitJobRequest
  scheduling : SchedulingRequest
  phase      : TaskPhase
  deriving DecidableEq, Repr

namespace TaskPhase

def resume (rounds : Nat) : TaskPhase :=
  if rounds = 0 then finished else sleeping rounds

-- `dispatch_to_assigned` has returned `false`: `enqueue_job` ignores it, the retry task goes on.
def afterFailure : Caller → TaskPhase
  | .enqueue      => finished
  | .retry rounds => resume rounds

end TaskPhase

def enqueueJob (localNode : NodeInfo) (node : NodeId) (jobs : Jobs) (cluster : ClusterState)
    (request : SubmitJobRequest) (jobId : JobId) (now : DateTime) :
    Except String (SubmitJobResponse × Jobs × Task) :=
  if ¬ request.isValid then
    .error SubmitJobRequest.invalidResources
  else
    let scheduling := request.scheduling
    let assigned   := pickNode localNode cluster scheduling
    let assignedTo := assigned.getD node
    let jobs       := Finmap.insert jobId (.queued jobId assignedTo request now) jobs
    let phase      :=
      match assigned with
      | some nodeId => .dispatching .enqueue nodeId
      | none        => .sleeping 60
    .ok (⟨jobId, .queued, assignedTo, now⟩, jobs, { node, jobId, request, scheduling, phase })

structure JobSystem where
  jobs      : NodeId → Jobs
  clusters  : NodeId → ClusterState
  tasks     : List Task
  executors : List Executor
  -- Calls of `submit_remote` that have returned an error, and that may still reach their node.
  late      : List (NodeId × Grpc.SubmitJobRequest)

namespace JobSystem

def init (clusters : NodeId → ClusterState) : JobSystem where
  jobs _    := ∅
  clusters  := clusters
  tasks     := []
  executors := []
  late      := []

def setJobs (s : JobSystem) (n : NodeId) (jobs : Jobs) : JobSystem :=
  { s with jobs := Function.update s.jobs n jobs }

def setTask (s : JobSystem) (k : Nat) (phase : TaskPhase) : JobSystem :=
  { s with tasks := s.tasks.modify k ({ · with phase }) }

def setExecutor (s : JobSystem) (k : Nat) (phase : ExecutorPhase) : JobSystem :=
  { s with executors := s.executors.modify k ({ · with phase }) }

def spawn (s : JobSystem) (e : Executor) : JobSystem :=
  { s with executors := s.executors ++ [e] }

def setLate (s : JobSystem) (late : List (NodeId × Grpc.SubmitJobRequest)) : JobSystem :=
  { s with late }

-- `JobId::new` draws an id that nobody has drawn before.
structure IsFresh (s : JobSystem) (n : NodeId) (jobId : JobId) : Prop where
  jobs      : (s.jobs n).lookup jobId = none
  tasks     : ∀ t ∈ s.tasks, t.jobId ≠ jobId
  executors : ∀ e ∈ s.executors, e.jobId ≠ jobId
  late      : ∀ c ∈ s.late, c.2.job? ≠ some jobId

instance (s : JobSystem) (n : NodeId) (jobId : JobId) : Decidable (s.IsFresh n jobId) :=
  decidable_of_iff ((s.jobs n).lookup jobId = none ∧ (∀ t ∈ s.tasks, t.jobId ≠ jobId) ∧
    (∀ e ∈ s.executors, e.jobId ≠ jobId) ∧ ∀ c ∈ s.late, c.2.job? ≠ some jobId)
    ⟨fun ⟨j, t, e, c⟩ => ⟨j, t, e, c⟩, fun ⟨j, t, e, c⟩ => ⟨j, t, e, c⟩⟩

end JobSystem

-- An event is one step of one task between two points where the task waits.
inductive JobSystem.Event
  -- `enqueue_job`, by `POST /v1/jobs` or by a `SubmitJob` that names no job.
  | enqueue (n : NodeId) (request : SubmitJobRequest) (jobId : JobId) (now : DateTime)
  -- The retry task looks at the record after its sleep, and picks a node.
  | wake (k : Nat)
  | pick (k : Nat)
  | dispatch (k : Nat)
  -- The call of `submit_remote` is processed, or returns an error before that. It may still be
  -- processed after its error.
  | submit (k : Nat) (now : DateTime)
  | loseSubmit (k : Nat)
  | submitLate (i : Nat) (now : DateTime)
  -- The reply to `submit_remote` arrives, or is lost.
  | reply (k : Nat) (now : DateTime)
  | loseReply (k : Nat)
  -- The steps of `spawn_job`.
  | start (k : Nat) (now : DateTime)
  | spawn (k : Nat)
  | exit (k : Nat) (o : Outcome)
  | finish (k : Nat) (now : DateTime)
  -- The call of `report_job_status` is processed, or fails before that.
  | report (k : Nat) (now : DateTime)
  | loseReport (k : Nat)
  | delete (n : NodeId) (jobId : JobId) (now : DateTime)
  -- The view that a node has of the cluster changes in whatever way.
  | gossip (n : NodeId) (cluster : ClusterState)
  -- Calls from outside of the agents' own code.
  | foreignSubmit (n : NodeId) (request : Grpc.SubmitJobRequest) (now : DateTime)
  | foreignReport (n : NodeId) (payload : Grpc.ReportJobStatusRequest) (now : DateTime)

-- The request that a task has on its way, and the node that it reaches.
def Task.submission (net : Network) (t : Task) : Option (NodeId × Grpc.SubmitJobRequest) :=
  match t.phase with
  | .submitting _ _ endpoint =>
    (net.route endpoint).map fun m =>
      (m, Grpc.submitRemoteRequest t.jobId (net.localNode t.node).grpcEndpoint t.request)
  | _ => none

-- The report that an executor has on its way, and the node that it reaches.
def Executor.submission (net : Network) (e : Executor) :
    Option (NodeId × Grpc.ReportJobStatusRequest) :=
  match e.phase, e.callback with
  | .reporting o, some callback =>
    (net.route callback.originEndpoint).map fun n =>
      (n, Grpc.reportJobStatusRequest e.jobId o.verdict callback.sourceNodeId)
  | _, _ => none

namespace JobSystem

variable (net : Network) (s : JobSystem)

def enqueue (n : NodeId) (request : SubmitJobRequest) (jobId : JobId) (now : DateTime) :
    Option JobSystem :=
  if s.IsFresh n jobId then
    match enqueueJob (net.localNode n) n (s.jobs n) (s.clusters n) request jobId now with
    | .error _           => some s
    | .ok (_, jobs, task) => some { s.setJobs n jobs with tasks := s.tasks ++ [task] }
  else
    none

def wake (k : Nat) (t : Task) : Option JobSystem :=
  match t.phase with
  | .sleeping (rounds + 1) =>
    match (s.jobs t.node).lookup t.jobId with
    | none     => some (s.setTask k .finished)
    | some job =>
      if job.status ≠ .queued then
        some (s.setTask k .finished)
      else
        some (s.setTask k (.checked rounds))
  | _ => none

def pick (k : Nat) (t : Task) : Option JobSystem :=
  match t.phase with
  | .checked rounds =>
    match pickNode (net.localNode t.node) (s.clusters t.node) t.scheduling with
    | none          => some (s.setTask k (.resume rounds))
    | some nextNode => some (s.setTask k (.dispatching (.retry rounds) nextNode))
  | _ => none

def dispatch (k : Nat) (t : Task) : Option JobSystem :=
  match t.phase with
  | .dispatching caller assigned =>
    if assigned = t.node then
      some ((s.setTask k .finished).spawn (.spawnJob t.node t.jobId none))
    else
      match (s.clusters t.node).nodes.lookup assigned with
      | some info => some (s.setTask k (.submitting caller assigned info.grpcEndpoint))
      | none      => some (s.setTask k (.afterFailure caller))
  | _ => none

def submit (k : Nat) (t : Task) (now : DateTime) : Option JobSystem :=
  match t.phase, t.submission net with
  | .submitting caller assigned _, some (m, request) =>
    match Grpc.submitJob m (s.jobs m) request now with
    | .error _              => some (s.setTask k (.afterFailure caller))
    | .ok (_, jobs, executor) =>
      some (((s.setJobs m jobs).setTask k (.accepted caller assigned)).spawn executor)
  | _, _ => none

def loseSubmit (k : Nat) (t : Task) : Option JobSystem :=
  match t.phase with
  | .submitting caller _ _ =>
    some ((s.setTask k (.afterFailure caller)).setLate (s.late ++ (t.submission net).toList))
  | _ => none

def submitLate (i : Nat) (m : NodeId) (request : Grpc.SubmitJobRequest) (now : DateTime) :
    JobSystem :=
  let s := s.setLate (s.late.eraseIdx i)
  match Grpc.submitJob m (s.jobs m) request now with
  | .error _                => s
  | .ok (_, jobs, executor) => (s.setJobs m jobs).spawn executor

def reply (k : Nat) (t : Task) (now : DateTime) : Option JobSystem :=
  match t.phase with
  | .accepted _ assigned =>
    let jobs := (s.jobs t.node).modify t.jobId (·.dispatched assigned now)
    some ((s.setJobs t.node jobs).setTask k .finished)
  | _ => none

def loseReply (k : Nat) (t : Task) : Option JobSystem :=
  match t.phase with
  | .accepted caller _ => some (s.setTask k (.afterFailure caller))
  | _                  => none

def start (k : Nat) (e : Executor) (now : DateTime) : Option JobSystem :=
  match e.phase with
  | .spawned =>
    match (s.jobs e.node).lookup e.jobId with
    | none   => some (s.setExecutor k .finished)
    | some _ =>
      let jobs := (s.jobs e.node).modify e.jobId (·.start now)
      some ((s.setJobs e.node jobs).setExecutor k .started)
  | _ => none

def spawnProcess (k : Nat) (e : Executor) : Option JobSystem :=
  match e.phase with
  | .started => some (s.setExecutor k .running)
  | _        => none

-- The process cannot be spawned, or it has been spawned and ends.
def exit (k : Nat) (e : Executor) (o : Outcome) : Option JobSystem :=
  match e.phase, o with
  | .started, .spawnFailed _ => some (s.setExecutor k (.ended o))
  | .running, .exited _      => some (s.setExecutor k (.ended o))
  | .running, .waitFailed _  => some (s.setExecutor k (.ended o))
  | _, _                     => none

def finish (k : Nat) (e : Executor) (now : DateTime) : Option JobSystem :=
  match e.phase with
  | .ended o =>
    let jobs  := (s.jobs e.node).modify e.jobId (·.finish o now)
    let phase := if e.callback.isSome then .reporting o else .finished
    some ((s.setJobs e.node jobs).setExecutor k phase)
  | _ => none

def report (k : Nat) (e : Executor) (now : DateTime) : Option JobSystem :=
  match e.submission net with
  | some (n, payload) =>
    some ((s.setJobs n (Grpc.afterReport (s.jobs n) payload now)).setExecutor k .finished)
  | none => none

def loseReport (k : Nat) (e : Executor) : Option JobSystem :=
  match e.phase with
  | .reporting _ => some (s.setExecutor k .finished)
  | _            => none

def delete (n : NodeId) (jobId : JobId) (now : DateTime) : JobSystem :=
  match (s.jobs n).lookup jobId with
  | none     => s
  | some job =>
    if job.status.isTerminal then s else s.setJobs n (Finmap.insert jobId (job.cancel now) (s.jobs n))

def foreignSubmit (n : NodeId) (request : Grpc.SubmitJobRequest) (now : DateTime) :
    Option JobSystem :=
  if Text.isBlank request.jobId then
    none
  else
    match Grpc.submitJob n (s.jobs n) request now with
    | .error _                => some s
    | .ok (_, jobs, executor) => some ((s.setJobs n jobs).spawn executor)

-- What an event does if nobody keeps it from its job table.
def act : Event → Option JobSystem
  | .enqueue n request jobId now     => s.enqueue net n request jobId now
  | .wake k                          => s.tasks[k]?.bind (s.wake k)
  | .pick k                          => s.tasks[k]?.bind (s.pick net k)
  | .dispatch k                      => s.tasks[k]?.bind (s.dispatch k)
  | .submit k now                    => s.tasks[k]?.bind (s.submit net k · now)
  | .loseSubmit k                    => s.tasks[k]?.bind (s.loseSubmit net k)
  | .submitLate i now                => s.late[i]?.map fun (m, request) => s.submitLate i m request now
  | .reply k now                     => s.tasks[k]?.bind (s.reply k · now)
  | .loseReply k                     => s.tasks[k]?.bind (s.loseReply k)
  | .start k now                     => s.executors[k]?.bind (s.start k · now)
  | .spawn k                         => s.executors[k]?.bind (s.spawnProcess k)
  | .exit k o                        => s.executors[k]?.bind (s.exit k · o)
  | .finish k now                    => s.executors[k]?.bind (s.finish k · now)
  | .report k now                    => s.executors[k]?.bind (s.report net k · now)
  | .loseReport k                    => s.executors[k]?.bind (s.loseReport k)
  | .delete n jobId now              => some (s.delete n jobId now)
  | .gossip n cluster                =>
    some { s with clusters := Function.update s.clusters n cluster }
  | .foreignSubmit n request now     => s.foreignSubmit n request now
  | .foreignReport n payload now     =>
    some (s.setJobs n (Grpc.afterReport (s.jobs n) payload now))

-- An executor of the node has its report on its way, and the guard on the job table in its hands.
def IsLocked (n : NodeId) : Prop :=
  ∃ e ∈ s.executors, e.node = n ∧ e.phase.holdsGuard

instance (n : NodeId) : Decidable (s.IsLocked n) :=
  inferInstanceAs (Decidable (∃ e ∈ s.executors, _))

-- The node whose job table an event takes a guard on. A call that does not pass its checks, and all
-- that happens between two looks at a table, take none.
def table : Event → Option NodeId
  | .enqueue n request _ _       => if request.isValid then some n else none
  | .wake k | .reply k _         => s.tasks[k]?.map (·.node)
  | .submit k _                  => do
    let t ← s.tasks[k]?
    let (m, request) ← t.submission net
    request.job?.map fun _ => m
  | .submitLate i _              => do
    let (m, request) ← s.late[i]?
    request.job?.map fun _ => m
  | .start k _ | .finish k _     => s.executors[k]?.map (·.node)
  | .report k _                  => do
    let e ← s.executors[k]?
    (e.submission net).map (·.1)
  | .delete n _ _                => some n
  | .foreignSubmit n request _   => request.job?.map fun _ => n
  | .foreignReport n payload _   => (Uuid.parseStr payload.jobId).map fun _ => n
  | _                            => none

-- An event that needs the job table of a node waits until nobody keeps the guard on it.
def step (ev : Event) : Option JobSystem :=
  if ∀ n ∈ s.table net ev, ¬ s.IsLocked n then s.act net ev else none

end JobSystem

end All4One
