import All4One.Jobs.System

open Foundation Transition

namespace All4One

-- What `spawn_job` gets to know about the process that it is to run.
structure JobArgs where
  runtime   : Runtime
  source    : String
  command   : List String
  resources : JobResources
  deriving DecidableEq, Repr

def SubmitJobRequest.args (request : SubmitJobRequest) : JobArgs where
  runtime   := request.runtime
  source    := request.source
  command   := request.command
  resources := request.resources

structure Command where
  program   : String
  args      : List String
  -- What the process sets `RLIMIT_AS` to before it runs the program.
  addrLimit : Option UInt64
  deriving DecidableEq, Repr

namespace Command

def new (program : String) : Command where
  program   := program
  args      := []
  addrLimit := none

def arg (c : Command) (arg : String) : Command :=
  { c with args := c.args ++ [arg] }

def addArgs (c : Command) (args : List String) : Command :=
  { c with args := c.args ++ args }

end Command

-- `a.saturating_mul(b)`
def saturatingMul (a b : UInt64) : UInt64 :=
  if a.toNat * b.toNat < 2 ^ 64 then a * b else .ofNat (2 ^ 64 - 1)

def applyNonDockerMemoryLimit (c : Command) (resources : JobResources) : Command :=
  let limitBytes := saturatingMul (saturatingMul resources.memoryMb.toUInt64 1024) 1024
  { c with addrLimit := some limitBytes }

def buildCommand (job : JobArgs) : Command :=
  match job.runtime with
  | .executable =>
    applyNonDockerMemoryLimit ((Command.new job.source).addArgs job.command) job.resources
  | .python =>
    let c := Command.new "python3"
    let c := if job.command.isEmpty then (c.arg "-c").arg job.source else c.addArgs job.command
    applyNonDockerMemoryLimit c job.resources
  | .jar =>
    let c := (((Command.new "java").arg "-jar").arg job.source).addArgs job.command
    applyNonDockerMemoryLimit c job.resources
  | .wasm =>
    let c := ((Command.new "wasmtime").arg job.source).addArgs job.command
    applyNonDockerMemoryLimit c job.resources
  | .docker =>
    let memoryArg := s!"{job.resources.memoryMb}m"
    ((((((((((Command.new "docker").arg "run").arg "--rm").arg "--memory").arg memoryArg).arg
      "--memory-swap").arg memoryArg).arg "--cpus").arg s!"{job.resources.cpuCores}").arg
        job.source).addArgs job.command

-- The jobs together with what each executor, in the order of their list, has been started with.
structure CommandSystem where
  system : JobSystem
  args   : List JobArgs

namespace CommandSystem

def init (clusters : NodeId → ClusterState) : CommandSystem where
  system := .init clusters
  args   := []

-- The arguments of the call of `spawn_job` that `submit_job` comes to.
def submitJobArgs (node : NodeId) (jobs : Jobs) (request : Grpc.SubmitJobRequest) (now : DateTime) :
    Option JobArgs :=
  match Grpc.submitJob node jobs request now with
  | .error _ => none
  | .ok _    => some (Grpc.fromProto request).args

def dispatchArgs (t : Task) : Option JobArgs :=
  match t.phase with
  | .dispatching _ assigned => if assigned = t.node then some t.request.args else none
  | _                       => none

-- The arguments of the call of `spawn_job` that an event comes to.
def spawnArgs (net : Network) (s : JobSystem) : JobSystem.Event → Option JobArgs
  | .dispatch k   => s.tasks[k]?.bind dispatchArgs
  | .submit k now =>
    s.tasks[k]?.bind fun t => (t.submission net).bind fun (m, request) =>
      submitJobArgs m (s.jobs m) request now
  | .submitLate i now          => s.late[i]?.bind fun (m, request) => submitJobArgs m (s.jobs m) request now
  | .foreignSubmit n request now => submitJobArgs n (s.jobs n) request now
  | _                          => none

def step (net : Network) (s : CommandSystem) (ev : JobSystem.Event) : Option CommandSystem :=
  (s.system.step net ev).map fun system => {
    system
    args := s.args ++ (spawnArgs net s.system ev).toList
  }

-- The command of an executor.
def command (s : CommandSystem) (k : Nat) : Option Command :=
  s.args[k]?.map buildCommand

end CommandSystem

end All4One
