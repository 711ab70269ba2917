import All4One.Common.Id
import All4One.Foundation.Broadcast
import All4One.Foundation.LineReader
import All4One.Foundation.Transition

open Foundation Broadcast

namespace All4One.Output

inductive Source
  | stdout
  | stderr
  deriving DecidableEq

-- A pipe that a process writes to, and the task that reads it line by line.
structure Pipe where
  unread  : Bytes
  closed  : Bool
  reading : Bool
  deriving DecidableEq

namespace Pipe

variable (p : Pipe)

def new : Pipe where
  unread  := []
  closed  := false
  reading := true

def write (bytes : Bytes) : Option Pipe :=
  if p.closed then none else some { p with unread := p.unread ++ bytes }

def close : Option Pipe :=
  if p.closed then none else some { p with closed := true }

-- `while let Ok(Some(line)) = lines.next_line().await`
def read : Option (Pipe × Option String) :=
  if !p.reading then
    none
  else
    match LineReader.next p.closed p.unread with
    | .waits         => none
    | .ends          => some ({ p with reading := false }, none)
    | .line raw rest =>
      match raw.toString? with
      | none      => some ({ p with unread := rest, reading := false }, none)
      | some line => some ({ p with unread := rest }, some line)

end Pipe

-- What `spawn_job` has to do with a process that runs.
structure Executor where
  job      : JobId
  stdout   : Pipe
  stderr   : Pipe
  finished : Bool

namespace Executor

variable (x : Executor)

def start (job : JobId) : Executor where
  job      := job
  stdout   := .new
  stderr   := .new
  finished := false

def pipe : Source → Pipe
  | .stdout => x.stdout
  | .stderr => x.stderr

def setPipe (p : Pipe) : Source → Executor
  | .stdout => { x with stdout := p }
  | .stderr => { x with stderr := p }

-- The outcome of the process is only looked at when all of its output has been read.
def finish : Option Executor :=
  if x.finished ∨ x.stdout.reading ∨ x.stderr.reading then none else some { x with finished := true }

end Executor

-- Who has something to say about a job.
inductive Speaker
  | spawnJob
  | executor (i : Nat) (source : Source)
  deriving DecidableEq

structure Said where
  job     : JobId
  speaker : Speaker
  line    : String
  deriving DecidableEq

-- What is sent to the channel of the job.
def Said.text (said : Said) : String :=
  match said.speaker with
  | .spawnJob            => "[executor:error] spawn failed: " ++ said.line
  | .executor _ .stdout  => said.line
  | .executor _ .stderr  => "[stderr] " ++ said.line

-- A request to `stream_output`, and the lines that its client has been sent.
structure Stream where
  job        : JobId
  subscribed : Bool
  received   : List String
  deriving DecidableEq

-- The channels of the jobs, the clients that listen, and the executors of a node.
structure State where
  channels  : HashMap JobId (Channel Nat String 256)
  streams   : HashMap Nat Stream
  executors : List Executor

inductive Event
  | openStream (client : Nat) (job : JobId)
  | subscribe (client : Nat)
  | poll (client : Nat)
  | leave (client : Nat)
  | spawn (job : JobId)
  | spawnFails (job : JobId) (err : String)
  | write (i : Nat) (source : Source) (bytes : Bytes)
  | close (i : Nat) (source : Source)
  | read (i : Nat) (source : Source)
  | finish (i : Nat)

namespace State

def start : State where
  channels  := ∅
  streams   := ∅
  executors := []

variable (s : State)

-- `channels.entry(job).or_insert_with(..)`
def channel (job : JobId) : Channel Nat String 256 :=
  (s.channels.lookup job).getD .empty

def setChannel (job : JobId) (c : Channel Nat String 256) : State :=
  { s with channels := s.channels.insert job c }

def setStream (client : Nat) (stream : Stream) : State :=
  { s with streams := s.streams.insert client stream }

def setExecutor (i : Nat) (x : Executor) : State :=
  { s with executors := s.executors.set i x }

def say (said : Said) : State :=
  s.setChannel said.job ((s.channel said.job).send said.text)

-- The connection to a client is at its end.
def drop (client : Nat) (job : JobId) : State :=
  { s.setChannel job ((s.channel job).leave client) with streams := s.streams.erase client }

-- What an event has to say.
def tells : Event → List Said
  | .spawnFails job err => [⟨job, .spawnJob, err⟩]
  | .read i source      => ((do
    let x ← s.executors[i]?
    let (_, line) ← (x.pipe source).read
    return ⟨x.job, .executor i source, ← line⟩) : Option Said).toList
  | _                   => []

def act : Event → Option State
  | .openStream client job =>
    match s.streams.lookup client with
    | some _ => none
    | none   => some ((s.setChannel job (s.channel job)).setStream client ⟨job, false, []⟩)
  | .subscribe client => do
    let stream ← s.streams.lookup client
    if stream.subscribed then
      none
    else
      return (s.setChannel stream.job ((s.channel stream.job).subscribe client)).setStream client
        { stream with subscribed := true }
  | .poll client => do
    let stream ← s.streams.lookup client
    let (r, c) ← (s.channel stream.job).receive client
    let s := s.setChannel stream.job c
    match r with
    | .message line =>
      -- `Event::data` panics at a carriage return.
      if '\r' ∈ line.toList then
        return s.drop client stream.job
      else
        return s.setStream client { stream with received := stream.received ++ [line] }
    | .lagged _     => return s
  | .leave client => do
    let stream ← s.streams.lookup client
    return s.drop client stream.job
  | .spawn job =>
    some { s.setChannel job (s.channel job) with executors := s.executors ++ [.start job] }
  | .spawnFails job _ => some (s.setChannel job (s.channel job))
  | .write i source bytes => do
    let x ← s.executors[i]?
    return s.setExecutor i (x.setPipe (← (x.pipe source).write bytes) source)
  | .close i source => do
    let x ← s.executors[i]?
    return s.setExecutor i (x.setPipe (← (x.pipe source).close) source)
  | .read i source => do
    let x ← s.executors[i]?
    return s.setExecutor i (x.setPipe (← (x.pipe source).read).1 source)
  | .finish i => do
    let x ← s.executors[i]?
    return s.setExecutor i (← x.finish)

-- What is said is sent to the channel of the job at once.
def step (e : Event) : Option State :=
  (s.act e).map fun s' => (s.tells e).foldl say s'

end State

end All4One.Output
