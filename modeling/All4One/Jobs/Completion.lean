import All4One.Foundation.Cycle
import All4One.Foundation.Transition
import All4One.Grpc.Messages
import Mathlib.Logic.Function.Basic

open Foundation Transition

namespace All4One

-- A job that `node` runs on behalf of `origin`.
structure Delegated where
  jobId   : JobId
  node    : NodeId
  origin  : NodeId
  outcome : Outcome

namespace Completion

-- Where the executor task of a delegated job is in the completion part of `spawn_job`.
inductive Phase
  | running    -- The process has not ended yet.
  | ended      -- The task waits for the write guard on its node's job table.
  | holding    -- The guard is taken and the record updated.
  | reporting  -- `ReportJobStatus` is on its way to the origin.
  | handling   -- The handler at the origin waits for the origin's job table.
  | replying   -- The handler has updated the record, its reply is on its way.
  | done       -- The match arm has ended and the guard is gone.
  deriving DecidableEq, Repr

-- The report has been sent and its reply has not come back.
def Phase.isOutstanding : Phase → Bool
  | reporting | handling | replying => true
  | _                               => false

structure State (ι : Type) where
  phase : ι → Phase
  lock  : NodeId → Option ι
  jobs  : NodeId → Jobs

inductive Event (ι : Type)
  | exit (i : ι)
  | acquire (i : ι) (now : DateTime)
  | send (i : ι)
  | deliver (i : ι)
  | handle (i : ι) (now : DateTime)
  | reply (i : ι)

-- The end of a process is not a step of an executor, a handler or the network.
def Event.isExit {ι : Type} : Event ι → Bool
  | exit _ => true
  | _      => false

variable {ι : Type} [DecidableEq ι] (d : ι → Delegated)

def init (jobs : NodeId → Jobs) : State ι where
  phase _ := .running
  lock _  := none
  jobs    := jobs

def step (s : State ι) : Event ι → Option (State ι)
  | .exit i =>
    if s.phase i = .running then
      some { s with phase := Function.update s.phase i .ended }
    else
      none
  | .acquire i now =>
    let n := (d i).node
    if s.phase i = .ended ∧ s.lock n = none then
      let jobs := (s.jobs n).modify (d i).jobId (·.finish (d i).outcome now)
      some {
        phase := Function.update s.phase i .holding
        lock  := Function.update s.lock n (some i)
        jobs  := Function.update s.jobs n jobs
      }
    else
      none
  | .send i =>
    if s.phase i = .holding then
      some { s with phase := Function.update s.phase i .reporting }
    else
      none
  | .deliver i =>
    if s.phase i = .reporting then
      some { s with phase := Function.update s.phase i .handling }
    else
      none
  -- `apply_terminal_job_update` takes the guard, updates and drops the guard without waiting.
  | .handle i now =>
    let o := (d i).origin
    if s.phase i = .handling ∧ s.lock o = none then
      let payload := Grpc.reportJobStatusRequest (d i).jobId (d i).outcome.verdict (d i).node
      some { s with
        phase := Function.update s.phase i .replying
        jobs  := Function.update s.jobs o (Grpc.afterReport (s.jobs o) payload now)
      }
    else
      none
  -- With the reply the match arm ends, which drops the guard.
  | .reply i =>
    if s.phase i = .replying then
      some { s with
        phase := Function.update s.phase i .done
        lock  := Function.update s.lock (d i).node none
      }
    else
      none

-- A report is outstanding, and neither an executor nor a handler nor the network can move.
structure Deadlocked (s : State ι) : Prop where
  outstanding : ∃ i, (s.phase i).isOutstanding
  stuck       : ∀ e : Event ι, ¬ e.isExit → step d s e = none

-- `m` runs some job on behalf of `n`.
def DelegatedBy (m n : NodeId) : Prop :=
  ∃ i, (d i).node = m ∧ (d i).origin = n

end Completion

end All4One
