import All4One.Jobs.Record
import Mathlib.Data.List.AList
import Mathlib.Data.List.Sort

open Foundation

namespace All4One

structure ListJobsQuery where
  status : Option String
  nodeId : Option String
  limit  : Option Nat
  deriving DecidableEq, Repr

structure ListJobsResponse where
  jobs  : List JobRecord
  total : Nat
  deriving DecidableEq, Repr

-- `format!("{:?}", status)`
def JobStatus.debug : JobStatus → String
  | queued    => "Queued"
  | scheduled => "Scheduled"
  | running   => "Running"
  | completed => "Completed"
  | failed    => "Failed"
  | cancelled => "Cancelled"

-- No character beyond ASCII has a lower case among the letters of these names.
def JobStatus.isNamed (status : JobStatus) (expected : String) : Bool :=
  status.debug.toList.map Char.toLower = expected.toList.map Char.toLower

-- The records come in the order of an iteration over the hash map.
def listJobs (values : List JobRecord) (query : ListJobsQuery) : ListJobsResponse :=
  let list : List JobRecord := values
  let list : List JobRecord :=
    match query.status with
    | some expected => list.filter fun job => job.status.isNamed expected
    | none          => list
  let list : List JobRecord :=
    match query.nodeId with
    | some nodeId => list.filter fun job => job.assignedTo.uuid.toText = nodeId
    | none        => list
  let list := list.insertionSort (·.createdAt ≤ ·.createdAt)
  let list : List JobRecord :=
    match query.limit with
    | some limit => if list.length > limit then list.drop (list.length - limit) else list
    | none       => list
  ⟨list, list.length⟩

def getJob (jobs : Jobs) (id : String) : Except (Nat × String) JobRecord :=
  match Uuid.parseStr id with
  | none      => .error (400, "invalid job id")
  | some uuid =>
    match jobs.lookup ⟨uuid⟩ with
    | some job => .ok job
    | none     => .error (404, "job not found")

-- An iteration over a table, in whatever order.
def Jobs.IsIteration (jobs : Jobs) (values : List JobRecord) : Prop :=
  ∃ entries : AList fun _ : JobId => JobRecord,
    entries.toFinmap = jobs ∧ values = entries.entries.map Sigma.snd

end All4One
