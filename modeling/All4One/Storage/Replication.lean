import All4One.Foundation.Transition
import All4One.Storage.Theorems.Naming
import All4One.Storage.Transfer

open Foundation

namespace All4One.Storage

section Peer

variable (crates : Crates) (text : Failure → String) (dataDir bucket key : String)
  (metadata : ObjectMetadata)

-- A disk on which others have been at work, but not on the object.
structure Undisturbed (disk disk' : Disk) : Prop where
  files  : Files.Extends disk.files disk'.files
  shards : ∀ i data,
    disk.files.entry (shardPlace disk.files.cwd dataDir bucket key i) = some (.file data) →
    disk'.files.entry (shardPlace disk.files.cwd dataDir bucket key i) = some (.file data)
  index  : Index.entry disk'.index bucket key = Index.entry disk.index bucket key

-- Nothing on a disk makes an operation on the files of an object fail: the directory of the bucket is
-- there or can be made, and no directory is in the place of a shard.
def Unobstructed (files : Files) : Prop :=
  ∃ files', (Files.createDirAll (chunksDir dataDir bucket) .none).run files = (.ok (), files') ∧
    ∀ i, files'.entry (shardPlace files.cwd dataDir bucket key i) ≠ some .dir

-- What a peer with the storage role has once it has handled a message, whatever it answers.
def received (now : Nat → String) (shard : Shard) (disk : Disk) : Disk :=
  ((transferChunk crates text now true dataDir (transferRequest bucket key metadata shard)).run
    ⟨disk, []⟩).2.disk

-- The shards of a fan-out in the order in which they reach a peer, whatever else it does meanwhile.
inductive Deliveries : List Shard → Disk → Disk → Prop
  | done {disk} : Deliveries [] disk disk
  | deliver {shard shards now disk disk'} :
    Deliveries shards (received crates text dataDir bucket key metadata now shard disk) disk' →
    Deliveries (shard :: shards) disk disk'
  | other {shards disk disk₁ disk'} :
    Undisturbed dataDir bucket key disk disk₁ →
    Unobstructed dataDir bucket key disk₁.files →
    Deliveries shards disk₁ disk' →
    Deliveries shards disk disk'

end Peer

-- The fan-out of one put, which reads the shards some time after the put. `body` is what was put.
structure Task where
  body     : Bytes
  metadata : ObjectMetadata
  pending  : Option (List Shard)
  deriving DecidableEq, Repr

-- A shard that the task will still send.
def Task.Awaits (task : Task) (i : Nat) : Prop :=
  ∀ shards, task.pending = some shards → ∃ shard ∈ shards, shard.index = i

-- A node that puts an object again and again, and one of its peers. The newest task comes first.
structure FanOut where
  origin : Disk
  peer   : Disk
  tasks  : List Task

namespace FanOut

inductive Event
  | put (now : Nat → String) (header : Option String) (body : Bytes)
  | read (k : Nat)
  | deliver (now : Nat → String) (k : Nat)

variable (crates : Crates) (text : Failure → String) (dataDir peerDir bucket key : String)

-- Only a put that succeeds starts a task.
def put (s : FanOut) (now : Nat → String) (header : Option String) (body : Bytes) : Option FanOut := do
  let (metadata, w) ← (putObjectHandler crates now dataDir bucket key header body).succeed
    ⟨s.origin, []⟩
  some { s with origin := w.disk, tasks := ⟨body, metadata, none⟩ :: s.tasks }

-- A task that can not read the shards sends nothing.
def read (s : FanOut) (k : Nat) : Option FanOut :=
  match s.tasks[k]? with
  | some ⟨body, metadata, none⟩ =>
    let (shards, w) := (readShards crates dataDir bucket key).run ⟨s.origin, []⟩
    let pending := shards.toOption.getD []
    some { s with origin := w.disk, tasks := s.tasks.set k ⟨body, metadata, some pending⟩ }
  | _ => none

-- A task goes on to its next message whatever the peer answers.
def deliver (s : FanOut) (now : Nat → String) (k : Nat) : Option FanOut :=
  match s.tasks[k]? with
  | some ⟨body, metadata, some (shard :: shards)⟩ =>
    let peer := received crates text peerDir bucket key metadata now shard s.peer
    some { s with peer, tasks := s.tasks.set k ⟨body, metadata, some shards⟩ }
  | _ => none

def step (s : FanOut) : Event → Option FanOut
  | .put now header body => s.put crates dataDir bucket key now header body
  | .read k              => s.read crates dataDir bucket key k
  | .deliver now k       => s.deliver crates text peerDir bucket key now k

-- What a message of an older task may do while there is a newer one: what it writes will be
-- overwritten by the newest task, or is not read, or is what the newest task has written.
structure Harmless (s : FanOut) (newest task : Task) (shard : Shard) : Prop where
  shard : newest.Awaits shard.index ∨ (layout newest.metadata.policy).dataShards ≤ shard.index ∨
    s.origin.files.entry (shardPlace s.origin.files.cwd dataDir bucket key shard.index) =
      some (.file shard.data)
  index : newest.pending ≠ some [] ∨
    (task.metadata.policy = newest.metadata.policy ∧ task.metadata.etag = newest.metadata.etag)

def IsHarmless (s : FanOut) : Event → Prop
  | .deliver _ (k + 1) => ∀ newest older task shard shards, s.tasks = newest :: older →
    older[k]? = some task → task.pending = some (shard :: shards) →
    s.Harmless dataDir bucket key newest task shard
  | _ => True

end FanOut

end All4One.Storage
