import All4One.Storage.System
import All4One.Storage.Transfer

open Foundation

namespace All4One.Storage

-- What the disk of a node is changed by.
inductive Request
  | put (bucket key : String) (data : Bytes) (policy : StoragePolicy) (now : Nat → String)
  | delete (bucket key : String)
  | transfer (payload : TransferChunkRequest) (now : Nat → String)

-- What the node's handling of a request makes of its disk, and of what is going to happen to it.
def Request.serve (crates : Crates) (text : Failure → String) (role : Bool) (dataDir : String)
    (w : World) : Request → World
  | .put bucket key data policy now =>
    ((putObject crates now dataDir bucket key data policy).run w).2
  | .delete bucket key => ((deleteObject bucket key).run w).2
  | .transfer payload now => ((transferChunk crates text now role dataDir payload).run w).2

namespace Requests

variable (crates : Crates) (text : Failure → String) (role : Bool) (dataDir : String) (disk : Disk)

-- Nothing goes wrong on the disk.
def step (r : Request) : Option Disk :=
  some (r.serve crates text role dataDir ⟨disk, []⟩).disk

-- Any of the writes to the disk may fail.
def faultyStep (e : Request × List Fault) : Option Disk :=
  some (e.1.serve crates text role dataDir ⟨disk, e.2⟩).disk

end Requests

-- A request that stores an object or one of its shards.
def Request.Stores (bucket key : String) : Request → Prop
  | .put b k _ _ _      => b = bucket ∧ k = key
  | .delete ..          => False
  | .transfer payload _ => payload.bucket = bucket ∧ payload.key = key

-- A disk without objects and without files that are named like shards.
structure Disk.IsBlank (disk : Disk) : Prop where
  index : ∀ bucket key, disk.index.get (Index.treeName bucket) key = none
  files : ∀ dir object i data,
    disk.files.entry (dir ++ [(chunkId object i).toList]) ≠ some (.file data)

-- The file next to a shard has the number and the hash of the shard.
def Truthful (crates : Crates) (files : Files) : Prop :=
  ∀ dir object i data content,
    files.entry (dir ++ [(chunkId object i).toList]) = some (.file data) →
    files.entry (dir ++ [(chunkId object i ++ ".meta").toList]) = some (.file content) →
    ∃ size, content = sidecar i (crates.sha256 data) size

-- A transfer comes with the hash of its data, or the node does not take it.
def Request.IsHonest (crates : Crates) (role : Bool) : Request → Prop
  | .transfer payload _ => role → payload.hash = crates.sha256 payload.data
  | _                   => True

-- Whatever is on the disk, the node refuses the shard and leaves the disk alone.
def Refuses (crates : Crates) (text : Failure → String) (role : Bool) (dataDir : String)
    (payload : TransferChunkRequest) : Prop :=
  ∀ now w, ∃ r, (transferChunk crates text now role dataDir payload).run w = (.ok r, w) ∧
    r.accepted = false

end All4One.Storage
