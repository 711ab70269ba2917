import All4One.Foundation.Threads
import All4One.Storage.Chunks

open Foundation

namespace All4One.Storage

-- What a put does between two points where somebody else may come in between.
inductive PutStep
  | createDir
  | shard (i : Nat) (shard : Bytes)
  | sidecar (i : Nat) (shard : Bytes)
  | index
  deriving DecidableEq, Repr

namespace PutStep

-- The number and the bytes of the shard that a step writes.
def shard? : PutStep → Option (Nat × Bytes)
  | .shard i data => some (i, data)
  | _             => none

-- Two steps do not write one of the first shards with different bytes.
def Agree (dataShards : Nat) (op op' : PutStep) : Prop :=
  ∀ c ∈ op.shard?, ∀ c' ∈ op'.shard?, c.1 < dataShards → c'.1 = c.1 → c'.2 = c.2

instance (dataShards : Nat) (op op' : PutStep) : Decidable (op.Agree dataShards op') :=
  inferInstanceAs (Decidable (∀ c ∈ _, ∀ c' ∈ _, _ → _ → _))

end PutStep

-- A call of `put_object` for some object.
structure PutCall where
  now    : Nat → String
  data   : Bytes
  policy : StoragePolicy

namespace PutCall

section

variable (crates : Crates) (dataDir bucket key : String) (call : PutCall)

def shards : Except Failure (List Bytes) := do
  let compressed ← compress crates call.data call.policy.zstdLevel
  encodeErasure compressed call.policy.dataShards call.policy.parityShards

def metadata : ObjectMetadata :=
  Index.metadata (fun n => call.now (n + 2)) bucket key (crates.sha256 call.data) call.data.length
    call.policy

def perform : PutStep → Io Unit
  | .createDir     => Io.files (Files.createDirAll (chunksDir dataDir bucket))
  | .shard i shard =>
    Io.files (Files.write (chunkPath (chunksDir dataDir bucket) (objectId bucket key) i) shard)
  | .sidecar i shard =>
    Io.files (Files.write (chunkPath (chunksDir dataDir bucket) (objectId bucket key) i ++ ".meta")
      (All4One.Storage.sidecar i (crates.sha256 shard) call.data.length))
  | .index =>
    Index.putObject crates call.now bucket key (crates.sha256 call.data) call.data.length call.policy

-- Each shard is followed by the file next to it.
def shardSteps (shards : List Bytes) : List PutStep :=
  shards.zipIdx.flatMap fun c => [.shard c.2 c.1, .sidecar c.2 c.1]

def thread : Thread PutStep Failure ObjectMetadata :=
  match call.shards crates with
  | .ok shards => ⟨.createDir :: (shardSteps shards ++ [.index]), .ok (call.metadata crates bucket key)⟩
  | .error e   => ⟨[.createDir], .error e⟩

end

end PutCall

inductive Side
  | left
  | right
  deriving DecidableEq, Repr

def Side.other : Side → Side
  | left  => right
  | right => left

-- Two puts of one object on one disk.
abbrev Puts := Threads World Side PutStep Failure ObjectMetadata

deriving instance DecidableEq for Thread

namespace Puts

variable (crates : Crates) (dataDir bucket key : String) (calls : Side → PutCall)

def init (w : World) : Puts where
  state     := w
  threads t := (calls t).thread crates bucket key

def step (s : Puts) (t : Side) : Option Puts :=
  Threads.step (fun t => (calls t).perform crates dataDir bucket key) s t

-- Both calls have returned `Ok`.
def BothReturn (s : Puts) : Prop :=
  ∀ t, s.threads t = ⟨[], .ok ((calls t).metadata crates bucket key)⟩

-- Before the call that is to return last writes one of its data shards, the other one has written its
-- own shard of that number, unless the two are the same.
def Overrides (last : Side) (s : Puts) (t : Side) : Prop :=
  t = last → ∀ op ∈ (s.threads t).todo.head?, ∀ op' ∈ (s.threads t.other).todo,
    op.Agree (calls t).policy.dataShards op'

instance (last : Side) (s : Puts) (t : Side) : Decidable (Overrides calls last s t) :=
  inferInstanceAs (Decidable (_ → _))

end Puts

end All4One.Storage
