import All4One.Storage.Chunks

open Foundation

namespace All4One.Storage

-- `format!("{}-{}", bucket, safe_key)`, where only the key has had its slashes replaced.
def safeObjectId (bucket key : String) : String :=
  bucket ++ "-" ++ slashToDash key

def totalShards (policy : String) : Nat :=
  match policy with
  | "hot"     => 1
  | "warm"    => 6
  | "cold"    => 9
  | "archive" => 12
  | _         => 1

structure Shard where
  index : Nat
  hash  : String
  data  : Bytes
  deriving DecidableEq, Repr

def loadAllShards (crates : Crates) (files : Files) (dir objectId : String) :
    List Nat → Except Failure (List Shard)
  | []      => .ok []
  | i :: is =>
    if files.pathExists (chunkPath dir objectId i) then
      match files.read (chunkPath dir objectId i) with
      | .error err => .error (.io err)
      | .ok data   =>
        (loadAllShards crates files dir objectId is).map (⟨i, crates.sha256 data, data⟩ :: ·)
    else
      loadAllShards crates files dir objectId is

def readShards (crates : Crates) (dataDir bucket key : String) : Io (List Shard) := do
  let metadata ← Index.getObject crates bucket key
  .reads fun w => loadAllShards crates w.disk.files (chunksDir dataDir bucket)
    (safeObjectId bucket key) (List.range (totalShards metadata.policy))

-- The policy that a header or a message asks for.
def policyOfText (text : String) : StoragePolicy :=
  match text with
  | "hot"     => .hot
  | "cold"    => .cold
  | "archive" => .archive
  | _         => .warm

structure TransferChunkRequest where
  bucket     : String
  key        : String
  shardIndex : Nat
  data       : Bytes
  hash       : String
  policy     : String
  objectSize : UInt64
  etag       : String
  deriving DecidableEq, Repr

structure TransferChunkResponse where
  accepted : Bool
  error    : String
  deriving DecidableEq, Repr

structure FetchChunkRequest where
  bucket     : String
  key        : String
  shardIndex : Nat
  deriving DecidableEq, Repr

structure FetchChunkResponse where
  data  : Bytes
  hash  : String
  found : Bool
  deriving DecidableEq, Repr

-- What a node answers with depends on whether it has the storage role. `text` is what an error of
-- the operating system is displayed as.
def transferChunk (crates : Crates) (text : Failure → String) (now : Nat → String) (role : Bool)
    (dataDir : String) (payload : TransferChunkRequest) : Io TransferChunkResponse := do
  if !role then
    return ⟨false, "This node does not have the storage role"⟩
  let dir := chunksDir dataDir payload.bucket
  match ← Prog.attempt (Io.files (Files.createDirAll dir)) with
  | .error e => return ⟨false, s!"Cannot create chunk dir: {text e}"⟩
  | .ok ()   =>
    let path := chunkPath dir (safeObjectId payload.bucket payload.key) payload.shardIndex
    match ← Prog.attempt (Io.files (Files.write path payload.data)) with
    | .error e => return ⟨false, s!"Write failed: {text e}"⟩
    | .ok ()   =>
      let metaContent := sidecar payload.shardIndex payload.hash payload.objectSize.toNat
      let _ ← Prog.attempt (Io.files (Files.write (path ++ ".meta") metaContent))
      let _ ← Prog.attempt (Index.createBucket payload.bucket)
      let _ ← Prog.attempt (Index.putObject crates now payload.bucket payload.key payload.etag
        payload.objectSize.toNat (policyOfText payload.policy))
      return ⟨true, ""⟩

-- `Status::internal` with the message.
def fetchChunk (crates : Crates) (text : IoError → String) (dataDir : String) (files : Files)
    (payload : FetchChunkRequest) : Except String FetchChunkResponse :=
  let path := chunkPath (chunksDir dataDir payload.bucket)
    (safeObjectId payload.bucket payload.key) payload.shardIndex
  if files.pathExists path then
    match files.read path with
    | .ok data   => .ok ⟨data, crates.sha256 data, true⟩
    | .error err => .error s!"Failed to read shard: {text err}"
  else
    .ok ⟨[], "", false⟩

-- The storage part of `put_object_handler`. `header` is the text of `X-All4One-Policy`.
def putObjectHandler (crates : Crates) (now : Nat → String) (dataDir bucket key : String)
    (header : Option String) (body : Bytes) : Io ObjectMetadata := do
  let policy := policyOfText (header.getD "warm")
  let _ ← Prog.attempt (Index.createBucket bucket)
  putObject crates now dataDir bucket key body policy

-- What the fan-out of a put sends for a shard: the metadata is that of the put.
def transferRequest (bucket key : String) (metadata : ObjectMetadata) (shard : Shard) :
    TransferChunkRequest where
  bucket     := bucket
  key        := key
  shardIndex := shard.index
  data       := shard.data
  hash       := shard.hash
  policy     := metadata.policy
  objectSize := metadata.sizeBytes
  etag       := metadata.etag

end All4One.Storage
