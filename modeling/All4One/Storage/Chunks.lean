import All4One.Storage.Erasure
import All4One.Storage.Index

open Foundation

namespace All4One.Storage

-- `s.replace('/', "-")`
def slashToDash (s : String) : String :=
  String.ofList (s.toList.map fun c => if c = '/' then '-' else c)

def chunksDir (dataDir bucket : String) : String :=
  Path.join (Path.join dataDir "chunks") bucket

def objectId (bucket key : String) : String :=
  slashToDash (bucket ++ "-" ++ key)

def chunkId (objectId : String) (i : Nat) : String :=
  objectId ++ "-shard-" ++ i.repr

def chunkPath (dir objectId : String) (i : Nat) : String :=
  Path.join dir (chunkId objectId i)

def compress (crates : Crates) (data : Bytes) (level : Int) : Except Failure Bytes :=
  if level = 0 then
    .ok data
  else
    (crates.zstd.encode level data).mapError .io

def decompress (crates : Crates) (data : Bytes) : Except Failure Bytes :=
  (crates.zstd.decodeAll data).mapError fun e => .error s!"Decompression failed: {e}"

def sidecar (i : Nat) (hash : String) (originalSize : Nat) : Bytes :=
  Bytes.ofString s!"shard={i},hash={hash},original_size={originalSize}"

def writeShard (crates : Crates) (dir objectId : String) (originalSize i : Nat) (shard : Bytes) :
    Io Unit := do
  let path := chunkPath dir objectId i
  let hash := crates.sha256 shard
  Io.files (Files.write path shard)
  Io.files (Files.write (path ++ ".meta") (sidecar i hash originalSize))

def writeShards (crates : Crates) (dir objectId : String) (originalSize : Nat)
    (shards : List Bytes) : Io Unit :=
  .forEach shards.zipIdx fun c => writeShard crates dir objectId originalSize c.2 c.1

def putChunks (crates : Crates) (now : Nat → String) (dataDir bucket key : String) (data : Bytes)
    (policy : StoragePolicy) : Io ObjectMetadata := do
  let dir := chunksDir dataDir bucket
  Io.files (Files.createDirAll dir)
  let objectEtag := crates.sha256 data
  let compressed ← Prog.ofExcept (compress crates data policy.zstdLevel)
  let shards ← Prog.ofExcept (encodeErasure compressed policy.dataShards policy.parityShards)
  writeShards crates dir (objectId bucket key) data.length shards
  Index.putObject crates now bucket key objectEtag data.length policy
  pure (Index.metadata (fun n => now (n + 2)) bucket key objectEtag data.length policy)

structure Layout where
  dataShards   : Nat
  parityShards : Nat
  level        : Int
  deriving DecidableEq, Repr

-- What `get_chunks` makes of the policy in the index.
def layout (policy : String) : Layout :=
  match policy with
  | "hot"     => ⟨1, 0, 0⟩
  | "warm"    => ⟨4, 2, 3⟩
  | "cold"    => ⟨6, 3, 19⟩
  | "archive" => ⟨8, 4, 22⟩
  | _         => ⟨1, 0, 0⟩

theorem layout_text (policy : StoragePolicy) : layout policy.text =
    ⟨policy.dataShards, policy.parityShards, policy.zstdLevel⟩ := by
  rw [policy.text_eq_display]
  cases policy <;> rfl

def loadShards (files : Files) (dir objectId : String) (dataShards : Nat) :
    List Nat → Except Failure (List Bytes)
  | []      => .ok []
  | i :: is =>
    if files.pathExists (chunkPath dir objectId i) then
      match files.read (chunkPath dir objectId i) with
      | .error err => .error (.io err)
      | .ok shard  => (loadShards files dir objectId dataShards is).map (shard :: ·)
    else if i < dataShards then
      .error (.error "Insufficient shards to recover data")
    else
      loadShards files dir objectId dataShards is

-- What `get_chunks` does once it has the metadata of the object.
def decodeChunks (crates : Crates) (files : Files) (dir objectId : String)
    (metadata : ObjectMetadata) : Except Failure Bytes := do
  let l := layout metadata.policy
  let shards ← loadShards files dir objectId l.dataShards (List.range (l.dataShards + l.parityShards))
  let compressed ← decodeErasure shards l.dataShards l.parityShards
  let data ← if l.level > 0 then decompress crates compressed else .ok compressed
  let computedHash := crates.sha256 data
  if computedHash ≠ metadata.etag then
    .error (.error s!"Data corruption detected: expected {metadata.etag}, got {computedHash}")
  else
    .ok data

def getChunks (crates : Crates) (dataDir bucket key : String) : Io Bytes := do
  let metadata ← Index.getObject crates bucket key
  .reads fun w =>
    decodeChunks crates w.disk.files (chunksDir dataDir bucket) (objectId bucket key) metadata

def putObject (crates : Crates) (now : Nat → String) (dataDir bucket key : String) (data : Bytes)
    (policy : StoragePolicy) : Io ObjectMetadata :=
  putChunks crates now dataDir bucket key data policy

def getObject (crates : Crates) (dataDir bucket key : String) : Io Bytes :=
  getChunks crates dataDir bucket key

def deleteObject (bucket key : String) : Io Unit :=
  Index.deleteObject bucket key

end All4One.Storage
