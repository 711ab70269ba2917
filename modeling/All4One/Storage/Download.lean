import All4One.Foundation.Transition
import All4One.Storage.Handlers

open Foundation

namespace All4One.Storage

-- What `get_chunks` makes of the shards that it has loaded.
def decodeLoaded (crates : Crates) (metadata : ObjectMetadata) (shards : List Bytes) :
    Except Failure Bytes := do
  let l := layout metadata.policy
  let compressed ← decodeErasure shards l.dataShards l.parityShards
  let data ← if l.level > 0 then decompress crates compressed else .ok compressed
  let computedHash := crates.sha256 data
  if computedHash ≠ metadata.etag then
    .error (.error s!"Data corruption detected: expected {metadata.etag}, got {computedHash}")
  else
    .ok data

namespace Download

-- How far `get_object_handler` has come.
inductive Phase
  | start
  | load (metadata : ObjectMetadata) (loaded : List Bytes) (rest : List Nat)
  | verified (data : Bytes)
  | done (reply : Except Failure ApiRest.Reply)
  deriving DecidableEq

-- The handler is between its two looks at the index.
def Phase.isBetween : Phase → Bool
  | load ..   => true
  | verified _ => true
  | _         => false

-- What a request leaves in the place of the object: its bytes, or nothing.
abbrev Left := Option Bytes

-- `first` is the ETag that the index had when the handler looked at it first, `since` what the last
-- request that went through after that and before the second look has left.
structure State where
  disk  : Disk
  phase : Phase
  first : String
  since : Option Left

inductive Event
  | read
  | put (now : Nat → String) (header : Option String) (body : Bytes) (faults : List Fault)
  | delete (faults : List Fault)

section

variable (crates : Crates) (text : Failure → String) (dataDir bucket key : String)

def failed (e : Failure) : Phase :=
  .done <| match e with
    | .panic => .error .panic
    | e      => .ok (ApiRest.notFoundOrFailed text e)

-- A look at the index.
def look (disk : Disk) : Except Failure ObjectMetadata × Disk :=
  let r := (Index.getObject crates bucket key).run ⟨disk, []⟩
  (r.1, r.2.disk)

-- The next thing that the handler reads: the index, one file, or the index again.
def read (s : State) : Option State :=
  match s.phase with
  | .start =>
    let r := look crates bucket key s.disk
    match r.1 with
    | .error e => some { s with disk := r.2, phase := failed text e }
    | .ok m    =>
      let l := layout m.policy
      some { s with
        disk  := r.2
        phase := .load m [] (List.range (l.dataShards + l.parityShards))
        first := m.etag }
  | .load m loaded (i :: rest) =>
    let path := chunkPath (chunksDir dataDir bucket) (objectId bucket key) i
    if s.disk.files.pathExists path then
      match s.disk.files.read path with
      | .error err => some { s with phase := failed text (.io err) }
      | .ok shard  => some { s with phase := .load m (loaded ++ [shard]) rest }
    else if i < (layout m.policy).dataShards then
      some { s with phase := failed text (.error "Insufficient shards to recover data") }
    else
      some { s with phase := .load m loaded rest }
  | .load m loaded [] =>
    match decodeLoaded crates m loaded with
    | .error e => some { s with phase := failed text e }
    | .ok data => some { s with phase := .verified data }
  | .verified data =>
    let r := look crates bucket key s.disk
    some { s with disk := r.2, phase := .done (ApiRest.download (ApiRest.etagOrDefault r.1) data) }
  | .done _ => none

-- A request of somebody else.
def serve {α : Type} (s : State) (request : Io α) (faults : List Fault) (left : Left) : State :=
  let r := request.run ⟨s.disk, faults⟩
  { s with
    disk  := r.2.disk
    since := if r.1.isOk && s.phase.isBetween then some left else s.since }

def step (s : State) : Event → Option State
  | .read                       => read crates text dataDir bucket key s
  | .put now header body faults =>
    some <| serve s (putObjectHandler crates now dataDir bucket key header body) faults (some body)
  | .delete faults              => some <| serve s (deleteObject bucket key) faults none

end

def init (disk : Disk) : State where
  disk  := disk
  phase := .start
  first := ""
  since := none

end Download

end All4One.Storage
