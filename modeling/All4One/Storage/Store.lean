import All4One.Storage.Handlers

open Foundation

namespace All4One.Storage

-- Those of the objects that there are whose keys start so, in the order of the bytes of their keys.
structure IsListing (held : ObjectMetadata → Prop) (keyPrefix : Option String)
    (objects : List ObjectMetadata) : Prop where
  ascending : objects.Pairwise (Bytes.ofString ·.key < Bytes.ofString ·.key)
  exact     : ∀ m, m ∈ objects ↔ held m ∧ ∀ p ∈ keyPrefix, p.toList <+: m.key.toList

-- A request to the storage of a node, with the readings of the clock that it takes.
inductive Call
  | createBucket (bucket : String)
  | listObjects (bucket : String) (keyPrefix : Option String) (maxKeys : Option Nat)
  | put (bucket key : String) (header : Option String) (body : Bytes) (now : Nat → String)
  | get (bucket key : String)
  | delete (bucket key : String)

namespace Call

variable (crates : Crates) (text : Failure → String) (dataDir : String)

def io : Call → Io ApiRest.Reply
  | createBucket bucket => ApiRest.createBucket text true bucket
  | listObjects bucket keyPrefix maxKeys =>
    ApiRest.listBucketObjects crates text true bucket keyPrefix maxKeys
  | put bucket key header body now =>
    ApiRest.withBody body <| ApiRest.putObjectHandler crates text now true dataDir bucket key header body
  | get bucket key    => ApiRest.getObjectHandler crates text true dataDir bucket key
  | delete bucket key => ApiRest.deleteObjectHandler text true bucket key

-- A node with the storage role answers a request, unless it panics. Its writes to the disk may fail.
def serve (disk : Disk) (request : Call × List Fault) : Option ApiRest.Reply × Disk :=
  let r := (request.1.io crates text dataDir).run ⟨disk, request.2⟩
  (r.1.toOption, r.2.disk)

-- The object that a call puts.
def puts? : Call → Option (String × String)
  | put bucket key .. => some (bucket, key)
  | _                 => none

end Call

-- What a store has of an object. It is whole as long as no put of it has failed.
structure Object where
  metadata : ObjectMetadata
  body     : Bytes
  whole    : Bool
  deriving DecidableEq

-- A store has objects in buckets. This is what the disk of a node is to stand for.
abbrev Store := HashMap (String × String) Object

namespace Store

variable (store : Store)

def put (metadata : ObjectMetadata) (body : Bytes) : Store :=
  store.insert (metadata.bucket, metadata.key) ⟨metadata, body, true⟩

def spoil (bucket key : String) : Store :=
  store.modify (bucket, key) fun o => { o with whole := false }

def delete (bucket key : String) : Store :=
  store.erase (bucket, key)

-- The bucket has an object with this metadata.
def Has (bucket : String) (m : ObjectMetadata) : Prop :=
  ∃ key o, store.lookup (bucket, key) = some o ∧ o.metadata = m

variable {store : Store} {metadata : ObjectMetadata} {body : Bytes} {bucket key b k : String}

theorem lookup_put : (store.put metadata body).lookup (b, k) =
    if b = metadata.bucket ∧ k = metadata.key then some ⟨metadata, body, true⟩
    else store.lookup (b, k) := by
  simp [put, HashMap.lookup_insert']

theorem lookup_spoil : (store.spoil bucket key).lookup (b, k) =
    if b = bucket ∧ k = key then (store.lookup (b, k)).map fun o => { o with whole := false }
    else store.lookup (b, k) := by
  rw [spoil, HashMap.lookup_modify]
  by_cases h : (b, k) = (bucket, key)
  case pos => cases h; simp
  case neg => rw [if_neg h, if_neg (by rwa [← Prod.mk.injEq])]

theorem lookup_delete : (store.delete bucket key).lookup (b, k) =
    if b = bucket ∧ k = key then none else store.lookup (b, k) := by
  by_cases h : (b, k) = (bucket, key)
  case pos => cases h; simp [delete]
  case neg => rw [delete, Finmap.lookup_erase_ne h, if_neg (by rwa [← Prod.mk.injEq])]

end Store

-- A body that can be stored: `zstd` takes it, and the result is not too large to be split.
def Fits (crates : Crates) (body : Bytes) (policy : StoragePolicy) : Prop :=
  ∃ compressed, compress crates body policy.zstdLevel = .ok compressed ∧
    8 + compressed.length ≤ isizeMax

-- One of the writes to the disk fails.
def Troubled (faults : List Fault) : Prop :=
  ∃ fault ∈ faults, fault ≠ .none

-- There is no answer, or it is an error.
def IsFailure (reply : Option ApiRest.Reply) : Prop :=
  ∀ r ∈ reply, ∃ status error, r = .error status error

open All4One.Storage.ApiRest Index in
-- What a store may answer a request with, and what becomes of its objects.
inductive Store.Answers (crates : Crates) (store : Store) :
    Call × List Fault → Option Reply → Store → Prop
  | created {bucket faults} :
    Answers crates store (.createBucket bucket, faults) (some (.created bucket)) store
  | notCreated {bucket faults reply} : Troubled faults → IsFailure reply →
    Answers crates store (.createBucket bucket, faults) reply store
  | listed {bucket keyPrefix maxKeys faults objects shown} :
    IsListing (store.Has bucket) keyPrefix objects → shown = objects.take (maxKeys.getD 1000) →
    Answers crates store (.listObjects bucket keyPrefix maxKeys, faults)
      (some (.objects bucket shown shown.length)) store
  -- The metadata in the answer is that of the object up to its times.
  | stored {bucket key header body now faults policy} :
    body.length ≤ bodyLimit → policyOfText (header.getD "warm") = policy → Fits crates body policy →
    Answers crates store (.put bucket key header body now, faults)
      (some (.stored
        (metadata (fun n => now (n + 2)) bucket key (crates.sha256 body) body.length policy)))
      (store.put (metadata now bucket key (crates.sha256 body) body.length policy) body)
  | tooLarge {bucket key header body now faults} : bodyLimit < body.length →
    Answers crates store (.put bucket key header body now, faults) (some ApiRest.tooLarge) store
  | refused {bucket key header body now faults reply} : body.length ≤ bodyLimit →
    ¬ Fits crates body (policyOfText (header.getD "warm")) → IsFailure reply →
    Answers crates store (.put bucket key header body now, faults) reply store
  | broken {bucket key header body now faults reply} : body.length ≤ bodyLimit →
    Troubled faults → IsFailure reply →
    Answers crates store (.put bucket key header body now, faults) reply (store.spoil bucket key)
  | found {bucket key faults o} : store.lookup (bucket, key) = some o → o.whole →
    Answers crates store (.get bucket key, faults) (some (.object o.metadata.etag o.body)) store
  | notFound {bucket key faults} : store.lookup (bucket, key) = none →
    Answers crates store (.get bucket key, faults)
      (some (.error 404 s!"Object not found: {bucket}/{key}")) store
  -- A body of an object that is not whole has its hash at least.
  | doubtful {bucket key faults o body} : store.lookup (bucket, key) = some o → ¬ o.whole →
    crates.sha256 body = o.metadata.etag →
    Answers crates store (.get bucket key, faults) (some (.object o.metadata.etag body)) store
  | lost {bucket key faults o reply} : store.lookup (bucket, key) = some o → ¬ o.whole →
    IsFailure reply → Answers crates store (.get bucket key, faults) reply store
  | deleted {bucket key faults} :
    Answers crates store (.delete bucket key, faults) (some .deleted) (store.delete bucket key)
  | notDeleted {bucket key faults reply} : Troubled faults → IsFailure reply →
    Answers crates store (.delete bucket key, faults) reply store

-- Objects are apart: their buckets have plain names, and no two of one bucket have keys that differ
-- in nothing but slashes and dashes.
structure Apart (names : Set (String × String)) : Prop where
  plain : ∀ o ∈ names, Path.IsName o.1.toList
  keys  : ∀ o ∈ names, ∀ o' ∈ names, o.1 = o'.1 → slashToDash o.2 = slashToDash o'.2 → o.2 = o'.2

-- A disk with a data directory in which there are no chunks yet.
structure Disk.IsNew (dataDir : String) (disk : Disk) : Prop where
  index  : ∀ bucket key, disk.index.get (Index.treeName bucket) key = none
  dir    : ∀ q ∈ Path.trail disk.files.cwd dataDir, disk.files.entry q = some .dir
  chunks : ∀ q, Path.resolve disk.files.cwd (Path.join dataDir "chunks") <+: q →
    disk.files.entry q = none

end All4One.Storage
