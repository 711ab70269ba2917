import All4One.Storage.Policy

open Foundation

namespace All4One.Storage.Index

def treeName (bucket : String) : Bytes :=
  Bytes.ofString ("bucket:" ++ bucket)

theorem treeName_inj {b₁ b₂ : String} : treeName b₁ = treeName b₂ ↔ b₁ = b₂ := by
  rw [treeName, treeName, Bytes.ofString_inj, ← String.toList_inj, ← String.toList_inj]
  simp

-- The entry of an object.
def entry (db : Sled.Db) (bucket key : String) : Option Bytes :=
  db.get (treeName bucket) (Bytes.ofString key)

def metadata (now : Nat → String) (bucket key etag : String) (sizeBytes : Nat)
    (policy : StoragePolicy) : ObjectMetadata where
  bucket     := bucket
  key        := key
  sizeBytes  := UInt64.ofNat sizeBytes
  createdAt  := now 0
  modifiedAt := now 1
  etag       := etag
  policy     := policy.text
  replicas   := policy.replicas

-- `now` has the readings of the clock in the order in which they are taken.
def putObject (crates : Crates) (now : Nat → String) (bucket key etag : String) (sizeBytes : Nat)
    (policy : StoragePolicy) : Io Unit :=
  let json := crates.json.toVec (metadata now bucket key etag sizeBytes policy)
  Io.index (treeName bucket) (·.insert (treeName bucket) (Bytes.ofString key) json)

def parse (crates : Crates) (bucket key : String) : Option Bytes → Except Failure ObjectMetadata
  | none      => .error (.error s!"Object not found: {bucket}/{key}")
  | some data =>
    match crates.json.fromSlice data with
    | none          => .error .json
    | some metadata => .ok metadata

def getObject (crates : Crates) (bucket key : String) : Io ObjectMetadata where
  run w :=
    let db := w.disk.index.openTree (treeName bucket)
    (parse crates bucket key (entry db bucket key), { w with disk := { w.disk with index := db } })

def deleteObject (bucket key : String) : Io Unit :=
  Io.index (treeName bucket) (·.remove (treeName bucket) (Bytes.ofString key))

-- The loop of `list_objects`, once there is room for so many objects more.
def listFrom (crates : Crates) (keyPrefix : Option String) :
    Nat → List (Bytes × Bytes) → Except Failure (List ObjectMetadata)
  | _,     []                  => .ok []
  | 0,     _ :: _              => .ok []
  | n + 1, (_, value) :: items =>
    match crates.json.fromSlice value with
    | none          => .error .json
    | some metadata =>
      if ∀ p ∈ keyPrefix, p.toList <+: metadata.key.toList then
        (listFrom crates keyPrefix n items).map (metadata :: ·)
      else
        listFrom crates keyPrefix (n + 1) items

def listObjects (crates : Crates) (bucket : String) (keyPrefix : Option String)
    (maxKeys : Option Nat) : Io (List ObjectMetadata) where
  run w :=
    let db := w.disk.index.openTree (treeName bucket)
    (listFrom crates keyPrefix (maxKeys.getD 1000) (db.tree (treeName bucket)).iter,
      { w with disk := { w.disk with index := db } })

def createBucket (bucket : String) : Io Unit :=
  Io.index (treeName bucket) id

def bucketExists (bucket : String) : Io Bool := do
  match ← Prog.attempt (Io.index (treeName bucket) id) with
  | .ok ()   => return true
  | .error _ => return false

def bucketOf? (treeName : String) : Option String :=
  if "bucket:".toList <+: treeName.toList then some (.ofList (treeName.toList.drop 7)) else none

-- The loop of `list_buckets` over the names of the trees, none of which may be something else than
-- UTF-8.
def listBuckets : List Bytes → Option (List String)
  | []            => some []
  | name :: names => do
    let name ← name.toString?
    let buckets ← listBuckets names
    return (bucketOf? name).toList ++ buckets

variable {db : Sled.Db} {b₁ b₂ k₁ k₂ bucket key : String} {name value : Bytes}

@[simp]
theorem entry_openTree : entry (db.openTree name) bucket key = entry db bucket key :=
  Sled.Db.get_openTree

theorem entry_insert :
    entry (db.insert (treeName b₂) (Bytes.ofString k₂) value) b₁ k₁ =
    if b₁ = b₂ ∧ k₁ = k₂ then some value else entry db b₁ k₁ := by
  simp [entry, Sled.Db.get_insert, treeName_inj]

theorem entry_remove :
    entry (db.remove (treeName b₂) (Bytes.ofString k₂)) b₁ k₁ =
    if b₁ = b₂ ∧ k₁ = k₂ then none else entry db b₁ k₁ := by
  simp [entry, Sled.Db.get_remove, treeName_inj]

end All4One.Storage.Index
