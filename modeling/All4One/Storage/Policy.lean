import All4One.Foundation.Files
import All4One.Foundation.Sled

open Foundation

namespace All4One

inductive StoragePolicy
  | hot
  | warm
  | cold
  | archive
  deriving DecidableEq, Repr

namespace StoragePolicy

def display : StoragePolicy → String
  | hot     => "hot"
  | warm    => "warm"
  | cold    => "cold"
  | archive => "archive"

-- `format!("{:?}", policy)`
def debug : StoragePolicy → String
  | hot     => "Hot"
  | warm    => "Warm"
  | cold    => "Cold"
  | archive => "Archive"

-- `format!("{:?}", policy).to_lowercase()`
def text (policy : StoragePolicy) : String :=
  String.ofList (policy.debug.toList.map Char.toLower)

def replicas : StoragePolicy → Nat
  | hot => 3
  | _   => 1

def erasureCoding : StoragePolicy → Option (Nat × Nat)
  | hot     => none
  | warm    => some (4, 2)
  | cold    => some (6, 3)
  | archive => some (8, 4)

def zstdLevel : StoragePolicy → Int
  | hot     => 0
  | warm    => 3
  | cold    => 19
  | archive => 22

def dataShards (policy : StoragePolicy) : Nat :=
  (policy.erasureCoding.getD (1, 0)).1

def parityShards (policy : StoragePolicy) : Nat :=
  (policy.erasureCoding.getD (1, 0)).2

theorem text_eq_display (policy : StoragePolicy) : policy.text = policy.display := by
  cases policy <;> decide

end StoragePolicy

structure ObjectMetadata where
  bucket     : String
  key        : String
  sizeBytes  : UInt64
  createdAt  : String
  modifiedAt : String
  etag       : String
  policy     : String
  replicas   : Nat
  deriving DecidableEq, Repr

namespace Storage

-- An error with a message of the code's own, one of the operating system, of `sled` or of `zstd`,
-- one of `serde_json`, or a panic.
inductive Failure
  | error (message : String)
  | io (err : IoError)
  | json
  | panic
  deriving DecidableEq, Repr

-- `zstd`, whose decoder undoes its encoder at the levels that the policies name.
structure Zstd where
  encode    : Int → Bytes → Except IoError Bytes
  decodeAll : Bytes → Except String Bytes
  lossless  : ∀ level ∈ [(3 : Int), 19, 22], ∀ data encoded,
    encode level data = .ok encoded → decodeAll encoded = .ok data

-- What the storage takes from other crates.
structure Crates where
  sha256 : Bytes → String
  zstd   : Zstd
  json   : Serde ObjectMetadata Bytes

structure Disk where
  files : Files
  index : Sled.Db

-- A disk, and what is going to happen to the operations that write to it.
structure World where
  disk   : Disk
  faults : List Fault

abbrev Io := Prog World Failure

namespace Io

def fault (w : World) : Fault :=
  w.faults.headD .none

-- An operation on the files.
def files (op : Fault → Prog Files IoError Unit) : Io Unit where
  run w :=
    match (op (fault w)).run w.disk.files with
    | (.ok (), files)     => (.ok (), ⟨{ w.disk with files }, w.faults.tail⟩)
    | (.error err, files) => (.error (.io err), ⟨{ w.disk with files }, w.faults.tail⟩)

-- An update of a tree of the index, which is opened first.
def index (name : Bytes) (op : Sled.Db → Sled.Db) : Io Unit where
  run w :=
    let db := w.disk.index.openTree name
    match fault w with
    | .none    => (.ok (), ⟨{ w.disk with index := op db }, w.faults.tail⟩)
    | .before  => (.error (.io .broken), ⟨w.disk, w.faults.tail⟩)
    | .after _ => (.error (.io .broken), ⟨{ w.disk with index := db }, w.faults.tail⟩)

end Io

end Storage

end All4One
