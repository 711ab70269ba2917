import All4One.Foundation.Transition
import All4One.Storage.Chunks

open Foundation

namespace All4One.Storage

-- The disk of a node, under puts and deletes any of whose writes may fail.
inductive Event
  | put (bucket key : String) (data : Bytes) (policy : StoragePolicy) (now : Nat → String)
    (faults : List Fault)
  | delete (bucket key : String) (faults : List Fault)

def perform (crates : Crates) (dataDir : String) (disk : Disk) : Event → Disk
  | .put bucket key data policy now faults =>
    ((putObject crates now dataDir bucket key data policy).run ⟨disk, faults⟩).2.disk
  | .delete bucket key faults => ((deleteObject bucket key).run ⟨disk, faults⟩).2.disk

def step (crates : Crates) (dataDir : String) (disk : Disk) (e : Event) : Option Disk :=
  some (perform crates dataDir disk e)

-- A disk on which no object has been stored yet.
def Disk.IsFresh (disk : Disk) : Prop :=
  ∀ bucket key, Index.entry disk.index bucket key = none

-- A disk that puts and deletes have led to.
def Disk.IsReachable (crates : Crates) (dataDir : String) (disk : Disk) : Prop :=
  ∃ disk₀ : Disk, disk₀.IsFresh ∧ Transition.Reachable (step crates dataDir) disk₀ disk

end All4One.Storage
