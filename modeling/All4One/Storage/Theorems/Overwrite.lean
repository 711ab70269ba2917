import All4One.Storage.Theorems.Sound

open Foundation Path

namespace All4One.Storage

variable {crates : Crates} {now : Nat → String} {dataDir bucket key : String} {data old : Bytes}
  {policy : StoragePolicy} {shards : List Bytes} {w w' : World} {disk : Disk}
  {faults : List Fault} {e : Failure}

theorem IsEncoding.ne_nil (h : IsEncoding crates data policy shards) : shards ≠ [] := by
  intro hn
  have := h.length
  rw [hn] at this
  cases policy <;> cases this

end All4One.Storage
