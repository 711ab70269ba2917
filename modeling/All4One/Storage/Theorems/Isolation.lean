import All4One.Storage.Theorems.Sound

open Foundation Path

namespace All4One.Storage

variable {crates : Crates} {now : Nat → String} {dataDir b₁ k₁ b₂ k₂ : String} {data : Bytes}
  {policy : StoragePolicy} {w w' : World} {metadata : ObjectMetadata} {disk : Disk}

end All4One.Storage
