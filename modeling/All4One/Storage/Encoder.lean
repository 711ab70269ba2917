import All4One.Foundation.Usize
import All4One.Storage.Erasure

open Foundation

-- `encode_erasure` with each of its operations on numbers and slices. There is no result where one of
-- them panics.
namespace All4One.Storage.Encoder

-- The body of the loop over the data shards.
def dataShard (pref : Bytes) (shardSize i : Nat) : Option Bytes := do
  let start ← Usize.mul i shardSize
  let stop := min (← Usize.add start shardSize) pref.length
  let shard := List.replicate shardSize 0
  if stop > start then
    Usize.copyFromSlice shard (← Usize.sub stop start) (← Usize.slice pref start stop)
  else
    some shard

def encode (data : Bytes) (dataShards parityShards : Nat) : Option (List Bytes) := do
  let capacity ← Usize.add 8 data.length
  -- What `Vec::with_capacity` refuses.
  guard (capacity ≤ isizeMax)
  let pref := Bytes.toLe 8 data.length ++ data
  let shardSize ← Usize.divCeil pref.length dataShards
  let shards ← (List.range dataShards).mapM (dataShard pref shardSize)
  some (shards ++ List.replicate parityShards (List.replicate shardSize 0))

open Erasure

variable {pref data : Bytes} {size i k p : Nat}

end All4One.Storage.Encoder
