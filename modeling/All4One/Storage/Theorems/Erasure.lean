import All4One.Storage.Encoder
import Mathlib.Algebra.Order.Floor.Div

open Foundation

namespace All4One.Storage

open Erasure

variable {data : Bytes} {shards : List Bytes} {size i k p : Nat}

end All4One.Storage
