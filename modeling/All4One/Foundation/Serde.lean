import Mathlib.Data.BitVec
import Mathlib.Data.Nat.Digits.Defs
import Mathlib.Logic.Encodable.Basic
import Mathlib.Logic.Equiv.List
import All4One.Foundation.Bytes
import All4One.Foundation.HashMap

namespace Foundation.Serde

instance : Encodable Char :=
  .ofLeftInjection Char.toNat (fun n => some (Char.ofNat n)) (by simp)

instance : Encodable String :=
  .ofLeftInjection String.toList (fun cs => some (String.ofList cs)) (by simp)

instance (n : Nat) : Encodable (BitVec n) :=
  .ofLeftInjection BitVec.toNat (fun m => some (BitVec.ofNat n m)) (by simp)

-- A format for anything that can be counted. What it writes starts with a zero byte.
def counted (α : Type) [Encodable α] : Serde α Bytes where
  toVec a     := 0 :: (Nat.digits 256 (Encodable.encode a)).map UInt8.ofNat
  fromSlice b := Encodable.decode (Nat.ofDigits 256 (b.tail.map UInt8.toNat))
  fromSlice_toVec a := by
    have hd : ((Nat.digits 256 (Encodable.encode a)).map UInt8.ofNat).map UInt8.toNat =
        Nat.digits 256 (Encodable.encode a) := by
      rw [List.map_map]
      refine (List.map_congr_left fun d hd => ?_).trans (List.map_id _)
      exact UInt8.toNat_ofNat_of_lt (Nat.digits_lt_base (by decide) hd)
    rw [List.tail_cons, hd, Nat.ofDigits_digits, Encodable.encodek]

variable {α β : Type} [DecidableEq α] [DecidableEq β]

-- The format that writes one value in another way.
def assign (serde : Serde α β) (a : α) (b : β) (h : ∀ a, serde.toVec a ≠ b) : Serde α β where
  toVec a'          := if a' = a then b else serde.toVec a'
  fromSlice b'      := if b' = b then some a else serde.fromSlice b'
  fromSlice_toVec x := by
    by_cases hx : x = a
    case pos => simp [hx]
    case neg => simp [hx, h x, serde.fromSlice_toVec]

end Foundation.Serde
