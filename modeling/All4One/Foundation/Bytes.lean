import Mathlib.Data.List.Lex
import Mathlib.Tactic.Ring

namespace Foundation

instance uint8LinearOrder : LinearOrder UInt8 where
  le_refl          := UInt8.le_refl
  le_trans _ _ _   := UInt8.le_trans
  le_antisymm _ _  := UInt8.le_antisymm
  le_total         := UInt8.le_total
  lt_iff_le_not_ge := fun _ _ => @lt_iff_le_not_ge Nat _ _ _
  toDecidableLE    := inferInstance
  toDecidableLT    := inferInstance
  toDecidableEq    := inferInstance

-- Byte strings are ordered lexicographically.
abbrev Bytes := List UInt8

namespace Bytes

-- The bytes of a string in UTF-8.
def ofString (s : String) : Bytes :=
  s.toByteArray.data.toList

theorem ofString_injective : Function.Injective ofString := by
  intro s t h
  rw [← String.toByteArray_inj]
  exact ByteArray.ext (Array.toList_inj.mp h)

@[simp]
theorem ofString_inj {s t : String} : ofString s = ofString t ↔ s = t :=
  ofString_injective.eq_iff

-- The string that is written so, if there is one.
def toString? (data : Bytes) : Option String :=
  (ByteArray.mk data.toArray).utf8Decode?.map fun cs => String.ofList cs.toList

@[simp]
theorem toString?_ofString (s : String) : toString? (ofString s) = some s := by
  have : ByteArray.mk (ofString s).toArray = s.toList.utf8Encode := by
    rw [String.utf8Encode_toList]
    rfl
  simp [toString?, this, List.utf8Decode?_utf8Encode, -String.utf8Encode_toList]

-- A character of ASCII is one byte.
theorem ofString_ofList {cs : List Char} (h : ∀ c ∈ cs, c.toNat < 128) :
    ofString (String.ofList cs) = cs.map fun c => UInt8.ofNat c.toNat := by
  rw [ofString, String.toByteArray_ofList, List.utf8Encode]
  simp only [List.data_toByteArray]
  rw [List.map_eq_flatMap]
  refine List.flatMap_congr fun c hc => ?_
  have hle : c.val.toNat ≤ 127 := Nat.le_of_lt_succ (h c hc)
  simp only [String.utf8EncodeChar, hle, ↓reduceIte]
  rfl

-- The `k` lowest bytes of a number, the lowest one first.
def toLe : Nat → Nat → Bytes
  | 0,     _ => []
  | k + 1, n => UInt8.ofNat n :: toLe k (n / 256)

def ofLe : Bytes → Nat
  | []      => 0
  | b :: bs => b.toNat + 256 * ofLe bs

@[simp]
theorem length_toLe (k n : Nat) : (toLe k n).length = k := by
  induction k generalizing n
  case zero       => rfl
  case succ k hi  => simp [toLe, hi]

theorem ofLe_toLe {k n : Nat} (h : n < 256 ^ k) : ofLe (toLe k n) = n := by
  induction k generalizing n
  case zero => simp at h; simp [toLe, ofLe, h]
  case succ k hi =>
    have hd : n / 256 < 256 ^ k := by
      rw [Nat.div_lt_iff_lt_mul (by decide), ← Nat.pow_succ]
      exact h
    rw [toLe, ofLe, hi hd, UInt8.toNat_ofNat']
    omega

-- The `k` lowest bytes of a number, the highest one first.
def toBe : Nat → Nat → Bytes
  | 0,     _ => []
  | k + 1, n => UInt8.ofNat (n / 256 ^ k) :: toBe k n

def ofBe (bs : Bytes) : Nat :=
  bs.foldl (fun n b => 256 * n + b.toNat) 0

@[simp]
theorem length_toBe (k n : Nat) : (toBe k n).length = k := by
  induction k
  case zero      => rfl
  case succ k hi => simp [toBe, hi]

theorem ofBe_toBe {k n : Nat} (h : n < 256 ^ k) : ofBe (toBe k n) = n := by
  have hf (m : Nat) :
      (toBe k n).foldl (fun n b => 256 * n + b.toNat) m = 256 ^ k * m + n % 256 ^ k := by
    clear h
    induction k generalizing m
    case zero => simp [toBe, Nat.mod_one]
    case succ k hi =>
      have hn : n % 256 ^ (k + 1) = n % 256 ^ k + 256 ^ k * (n / 256 ^ k % 256) := Nat.mod_pow_succ
      rw [toBe, List.foldl_cons, hi, UInt8.toNat_ofNat', hn, Nat.pow_succ]
      ring
  rw [ofBe, hf, Nat.mod_eq_of_lt h]
  simp

theorem toBe_lt_of_mod_lt {k m n : Nat} (h : m % 256 ^ k < n % 256 ^ k) : toBe k m < toBe k n := by
  induction k
  case zero => simp [Nat.mod_one] at h
  case succ k hi =>
    rw [Nat.mod_pow_succ, Nat.mod_pow_succ] at h
    rw [toBe, toBe, List.cons_lt_cons_iff, UInt8.lt_iff_toNat_lt, ← UInt8.toNat_inj,
      UInt8.toNat_ofNat', UInt8.toNat_ofNat']
    have hm := Nat.mod_lt m (Nat.pow_pos (n := k) (show 0 < 256 by decide))
    have hn := Nat.mod_lt n (Nat.pow_pos (n := k) (show 0 < 256 by decide))
    rcases Nat.lt_trichotomy (m / 256 ^ k % 256) (n / 256 ^ k % 256) with hl | he | hg
    · exact .inl hl
    · rw [he] at h
      exact .inr ⟨he, hi (by omega)⟩
    · have := Nat.mul_le_mul_left (256 ^ k) (Nat.succ_le_of_lt hg)
      rw [Nat.mul_succ] at this
      omega

-- With the highest byte first, the order of the byte strings is the one of the numbers.
theorem toBe_lt_toBe {k m n : Nat} (hm : m < 256 ^ k) (hn : n < 256 ^ k) :
    toBe k m < toBe k n ↔ m < n := by
  have mono {m n} (hm : m < 256 ^ k) (hn : n < 256 ^ k) (h : m < n) : toBe k m < toBe k n := by
    apply toBe_lt_of_mod_lt
    rwa [Nat.mod_eq_of_lt hm, Nat.mod_eq_of_lt hn]
  constructor
  case mpr => exact mono hm hn
  case mp =>
    intro h
    rcases Nat.lt_trichotomy m n with hl | he | hg
    · exact hl
    · rw [he] at h
      exact absurd h (lt_irrefl _)
    · exact absurd h (lt_asymm (mono hn hm hg))

end Bytes

end Foundation
