import All4One.Storage.Policy

open Foundation

namespace All4One.Storage

def isizeMax : Nat := 2 ^ 63 - 1

namespace Erasure

def shardSize (len dataShards : Nat) : Nat :=
  (len + dataShards - 1) / dataShards

-- The `i`-th data shard: its part of the prefixed data, copied over zeros.
def dataShard (pref : Bytes) (size i : Nat) : Bytes :=
  let start := i * size
  let stop  := min (start + size) pref.length
  if stop > start then
    pref.extract start stop ++ List.replicate (size - (stop - start)) 0
  else
    List.replicate size 0

end Erasure

open Erasure

def encodeErasure (data : Bytes) (dataShards parityShards : Nat) : Except Failure (List Bytes) :=
  -- `Vec::with_capacity` and `div_ceil` panic.
  if 8 + data.length > isizeMax ∨ dataShards = 0 then
    .error .panic
  else
    let pref := Bytes.toLe 8 data.length ++ data
    let size := shardSize pref.length dataShards
    .ok ((List.range dataShards).map (dataShard pref size) ++
      List.replicate parityShards (List.replicate size 0))

def decodeErasure (shards : List Bytes) (dataShards _parityShards : Nat) : Except Failure Bytes :=
  let combined := (List.range dataShards).flatMap fun i => shards[i]?.getD []
  if combined.length < 8 then
    .error (.error "Erasure decoded data too short to contain length prefix")
  else
    let dataLen := Bytes.ofLe (combined.take 8)
    -- The sum overflows.
    if 8 + dataLen ≥ 2 ^ 64 then
      .error .panic
    else if 8 + dataLen > combined.length then
      .error (.error "Erasure length prefix exceeds decoded data")
    else
      .ok (combined.extract 8 (8 + dataLen))

namespace Erasure

variable {pref data : Bytes} {size i k p : Nat} {shards : List Bytes}

theorem length_le_mul_shardSize (len : Nat) (h : 0 < k) : len ≤ k * shardSize len k := by
  have := Nat.div_add_mod (len + k - 1) k
  have := Nat.mod_lt (len + k - 1) h
  rw [shardSize]
  omega

-- A data shard is a part of the data that has been filled up with zeros.
theorem dataShard_eq (hp : pref.length ≤ k * size) (hi : i < k) :
    dataShard pref size i =
    ((pref ++ List.replicate (k * size - pref.length) 0).drop (i * size)).take size := by
  have hle : i * size + size ≤ k * size := by
    rw [← Nat.succ_mul]
    exact Nat.mul_le_mul_right _ hi
  refine List.ext_getElem? fun j => ?_
  by_cases hj : j < size
  case neg =>
    rw [List.getElem?_eq_none, List.getElem?_eq_none]
    · simp; omega
    · simp only [dataShard]
      split <;> simp <;> omega
  case pos =>
    rw [List.getElem?_take_of_lt hj, List.getElem?_drop]
    by_cases hl : i * size + j < pref.length
    case pos =>
      have : min (i * size + size) pref.length > i * size := by omega
      simp only [dataShard, this, ↓reduceIte, List.extract_eq_take_drop]
      rw [List.getElem?_append_left (by simp; omega), List.getElem?_append_left hl,
        List.getElem?_take_of_lt (by omega), List.getElem?_drop]
    case neg =>
      have hr : (List.replicate (k * size - pref.length) (0 : UInt8))[i * size + j - pref.length]? =
          some 0 := by
        rw [List.getElem?_replicate_of_lt (by omega)]
      rw [List.getElem?_append_right (by omega), hr]
      simp only [dataShard]
      split
      case isTrue =>
        rw [List.getElem?_append_right (by simp; omega), List.getElem?_replicate_of_lt (by simp; omega)]
      case isFalse => rw [List.getElem?_replicate_of_lt hj]

theorem flatMap_take_drop (l : Bytes) (size k : Nat) :
    (List.range k).flatMap (fun i => (l.drop (i * size)).take size) = l.take (k * size) := by
  induction k
  case zero => simp
  case succ k hi =>
    rw [List.range_succ, List.flatMap_append, hi, List.flatMap_singleton, Nat.succ_mul, List.take_add]

theorem encodeErasure_eq_ok (h : encodeErasure data k p = .ok shards) :
    8 + data.length ≤ isizeMax ∧ 0 < k ∧
    shards = (List.range k).map (dataShard (Bytes.toLe 8 data.length ++ data)
        (shardSize (8 + data.length) k)) ++
      List.replicate p (List.replicate (shardSize (8 + data.length) k) 0) := by
  rw [encodeErasure] at h
  split at h
  case isTrue => cases h
  case isFalse hc =>
    rw [not_or, Nat.not_lt] at hc
    simp only [List.length_append, Bytes.length_toLe, Except.ok.injEq] at h
    exact ⟨hc.1, Nat.pos_of_ne_zero hc.2, h.symm⟩

theorem length_encodeErasure (h : encodeErasure data k p = .ok shards) : shards.length = k + p := by
  simp [(encodeErasure_eq_ok h).2.2]

-- The data shards are all that it takes to decode.
theorem decodeErasure_congr {shards' : List Bytes} (h : ∀ i < k, shards'[i]? = shards[i]?) :
    decodeErasure shards' k p = decodeErasure shards k p := by
  have : (List.range k).flatMap (fun i => shards'[i]?.getD []) =
      (List.range k).flatMap fun i => shards[i]?.getD [] :=
    List.flatMap_congr fun i hi => by rw [h i (List.mem_range.mp hi)]
  rw [decodeErasure, decodeErasure]
  simp only [this]
  rw [this]

theorem decodeErasure_of_encodeErasure {shards' : List Bytes} (p' : Nat)
    (h : encodeErasure data k p = .ok shards) (hs : ∀ i < k, shards'[i]? = shards[i]?) :
    decodeErasure shards' k p' = .ok data := by
  have ⟨hl, hk, hsh⟩ := encodeErasure_eq_ok h
  let pref := Bytes.toLe 8 data.length ++ data
  let size := shardSize (8 + data.length) k
  have hp : pref.length = 8 + data.length := by simp [pref]
  have hle : pref.length ≤ k * size := hp ▸ length_le_mul_shardSize _ hk
  have hmax : isizeMax < 256 ^ 8 := by decide
  -- The data shards together are the prefixed data, filled up with zeros.
  have hcomb : (List.range k).flatMap (fun i => shards'[i]?.getD []) =
      pref ++ List.replicate (k * size - pref.length) 0 := by
    have hi : ∀ i ∈ List.range k, shards'[i]?.getD [] =
        ((pref ++ List.replicate (k * size - pref.length) 0).drop (i * size)).take size := by
      intro i hi
      rw [List.mem_range] at hi
      rw [hs i hi, hsh, List.getElem?_append_left (by simpa using hi), List.getElem?_map,
        List.getElem?_range hi, ← dataShard_eq hle hi]
      rfl
    rw [List.flatMap_congr hi, flatMap_take_drop, List.take_of_length_le]
    simp
    omega
  have htake : (pref ++ List.replicate (k * size - pref.length) 0).take 8 =
      Bytes.toLe 8 data.length := by
    simp only [pref, List.append_assoc]
    rw [List.take_left' (by simp)]
  have hlen : Bytes.ofLe (Bytes.toLe 8 data.length) = data.length := Bytes.ofLe_toLe (by omega)
  have hex : (pref ++ List.replicate (k * size - pref.length) (0 : UInt8)).extract 8
      (8 + data.length) = data := by
    simp only [pref, List.extract_eq_take_drop, List.append_assoc]
    rw [List.drop_left' (by simp)]
    simp
  have h64 : ¬ 8 + data.length ≥ 2 ^ 64 := by
    have : isizeMax < 2 ^ 64 := by decide
    omega
  simp only [decodeErasure, hcomb, htake, hlen, h64, ↓reduceIte]
  rw [if_neg (by simp; omega), if_neg (by simp; omega), hcomb, hex]

end Erasure

end All4One.Storage
