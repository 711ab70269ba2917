import All4One.Storage.Theorems.Naming

open Foundation Path

namespace All4One.Storage

-- What a get of an object returns.
def getResult (crates : Crates) (dataDir bucket key : String) (w : World) : Except Failure Bytes :=
  ((getObject crates dataDir bucket key).run w).1

-- The directory of a bucket is there, with all that lead to it.
def HasDir (dataDir bucket : String) (fs : Files) : Prop :=
  ∀ q ∈ trail fs.cwd (chunksDir dataDir bucket), fs.entry q = some .dir

section LoadShards

variable {dir object : String} {fs fs' : Files} {shards : List Bytes} {k i : Nat} {is js : List Nat}

theorem loadShards_cons : loadShards fs dir object k (i :: is) =
    match fs.stat (chunkPath dir object i) with
    | some (.file shard) => (loadShards fs dir object k is).map (shard :: ·)
    | some .dir          => .error (.io .refused)
    | none               =>
      if i < k then
        .error (.error "Insufficient shards to recover data")
      else
        loadShards fs dir object k is := by
  rw [loadShards, Files.pathExists, Files.read]
  rcases fs.stat (chunkPath dir object i) with _ | _ | _ <;> rfl

theorem loadShards_append : loadShards fs dir object k (is ++ js) =
    (loadShards fs dir object k is).bind fun xs => (loadShards fs dir object k js).map (xs ++ ·) := by
  induction is
  case nil =>
    rw [List.nil_append]
    cases loadShards fs dir object k js <;> rfl
  case cons i is hi =>
    rw [List.cons_append, loadShards_cons, loadShards_cons, hi]
    split
    case h_1 => cases loadShards fs dir object k is <;> cases loadShards fs dir object k js <;> rfl
    case h_2 => rfl
    case h_3 => split <;> rfl

theorem loadShards_append_ok {xs ys : List Bytes} (h₁ : loadShards fs dir object k is = .ok xs)
    (h₂ : loadShards fs dir object k js = .ok ys) :
    loadShards fs dir object k (is ++ js) = .ok (xs ++ ys) := by
  rw [loadShards_append, h₁, h₂]
  rfl

-- Shards that are all there are loaded in their order.
theorem loadShards_range {n : Nat} (hn : n ≤ shards.length)
    (h : ∀ i (hi : i < n), fs.stat (chunkPath dir object i) = some (.file shards[i])) :
    loadShards fs dir object k (List.range n) = .ok (shards.take n) := by
  induction n
  case zero => rfl
  case succ n hi =>
    rw [List.range_succ, loadShards_append, hi (by omega) fun i hi => h i (by omega),
      loadShards_cons, h n (by omega), List.take_succ_eq_append_getElem hn]
    rfl

-- Shards that are not needed may be there or not.
theorem loadShards_of_optional (hk : ∀ i ∈ is, k ≤ i)
    (h : ∀ i ∈ is, fs.stat (chunkPath dir object i) ≠ some .dir) :
    ∃ rest, loadShards fs dir object k is = .ok rest := by
  induction is
  case nil => exact ⟨[], rfl⟩
  case cons i is hi =>
    rw [List.forall_mem_cons] at hk h
    obtain ⟨rest, hr⟩ := hi hk.2 h.2
    rw [loadShards_cons, hr]
    split
    case h_1 => exact ⟨_, rfl⟩
    case h_2 => exact absurd ‹_› h.1
    case h_3 => rw [if_neg (Nat.not_lt.mpr hk.1)]; exact ⟨rest, rfl⟩

theorem loadShards_of_missing (h : ∀ i ∈ is, fs.stat (chunkPath dir object i) ≠ some .dir)
    (hm : ∃ i ∈ is, i < k ∧ fs.stat (chunkPath dir object i) = none) :
    loadShards fs dir object k is = .error (.error "Insufficient shards to recover data") := by
  induction is
  case nil => simp at hm
  case cons i is hi =>
    rw [List.forall_mem_cons] at h
    rw [List.exists_mem_cons_iff] at hm
    rw [loadShards_cons]
    split
    case h_1 hs =>
      rcases hm with ⟨_, hn⟩ | hm
      · simp [hs] at hn
      · rw [hi h.2 hm]; rfl
    case h_2 hs => exact absurd hs h.1
    case h_3 =>
      split
      case isTrue => rfl
      case isFalse hk =>
        rcases hm with ⟨hk', _⟩ | hm
        · exact absurd hk' hk
        · exact hi h.2 hm

end LoadShards

section GetResult

variable {crates : Crates} {dataDir bucket key : String} {w : World} {fs fs' : Files}
  {m : ObjectMetadata} {i : Nat}

theorem getResult_eq : getResult crates dataDir bucket key w =
    (Index.parse crates bucket key (Index.entry w.disk.index bucket key)).bind fun m =>
      decodeChunks crates w.disk.files (chunksDir dataDir bucket) (objectId bucket key) m := by
  have : getObject crates dataDir bucket key = Index.getObject crates bucket key >>= fun m =>
      .reads fun w =>
        decodeChunks crates w.disk.files (chunksDir dataDir bucket) (objectId bucket key) m := rfl
  have hr : ((Index.getObject crates bucket key).run w).1 =
      Index.parse crates bucket key (Index.entry w.disk.index bucket key) := by
    simp only [Index.getObject, Index.entry_openTree]
  rw [getResult, this]
  cases h : Index.parse crates bucket key (Index.entry w.disk.index bucket key)
  case error => rw [Prog.bind_of_error (Prod.ext (hr.trans h) rfl)]; rfl
  case ok    => rw [Prog.bind_of_ok (Prod.ext (hr.trans h) rfl)]; rfl

theorem getResult_faults {faults : List Fault} :
    getResult crates dataDir bucket key ⟨w.disk, faults⟩ = getResult crates dataDir bucket key w := by
  rw [getResult_eq, getResult_eq]

theorem getResult_of_none (h : Index.entry w.disk.index bucket key = none) :
    getResult crates dataDir bucket key w =
    .error (.error s!"Object not found: {bucket}/{key}") := by
  rw [getResult_eq, h]
  rfl

theorem getResult_of_some (h : Index.entry w.disk.index bucket key = some (crates.json.toVec m)) :
    getResult crates dataDir bucket key w =
    decodeChunks crates w.disk.files (chunksDir dataDir bucket) (objectId bucket key) m := by
  rw [getResult_eq, h, Index.parse, crates.json.fromSlice_toVec]
  rfl

theorem stat_chunkPath (h : HasDir dataDir bucket fs) :
    fs.stat (chunkPath (chunksDir dataDir bucket) (objectId bucket key) i) =
    fs.entry (shardPlace fs.cwd dataDir bucket key i) :=
  Files.stat_of_leads (Files.leads_join h (isName_chunkId bucket key i))

-- Where the data shards are there and nothing is in the place of a parity shard that can not be read,
-- the shards are loaded with the data shards first.
theorem loadShards_of_data {shards : List Bytes} {n p : Nat} (hdir : HasDir dataDir bucket fs)
    (hn : n ≤ shards.length)
    (hdata : ∀ i (hi : i < n), fs.entry (shardPlace fs.cwd dataDir bucket key i) =
      some (.file shards[i]))
    (hparity : ∀ i < n + p, fs.entry (shardPlace fs.cwd dataDir bucket key i) ≠ some .dir) :
    ∃ loaded, loadShards fs (chunksDir dataDir bucket) (objectId bucket key) n
      (List.range (n + p)) = .ok loaded ∧ ∀ i < n, loaded[i]? = shards[i]? := by
  have hd : loadShards fs (chunksDir dataDir bucket) (objectId bucket key) n (List.range n) =
      .ok (shards.take n) :=
    loadShards_range hn fun i hi => by rw [stat_chunkPath hdir, hdata i hi]
  have ⟨rest, hp⟩ : ∃ rest, loadShards fs (chunksDir dataDir bucket) (objectId bucket key) n
      ((List.range p).map (n + ·)) = .ok rest := by
    refine loadShards_of_optional (by simp) fun i hi => ?_
    obtain ⟨j, hj, rfl⟩ := List.mem_map.mp hi
    rw [List.mem_range] at hj
    rw [stat_chunkPath hdir]
    exact hparity _ (by omega)
  refine ⟨shards.take n ++ rest, ?_, fun i hi => ?_⟩
  · rw [List.range_add]
    exact loadShards_append_ok hd hp
  · rw [List.getElem?_append_left (by simp; omega), List.getElem?_take_of_lt hi]

-- What is decoded depends on the data shards only.
theorem decodeChunks_of_loaded {dir object : String} {loaded loaded' : List Bytes}
    (hl : loadShards fs dir object (layout m.policy).dataShards
      (List.range ((layout m.policy).dataShards + (layout m.policy).parityShards)) = .ok loaded)
    (hl' : loadShards fs' dir object (layout m.policy).dataShards
      (List.range ((layout m.policy).dataShards + (layout m.policy).parityShards)) = .ok loaded')
    (h : ∀ i < (layout m.policy).dataShards, loaded'[i]? = loaded[i]?) :
    decodeChunks crates fs' dir object m = decodeChunks crates fs dir object m := by
  simp only [decodeChunks, hl, hl', bind, Except.bind, Erasure.decodeErasure_congr h]

-- Data is only returned under the hash that the index has for it.
theorem etag_of_decodeChunks {dir object : String} {data : Bytes}
    (h : decodeChunks crates fs dir object m = .ok data) : crates.sha256 data = m.etag := by
  simp only [decodeChunks, bind, Except.bind] at h
  split at h
  case h_1 => cases h
  case h_2 =>
    split at h
    case h_1 => cases h
    case h_2 =>
      split at h
      case isTrue =>
        split at h
        case h_1 => cases h
        case h_2 => split at h <;> cases h; exact not_not.mp ‹_›
      case isFalse => split at h <;> cases h; exact not_not.mp ‹_›

end GetResult

end All4One.Storage
