import All4One.Storage.Theorems.Get
import All4One.Storage.Theorems.Put
import All4One.Storage.Reference

open Foundation Path

namespace All4One.Storage

section Decode

variable {crates : Crates} {dir object : String} {fs : Files} {data compressed : Bytes}
  {policy : StoragePolicy} {shards loaded : List Bytes} {m : ObjectMetadata}

theorem decompress_of_compress (h : compress crates data policy.zstdLevel = .ok compressed) :
    (if policy.zstdLevel > 0 then decompress crates compressed else .ok compressed) =
    .ok data := by
  by_cases hl : policy.zstdLevel = 0
  case pos =>
    simp only [compress, hl, ↓reduceIte, Except.ok.injEq] at h
    simp [hl, h]
  case neg =>
    have hm : policy.zstdLevel ∈ [(3 : Int), 19, 22] := by
      cases policy <;> first | exact absurd rfl hl | decide
    have hp : policy.zstdLevel > 0 := by cases policy <;> first | exact absurd rfl hl | decide
    rw [compress, if_neg hl] at h
    rw [if_pos hp, decompress]
    cases he : crates.zstd.encode policy.zstdLevel data
    case error => rw [he] at h; cases h
    case ok =>
      rw [he] at h
      cases h
      rw [crates.zstd.lossless _ hm _ _ he]
      rfl

theorem decodeChunks_of_encoding (henc : IsEncoding crates data policy shards)
    (hm : m.policy = policy.text) (he : m.etag = crates.sha256 data)
    (hl : loadShards fs dir object policy.dataShards
      (List.range (policy.dataShards + policy.parityShards)) = .ok loaded)
    (hs : ∀ i < policy.dataShards, loaded[i]? = shards[i]?) :
    decodeChunks crates fs dir object m = .ok data := by
  obtain ⟨compressed, hc, hsh⟩ := henc
  have hdec := Erasure.decodeErasure_of_encodeErasure policy.parityShards hsh hs
  have hz := decompress_of_compress hc
  simp only [decodeChunks, hm, layout_text, hl, he, bind, Except.bind, hdec]
  by_cases hp : policy.zstdLevel > 0
  case pos =>
    rw [if_pos hp] at hz ⊢
    simp [hz]
  case neg =>
    rw [if_neg hp, Except.ok.injEq] at hz
    simp [hp, hz]

theorem decodeChunks_of_missing (hm : m.policy = policy.text)
    (hl : loadShards fs dir object policy.dataShards
      (List.range (policy.dataShards + policy.parityShards)) = .error e) :
    decodeChunks crates fs dir object m = .error e := by
  simp only [decodeChunks, hm, layout_text, hl, bind, Except.bind]

end Decode

-- What a put that went through has left behind.
structure Stored (crates : Crates) (dataDir bucket key : String) (data : Bytes)
    (policy : StoragePolicy) (shards : List Bytes) (disk : Disk) : Prop where
  encoding : IsEncoding crates data policy shards
  dir      : HasDir dataDir bucket disk.files
  files    : ∀ i (hi : i < shards.length),
    disk.files.entry (shardPlace disk.files.cwd dataDir bucket key i) = some (.file shards[i])
  index    : ∃ m, Index.entry disk.index bucket key = some (crates.json.toVec m) ∧
    m.policy = policy.text ∧ m.etag = crates.sha256 data

-- Some of the shard files of an object have been deleted or overwritten.
structure Damaged (dataDir bucket key : String) (total : Nat) (fs fs' : Files) : Prop where
  cwd   : fs'.cwd = fs.cwd
  other : ∀ q, (∀ i < total, q ≠ shardPlace fs.cwd dataDir bucket key i) → fs'.entry q = fs.entry q
  file  : ∀ i < total, fs'.entry (shardPlace fs.cwd dataDir bucket key i) ≠ some .dir

variable {crates : Crates} {now : Nat → String} {dataDir bucket key : String} {data : Bytes}
  {policy : StoragePolicy} {shards : List Bytes} {w w' : World} {metadata : ObjectMetadata}
  {disk : Disk} {fs : Files} {faults : List Fault} {total : Nat}

theorem createChunksDir_ok (h : (createChunksDir dataDir bucket).run w = (.ok (), w')) :
    HasDir dataDir bucket w'.disk.files := by
  have ho := (Io.files_ok h).1
  have hc := ((Files.createDirAll_grows _ _).of_eq ho).cwd
  intro q hq
  exact Files.createDirAll_ok ho q (hc ▸ hq)

theorem HasDir.of_extends (h : HasDir dataDir bucket fs) (he : Files.Extends fs fs') :
    HasDir dataDir bucket fs' :=
  fun q hq => he.dir q (h q (he.cwd ▸ hq))

theorem IsEncoding.length (h : IsEncoding crates data policy shards) :
    shards.length = policy.dataShards + policy.parityShards :=
  have ⟨_, _, h⟩ := h
  Erasure.length_encodeErasure h

theorem Stored.of_putObject
    (h : (putObject crates now dataDir bucket key data policy).run w = (.ok metadata, w')) :
    ∃ shards, Stored crates dataDir bucket key data policy shards w'.disk := by
  cases PutChunks.of_run h
  case stored shards w₁ w₂ henc hc hw hi =>
    have hk := writeShards_keeps.of_eq hw
    have ⟨hf, hx⟩ := putIndex_ok hi
    have hx := hx bucket key
    rw [if_pos ⟨rfl, rfl⟩] at hx
    refine ⟨shards, henc, ?_, ?_, _, hx, rfl, rfl⟩
    · rw [hf]
      exact (createChunksDir_ok hc).of_extends hk.files
    · intro i hi
      rw [hf, hk.files.cwd]
      exact writeShards_ok hw hi

namespace Damaged

theorem hasDir (hd : Damaged dataDir bucket key total disk.files fs)
    (hs : Stored crates dataDir bucket key data policy shards disk) (ht : total = shards.length) :
    HasDir dataDir bucket fs := by
  intro q hq
  rw [hd.cwd] at hq
  have hdir := hs.dir q hq
  rw [hd.other q, hdir]
  intro i hi he
  rw [he, hs.files i (ht ▸ hi)] at hdir
  cases hdir

theorem refl (hs : Stored crates dataDir bucket key data policy shards disk)
    (ht : total = shards.length) : Damaged dataDir bucket key total disk.files disk.files where
  cwd          := rfl
  other _ _    := rfl
  file i hi h  := by rw [hs.files i (ht ▸ hi)] at h; cases h

theorem set {i : Nat} {data : Bytes} (hd : Damaged dataDir bucket key total fs fs') (hi : i < total) :
    Damaged dataDir bucket key total fs
      (fs'.set (shardPlace fs.cwd dataDir bucket key i) (.file data)) where
  cwd          := hd.cwd
  other q hq   := by rw [Files.entry_set_of_ne (hq i hi), hd.other q hq]
  file j hj    := by
    rw [Files.entry_set shardPlace_ne_nil]
    split
    · simp
    · exact hd.file j hj

theorem erase {i : Nat} (hd : Damaged dataDir bucket key total fs fs') (hi : i < total) :
    Damaged dataDir bucket key total fs (fs'.erase (shardPlace fs.cwd dataDir bucket key i)) where
  cwd          := hd.cwd
  other q hq   := by rw [Files.entry_erase, if_neg (fun h => hq i hi h.1), hd.other q hq]
  file j hj    := by
    rw [Files.entry_erase]
    split
    · simp
    · exact hd.file j hj

end Damaged

theorem getResult_of_stored (hs : Stored crates dataDir bucket key data policy shards disk)
    (hd : Damaged dataDir bucket key (policy.dataShards + policy.parityShards) disk.files fs)
    (h : ∀ i < policy.dataShards, fs.entry (shardPlace disk.files.cwd dataDir bucket key i) =
      disk.files.entry (shardPlace disk.files.cwd dataDir bucket key i)) :
    getResult crates dataDir bucket key ⟨{ disk with files := fs }, faults⟩ = .ok data := by
  have hlen := hs.encoding.length
  have hdir := hd.hasDir hs hlen.symm
  obtain ⟨m, hm, hp, he⟩ := hs.index
  obtain ⟨loaded, hload, hl⟩ := loadShards_of_data (p := policy.parityShards) hdir
    (hlen ▸ Nat.le_add_right _ _) (fun i hi => by rw [hd.cwd, h i hi, hs.files i (by omega)])
    fun i hi => by rw [hd.cwd]; exact hd.file i hi
  rw [getResult_of_some (m := m) hm]
  exact decodeChunks_of_encoding hs.encoding hp he hload hl

theorem getResult_of_missing (hs : Stored crates dataDir bucket key data policy shards disk)
    (hd : Damaged dataDir bucket key (policy.dataShards + policy.parityShards) disk.files fs)
    (h : ∃ i < policy.dataShards, fs.entry (shardPlace disk.files.cwd dataDir bucket key i) = none) :
    getResult crates dataDir bucket key ⟨{ disk with files := fs }, faults⟩ =
    .error (.error "Insufficient shards to recover data") := by
  have hdir := hd.hasDir hs hs.encoding.length.symm
  obtain ⟨m, hm, hp, _⟩ := hs.index
  obtain ⟨i, hi, hn⟩ := h
  rw [getResult_of_some (m := m) hm]
  refine decodeChunks_of_missing hp <| loadShards_of_missing (fun j hj => ?_) ⟨i, ?_, hi, ?_⟩
  · rw [List.mem_range] at hj
    rw [stat_chunkPath hdir, hd.cwd]
    exact hd.file j hj
  · rw [List.mem_range]
    omega
  · rw [stat_chunkPath hdir, hd.cwd, hn]

theorem getResult_self
    (h : (putObject crates now dataDir bucket key data policy).run w = (.ok metadata, w')) :
    getResult crates dataDir bucket key w' = .ok data := by
  obtain ⟨shards, hs⟩ := Stored.of_putObject h
  exact getResult_of_stored hs (.refl hs hs.encoding.length.symm) fun _ _ => rfl

-- A put that goes through can be read back, whatever was on the disk before it and whatever happens
-- to the parity shards after it. Without one of the data shards it can not.
theorem getObject_putObject
    (h : (putObject crates now dataDir bucket key data policy).run w = (.ok metadata, w'))
    (hd : Damaged dataDir bucket key (policy.dataShards + policy.parityShards) w'.disk.files fs) :
    getResult crates dataDir bucket key w' = .ok data ∧
    ((∀ i < policy.dataShards, fs.entry (shardPlace w'.disk.files.cwd dataDir bucket key i) =
        w'.disk.files.entry (shardPlace w'.disk.files.cwd dataDir bucket key i)) →
      getResult crates dataDir bucket key ⟨{ w'.disk with files := fs }, faults⟩ = .ok data) ∧
    ((∃ i < policy.dataShards,
        fs.entry (shardPlace w'.disk.files.cwd dataDir bucket key i) = none) →
      getResult crates dataDir bucket key ⟨{ w'.disk with files := fs }, faults⟩ =
        .error (.error "Insufficient shards to recover data")) := by
  obtain ⟨shards, hs⟩ := Stored.of_putObject h
  exact ⟨getResult_self h, getResult_of_stored hs hd, getResult_of_missing hs hd⟩

theorem putText_hot_warm : ((putText "b" "a/b" "hello" .warm).run
    ((putText "b" "a/b" "an older version" .hot).run .empty).2).1 =
    .ok (textMetadata "b" "a/b" "hello" .warm) := by
  decide +kernel

-- An object takes the place of an older one with fewer shards. Then it loses one of its parity shards
-- and keeps junk for the other, or it loses a data shard.
theorem getObject_putObject_warm :
    ∃ w w', ((putText "b" "a/b" "an older version" .hot).run .empty).2 = w ∧
      ((putText "b" "a/b" "hello" .warm).run w).2 = w' ∧
      let place := shardPlace w'.disk.files.cwd "/d" "b" "a/b"
      let get files := getResult .reference "/d" "b" "a/b" ⟨{ w'.disk with files }, []⟩
      get ((w'.disk.files.erase (place 4)).set (place 5) (.file (Bytes.ofString "junk"))) =
        .ok (Bytes.ofString "hello") ∧
      get (w'.disk.files.erase (place 0)) =
        .error (.error "Insufficient shards to recover data") := by
  obtain ⟨w', h⟩ := Prog.exists_of_fst putText_hot_warm
  refine ⟨_, w', rfl, congrArg Prod.snd h, ?_⟩
  intro place get
  rw [putText] at h
  obtain ⟨shards, hs⟩ := Stored.of_putObject h
  have hd := Damaged.refl hs hs.encoding.length.symm
  have hne {i j : Nat} (hi : i ≠ j) : place i ≠ place j := fun he => hi (shardPlace_inj.mp he).2
  constructor
  · refine (getObject_putObject h ((hd.erase (i := 4) (by decide)).set (i := 5) (by decide))).2.1
      fun i (hi : i < 4) => ?_
    rw [Files.entry_set_of_ne (hne (by omega)), Files.entry_erase,
      if_neg fun he => hne (by omega) he.1]
  · refine (getObject_putObject h (hd.erase (i := 0) (by decide))).2.2 ⟨0, by decide, ?_⟩
    rw [Files.entry_erase, if_pos ⟨rfl, shardPlace_ne_nil⟩]

end All4One.Storage
