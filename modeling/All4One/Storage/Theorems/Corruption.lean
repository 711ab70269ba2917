import All4One.Storage.Theorems.RoundTrip

open Foundation Path

namespace All4One.Storage

-- Every shard file of an object has some content.
structure Corrupted (dataDir bucket key : String) (contents : List Bytes) (fs fs' : Files) : Prop where
  cwd   : fs'.cwd = fs.cwd
  other : ∀ q, (∀ i < contents.length, q ≠ shardPlace fs.cwd dataDir bucket key i) →
    fs'.entry q = fs.entry q
  file  : ∀ i (hi : i < contents.length),
    fs'.entry (shardPlace fs.cwd dataDir bucket key i) = some (.file contents[i])

-- The length that the data shards start with, and the eight bytes that it takes, are less than 2^64,
-- if there are so many bytes at all.
def IsBounded (shards : List Bytes) : Prop :=
  shards.flatten.length < 8 ∨ 8 + Bytes.ofLe (shards.flatten.take 8) < 2 ^ 64

instance (shards : List Bytes) : Decidable (IsBounded shards) :=
  inferInstanceAs (Decidable (_ ∨ _))

section Panic

variable {crates : Crates} {dir object : String} {fs : Files} {contents shards : List Bytes}
  {m : ObjectMetadata} {k p : Nat}

theorem flatMap_getD (h : k ≤ shards.length) :
    (List.range k).flatMap (fun i => shards[i]?.getD []) = (shards.take k).flatten := by
  induction k
  case zero => simp
  case succ k hi =>
    rw [List.range_succ, List.flatMap_append, hi (by omega), List.flatMap_singleton,
      List.take_succ_eq_append_getElem h, List.flatten_append, List.flatten_singleton,
      List.getElem?_eq_getElem h]
    rfl

theorem decodeErasure_panic_iff (h : k ≤ shards.length) :
    decodeErasure shards k p = .error .panic ↔ ¬ IsBounded (shards.take k) := by
  rw [IsBounded, not_or, Nat.not_lt, Nat.not_lt, decodeErasure]
  simp only [flatMap_getD h]
  split
  case isTrue hl => exact iff_of_false (by simp) fun hb => absurd hb.1 (Nat.not_le.mpr hl)
  case isFalse hl =>
    split
    case isTrue hb  => exact iff_of_true rfl ⟨Nat.not_lt.mp hl, hb⟩
    case isFalse hb =>
      refine iff_of_false ?_ fun hb' => hb hb'.2
      split <;> simp

theorem decompress_ne_panic {compressed : Bytes} : decompress crates compressed ≠ .error .panic := by
  rw [decompress]
  cases crates.zstd.decodeAll compressed <;> simp [Except.mapError]

-- Nothing else in the reader panics.
theorem decodeChunks_panic_iff
    (hl : loadShards fs dir object (layout m.policy).dataShards
      (List.range ((layout m.policy).dataShards + (layout m.policy).parityShards)) = .ok shards) :
    decodeChunks crates fs dir object m = .error .panic ↔
    decodeErasure shards (layout m.policy).dataShards (layout m.policy).parityShards =
      .error .panic := by
  simp only [decodeChunks, hl, bind, Except.bind]
  cases decodeErasure shards (layout m.policy).dataShards (layout m.policy).parityShards
  case error e => rfl
  case ok compressed =>
    refine iff_of_false (fun h => ?_) (by simp)
    simp only at h
    split at h
    case isTrue =>
      split at h
      case h_1 hz => cases h; exact decompress_ne_panic hz
      case h_2    => split at h <;> cases h
    case isFalse => split at h <;> cases h

end Panic

variable {crates : Crates} {now : Nat → String} {dataDir bucket key : String} {data : Bytes}
  {policy : StoragePolicy} {contents shards : List Bytes} {w w' : World} {metadata : ObjectMetadata}
  {disk : Disk} {fs fs' : Files} {faults : List Fault}

theorem Corrupted.damaged (h : Corrupted dataDir bucket key contents fs fs') :
    Damaged dataDir bucket key contents.length fs fs' where
  cwd       := h.cwd
  other     := h.other
  file i hi := by simp [h.file i hi]

-- What is read once the shard files have been overwritten.
theorem exists_getResult_of_corrupted (hs : Stored crates dataDir bucket key data policy shards disk)
    (hc : Corrupted dataDir bucket key contents disk.files fs)
    (hl : contents.length = policy.dataShards + policy.parityShards) (faults : List Fault) :
    ∃ m : ObjectMetadata, m.etag = crates.sha256 data ∧
      layout m.policy = ⟨policy.dataShards, policy.parityShards, policy.zstdLevel⟩ ∧
      loadShards fs (chunksDir dataDir bucket) (objectId bucket key) policy.dataShards
        (List.range (policy.dataShards + policy.parityShards)) = .ok contents ∧
      getResult crates dataDir bucket key ⟨{ disk with files := fs }, faults⟩ =
        decodeChunks crates fs (chunksDir dataDir bucket) (objectId bucket key) m := by
  obtain ⟨m, hm, hp, he⟩ := hs.index
  have hdir : HasDir dataDir bucket fs := hc.damaged.hasDir hs (hl.trans hs.encoding.length.symm)
  refine ⟨m, he, hp ▸ layout_text policy, ?_, getResult_of_some hm⟩
  have hload := loadShards_range (k := policy.dataShards) (n := contents.length) (le_refl _)
    fun i hi => by rw [stat_chunkPath hdir, hc.cwd]; exact hc.file i hi
  rw [← hl, hload, List.take_length]

theorem getResult_panic_iff
    (h : (putObject crates now dataDir bucket key data policy).run w = (.ok metadata, w'))
    (hl : contents.length = policy.dataShards + policy.parityShards)
    (hc : Corrupted dataDir bucket key contents w'.disk.files fs) (faults : List Fault) :
    getResult crates dataDir bucket key ⟨{ w'.disk with files := fs }, faults⟩ = .error .panic ↔
    ¬ IsBounded (contents.take policy.dataShards) := by
  obtain ⟨shards, hs⟩ := Stored.of_putObject h
  obtain ⟨m, he, hm, hload, hr⟩ := exists_getResult_of_corrupted hs hc hl faults
  have hk : policy.dataShards ≤ contents.length := hl ▸ Nat.le_add_right _ _
  have hd : decodeChunks crates fs (chunksDir dataDir bucket) (objectId bucket key) m =
      .error .panic ↔ _ := decodeChunks_panic_iff (by rw [hm]; exact hload)
  rw [hm] at hd
  rw [hr, hd, decodeErasure_panic_iff hk]

theorem etag_of_corrupted {data' : Bytes}
    (h : (putObject crates now dataDir bucket key data policy).run w = (.ok metadata, w'))
    (hl : contents.length = policy.dataShards + policy.parityShards)
    (hc : Corrupted dataDir bucket key contents w'.disk.files fs)
    (hr : getResult crates dataDir bucket key ⟨{ w'.disk with files := fs }, faults⟩ = .ok data') :
    crates.sha256 data' = crates.sha256 data := by
  obtain ⟨shards, hs⟩ := Stored.of_putObject h
  obtain ⟨m, he, -, -, hr'⟩ := exists_getResult_of_corrupted hs hc hl faults
  exact (etag_of_decodeChunks (hr'.symm.trans hr)).trans he

-- A get of an object whose shard files have been overwritten returns what was put or an error, unless
-- the length that the data shards start with is too large.
theorem getResult_corrupted_iff (crates : Crates) (now : Nat → String) (dataDir bucket key : String)
    (data : Bytes) (policy : StoragePolicy) (w w' : World) (metadata : ObjectMetadata)
    (contents : List Bytes) (fs : Files) (faults : List Fault)
    (hash : Function.Injective crates.sha256)
    (h : (putObject crates now dataDir bucket key data policy).run w = (.ok metadata, w'))
    (hl : contents.length = policy.dataShards + policy.parityShards)
    (hc : Corrupted dataDir bucket key contents w'.disk.files fs) :
    (getResult crates dataDir bucket key ⟨{ w'.disk with files := fs }, faults⟩ = .ok data ∨
      ∃ e, getResult crates dataDir bucket key ⟨{ w'.disk with files := fs }, faults⟩ = .error e ∧
        e ≠ .panic) ↔
    IsBounded (contents.take policy.dataShards) := by
  rw [← not_iff_comm.mp (getResult_panic_iff h hl hc faults).symm]
  cases hd : getResult crates dataDir bucket key ⟨{ w'.disk with files := fs }, faults⟩
  case error e  => simp
  case ok data' => simp [hash (etag_of_corrupted h hl hc hd)]

section Sample

def sampleShard : Bytes :=
  Bytes.toLe 8 5 ++ Bytes.ofString "hello"

-- A hash without collisions, which is the SHA-256 of what is stored here.
def sampleHash (data : Bytes) : String :=
  if data = Bytes.ofString "hello" ∨ data = sampleShard then
    Sha256.hex data
  else
    String.ofList ('x' :: data.map fun b => Char.ofNat b.toNat)

theorem sampleHash_injective : Function.Injective sampleHash := by
  have hex {data : Bytes} (h : data = Bytes.ofString "hello" ∨ data = sampleShard) :
      (Sha256.hex data).toList.head? ≠ some 'x' := by
    rcases h with rfl | rfl <;> decide +kernel
  have hne : Sha256.hex (Bytes.ofString "hello") ≠ Sha256.hex sampleShard := by decide +kernel
  have char : Function.Injective fun b : UInt8 => Char.ofNat b.toNat := by
    intro b b' h
    have hv (b : UInt8) : (Char.ofNat b.toNat).toNat = b.toNat := by
      rw [Char.ofNat, dif_pos (.inl (Nat.lt_trans b.toNat_lt (by decide)))]
      rfl
    exact UInt8.toNat_inj.mp ((hv b).symm.trans ((congrArg Char.toNat h).trans (hv b')))
  intro d d' h
  simp only [sampleHash] at h
  split at h
  case isTrue hd =>
    split at h
    case isTrue hd' => rcases hd with rfl | rfl <;> rcases hd' with rfl | rfl <;> simp_all
    case isFalse    => exact absurd (congrArg (·.toList.head?) h) (by simpa using hex hd)
  case isFalse =>
    split at h
    case isTrue hd' => exact absurd (congrArg (·.toList.head?) h.symm) (by simpa using hex hd')
    case isFalse    =>
      have hl := congrArg String.toList h
      simp only [String.toList_ofList, List.cons.injEq, true_and] at hl
      exact List.map_injective_iff.mpr char hl

def sampleCrates : Crates :=
  { Crates.reference with sha256 := sampleHash }

def samplePut : Io ObjectMetadata :=
  putObject sampleCrates (fun _ => "2026-01-01T00:00:00+00:00") "/d" "b" "k" (Bytes.ofString "hello") .hot

theorem samplePut_eq_ok : ((samplePut).run .empty).1 =
    .ok (textMetadata "b" "k" "hello" .hot) := by
  decide +kernel

theorem corrupted_set {content : Bytes} {fs : Files} :
    Corrupted dataDir bucket key [content] fs
      (fs.set (shardPlace fs.cwd dataDir bucket key 0) (.file content)) where
  cwd        := rfl
  other q hq := Files.entry_set_of_ne (hq 0 (by simp))
  file i hi  := by
    obtain rfl : i = 0 := Nat.lt_one_iff.mp hi
    exact Files.entry_set_self shardPlace_ne_nil

-- The only shard has been cut off.
theorem getResult_corrupted_iff_sample :
    ∃ w', (samplePut.run .empty).2 = w' ∧
      let fs := w'.disk.files.set (shardPlace w'.disk.files.cwd "/d" "b" "k" 0) (.file [])
      let r := getResult sampleCrates "/d" "b" "k" ⟨{ w'.disk with files := fs }, []⟩
      r = .ok (Bytes.ofString "hello") ∨ ∃ e, r = .error e ∧ e ≠ .panic := by
  obtain ⟨w', h⟩ := Prog.exists_of_fst samplePut_eq_ok
  refine ⟨w', congrArg Prod.snd h, ?_⟩
  exact (getResult_corrupted_iff sampleCrates _ "/d" "b" "k" _ .hot .empty w' _ [[]] _ []
    sampleHash_injective h rfl corrupted_set).mpr (by decide)

-- The length in the only shard is as large as it can be.
theorem getResult_corrupted_fails : ¬ ∀ (crates : Crates) (now : Nat → String)
    (dataDir bucket key : String) (data : Bytes) (policy : StoragePolicy) (w w' : World)
    (metadata : ObjectMetadata) (contents : List Bytes) (fs : Files) (faults : List Fault),
    Function.Injective crates.sha256 →
    (putObject crates now dataDir bucket key data policy).run w = (.ok metadata, w') →
    contents.length = policy.dataShards + policy.parityShards →
    Corrupted dataDir bucket key contents w'.disk.files fs →
    getResult crates dataDir bucket key ⟨{ w'.disk with files := fs }, faults⟩ = .ok data ∨
      ∃ e, getResult crates dataDir bucket key ⟨{ w'.disk with files := fs }, faults⟩ = .error e ∧
        e ≠ .panic := by
  intro hall
  obtain ⟨w', h⟩ := Prog.exists_of_fst samplePut_eq_ok
  have hc : Corrupted "/d" "b" "k" [List.replicate 8 255] w'.disk.files _ := corrupted_set
  have hp := (getResult_panic_iff h rfl hc []).mpr (by decide)
  rcases hall _ _ _ _ _ _ _ _ _ _ _ _ [] sampleHash_injective h rfl hc with hr | ⟨e, hr, he⟩
  · rw [hp] at hr; cases hr
  · rw [hp] at hr; exact he (Except.error.inj hr).symm

end Sample

end All4One.Storage
