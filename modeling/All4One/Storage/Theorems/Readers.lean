import All4One.Storage.Theorems.Confinement
import All4One.Storage.Theorems.Deletion

open Foundation Path

namespace All4One.Storage

-- The shards as they are sent, each with its number and its hash.
def numbered (crates : Crates) (shards : List Bytes) : List Shard :=
  shards.mapIdx fun i shard => ⟨i, crates.sha256 shard, shard⟩

-- `read_shards` and `fetch_chunk` find the shards of an object.
structure Readable (crates : Crates) (ioText : IoError → String) (dataDir bucket key : String)
    (shards : List Bytes) (disk : Disk) : Prop where
  read  : readResult crates dataDir bucket key disk = .ok (numbered crates shards)
  fetch : ∀ i (hi : i < shards.length), fetchChunk crates ioText dataDir disk.files ⟨bucket, key, i⟩ =
    .ok ⟨shards[i], crates.sha256 shards[i], true⟩

-- The files once the directory of a bucket is there.
def withChunksDir (dataDir bucket : String) (files : Files) : Files :=
  ((Files.createDirAll (chunksDir dataDir bucket) .none).run files).2

-- Where the readers look for the shards of an object, they are found.
def AreFound (dataDir bucket key : String) (shards : List Bytes) (files : Files) : Prop :=
  ∀ i (hi : i < shards.length), files.read (transferPath dataDir bucket key i) = .ok shards[i]

variable {crates : Crates} {ioText : IoError → String} {now : Nat → String}
  {dataDir bucket key : String} {data : Bytes} {policy : StoragePolicy} {shards shards' : List Bytes}
  {w w' : World} {disk : Disk} {files : Files} {metadata m : ObjectMetadata} {i j : Nat}

theorem IsEncoding.eq (h : IsEncoding crates data policy shards)
    (h' : IsEncoding crates data policy shards') : shards = shards' := by
  obtain ⟨compressed, hc, hs⟩ := h
  obtain ⟨compressed', hc', hs'⟩ := h'
  obtain rfl := Except.ok.inj (hc.symm.trans hc')
  exact Except.ok.inj (hs.symm.trans hs')

section Found

theorem loadAllShards_of_found (h : AreFound dataDir bucket key shards files) :
    loadAllShards crates files (chunksDir dataDir bucket) (safeObjectId bucket key)
      (List.range shards.length) = .ok (numbered crates shards) := by
  have hf (i : Nat) (hi : i ∈ List.range shards.length) : ∃ shard, shards[i]? = some shard ∧
      files.stat (chunkPath (chunksDir dataDir bucket) (safeObjectId bucket key) i) =
        some (.file shard) := by
    rw [List.mem_range] at hi
    refine ⟨shards[i], List.getElem?_eq_getElem hi, ?_⟩
    have hr := h i hi
    rw [transferPath, Files.read] at hr
    split at hr
    case h_1 hs => cases hr; exact hs
    case h_2    => cases hr
  obtain ⟨loaded, hload, hindex, hdata⟩ := loadAllShards_of_files crates hf
  have hlen : loaded.length = shards.length := by simpa using congrArg List.length hindex
  rw [hload, numbered]
  refine congrArg Except.ok (List.ext_getElem (by simp [hlen]) fun i hi hi' => ?_)
  have hix : loaded[i].index = i := by
    have hm : (loaded.map (·.index))[i]? = (List.range shards.length)[i]? := by rw [hindex]
    rw [List.getElem?_map, List.getElem?_eq_getElem hi, List.getElem?_range (hlen ▸ hi)] at hm
    exact Option.some.inj hm
  obtain ⟨hd, hh⟩ := hdata loaded[i] (List.getElem_mem hi)
  rw [hix, List.getElem?_eq_getElem (hlen ▸ hi), Option.some_inj] at hd
  rw [List.getElem_mapIdx]
  cases hl : loaded[i]
  case mk index hash data =>
    rw [hl] at hix hd hh
    simp only at hix hd hh
    rw [hix, hh, hd]

theorem readable_iff (he : Index.entry disk.index bucket key = some (crates.json.toVec m))
    (hm : totalShards m.policy = shards.length) :
    Readable crates ioText dataDir bucket key shards disk ↔
    AreFound dataDir bucket key shards disk.files := by
  constructor
  case mp =>
    intro h i hi
    have hf := h.fetch i hi
    simp only [fetchChunk] at hf
    split at hf
    case isFalse => exact absurd (congrArg FetchChunkResponse.found (Except.ok.inj hf)) (by simp)
    case isTrue =>
      split at hf
      case h_1 hr => cases hf; exact hr
      case h_2    => cases hf
  case mpr =>
    intro h
    constructor
    case read =>
      rw [readResult_eq, he, Index.parse, crates.json.fromSlice_toVec]
      simp only [Except.bind, hm]
      exact loadAllShards_of_found h
    case fetch =>
      intro i hi
      exact fetchChunk_of_read (h i hi)

end Found

section Slash

variable {cwd : List Name}

-- The name under which a reader looks is shorter than the name that is written, as the slashes of the
-- bucket are not part of it.
theorem transferPlace_ne_shardPlace (h : '/' ∈ bucket.toList) :
    resolve cwd (transferPath dataDir bucket key i) ≠ shardPlace cwd dataDir bucket key j := by
  rw [resolve_transferPath, shardPlace_eq, ne_eq, append_singleton_inj, String.toList_inj]
  intro he
  have hn : last bucket ++ "-" ++ slashToDash key = objectId bucket key := (chunkId_inj.mp he.2).1
  have hl := congrArg (fun s => s.toList.length) hn
  have hb := congrArg (fun s => s.toList.length) (front_append_last bucket)
  have hf : (front bucket).toList ≠ [] := by
    intro hf
    have hbl : last bucket = bucket := by
      have := front_append_last bucket
      rwa [String.toList_inj.mp (show (front bucket).toList = "".toList from hf),
        String.empty_append] at this
    exact slash_not_mem_last bucket (hbl.symm ▸ h)
  have hf := List.length_pos_iff.mpr hf
  simp only [objectId, slashToDash, String.toList_append, String.toList_ofList, List.length_append,
    List.length_map] at hl hb
  omega

theorem transferPlace_ne_sidecarPlace :
    resolve cwd (transferPath dataDir bucket key i) ≠ sidecarPlace cwd dataDir bucket key j := by
  rw [resolve_transferPath, sidecarPlace_eq, ne_eq, append_singleton_inj, String.toList_inj]
  exact fun he => chunkId_ne_sidecar (last bucket ++ "-" ++ slashToDash key) _ i j he.2

end Slash

section Put

-- The shards of an object leave all directories and all files of others as they are.
theorem writeShards_dir {size : Nat} {r : Except Failure Unit}
    (h : (writeShards crates (chunksDir dataDir bucket) (objectId bucket key) size shards).run w = (r, w'))
    (q : List Name) : w'.disk.files.entry q = some .dir ↔ w.disk.files.entry q = some .dir := by
  let R (w w' : World) : Prop :=
    ∀ q, w'.disk.files.entry q = some .dir ↔ w.disk.files.entry q = some .dir
  have refl (w : World) : R w w := fun _ => Iff.rfl
  have trans (w₁ w₂ w₃ : World) (h₁ : R w₁ w₂) (h₂ : R w₂ w₃) : R w₁ w₃ :=
    fun q => (h₂ q).trans (h₁ q)
  have hk : (writeShards crates (chunksDir dataDir bucket) (objectId bucket key) size shards).Keeps R :=
    .forEach refl trans fun _ _ =>
      .bind trans (Io.files_write_dir _ _) fun _ => Io.files_write_dir _ _
  exact hk.of_eq h q

theorem read_of_putObject (hb : '/' ∈ bucket.toList)
    (h : (putObject crates now dataDir bucket key data policy).run w = (.ok metadata, w')) :
    w'.disk.files.read (transferPath dataDir bucket key i) =
    (withChunksDir dataDir bucket w.disk.files).read (transferPath dataDir bucket key i) := by
  cases PutChunks.of_run h
  case stored shards w₁ w₂ _ hc hw hi =>
    have hf := (Io.files_ok hc).1
    have hfault := Files.createDirAll_fault hf
    rw [hfault] at hf
    have hfiles : w₁.disk.files = withChunksDir dataDir bucket w.disk.files := by
      rw [withChunksDir, hf]
    have hk := writeShards_keeps.of_eq hw
    rw [(putIndex_ok hi).1, ← hfiles]
    refine Files.read_congr hk.files.cwd (writeShards_dir hw) (hk.other _ fun j _ => ?_)
    exact ⟨transferPlace_ne_shardPlace hb, transferPlace_ne_sidecarPlace⟩

end Put

-- The readers find what a put has written if the bucket has no slash. If it has one, they look elsewhere,
-- and find what was there before.
theorem readable_putObject_iff (crates : Crates) (ioText : IoError → String) (now : Nat → String)
    (dataDir bucket key : String) (data : Bytes) (policy : StoragePolicy) (shards : List Bytes)
    (w w' : World) (metadata : ObjectMetadata) (hs : IsEncoding crates data policy shards)
    (h : (putObject crates now dataDir bucket key data policy).run w = (.ok metadata, w')) :
    (shards.length = policy.dataShards + policy.parityShards ∧
      Readable crates ioText dataDir bucket key shards w'.disk) ↔
    '/' ∉ bucket.toList ∨
      AreFound dataDir bucket key shards (withChunksDir dataDir bucket w.disk.files) := by
  obtain ⟨shards', hst⟩ := Stored.of_putObject h
  obtain rfl : shards = shards' := hs.eq hst.encoding
  have ⟨m, hm, hp, _⟩ := hst.index
  have ht : totalShards m.policy = shards.length := by rw [hp, totalShards_text, hs.length]
  rw [and_iff_right hs.length, readable_iff hm ht]
  by_cases hb : '/' ∈ bucket.toList
  case neg =>
    refine iff_of_true (fun i hi => ?_) (.inl hb)
    rw [transferPath, safeObjectId_eq hb, Files.read, stat_chunkPath hst.dir, hst.files i hi]
  case pos =>
    rw [or_iff_right (not_not.mpr hb)]
    exact forall₂_congr fun i hi => by rw [read_of_putObject hb h]

section Sample

-- The key may have slashes. The six shards take the place of the one of an older version.
theorem readable_putObject_iff_sample :
    ∃ w w' shards, ((putText "b" "a/b" "an older version" .hot).run .empty).2 = w ∧
      (putText "b" "a/b" "hello" .warm).run w = (.ok (textMetadata "b" "a/b" "hello" .warm), w') ∧
      shards.length = 6 ∧ Readable .reference (fun _ => "") "/d" "b" "a/b" shards w'.disk := by
  obtain ⟨w', h⟩ := Prog.exists_of_fst putText_hot_warm
  have h' := h
  rw [putText] at h'
  obtain ⟨shards, hs⟩ := Stored.of_putObject h'
  have hr := (readable_putObject_iff .reference (fun _ => "") _ "/d" "b" "a/b" _ .warm shards _ w' _
    hs.encoding h').mpr (.inl (by decide))
  exact ⟨_, w', shards, rfl, h, hr⟩

-- In a bucket with a slash no shard is found.
theorem readable_putObject_fails : ¬ ∀ (crates : Crates) (ioText : IoError → String)
    (now : Nat → String) (dataDir bucket key : String) (data : Bytes) (policy : StoragePolicy)
    (shards : List Bytes) (w w' : World) (metadata : ObjectMetadata),
    IsEncoding crates data policy shards →
    (putObject crates now dataDir bucket key data policy).run w = (.ok metadata, w') →
    shards.length = policy.dataShards + policy.parityShards ∧
      Readable crates ioText dataDir bucket key shards w'.disk := by
  intro hall
  have hp : ((putText "a/b" "k" "hello" .hot).run .empty).1 =
      .ok (textMetadata "a/b" "k" "hello" .hot) := by
    decide +kernel
  have hf : (fetchChunk .reference (fun _ => "") "/d"
      ((putText "a/b" "k" "hello" .hot).run .empty).2.disk.files ⟨"a/b", "k", 0⟩).map (·.found) =
      .ok false := by
    decide +kernel
  obtain ⟨w, h⟩ := Prog.exists_of_fst hp
  rw [h] at hf
  rw [putText] at h
  obtain ⟨shards, hs⟩ := Stored.of_putObject h
  obtain ⟨hl, hread⟩ := hall _ (fun _ => "") _ _ _ _ _ _ shards _ _ _ hs.encoding h
  rw [hread.fetch 0 (hl ▸ Nat.zero_lt_one)] at hf
  cases hf

end Sample

end All4One.Storage
