import All4One.Storage.Theorems.Transfer

open Foundation Path

namespace All4One.Storage

-- `{data_dir}/chunks`
def chunksRoot (cwd : List Name) (dataDir : String) : List Name :=
  resolve cwd (join dataDir "chunks")

def IsConfined (cwd : List Name) (dataDir path : String) : Prop :=
  IsBelow (chunksRoot cwd dataDir) (resolve cwd path)

section Requests

variable (crates : Crates) (text : Failure → String) (role : Bool) (cwd : List Name)
  (dataDir bucket key : String)

-- The directory, the shards and the files next to them are where they belong, or the put is refused
-- on any disk and leaves it alone.
def PutConfined : Prop :=
  (IsConfined cwd dataDir (chunksDir dataDir bucket) ∧
    ∀ i, IsConfined cwd dataDir (chunkPath (chunksDir dataDir bucket) (objectId bucket key) i) ∧
      IsConfined cwd dataDir
        (chunkPath (chunksDir dataDir bucket) (objectId bucket key) i ++ ".meta")) ∨
  ∀ now data policy w, w.disk.files.cwd = cwd → ∃ e w',
    (putObject crates now dataDir bucket key data policy).run w = (.error e, w') ∧
    w'.disk.files = w.disk.files

def TransferConfined (payload : TransferChunkRequest) : Prop :=
  (IsConfined cwd dataDir (chunksDir dataDir payload.bucket) ∧
    IsConfined cwd dataDir
      (transferPath dataDir payload.bucket payload.key payload.shardIndex) ∧
    IsConfined cwd dataDir
      (transferPath dataDir payload.bucket payload.key payload.shardIndex ++ ".meta")) ∨
  ∀ now w, w.disk.files.cwd = cwd → ∃ r w',
    (transferChunk crates text now role dataDir payload).run w = (.ok r, w') ∧
    r.accepted = false ∧ w'.disk.files = w.disk.files

def FetchConfined (text : IoError → String) (payload : FetchChunkRequest) : Prop :=
  IsConfined cwd dataDir (transferPath dataDir payload.bucket payload.key payload.shardIndex) ∨
  ∀ files, files.cwd = cwd → ∃ e, fetchChunk crates text dataDir files payload = .error e

end Requests

section Places

variable {cwd : List Name} {dataDir bucket key : String} {i : Nat}

-- The directory that a bucket leads to.
def bucketPlace (cwd : List Name) (dataDir bucket : String) : List Name :=
  resolve (chunksRoot cwd dataDir) bucket

-- The directory that a transferred shard is in: the bucket is part of its name, with its slashes.
def transferDir (cwd : List Name) (dataDir bucket : String) : List Name :=
  resolve (bucketPlace cwd dataDir bucket) (front bucket)

theorem dirPlace_eq : dirPlace cwd dataDir bucket = bucketPlace cwd dataDir bucket :=
  resolve_join _ _

-- What follows the last slash of the bucket in the name of a transferred shard.
def transferName (bucket key : String) (i : Nat) : String :=
  last bucket ++ "-" ++ slashToDash key ++ "-shard-" ++ i.repr

theorem chunkId_safeObjectId : chunkId (safeObjectId bucket key) i =
    front bucket ++ transferName bucket key i := by
  conv_lhs => rw [chunkId, safeObjectId, ← front_append_last bucket]
  simp only [transferName, String.append_assoc]

theorem slash_not_mem_transferName : '/' ∉ (transferName bucket key i).toList := by
  simp only [transferName, String.toList_append, List.mem_append, not_or]
  exact ⟨⟨⟨⟨slash_not_mem_last _, by decide⟩, slash_not_mem_slashToDash _⟩, by decide⟩,
    not_mem_repr rfl⟩

theorem isName_transferName {suffix : String} (hs : '/' ∉ suffix.toList) :
    IsName (transferName bucket key i ++ suffix).toList := by
  have hd : '-' ∈ (transferName bucket key i ++ suffix).toList := by simp [transferName]
  constructor
  case ne_nil  => intro h; simp [h] at hd
  case ne_dot  => intro h; simp [h] at hd
  case ne_dots => intro h; simp [h] at hd
  case slash =>
    rw [String.toList_append, List.mem_append, not_or]
    exact ⟨slash_not_mem_transferName, hs⟩

theorem transferPlace_eq {suffix : String} (hs : '/' ∉ suffix.toList) :
    resolve cwd (transferPath dataDir bucket key i ++ suffix) =
    transferDir cwd dataDir bucket ++ [(transferName bucket key i ++ suffix).toList] := by
  have hne : chunkId (safeObjectId bucket key) i ≠ "" := by
    intro h
    have := congrArg (fun s => '-' ∈ s.toList) h
    simp [chunkId] at this
  rw [transferPath, chunkPath, ← join_append hne, chunkId_safeObjectId, String.append_assoc,
    resolve_join, resolve_front _ (isName_transferName hs)]
  congr 2
  exact dirPlace_eq

theorem resolve_transferPath : resolve cwd (transferPath dataDir bucket key i) =
    transferDir cwd dataDir bucket ++ [(transferName bucket key i).toList] := by
  have h : resolve cwd (transferPath dataDir bucket key i ++ "") = _ := transferPlace_eq (by simp)
  rwa [String.append_empty, String.append_empty] at h

theorem transferPath_ne_nil : resolve cwd (transferPath dataDir bucket key i) ≠ [] := by
  simp [resolve_transferPath]

theorem isConfined_transferPath : IsConfined cwd dataDir (transferPath dataDir bucket key i) ↔
    chunksRoot cwd dataDir <+: transferDir cwd dataDir bucket := by
  rw [IsConfined, resolve_transferPath, isBelow_append_singleton]

theorem isConfined_transferSidecar :
    IsConfined cwd dataDir (transferPath dataDir bucket key i ++ ".meta") ↔
    chunksRoot cwd dataDir <+: transferDir cwd dataDir bucket := by
  rw [IsConfined, transferPlace_eq (by decide), isBelow_append_singleton]

theorem isConfined_chunksDir : IsConfined cwd dataDir (chunksDir dataDir bucket) ↔
    IsBelow (chunksRoot cwd dataDir) (bucketPlace cwd dataDir bucket) := by
  rw [IsConfined, ← dirPlace_eq]
  rfl

end Places

section Blank

-- A disk with nothing on it.
def World.blank (cwd : List Name) : World where
  disk.files.cwd     := cwd
  disk.files.entries := ∅
  disk.index.trees   := ∅
  faults             := []

variable {crates : Crates} {text : Failure → String} {now : Nat → String} {cwd : List Name}
  {dataDir bucket key : String} {data : Bytes} {shards : List Bytes} {i : Nat} {w w' w₁ : World}
  {r : Except Failure Unit} {payload : TransferChunkRequest} {q : List Name}

theorem blank_entry (h : q ≠ []) : (World.blank cwd).disk.files.entry q = none := by
  simp [World.blank, Files.entry, h]

-- A disk with nothing on it but one directory.
def World.only (cwd dir : List Name) : World where
  disk.files := (World.blank cwd).disk.files.set dir .dir
  disk.index := (World.blank cwd).disk.index
  faults     := []

theorem only_entry {dir : List Name} (h : q ≠ []) (hd : q ≠ dir) :
    (World.only cwd dir).disk.files.entry q = none := by
  simp [World.only, World.blank, Files.entry, Files.set, h, Finmap.lookup_insert_of_ne _ hd]

theorem only_entry_dir {dir : List Name} :
    (World.only cwd dir).disk.files.entry dir = some .dir := by
  by_cases h : dir = []
  case pos => rw [h]; rfl
  case neg => exact Files.entry_set_self h

-- Nothing is in the way of the directory of a bucket that is there, even if its name ends in a dot.
theorem createChunksDir_only (cwd : List Name) (dataDir bucket : String) : ∃ w₁,
    (createChunksDir dataDir bucket).run (.only cwd (dirPlace cwd dataDir bucket)) = (.ok (), w₁) ∧
    w₁.faults = [] := by
  have ⟨fs, h⟩ : ∃ fs, (Files.createDirAll (chunksDir dataDir bucket) .none).run
      (World.only cwd (dirPlace cwd dataDir bucket)).disk.files = (.ok (), fs) := by
    refine Files.createDirAll_of_forall (fun q _ data => ?_) (.inr only_entry_dir)
    by_cases hq : q = []
    case pos => simp [hq]
    case neg =>
      by_cases hd : q = dirPlace cwd dataDir bucket
      case pos => rw [hd, only_entry_dir]; simp
      case neg => simp [only_entry hq hd]
  have hf : Io.fault (World.only cwd (dirPlace cwd dataDir bucket)) = .none := rfl
  exact ⟨⟨⟨fs, (World.blank cwd).disk.index⟩, []⟩, by
    simp only [createChunksDir, Io.files, hf, h]; rfl, rfl⟩

theorem write_touches {path : String} (hf : w.faults = []) (hl : w.disk.files.Leads path)
    (h : (Io.files (Files.write path data)).run w = (r, w')) :
    w'.disk.files.entry (w.disk.files.resolve path) ≠ none := by
  have ht : ((Files.write path data .none).run w.disk.files).2.entry
      (w.disk.files.resolve path) ≠ none :=
    Files.write_touches hl
  have hf : Io.fault w = .none := by simp [Io.fault, hf]
  simp only [Io.files, hf] at h
  split at h
  case h_1 hw => cases h; rwa [hw] at ht
  case h_2 hw => cases h; rwa [hw] at ht

theorem writeShard_extends {shard : Bytes} {size : Nat} : Files.Extends
    ((Io.files (Files.write (chunkPath (chunksDir dataDir bucket) (objectId bucket key) i)
      shard)).run w).2.disk.files
    ((writeShard crates (chunksDir dataDir bucket) (objectId bucket key) size i shard).run
      w).2.disk.files :=
  Prog.Keeps.after (R := fun w w' => Files.Extends w.disk.files w'.disk.files) (fun _ => .refl _)
    fun _ w => (Io.files_write_keeps _ _ w).1.1

theorem writeEncoding_cons {shard : Bytes} :
    writeEncoding crates dataDir bucket key data (shard :: shards) =
    writeShard crates (chunksDir dataDir bucket) (objectId bucket key) data.length 0 shard >>= fun _ =>
      .forEach (shards.zipIdx 1) fun c =>
        writeShard crates (chunksDir dataDir bucket) (objectId bucket key) data.length c.2 c.1 := by
  rw [writeEncoding, writeShards, List.zipIdx_cons, Prog.forEach_cons]

theorem writeEncoding_extends {shard : Bytes} {r₁ : Except Failure Unit}
    (hs : (Io.files (Files.write (chunkPath (chunksDir dataDir bucket) (objectId bucket key) 0)
      shard)).run w = (r₁, w₁))
    (h : (writeEncoding crates dataDir bucket key data (shard :: shards)).run w = (r, w')) :
    Files.Extends w₁.disk.files w'.disk.files := by
  have hd : Files.Extends
      ((Io.files (Files.write (chunkPath (chunksDir dataDir bucket) (objectId bucket key) 0)
        shard)).run w).2.disk.files
      ((writeEncoding crates dataDir bucket key data (shard :: shards)).run w).2.disk.files := by
    rw [writeEncoding_cons]
    exact writeShard_extends.trans <|
      Prog.Keeps.after (R := fun w w' => Files.Extends w.disk.files w'.disk.files)
        (fun _ => .refl _) fun _ w =>
          (forEach_writeShard_keeps (i := 0) (fun _ _ => Nat.zero_le _) w).files
  rwa [hs, h] at hd

-- The first shard finds something in its place or is put there.
theorem writeEncoding_touches (hdir : HasDir dataDir bucket w.disk.files) (hf : w.faults = [])
    (hs : shards ≠ [])
    (h : (writeEncoding crates dataDir bucket key data shards).run w = (r, w')) :
    w'.disk.files.entry (shardPlace w.disk.files.cwd dataDir bucket key 0) ≠ none := by
  cases shards
  case nil => exact absurd rfl hs
  case cons shard shards =>
    have hl : w.disk.files.Leads (chunkPath (chunksDir dataDir bucket) (objectId bucket key) 0) :=
      Files.leads_join hdir (isName_chunkId bucket key 0)
    rcases hs : (Io.files (Files.write (chunkPath (chunksDir dataDir bucket) (objectId bucket key) 0)
      shard)).run w with ⟨r₁, w₁⟩
    exact (writeEncoding_extends hs h).ne_none (write_touches hf hl hs)

theorem isEncoding_nil : ∃ shards, IsEncoding crates [] .hot shards :=
  ⟨_, [], rfl, rfl⟩

theorem shardPlace_ne_dirPlace : shardPlace cwd dataDir bucket key i ≠ dirPlace cwd dataDir bucket := by
  simp [shardPlace_eq]

theorem not_putConfined
    (h : ∀ now data policy w, w.disk.files.cwd = cwd → ∃ e w',
      (putObject crates now dataDir bucket key data policy).run w = (.error e, w') ∧
      w'.disk.files = w.disk.files) : False := by
  have ⟨e, w', hr, hfiles⟩ := h (fun _ => "") [] .hot (.only cwd (dirPlace cwd dataDir bucket)) rfl
  have ⟨w₁, hc, hf⟩ := createChunksDir_only cwd dataDir bucket
  have hcwd := (createChunksDir_keeps.of_eq hc).1.cwd
  have hdir := createChunksDir_ok hc
  -- Once the directory is there, the first shard leaves a trace.
  have htrace {shards r w₂} (henc : IsEncoding crates [] .hot shards)
      (hw : (writeEncoding crates dataDir bucket key [] shards).run w₁ = (r, w₂)) :
      w₂.disk.files ≠ (World.only cwd (dirPlace cwd dataDir bucket)).disk.files := by
    intro he
    have hne : shards ≠ [] := by
      rintro rfl
      exact absurd henc.length (by decide)
    have := writeEncoding_touches hdir hf hne hw
    rw [he, hcwd] at this
    exact this (only_entry shardPlace_ne_nil shardPlace_ne_dirPlace)
  cases PutChunks.of_run hr
  case notCreated hc' => rw [hc] at hc'; cases hc'
  case notEncoded hn _ => exact hn isEncoding_nil
  case notWritten henc hc' hw => rw [hc] at hc'; cases hc'; exact htrace henc hw hfiles
  case notIndexed henc hc' hw hi =>
    rw [hc] at hc'
    cases hc'
    exact htrace henc hw ((putIndex_error hi).1.symm.trans hfiles)

theorem Io.index_files {name : Bytes} {op : Sled.Db → Sled.Db} :
    ((Io.index name op).run w).2.disk.files = w.disk.files := by
  simp only [Io.index]
  split <;> rfl

variable {w₂ : World} {r' : Except Failure TransferChunkResponse}

theorem writeTransferred_touches (hf : w.faults = [])
    (hl : w.disk.files.Leads (transferPath dataDir bucket key i))
    (h : (writeTransferred dataDir bucket key i data).run w = (r, w')) :
    w'.disk.files.entry (resolve w.disk.files.cwd (transferPath dataDir bucket key i)) ≠ none := by
  rw [writeTransferred] at h
  exact write_touches hf hl h

theorem writeTransferred_extends
    (h : (writeTransferred dataDir bucket key i data).run w = (r, w')) :
    Files.Extends w.disk.files w'.disk.files := by
  rw [writeTransferred] at h
  exact ((Io.files_write_keeps _ _).of_eq h).1.1

-- What follows the write of the shard takes nothing away.
theorem transferChunk_extends
    (hc : (createChunksDir dataDir payload.bucket).run w = (.ok (), w₁))
    (hs : (writeTransferred dataDir payload.bucket payload.key payload.shardIndex payload.data).run
      w₁ = (r, w₂))
    (h : (transferChunk crates text now true dataDir payload).run w = (r', w')) :
    Files.Extends w₂.disk.files w'.disk.files := by
  simp only [transferChunk, Bool.not_true, Bool.false_eq_true, ↓reduceIte] at h
  simp only [createChunksDir] at hc
  simp only [writeTransferred, transferPath] at hs
  rw [Prog.attempt_bind] at h
  simp only [hc] at h
  rw [Prog.attempt_bind] at h
  simp only [hs] at h
  cases r
  case error =>
    cases h
    exact .refl _
  case ok =>
    rw [Prog.attempt_bind, Prog.attempt_bind, Prog.attempt_bind, Prog.pure_run] at h
    have hw := congrArg (fun r => r.2.disk.files) h
    simp only [Index.putObject, Io.index_files, Index.createBucket] at hw
    rw [← hw]
    exact (Io.files_write_keeps _ _ _).1.1

theorem transferPath_eq (h : isAbsolute bucket) :
    transferPath dataDir bucket key i = front bucket ++ transferName bucket key i := by
  rw [transferPath, chunkPath, chunkId_safeObjectId, join, if_pos (isAbsolute_front h)]

theorem isName_transferName_nil : IsName (transferName bucket key i).toList := by
  have h : IsName (transferName bucket key i ++ "").toList := isName_transferName (by simp)
  simpa using h

-- A bucket that is absolute, or that leads nowhere but to the directory of the chunks, leads there
-- from where its transferred shards are.
theorem dirPlace_eq_push
    (h : isAbsolute bucket ∨ chunksRoot cwd dataDir = dirPlace cwd dataDir bucket) :
    dirPlace cwd dataDir bucket = push (transferDir cwd dataDir bucket) (last bucket).toList := by
  have hb : bucketPlace cwd dataDir bucket = resolve (bucketPlace cwd dataDir bucket) bucket := by
    rcases h with h | h
    · exact resolve_of_isAbsolute h
    · conv_rhs => rw [← dirPlace_eq, ← h]
      rfl
  rw [dirPlace_eq, transferDir, ← resolve_eq_push]
  exact hb

theorem transferPath_ne_dirPlace
    (h : isAbsolute bucket ∨ chunksRoot cwd dataDir = dirPlace cwd dataDir bucket) :
    resolve cwd (transferPath dataDir bucket key i) ≠ dirPlace cwd dataDir bucket := by
  rw [resolve_transferPath, dirPlace_eq_push h, push]
  split
  · simp
  split
  · intro he
    have := congrArg List.length he
    rw [List.length_append, List.length_dropLast, List.length_singleton] at this
    omega
  · -- The name of a shard is longer than the last component of the bucket.
    rw [ne_eq, List.append_cancel_left_eq, List.singleton_inj]
    intro he
    simpa [transferName] using congrArg List.length he

-- Where a bucket leads through no directory but the root and its own, so does the shard.
theorem leads_transferPath {fs : Files} (hdir : HasDir dataDir bucket fs)
    (h : isAbsolute bucket ∨ chunksRoot fs.cwd dataDir = dirPlace fs.cwd dataDir bucket) :
    fs.Leads (transferPath dataDir bucket key i) := by
  intro q hq
  cases hb : isAbsolute bucket
  case true =>
    rw [transferPath_eq hb] at hq
    have ht := trail_front bucket isName_transferName_nil hq
    rw [HasDir, chunksDir, join, if_pos hb] at hdir
    exact hdir q ht
  case false =>
    have h := h.resolve_left (by simp [hb])
    rw [transferPath, chunkPath, chunkId_safeObjectId] at hq
    rcases mem_trail_join (not_isAbsolute_front hb slash_not_mem_transferName) hq with hq | hq
    · exact hdir q hq
    · refine hdir q (trail_subset_join hb ?_)
      change q ∈ trail (chunksRoot fs.cwd dataDir) bucket
      rw [h]
      exact trail_front bucket isName_transferName_nil hq

theorem not_transferConfined
    (h : ∀ now w, w.disk.files.cwd = cwd → ∃ r w',
      (transferChunk crates text now true dataDir payload).run w = (.ok r, w') ∧
      r.accepted = false ∧ w'.disk.files = w.disk.files) : False := by
  have ⟨r, w', hr, _, hfiles⟩ :=
    h (fun _ => "") (.only cwd (dirPlace cwd dataDir payload.bucket)) rfl
  have ⟨w₁, hc, hf⟩ := createChunksDir_only cwd dataDir payload.bucket
  have hcwd : w₁.disk.files.cwd = cwd := (createChunksDir_keeps.of_eq hc).1.cwd
  have hdir := createChunksDir_ok hc
  rcases hs : (writeTransferred dataDir payload.bucket payload.key payload.shardIndex
    payload.data).run w₁ with ⟨r₂, w₂⟩
  have he := transferChunk_extends hc hs hr
  have hbelow {q} (hq : q ≠ []) (hd : q ≠ dirPlace cwd dataDir payload.bucket)
      (ht : w₂.disk.files.entry q ≠ none) : False := by
    have := he.ne_none ht
    rw [hfiles] at this
    exact this (only_entry hq hd)
  -- Either a directory or the shard leaves a trace.
  by_cases hroot : isAbsolute payload.bucket ∨
    chunksRoot cwd dataDir = dirPlace cwd dataDir payload.bucket
  case pos =>
    have ht := writeTransferred_touches hf (leads_transferPath hdir (hcwd ▸ hroot)) hs
    rw [hcwd] at ht
    exact hbelow transferPath_ne_nil (transferPath_ne_dirPlace hroot) ht
  case neg =>
    rw [not_or, Bool.not_eq_true] at hroot
    have hn : IsName "chunks".toList := by constructor <;> decide
    refine hbelow ?_ hroot.2 ((writeTransferred_extends hs).ne_none ?_)
    · rw [chunksRoot, resolve_join_name hn]
      simp
    · rw [hdir _ (hcwd ▸ resolve_mem_trail_join hroot.1)]
      simp

end Blank

section Iff

variable {crates : Crates} {text : Failure → String} {ioText : IoError → String} {role : Bool}
  {cwd : List Name} {dataDir bucket key : String} {payload : TransferChunkRequest}
  {request : FetchChunkRequest}

theorem putConfined_iff : PutConfined crates cwd dataDir bucket key ↔
    IsBelow (chunksRoot cwd dataDir) (bucketPlace cwd dataDir bucket) := by
  rw [PutConfined, isConfined_chunksDir]
  constructor
  case mp => exact fun h => (h.resolve_right not_putConfined).1
  case mpr =>
    intro h
    refine .inl ⟨h, fun i => ?_⟩
    have hp : chunksRoot cwd dataDir <+: dirPlace cwd dataDir bucket := dirPlace_eq ▸ h.1
    have hs : shardPlace cwd dataDir bucket key i = _ := shardPlace_eq
    have hm : sidecarPlace cwd dataDir bucket key i = _ := sidecarPlace_eq
    rw [shardPlace] at hs
    rw [sidecarPlace] at hm
    rw [IsConfined, IsConfined, hs, hm, isBelow_append_singleton, isBelow_append_singleton]
    exact ⟨hp, hp⟩

theorem transferConfined_iff : TransferConfined crates text role cwd dataDir payload ↔
    role = false ∨ (IsBelow (chunksRoot cwd dataDir) (bucketPlace cwd dataDir payload.bucket) ∧
      chunksRoot cwd dataDir <+: transferDir cwd dataDir payload.bucket) := by
  rw [TransferConfined, isConfined_chunksDir, isConfined_transferPath, isConfined_transferSidecar]
  cases role
  case false =>
    simp only [true_or, iff_true]
    exact .inr fun _ _ _ => ⟨_, _, rfl, rfl, rfl⟩
  case true =>
    simp only [Bool.true_eq_false, false_or]
    exact ⟨fun h => have h := h.resolve_right not_transferConfined; ⟨h.1, h.2.1⟩,
      fun h => .inl ⟨h.1, h.2, h.2⟩⟩

theorem fetchConfined_iff : FetchConfined crates cwd dataDir ioText request ↔
    chunksRoot cwd dataDir <+: transferDir cwd dataDir request.bucket := by
  rw [FetchConfined, isConfined_transferPath]
  refine ⟨fun h => h.resolve_right fun h => ?_, .inl⟩
  -- Where there is nothing, the answer is that nothing was found.
  have ⟨e, he⟩ := h (World.blank cwd).disk.files rfl
  have hn : (World.blank cwd).disk.files.stat
      (transferPath dataDir request.bucket request.key request.shardIndex) = none := by
    rw [Files.stat]
    split
    · exact blank_entry transferPath_ne_nil
    · rfl
  rw [transferPath] at hn
  simp only [fetchChunk, Files.pathExists, hn] at he
  cases he

-- Neither entry point looks at the bucket, so it is up to the bucket where the shards end up.
theorem requests_confined_iff :
    (PutConfined crates cwd dataDir bucket key ↔
      IsBelow (chunksRoot cwd dataDir) (bucketPlace cwd dataDir bucket)) ∧
    (TransferConfined crates text role cwd dataDir payload ↔ role = false ∨
      (IsBelow (chunksRoot cwd dataDir) (bucketPlace cwd dataDir payload.bucket) ∧
        chunksRoot cwd dataDir <+: transferDir cwd dataDir payload.bucket)) ∧
    (FetchConfined crates cwd dataDir ioText request ↔
      chunksRoot cwd dataDir <+: transferDir cwd dataDir request.bucket) :=
  ⟨putConfined_iff, transferConfined_iff, fetchConfined_iff⟩

end Iff

-- A bucket that is one name keeps its shards where they belong.
theorem isConfined_of_isName {cwd : List Name} {dataDir bucket : String} (h : IsName bucket.toList) :
    IsBelow (chunksRoot cwd dataDir) (bucketPlace cwd dataDir bucket) ∧
    chunksRoot cwd dataDir <+: transferDir cwd dataDir bucket := by
  have hb : bucketPlace cwd dataDir bucket = chunksRoot cwd dataDir ++ [bucket.toList] := by
    rw [bucketPlace, resolve, start, not_isAbsolute h.slash, components_of_isName h]
    simp [push_of_isName h]
  have hf : front bucket = "" := by
    have hn : bucket.toList.rdropWhile (· ≠ '/') = [] :=
      List.rdropWhile_eq_nil_iff.mpr fun c hc => by
        simp only [ne_eq, decide_not, Bool.not_eq_eq_eq_not, Bool.not_true, decide_eq_false_iff_not]
        rintro rfl
        exact h.slash hc
    rw [front, hn]
  have ht : transferDir cwd dataDir bucket = bucketPlace cwd dataDir bucket := by
    rw [transferDir, hf]
    rfl
  rw [ht, hb]
  exact ⟨isBelow_append_singleton.mpr (List.prefix_refl _), List.prefix_append _ _⟩

theorem putText_dots : ((putText ".." "k" "hello" .hot).run .empty).1 =
    .ok (textMetadata ".." "k" "hello" .hot) := by
  decide +kernel

-- The bucket `..` takes a shard out of the directory.
theorem requests_escape :
    ∃ w', (putText ".." "k" "hello" .hot).run .empty =
        (.ok (textMetadata ".." "k" "hello" .hot), w') ∧
      (∃ shard, w'.disk.files.entry ["d".toList, "..-k-shard-0".toList] = some (.file shard)) ∧
      ¬ PutConfined .reference [] "/d" ".." "k" := by
  obtain ⟨w', h⟩ := Prog.exists_of_fst putText_dots
  refine ⟨w', h, ?_, ?_⟩
  · rw [putText] at h
    obtain ⟨shards, hs⟩ := Stored.of_putObject h
    have hcwd : w'.disk.files.cwd = [] := (putObject_overwrites h).files.cwd
    have hp : shardPlace [] "/d" ".." "k" 0 = ["d".toList, "..-k-shard-0".toList] := by
      decide +kernel
    have hf := hs.files 0 (by rw [hs.encoding.length]; decide)
    rw [hcwd, hp] at hf
    exact ⟨_, hf⟩
  · rw [putConfined_iff]
    decide +kernel

end All4One.Storage
