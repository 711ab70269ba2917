import All4One.Storage.Store
import All4One.Storage.Theorems.Confinement

open Foundation Path

namespace All4One.Storage

-- The data directory is there. In it is a directory of chunks, if anything, in that are directories
-- for the buckets, and in those are files.
structure Tidy (dataDir : String) (fs : Files) : Prop where
  dir     : ∀ q ∈ trail fs.cwd dataDir, fs.entry q = some .dir
  root    : ∀ data, fs.entry (chunksRoot fs.cwd dataDir) ≠ some (.file data)
  buckets : ∀ n data, fs.entry (chunksRoot fs.cwd dataDir ++ [n]) ≠ some (.file data)
  chunks  : ∀ n n', fs.entry (chunksRoot fs.cwd dataDir ++ [n, n']) ≠ some .dir

variable {crates : Crates} {now : Nat → String} {dataDir bucket key : String} {fs : Files}
  {w w' : World} {data : Bytes} {policy : StoragePolicy} {q cwd : List Name} {n n' : Name}

theorem Disk.IsNew.tidy {disk : Disk} (h : disk.IsNew dataDir) : Tidy dataDir disk.files where
  dir           := h.dir
  root data     := by simp [chunksRoot, h.chunks _ (List.prefix_refl _)]
  buckets n d   := by simp [chunksRoot, h.chunks _ (List.prefix_append _ _)]
  chunks n n'   := by simp [chunksRoot, h.chunks _ (List.prefix_append _ _)]

theorem dirPlace_of_isName (hb : IsName bucket.toList) :
    dirPlace cwd dataDir bucket = chunksRoot cwd dataDir ++ [bucket.toList] :=
  resolve_join_name hb

-- A put goes by the data directory, the directory of the chunks, and that of the bucket.
theorem mem_trail_chunksDir (hb : IsName bucket.toList) (hq : q ∈ trail cwd (chunksDir dataDir bucket)) :
    q ∈ trail cwd dataDir ∨ q = chunksRoot cwd dataDir ∨
      q = chunksRoot cwd dataDir ++ [bucket.toList] := by
  have hc : IsName "chunks".toList := by constructor <;> decide
  rcases mem_trail hq with hq | rfl
  case inr => exact .inr (.inr (dirPlace_of_isName hb))
  case inl =>
    rcases mem_trail ((trail_join_name hb).subset hq) with hq | rfl
    · exact .inl ((trail_join_name hc).subset hq)
    · exact .inr (.inl rfl)

namespace Tidy

theorem set_dir (h : Tidy dataDir fs) (hq : q = chunksRoot fs.cwd dataDir ∨
    ∃ n, q = chunksRoot fs.cwd dataDir ++ [n]) (hn : fs.entry q = none) :
    Tidy dataDir (fs.set q .dir) := by
  have hne : q ≠ [] := by rintro rfl; cases hn
  constructor
  case dir =>
    intro r hr
    rw [Files.entry_set hne, h.dir r hr]
    split <;> rfl
  case root =>
    intro data
    rw [Files.entry_set hne]
    split
    · simp
    · exact h.root data
  case buckets =>
    intro n data
    rw [Files.entry_set hne]
    split
    · simp
    · exact h.buckets n data
  case chunks =>
    intro n n'
    rw [Files.entry_set_of_ne]
    · exact h.chunks n n'
    · intro he
      rcases hq with rfl | ⟨_, rfl⟩ <;> simpa using congrArg List.length he

theorem set_file (h : Tidy dataDir fs) :
    Tidy dataDir (fs.set (chunksRoot fs.cwd dataDir ++ [n, n']) (.file data)) := by
  constructor
  case dir =>
    intro r hr
    rw [Files.entry_set_of_ne]
    · exact h.dir r hr
    · rintro rfl
      exact h.chunks n n' (h.dir _ hr)
  case root =>
    intro data
    rw [Files.entry_set_of_ne]
    · exact h.root data
    · exact fun he => absurd (congrArg List.length he) (by simp)
  case buckets =>
    intro m data
    rw [Files.entry_set_of_ne]
    · exact h.buckets m data
    · exact fun he => absurd (congrArg List.length he) (by simp)
  case chunks =>
    intro m m'
    rw [Files.entry_set (by simp)]
    split
    · simp
    · exact h.chunks m m'

theorem createDirs (h : Tidy dataDir fs) (hb : IsName bucket.toList) {qs : List (List Name)}
    (hq : qs ⊆ trail fs.cwd (chunksDir dataDir bucket)) : Tidy dataDir (Files.createDirs qs fs).2 := by
  induction qs generalizing fs
  case nil => exact h
  case cons q qs hi =>
    rw [List.cons_subset] at hq
    rw [Files.createDirs]
    split
    case h_1 => exact hi h hq.2
    case h_2 => exact h
    case h_3 hn =>
      refine hi (h.set_dir ?_ hn) hq.2
      rcases mem_trail_chunksDir hb hq.1 with ht | hr | hr
      · rw [h.dir q ht] at hn; cases hn
      · exact .inl hr
      · exact .inr ⟨_, hr⟩

end Tidy

def KeepsTidy (dataDir : String) (w w' : World) : Prop :=
  Tidy dataDir w.disk.files → Tidy dataDir w'.disk.files

theorem files_keepsTidy {op : Fault → Prog Files IoError Unit}
    (h : ∀ f fs, Tidy dataDir fs → Tidy dataDir ((op f).run fs).2) :
    (Io.files op).Keeps (KeepsTidy dataDir) := by
  intro w ht
  have := h (Io.fault w) _ ht
  simp only [Io.files]
  split
  case h_1 ho => rwa [ho] at this
  case h_2 ho => rwa [ho] at this

theorem createChunksDir_keepsTidy (hb : IsName bucket.toList) :
    (createChunksDir dataDir bucket).Keeps (KeepsTidy dataDir) :=
  files_keepsTidy fun f fs h => by
    have hm := madeDirs_prefix fs.cwd (chunksDir dataDir bucket)
    cases f
    case none    => exact h.createDirs hb hm.subset
    case before  => exact h
    case after n => exact h.createDirs hb fun q hq => hm.subset (List.mem_of_mem_take hq)

theorem write_keepsTidy {path : String} (h : ∀ cwd, ∃ n n',
    resolve cwd path = chunksRoot cwd dataDir ++ [n, n']) :
    (Io.files (Files.write path data)).Keeps (KeepsTidy dataDir) :=
  files_keepsTidy fun f fs ht => by
    obtain ⟨n, n', hp⟩ := h fs.cwd
    simp only [Files.write, Files.resolve, hp]
    split
    case isFalse => exact ht
    case isTrue =>
      cases f
      case none   => exact ht.set_file
      case before => exact ht
      case after  => exact ht.set_file

section Shard

variable {size i : Nat} {shard : Bytes} {shards : List Bytes}

theorem shardPlace_of_isName (hb : IsName bucket.toList) : ∃ n n',
    shardPlace cwd dataDir bucket key i = chunksRoot cwd dataDir ++ [n, n'] :=
  ⟨_, _, by rw [shardPlace_eq, dirPlace_of_isName hb, List.append_assoc]; rfl⟩

theorem sidecarPlace_of_isName (hb : IsName bucket.toList) : ∃ n n',
    sidecarPlace cwd dataDir bucket key i = chunksRoot cwd dataDir ++ [n, n'] :=
  ⟨_, _, by rw [sidecarPlace_eq, dirPlace_of_isName hb, List.append_assoc]; rfl⟩

theorem writeShard_keepsTidy (hb : IsName bucket.toList) : (writeShard crates
    (chunksDir dataDir bucket) (objectId bucket key) size i shard).Keeps (KeepsTidy dataDir) :=
  .bind (fun _ _ _ h₁ h₂ => h₂ ∘ h₁) (write_keepsTidy fun _ => shardPlace_of_isName hb) fun _ =>
    write_keepsTidy fun _ => sidecarPlace_of_isName hb

theorem putObject_keepsTidy (hb : IsName bucket.toList) :
    (putObject crates now dataDir bucket key data policy).Keeps (KeepsTidy dataDir) := by
  have refl (w : World) : KeepsTidy dataDir w w := id
  have trans (w₁ w₂ w₃ : World) (h₁ : KeepsTidy dataDir w₁ w₂) (h₂ : KeepsTidy dataDir w₂ w₃) :
      KeepsTidy dataDir w₁ w₃ := h₂ ∘ h₁
  rw [putObject_eq]
  refine .bind trans (createChunksDir_keepsTidy hb) fun _ => ?_
  refine .bind trans (.ofExcept refl _) fun _ => ?_
  refine .bind trans (.ofExcept refl _) fun _ => ?_
  refine .bind trans (.forEach refl trans fun _ _ => writeShard_keepsTidy hb) fun _ => ?_
  refine .bind trans ?_ fun _ => .pure refl
  intro w h
  rw [putIndex, Index.putObject, Io.index_files]
  exact h

end Shard

-- Nothing goes wrong with the writes of a put to a disk that is tidy.
structure Ready (dataDir bucket : String) (w : World) : Prop where
  tidy   : Tidy dataDir w.disk.files
  dir    : HasDir dataDir bucket w.disk.files
  faults : ¬ Troubled w.faults

theorem fault_of_not_troubled (h : ¬ Troubled w.faults) :
    Io.fault w = .none ∧ ¬ Troubled w.faults.tail := by
  simp only [Troubled, not_exists, not_and, not_not] at h ⊢
  refine ⟨?_, fun f hf => h f (List.mem_of_mem_tail hf)⟩
  cases hw : w.faults
  case nil         => simp [Io.fault, hw]
  case cons f rest => simpa [Io.fault, hw] using h f (by simp [hw])

theorem createChunksDir_ready (hb : IsName bucket.toList) (ht : Tidy dataDir w.disk.files)
    (hf : ¬ Troubled w.faults) : ∃ w', (createChunksDir dataDir bucket).run w = (.ok (), w') ∧
      Ready dataDir bucket w' := by
  have ⟨hf, htail⟩ := fault_of_not_troubled hf
  have ⟨fs', hc⟩ : ∃ fs', (Files.createDirAll (chunksDir dataDir bucket) .none).run w.disk.files =
      (.ok (), fs') := by
    refine Files.createDirAll_of_forall (fun q hq data => ?_) (.inl ?_)
    case refine_1 =>
      rcases mem_trail_chunksDir hb hq with hq | rfl | rfl
      · simp [ht.dir q hq]
      · exact ht.root data
      · exact ht.buckets _ data
    case refine_2 =>
      have hd : endsInDot (chunksDir dataDir bucket) = false := endsInDot_join hb
      rw [madeDirs_of_not_dot hd]
      exact resolve_mem_trail
  have hr : (createChunksDir dataDir bucket).run w =
      (.ok (), ⟨{ w.disk with files := fs' }, w.faults.tail⟩) := by
    simp only [createChunksDir, Io.files, hf, hc]
  exact ⟨_, hr, (createChunksDir_keepsTidy hb).of_eq hr ht, createChunksDir_ok hr, htail⟩

theorem write_completes {path : String}
    (hp : ∀ cwd, ∃ n n', resolve cwd path = chunksRoot cwd dataDir ++ [n, n'])
    (hl : ∀ fs, HasDir dataDir bucket fs → fs.Leads path) :
    (Io.files (Files.write path data)).Completes (Ready dataDir bucket) := by
  intro w h
  have ⟨hf, htail⟩ := fault_of_not_troubled h.faults
  have hw : w.disk.files.IsWritable path := by
    obtain ⟨n, n', hp⟩ := hp w.disk.files.cwd
    exact ⟨hl _ h.dir, by rw [Files.resolve, hp]; exact h.tidy.chunks n n'⟩
  have hr : (Io.files (Files.write path data)).run w = (.ok (), ⟨{ w.disk with
      files := w.disk.files.set (w.disk.files.resolve path) (.file data) }, w.faults.tail⟩) := by
    simp only [Io.files, hf, Files.write_none, if_pos hw]
  have he := ((Io.files_write_keeps path data).of_eq hr).1.1
  exact ⟨_, _, hr, (write_keepsTidy hp).of_eq hr h.tidy, h.dir.of_extends he, htail⟩

theorem writeEncoding_completes {shards : List Bytes} (hb : IsName bucket.toList) :
    (writeEncoding crates dataDir bucket key data shards).Completes (Ready dataDir bucket) := by
  have hl {i : Nat} (fs : Files) (h : HasDir dataDir bucket fs) :
      fs.Leads (chunkPath (chunksDir dataDir bucket) (objectId bucket key) i) :=
    Files.leads_join h (isName_chunkId bucket key i)
  refine .forEach fun c => .bind ?_ fun _ => ?_
  · exact write_completes (fun _ => shardPlace_of_isName hb) hl
  · exact write_completes (fun _ => sidecarPlace_of_isName hb) fun fs h =>
      (Files.leads_append (by decide)).mpr (hl fs h)

-- A body that fits can be encoded, and only such a one.
theorem fits_iff : Fits crates data policy ↔ ∃ shards, IsEncoding crates data policy shards := by
  have hd : policy.dataShards ≠ 0 := by cases policy <;> decide
  constructor
  case mp =>
    rintro ⟨compressed, hc, hl⟩
    exact ⟨_, compressed, hc, if_neg (not_or.mpr ⟨Nat.not_lt.mpr hl, hd⟩)⟩
  case mpr =>
    rintro ⟨_, compressed, hc, he⟩
    exact ⟨compressed, hc, (Erasure.encodeErasure_eq_ok he).1⟩

-- A put goes through if its bucket has a plain name, its body fits and nothing happens to its writes.
theorem putObject_completes (now : Nat → String) (hb : IsName bucket.toList)
    (ht : Tidy dataDir w.disk.files) (hf : ¬ Troubled w.faults) (h : Fits crates data policy) : ∃ w',
    (putObject crates now dataDir bucket key data policy).run w = (.ok (Index.metadata
      (fun n => now (n + 2)) bucket key (crates.sha256 data) data.length policy), w') := by
  have hc := createChunksDir_ready hb ht hf
  rcases hr : (putObject crates now dataDir bucket key data policy).run w with ⟨e | m, w'⟩
  all_goals have hp := PutChunks.of_run hr
  case ok => cases hp; exact ⟨w', rfl⟩
  case error =>
    obtain ⟨w₁, hc, hready⟩ := hc
    cases hp
    case notCreated h' => rw [hc] at h'; cases h'
    case notEncoded h' _ => exact absurd (fits_iff.mp h) h'
    case notWritten _ h' hw =>
      rw [hc] at h'
      cases h'
      obtain ⟨_, _, hw', -⟩ := writeEncoding_completes hb _ hready
      rw [hw'] at hw
      cases hw
    case notIndexed _ h' hw hi =>
      rw [hc] at h'
      cases h'
      obtain ⟨_, w₂, hw', hready⟩ := writeEncoding_completes hb _ hready
      rw [hw'] at hw
      cases hw
      rw [putIndex, Index.putObject] at hi
      simp only [Io.index, (fault_of_not_troubled hready.faults).1] at hi
      cases hi

end All4One.Storage
