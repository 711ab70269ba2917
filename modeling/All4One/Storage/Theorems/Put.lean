import All4One.Storage.Theorems.Naming

open Foundation Path

namespace All4One.Storage

namespace Io

variable {op : Fault → Prog Files IoError Unit} {w w' : World}

theorem files_ok (h : (files op).run w = (.ok (), w')) :
    (op (fault w)).run w.disk.files = (.ok (), w'.disk.files) ∧ w'.disk.index = w.disk.index := by
  simp only [files] at h
  split at h
  case h_1 ho => cases h; exact ⟨ho, rfl⟩
  case h_2    => cases h

theorem files_error {e : Failure} (h : (files op).run w = (.error e, w')) :
    ∃ err, (op (fault w)).run w.disk.files = (.error err, w'.disk.files) ∧
      w'.disk.index = w.disk.index := by
  simp only [files] at h
  split at h
  case h_1    => cases h
  case h_2 ho => cases h; exact ⟨_, ho, rfl⟩

theorem files_keeps {R : Files → Files → Prop} (h : ∀ f, (op f).Keeps R) :
    (files op).Keeps fun w w' => R w.disk.files w'.disk.files ∧ w'.disk.index = w.disk.index := by
  intro w
  have hr := h (fault w) w.disk.files
  simp only [files]
  split
  case h_1 ho => rw [ho] at hr; exact ⟨hr, rfl⟩
  case h_2 ho => rw [ho] at hr; exact ⟨hr, rfl⟩

theorem files_faults {r : Except Failure Unit} (h : (files op).run w = (r, w')) :
    w'.faults = w.faults.tail := by
  simp only [files] at h
  split at h <;> cases h <;> rfl

theorem index_ok {name : Bytes} {op : Sled.Db → Sled.Db} (h : (index name op).run w = (.ok (), w')) :
    w'.disk = { w.disk with index := op (w.disk.index.openTree name) } := by
  simp only [index] at h
  split at h <;> cases h
  rfl

-- An update that fails has opened its tree at most.
theorem index_opened {name : Bytes} {op : Sled.Db → Sled.Db} {e : Failure}
    (h : (index name op).run w = (.error e, w')) :
    w'.disk.files = w.disk.files ∧
    (w'.disk.index = w.disk.index ∨ w'.disk.index = w.disk.index.openTree name) := by
  simp only [index] at h
  split at h <;> cases h
  · exact ⟨rfl, .inl rfl⟩
  · exact ⟨rfl, .inr rfl⟩

-- It leaves every entry of the index as it is.
theorem index_error {name : Bytes} {op : Sled.Db → Sled.Db} {e : Failure}
    (h : (index name op).run w = (.error e, w')) :
    w'.disk.files = w.disk.files ∧
    ∀ bucket key, Index.entry w'.disk.index bucket key = Index.entry w.disk.index bucket key := by
  refine ⟨(index_opened h).1, fun bucket key => ?_⟩
  rcases (index_opened h).2 with hi | hi
  · rw [hi]
  · rw [hi, Index.entry_openTree]

end Io

-- Only the shard files of one object, from the `i`-th on, and the files next to them are written.
structure WritesFrom (dataDir bucket key : String) (i : Nat) (w w' : World) : Prop where
  files : Files.Extends w.disk.files w'.disk.files
  index : w'.disk.index = w.disk.index
  other : ∀ q, (∀ j, i ≤ j → q ≠ shardPlace w.disk.files.cwd dataDir bucket key j ∧
    q ≠ sidecarPlace w.disk.files.cwd dataDir bucket key j) →
    w'.disk.files.entry q = w.disk.files.entry q

namespace WritesFrom

variable {dataDir bucket key : String} {i j : Nat} {w w₁ w₂ w₃ : World}

theorem refl (w : World) : WritesFrom dataDir bucket key i w w where
  files     := .refl _
  index     := rfl
  other _ _ := rfl

theorem trans (h₁ : WritesFrom dataDir bucket key i w₁ w₂)
    (h₂ : WritesFrom dataDir bucket key i w₂ w₃) : WritesFrom dataDir bucket key i w₁ w₃ where
  files     := h₁.files.trans h₂.files
  index     := h₂.index.trans h₁.index
  other q h := (h₂.other q (h₁.files.cwd ▸ h)).trans (h₁.other q h)

theorem mono (h : WritesFrom dataDir bucket key j w₁ w₂) (hi : i ≤ j) :
    WritesFrom dataDir bucket key i w₁ w₂ where
  files      := h.files
  index      := h.index
  other q hq := h.other q fun k hk => hq k (hi.trans hk)

end WritesFrom

section WriteShards

variable {crates : Crates} {dataDir bucket key : String} {size i : Nat} {shard : Bytes}
  {shards : List Bytes} {w w' : World}

theorem Io.files_write_keeps (path : String) (data : Bytes) :
    (Io.files (Files.write path data)).Keeps fun w w' =>
      (Files.Extends w.disk.files w'.disk.files ∧
        ∀ q, q ≠ w.disk.files.resolve path → w'.disk.files.entry q = w.disk.files.entry q) ∧
      w'.disk.index = w.disk.index :=
  Io.files_keeps (R := fun fs fs' => Files.Extends fs fs' ∧
      ∀ q, q ≠ fs.resolve path → fs'.entry q = fs.entry q)
    fun f fs => ⟨Files.write_extends path data f fs, fun _ => Files.write_entry_of_ne⟩

-- A write makes no directory, and leaves all of them.
theorem Io.files_write_dir (path : String) (data : Bytes) :
    (Io.files (Files.write path data)).Keeps fun w w' =>
      ∀ q, w'.disk.files.entry q = some .dir ↔ w.disk.files.entry q = some .dir := by
  have hw (f : Fault) : (Files.write path data f).Keeps fun fs fs' =>
      ∀ q, fs'.entry q = some .dir ↔ fs.entry q = some .dir :=
    fun _ _ => Files.write_dir
  exact fun w => (Io.files_keeps hw w).1

theorem write_keeps (path : String) (data : Bytes)
    (hp : ∀ cwd, resolve cwd path = shardPlace cwd dataDir bucket key i ∨
      resolve cwd path = sidecarPlace cwd dataDir bucket key i) :
    (Io.files (Files.write path data)).Keeps (WritesFrom dataDir bucket key i) := by
  intro w
  have ⟨⟨he, ho⟩, hi⟩ := Io.files_write_keeps path data w
  refine ⟨he, hi, fun q hq => ho q ?_⟩
  have ⟨hs, hm⟩ := hq i (le_refl i)
  rcases hp w.disk.files.cwd with h | h
  · exact fun hr => hs (hr.trans h)
  · exact fun hr => hm (hr.trans h)

theorem writeShard_keeps : (writeShard crates (chunksDir dataDir bucket) (objectId bucket key) size i
    shard).Keeps (WritesFrom dataDir bucket key i) :=
  .bind (fun _ _ _ => .trans) (write_keeps _ _ fun _ => .inl rfl) fun _ =>
    write_keeps _ _ fun _ => .inr rfl

theorem forEach_writeShard_keeps {l : List (Bytes × Nat)} (h : ∀ c ∈ l, i ≤ c.2) :
    (Prog.forEach l fun c => writeShard crates (chunksDir dataDir bucket) (objectId bucket key) size
      c.2 c.1).Keeps (WritesFrom dataDir bucket key i) :=
  .forEach .refl (fun _ _ _ => .trans) fun c hc w => (writeShard_keeps w).mono (h c hc)

theorem writeShards_keeps : (writeShards crates (chunksDir dataDir bucket) (objectId bucket key) size
    shards).Keeps (WritesFrom dataDir bucket key 0) :=
  forEach_writeShard_keeps fun _ _ => Nat.zero_le _

theorem writeShard_ok (h : (writeShard crates (chunksDir dataDir bucket) (objectId bucket key) size i
    shard).run w = (.ok (), w')) :
    w'.disk.files.entry (shardPlace w.disk.files.cwd dataDir bucket key i) = some (.file shard) := by
  rw [writeShard, Prog.bind_eq_ok] at h
  obtain ⟨_, w₁, h₁, h₂⟩ := h
  have hs := Files.write_ok (Io.files_ok h₁).1
  have hc := ((Files.write_extends _ _ _).of_eq (Io.files_ok h₁).1).cwd
  have hne : shardPlace w.disk.files.cwd dataDir bucket key i ≠ w₁.disk.files.resolve
      (chunkPath (chunksDir dataDir bucket) (objectId bucket key) i ++ ".meta") := by
    rw [Files.resolve, hc]
    exact shardPlace_ne_sidecarPlace
  have he : w'.disk.files.entry (shardPlace w.disk.files.cwd dataDir bucket key i) =
      w₁.disk.files.entry (shardPlace w.disk.files.cwd dataDir bucket key i) := by
    rw [← Files.write_entry_of_ne hne, (Io.files_ok h₂).1]
  exact he.trans hs

-- Each shard is found under its own number.
theorem writeShards_ok (h : (writeShards crates (chunksDir dataDir bucket) (objectId bucket key) size
    shards).run w = (.ok (), w')) (hi : i < shards.length) :
    w'.disk.files.entry (shardPlace w.disk.files.cwd dataDir bucket key i) =
    some (.file shards[i]) := by
  have hz : shards.zipIdx = shards.zipIdx.take i ++ (shards[i], i) :: shards.zipIdx.drop (i + 1) := by
    have hl : i < shards.zipIdx.length := by simpa using hi
    have hd := List.take_append_drop i shards.zipIdx
    rw [List.drop_eq_getElem_cons hl, List.getElem_zipIdx, Nat.zero_add] at hd
    exact hd.symm
  rw [writeShards, hz, Prog.forEach_append_cons] at h
  obtain ⟨w₁, w₂, h₁, h₂, h₃⟩ := h
  have hb := (forEach_writeShard_keeps fun _ _ => Nat.zero_le _).of_eq h₁
  have hk := writeShard_keeps.of_eq h₂
  -- The shards that follow are written elsewhere.
  have ha := (forEach_writeShard_keeps (i := i + 1) fun c hc => ?_).of_eq h₃
  · have hs := writeShard_ok h₂
    rw [hb.files.cwd] at hs
    rw [ha.other, hs]
    intro j hj
    rw [hk.files.cwd, hb.files.cwd]
    refine ⟨fun hp => ?_, shardPlace_ne_sidecarPlace⟩
    have := (shardPlace_inj.mp hp).2
    omega
  · obtain ⟨k, hk, rfl⟩ := List.mem_drop_iff_getElem.mp hc
    simp

end WriteShards

section PutChunks

-- The shards of an object under a policy.
def IsEncoding (crates : Crates) (data : Bytes) (policy : StoragePolicy) (shards : List Bytes) :
    Prop :=
  ∃ compressed, compress crates data policy.zstdLevel = .ok compressed ∧
    encodeErasure compressed policy.dataShards policy.parityShards = .ok shards

variable (crates : Crates) (now : Nat → String) (dataDir bucket key : String) (data : Bytes)
  (policy : StoragePolicy)

def createChunksDir : Io Unit :=
  Io.files (Files.createDirAll (chunksDir dataDir bucket))

def writeEncoding (shards : List Bytes) : Io Unit :=
  writeShards crates (chunksDir dataDir bucket) (objectId bucket key) data.length shards

def putIndex : Io Unit :=
  Index.putObject crates now bucket key (crates.sha256 data) data.length policy

theorem putObject_eq : putObject crates now dataDir bucket key data policy = (do
    createChunksDir dataDir bucket
    let compressed ← Prog.ofExcept (compress crates data policy.zstdLevel)
    let shards ← Prog.ofExcept (encodeErasure compressed policy.dataShards policy.parityShards)
    writeEncoding crates dataDir bucket key data shards
    putIndex crates now bucket key data policy
    pure (Index.metadata (fun n => now (n + 2)) bucket key (crates.sha256 data) data.length policy)) :=
  rfl

variable {crates now dataDir bucket key data policy} {w w' : World}

theorem putIndex_ok (h : (putIndex crates now bucket key data policy).run w = (.ok (), w')) :
    w'.disk.files = w.disk.files ∧ ∀ b k, Index.entry w'.disk.index b k =
      if b = bucket ∧ k = key then
        some (crates.json.toVec
          (Index.metadata now bucket key (crates.sha256 data) data.length policy))
      else
        Index.entry w.disk.index b k := by
  rw [putIndex, Index.putObject] at h
  rw [Io.index_ok h]
  refine ⟨rfl, fun b k => ?_⟩
  rw [Index.entry_insert, Index.entry_openTree]

theorem putIndex_error {e : Failure}
    (h : (putIndex crates now bucket key data policy).run w = (.error e, w')) :
    w'.disk.files = w.disk.files ∧
    ∀ b k, Index.entry w'.disk.index b k = Index.entry w.disk.index b k := by
  rw [putIndex, Index.putObject] at h
  exact Io.index_error h

variable (crates now dataDir bucket key data policy)

-- How a put ends: all of its steps go through, or one of them fails.
inductive PutChunks (w w' : World) : Except Failure ObjectMetadata → Prop
  | stored {shards w₁ w₂} :
    IsEncoding crates data policy shards →
    (createChunksDir dataDir bucket).run w = (.ok (), w₁) →
    (writeEncoding crates dataDir bucket key data shards).run w₁ = (.ok (), w₂) →
    (putIndex crates now bucket key data policy).run w₂ = (.ok (), w') →
    PutChunks w w'
      (.ok (Index.metadata (fun n => now (n + 2)) bucket key (crates.sha256 data) data.length policy))
  | notCreated {e} :
    (createChunksDir dataDir bucket).run w = (.error e, w') →
    PutChunks w w' (.error e)
  | notEncoded {e} :
    (¬ ∃ shards, IsEncoding crates data policy shards) →
    (createChunksDir dataDir bucket).run w = (.ok (), w') →
    PutChunks w w' (.error e)
  | notWritten {shards w₁ e} :
    IsEncoding crates data policy shards →
    (createChunksDir dataDir bucket).run w = (.ok (), w₁) →
    (writeEncoding crates dataDir bucket key data shards).run w₁ = (.error e, w') →
    PutChunks w w' (.error e)
  | notIndexed {shards w₁ w₂ e} :
    IsEncoding crates data policy shards →
    (createChunksDir dataDir bucket).run w = (.ok (), w₁) →
    (writeEncoding crates dataDir bucket key data shards).run w₁ = (.ok (), w₂) →
    (putIndex crates now bucket key data policy).run w₂ = (.error e, w') →
    PutChunks w w' (.error e)

variable {crates now dataDir bucket key data policy}

theorem PutChunks.of_run {r : Except Failure ObjectMetadata}
    (h : (putObject crates now dataDir bucket key data policy).run w = (r, w')) :
    PutChunks crates now dataDir bucket key data policy w w' r := by
  rw [putObject_eq] at h
  rcases hc : (createChunksDir dataDir bucket).run w with ⟨_ | _, w₁⟩
  case error =>
    rw [Prog.bind_of_error hc] at h
    cases h
    exact .notCreated hc
  case ok =>
    rw [Prog.bind_of_ok hc, Prog.ofExcept_bind] at h
    split at h
    case h_2 he =>
      cases h
      refine .notEncoded ?_ hc
      rintro ⟨_, _, hz, _⟩
      simp [hz] at he
    case h_1 compressed hz =>
      rw [Prog.ofExcept_bind] at h
      split at h
      case h_2 he =>
        cases h
        refine .notEncoded ?_ hc
        rintro ⟨_, _, hz', hs⟩
        rw [hz, Except.ok.injEq] at hz'
        simp [hz', hs] at he
      case h_1 shards hs =>
        have henc : IsEncoding crates data policy shards := ⟨_, hz, hs⟩
        rcases hw : (writeEncoding crates dataDir bucket key data shards).run w₁ with ⟨_ | _, w₂⟩
        case error =>
          rw [Prog.bind_of_error hw] at h
          cases h
          exact .notWritten henc hc hw
        case ok =>
          rw [Prog.bind_of_ok hw] at h
          rcases hi : (putIndex crates now bucket key data policy).run w₂ with ⟨_ | _, w₃⟩
          case error =>
            rw [Prog.bind_of_error hi] at h
            cases h
            exact .notIndexed henc hc hw hi
          case ok =>
            rw [Prog.bind_of_ok hi] at h
            cases h
            exact .stored henc hc hw hi

theorem createChunksDir_keeps : (createChunksDir dataDir bucket).Keeps fun w w' =>
    Files.Grows w.disk.files w'.disk.files ∧ w'.disk.index = w.disk.index :=
  Io.files_keeps fun f => Files.createDirAll_grows _ f

-- Whether or not it goes through, a put keeps what is there, apart from the files of its own object.
structure Overwrites (dataDir bucket key : String) (w w' : World) : Prop where
  files : Files.Extends w.disk.files w'.disk.files
  other : ∀ q e, (∀ j, q ≠ shardPlace w.disk.files.cwd dataDir bucket key j ∧
      q ≠ sidecarPlace w.disk.files.cwd dataDir bucket key j) →
    w.disk.files.entry q = some e → w'.disk.files.entry q = some e

theorem Overwrites.of_grows (h : Files.Grows w.disk.files w'.disk.files) :
    Overwrites dataDir bucket key w w' where
  files         := .of_grows h
  other q e _   := h.entry q e

theorem Overwrites.trans_writesFrom {w₁ : World} (h₁ : Files.Grows w.disk.files w₁.disk.files)
    (h₂ : WritesFrom dataDir bucket key 0 w₁ w') : Overwrites dataDir bucket key w w' where
  files          := (Files.Extends.of_grows h₁).trans h₂.files
  other q e hq h := by
    rw [h₂.other q fun j _ => by rw [h₁.cwd]; exact hq j]
    exact h₁.entry q e h

theorem putObject_overwrites {r : Except Failure ObjectMetadata}
    (h : (putObject crates now dataDir bucket key data policy).run w = (r, w')) :
    Overwrites dataDir bucket key w w' := by
  cases PutChunks.of_run h
  case stored w₁ w₂ _ hc hw hi =>
    have := Overwrites.trans_writesFrom (createChunksDir_keeps.of_eq hc).1 (writeShards_keeps.of_eq hw)
    exact ⟨(putIndex_ok hi).1 ▸ this.files, (putIndex_ok hi).1 ▸ this.other⟩
  case notCreated hc   => exact .of_grows (createChunksDir_keeps.of_eq hc).1
  case notEncoded hc   => exact .of_grows (createChunksDir_keeps.of_eq hc).1
  case notWritten hc hw =>
    exact .trans_writesFrom (createChunksDir_keeps.of_eq hc).1 (writeShards_keeps.of_eq hw)
  case notIndexed hc hw hi =>
    have := Overwrites.trans_writesFrom (createChunksDir_keeps.of_eq hc).1 (writeShards_keeps.of_eq hw)
    exact ⟨(putIndex_error hi).1 ▸ this.files, (putIndex_error hi).1 ▸ this.other⟩

-- Only a put that goes through changes the index, and then only the entry of its object.
theorem putObject_entry {m : ObjectMetadata} {b k : String}
    (h : (putObject crates now dataDir bucket key data policy).run w = (.ok m, w')) :
    Index.entry w'.disk.index b k =
    if b = bucket ∧ k = key then
      some (crates.json.toVec (Index.metadata now bucket key (crates.sha256 data) data.length policy))
    else
      Index.entry w.disk.index b k := by
  cases PutChunks.of_run h
  case stored w₁ w₂ _ hc hw hi =>
    rw [(putIndex_ok hi).2, (writeShards_keeps.of_eq hw).index, (createChunksDir_keeps.of_eq hc).2]

theorem putObject_entry_of_error {e : Failure} {b k : String}
    (h : (putObject crates now dataDir bucket key data policy).run w = (.error e, w')) :
    Index.entry w'.disk.index b k = Index.entry w.disk.index b k := by
  cases PutChunks.of_run h
  case notCreated hc    => rw [(createChunksDir_keeps.of_eq hc).2]
  case notEncoded hc    => rw [(createChunksDir_keeps.of_eq hc).2]
  case notWritten hc hw =>
    rw [(writeShards_keeps.of_eq hw).index, (createChunksDir_keeps.of_eq hc).2]
  case notIndexed hc hw hi =>
    rw [(putIndex_error hi).2, (writeShards_keeps.of_eq hw).index,
      (createChunksDir_keeps.of_eq hc).2]

end PutChunks

end All4One.Storage
