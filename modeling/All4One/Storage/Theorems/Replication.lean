import All4One.Storage.Replication
import All4One.Storage.Theorems.Transfer

open Foundation Path

namespace All4One.Storage

variable {crates : Crates} {text : Failure → String} {now : Nat → String}
  {dataDir peerDir bucket key : String} {data : Bytes} {policy : StoragePolicy}
  {header : Option String} {metadata : ObjectMetadata} {shards : List Bytes}
  {w w' : World} {disk disk' disk₁ disk₂ : Disk}

section Unobstructed

variable {files : Files} {payload : TransferChunkRequest}

theorem Unobstructed.of_hasDir (hd : HasDir dataDir bucket files)
    (h : ∀ i, files.entry (shardPlace files.cwd dataDir bucket key i) ≠ some .dir) :
    Unobstructed dataDir bucket key files :=
  ⟨files, Files.createDirAll_none_of_dirs hd, h⟩

-- The directory is made, and the shard is written to its place.
theorem Unobstructed.writes (h : Unobstructed dataDir bucket key w.disk.files) (hf : w.faults = []) :
    ∃ w₁, (createChunksDir dataDir bucket).run w = (.ok (), w₁) ∧ w₁.faults = [] ∧
      ∀ i, w₁.disk.files.IsWritable (chunkPath (chunksDir dataDir bucket) (objectId bucket key) i) ∧
        w₁.disk.files.entry (shardPlace w₁.disk.files.cwd dataDir bucket key i) ≠ some .dir := by
  have ⟨files, hc, hfree⟩ := h
  have hr : (createChunksDir dataDir bucket).run w = (.ok (), ⟨{ w.disk with files }, []⟩) := by
    simp only [createChunksDir, Io.files, Io.fault, hf, List.headD_nil, hc, List.tail_nil]
  have hcwd := (createChunksDir_keeps.of_eq hr).1.cwd
  have hfree := fun i => hcwd ▸ hfree i
  exact ⟨_, hr, rfl, fun i => ⟨⟨Files.leads_join (createChunksDir_ok hr) (isName_chunkId _ _ i),
    hfree i⟩, hfree i⟩⟩

theorem write_of_isWritable {path : String} (data : Bytes) (hf : w.faults = [])
    (h : w.disk.files.IsWritable path) :
    ∃ w', (Io.files (Files.write path data)).run w = (.ok (), w') := by
  simp [Io.files, Io.fault, hf, Files.write_none, h]

-- Where nothing is in the way and nothing fails, a peer with the storage role accepts a message, and
-- nothing is in the way of the next.
theorem Unobstructed.transferChunk (hb : '/' ∉ payload.bucket.toList) (hf : w.faults = [])
    (h : Unobstructed dataDir payload.bucket payload.key w.disk.files) :
    ∃ w', (transferChunk crates text now true dataDir payload).run w = (.ok ⟨true, ""⟩, w') ∧
      Unobstructed dataDir payload.bucket payload.key w'.disk.files := by
  obtain ⟨w₁, hc, hf₁, hfree⟩ := h.writes hf
  obtain ⟨w', hr⟩ : ∃ w', (All4One.Storage.transferChunk crates text now true dataDir payload).run w =
      (.ok ⟨true, ""⟩, w') := by
    obtain ⟨w₂, hs⟩ := write_of_isWritable payload.data hf₁ (hfree payload.shardIndex).1
    rw [createChunksDir] at hc
    simp only [All4One.Storage.transferChunk, Bool.not_true, Bool.false_eq_true, ↓reduceIte]
    rw [Prog.attempt_bind, hc, safeObjectId_eq hb]
    simp only
    rw [Prog.attempt_bind, hs]
    exact ⟨_, rfl⟩
  refine ⟨w', hr, ?_⟩
  obtain ⟨w₁', w₂, w₃, w₄, r₃, r₄, r₅, hc', hs, hm, hi, hp⟩ := transferChunk_accepted hr rfl
  obtain ⟨hreceived, _⟩ := Received.of_transferChunk hb hf hr rfl
  rw [hc] at hc'
  cases hc'
  have hf₃ : w₃.faults = [] := by
    simp [(writeSidecar_keeps hb hm).2.2, (writeTransferred_ok hb hs).2.2.2, hf₁]
  have hfiles := (index_of_no_faults hf₃ hi hp).1
  rw [writeTransferred] at hs
  rw [writeSidecar] at hm
  refine .of_hasDir hreceived.dir fun i hd => (hfree i).2 ?_
  rw [hfiles] at hd
  have hcwd : w₃.disk.files.cwd = w₁.disk.files.cwd :=
    (((Io.files_write_keeps _ _).of_eq hm).1.1.cwd).trans ((Io.files_write_keeps _ _).of_eq hs).1.1.cwd
  rw [hcwd] at hd
  exact ((Io.files_write_dir _ _).of_eq hs _).mp (((Io.files_write_dir _ _).of_eq hm _).mp hd)

-- What a peer has then.
theorem Unobstructed.received {shard : Shard} (hb : '/' ∉ bucket.toList)
    (h : Unobstructed dataDir bucket key disk.files) :
    Received crates now dataDir (transferRequest bucket key metadata shard) disk
      (received crates text dataDir bucket key metadata now shard disk) := by
  have ⟨w', hr, _⟩ : ∃ w', (All4One.Storage.transferChunk crates text now true dataDir
      (transferRequest bucket key metadata shard)).run ⟨disk, []⟩ = (.ok ⟨true, ""⟩, w') ∧ _ :=
    Unobstructed.transferChunk hb rfl h
  rw [All4One.Storage.received, hr]
  exact (Received.of_transferChunk hb rfl hr rfl).1

theorem Unobstructed.of_received {shard : Shard} (hb : '/' ∉ bucket.toList)
    (h : Unobstructed dataDir bucket key disk.files) :
    Unobstructed dataDir bucket key
      (All4One.Storage.received crates text dataDir bucket key metadata now shard disk).files := by
  have ⟨w', hr, h'⟩ : ∃ w', (All4One.Storage.transferChunk crates text now true dataDir
      (transferRequest bucket key metadata shard)).run ⟨disk, []⟩ = (.ok ⟨true, ""⟩, w') ∧ _ :=
    Unobstructed.transferChunk hb rfl h
  rw [All4One.Storage.received, hr]
  exact h'

end Unobstructed

-- A disk has the data shards of an object and an entry for it. `policy` and `etag` are those of the
-- entry.
structure Holds (crates : Crates) (dataDir bucket key : String) (data : Bytes)
    (policy : StoragePolicy) (shards : List Bytes) (disk : Disk) : Prop where
  encoding : IsEncoding crates data policy shards
  dir      : HasDir dataDir bucket disk.files
  shards   : ∀ i < policy.dataShards, ∃ shard, shards[i]? = some shard ∧
    disk.files.entry (shardPlace disk.files.cwd dataDir bucket key i) = some (.file shard)
  parity   : ∀ i < policy.dataShards + policy.parityShards, ∃ shard,
    disk.files.entry (shardPlace disk.files.cwd dataDir bucket key i) = some (.file shard)
  index    : ∃ m, Index.entry disk.index bucket key = some (crates.json.toVec m) ∧
    m.policy = policy.text ∧ m.etag = crates.sha256 data

theorem total_pos (policy : StoragePolicy) :
    0 < policy.dataShards + policy.parityShards := by
  cases policy <;> decide

theorem Holds.getResult (h : Holds crates dataDir bucket key data policy shards disk) :
    getResult crates dataDir bucket key ⟨disk, []⟩ = .ok data := by
  have hlen := h.encoding.length
  have ⟨m, hm, hp, he⟩ := h.index
  have hdata (i : Nat) (hi : i < policy.dataShards) : disk.files.entry
      (shardPlace disk.files.cwd dataDir bucket key i) = some (.file shards[i]) := by
    have ⟨shard, hs, hd⟩ := h.shards i hi
    rw [hd, (List.getElem_of_getElem? hs).2]
  have hparity (i : Nat) (hi : i < policy.dataShards + policy.parityShards) : disk.files.entry
      (shardPlace disk.files.cwd dataDir bucket key i) ≠ some .dir := by
    have ⟨shard, hs⟩ := h.parity i hi
    simp [hs]
  have ⟨loaded, hload, hl⟩ :=
    loadShards_of_data h.dir (hlen ▸ Nat.le_add_right _ _) hdata hparity
  rw [getResult_of_some hm]
  exact decodeChunks_of_encoding h.encoding hp he hload hl

theorem Stored.of_putObjectHandler {body : Bytes}
    (h : (putObjectHandler crates now dataDir bucket key header body).run w = (.ok metadata, w')) :
    (∃ shards, Stored crates dataDir bucket key body (policyOfText (header.getD "warm")) shards
      w'.disk) ∧
    (∃ now, metadata = Index.metadata now bucket key (crates.sha256 body) body.length
      (policyOfText (header.getD "warm"))) ∧
    ∃ now, Index.entry w'.disk.index bucket key = some (crates.json.toVec
      (Index.metadata now bucket key (crates.sha256 body) body.length
        (policyOfText (header.getD "warm")))) := by
  rw [putObjectHandler, Prog.attempt_bind] at h
  refine ⟨Stored.of_putObject h, ?_, now, ?_⟩
  · cases PutChunks.of_run h
    case stored => exact ⟨_, rfl⟩
  · rw [putObject_entry h, if_pos ⟨rfl, rfl⟩]

section ReadShards

theorem loadAllShards_of_files (crates : Crates) {fs : Files} {dir object : String} {is : List Nat}
    (h : ∀ i ∈ is, ∃ shard, shards[i]? = some shard ∧
      fs.stat (chunkPath dir object i) = some (.file shard)) :
    ∃ loaded, loadAllShards crates fs dir object is = .ok loaded ∧ loaded.map (·.index) = is ∧
      ∀ shard ∈ loaded, shards[shard.index]? = some shard.data ∧
        shard.hash = crates.sha256 shard.data := by
  induction is
  case nil => exact ⟨[], rfl, rfl, by simp⟩
  case cons i is hi =>
    rw [List.forall_mem_cons] at h
    have ⟨⟨shard, hs, hstat⟩, h⟩ := h
    have ⟨loaded, hload, hindex, hdata⟩ := hi h
    refine ⟨⟨i, crates.sha256 shard, shard⟩ :: loaded, ?_, ?_, ?_⟩
    · simp only [loadAllShards, Files.pathExists, Files.read, hstat, Option.isSome_some, ↓reduceIte,
        hload]
      rfl
    · rw [List.map_cons, hindex]
    · rw [List.forall_mem_cons]
      exact ⟨⟨hs, rfl⟩, hdata⟩

-- All of the shards of an object that is stored are read.
theorem readShards_of_stored (hb : '/' ∉ bucket.toList)
    (h : Stored crates dataDir bucket key data policy shards w.disk) :
    ∃ loaded, (readShards crates dataDir bucket key).run w =
        (.ok loaded, ⟨{ w.disk with index := w.disk.index.openTree (Index.treeName bucket) },
          w.faults⟩) ∧
      loaded.map (·.index) = List.range (policy.dataShards + policy.parityShards) ∧
      ∀ shard ∈ loaded, shards[shard.index]? = some shard.data ∧
        shard.hash = crates.sha256 shard.data := by
  have ⟨m, hm, hp, _⟩ := h.index
  have hfiles (i) (hi : i ∈ List.range (policy.dataShards + policy.parityShards)) :
      ∃ shard, shards[i]? = some shard ∧ w.disk.files.stat
        (chunkPath (chunksDir dataDir bucket) (objectId bucket key) i) = some (.file shard) := by
    rw [List.mem_range, ← h.encoding.length] at hi
    exact ⟨_, List.getElem?_eq_getElem hi, by rw [stat_chunkPath h.dir, h.files i hi]⟩
  have ⟨loaded, hload, hl⟩ := loadAllShards_of_files crates hfiles
  refine ⟨loaded, ?_, hl⟩
  have hg : (Index.getObject crates bucket key).run w = (.ok m,
      ⟨{ w.disk with index := w.disk.index.openTree (Index.treeName bucket) }, w.faults⟩) := by
    simp only [Index.getObject, Index.entry_openTree, hm, Index.parse, crates.json.fromSlice_toVec]
  rw [readShards, Prog.bind_of_ok hg, Prog.reads_run, hp, totalShards_text, safeObjectId_eq hb, hload]

end ReadShards

theorem Stored.of_undisturbed (h : Stored crates dataDir bucket key data policy shards disk)
    (hu : Undisturbed dataDir bucket key disk disk') :
    Stored crates dataDir bucket key data policy shards disk' where
  encoding   := h.encoding
  dir        := h.dir.of_extends hu.files
  files i hi := hu.files.cwd ▸ hu.shards i _ (h.files i hi)
  index      := hu.index ▸ h.index

theorem Stored.openTree (h : Stored crates dataDir bucket key data policy shards disk) :
    Stored crates dataDir bucket key data policy shards
      { disk with index := disk.index.openTree (Index.treeName bucket) } where
  encoding := h.encoding
  dir      := h.dir
  files    := h.files
  index    := by simpa only [Index.entry_openTree] using h.index

-- What a peer has once some of the shards have arrived.
structure Arrived (crates : Crates) (peerDir bucket key : String) (metadata : ObjectMetadata)
    (shards : List Bytes) (known : Set Shard) (disk : Disk) : Prop where
  genuine : ∀ shard ∈ known, shards[shard.index]? = some shard.data
  shard   : ∀ shard ∈ known, disk.files.entry
    (shardPlace disk.files.cwd peerDir bucket key shard.index) = some (.file shard.data)
  index   : known.Nonempty → HasDir peerDir bucket disk.files ∧
    ∃ now, Index.entry disk.index bucket key = some (crates.json.toVec (Index.metadata now bucket key
      metadata.etag metadata.sizeBytes.toNat (policyOfText metadata.policy)))

namespace Arrived

variable {known : Set Shard} {shard : Shard} {delivered : List Shard}

theorem empty : Arrived crates peerDir bucket key metadata shards ∅ disk where
  genuine := by simp
  shard   := by simp
  index   := by simp

theorem deliver (h : Arrived crates peerDir bucket key metadata shards known disk)
    (hg : shards[shard.index]? = some shard.data)
    (hr : Received crates now peerDir (transferRequest bucket key metadata shard) disk disk') :
    Arrived crates peerDir bucket key metadata shards (insert shard known) disk' := by
  have hcwd := hr.files.cwd
  constructor
  case genuine =>
    rw [Set.forall_mem_insert]
    exact ⟨hg, h.genuine⟩
  case index => exact fun _ => ⟨hr.dir, now, hr.index⟩
  case shard =>
    rw [Set.forall_mem_insert, hcwd]
    refine ⟨hr.shard, fun other ho => ?_⟩
    by_cases hi : other.index = shard.index
    case neg => exact hr.other _ hi _ (h.shard other ho)
    case pos =>
      -- The same shard has arrived before.
      have hd : other.data = shard.data := by
        have := h.genuine other ho
        rw [hi, hg] at this
        exact (Option.some.inj this).symm
      rw [hi, hd]
      exact hr.shard

theorem undisturbed (h : Arrived crates peerDir bucket key metadata shards known disk)
    (hu : Undisturbed peerDir bucket key disk disk') :
    Arrived crates peerDir bucket key metadata shards known disk' where
  genuine       := h.genuine
  shard s hs    := hu.files.cwd ▸ hu.shards _ _ (h.shard s hs)
  index hn      := ⟨(h.index hn).1.of_extends hu.files, hu.index ▸ (h.index hn).2⟩

-- The order in which the shards arrive does not matter, nor how often each does.
theorem deliveries (hb : '/' ∉ bucket.toList) (hu : Unobstructed peerDir bucket key disk.files)
    (h : Arrived crates peerDir bucket key metadata shards known disk)
    (hd : Deliveries crates text peerDir bucket key metadata delivered disk disk')
    (hg : ∀ shard ∈ delivered, shards[shard.index]? = some shard.data) :
    Arrived crates peerDir bucket key metadata shards (known ∪ {s | s ∈ delivered}) disk' := by
  induction hd generalizing known
  case done => simpa using h
  case other hd hfree _ hi => exact hi hfree (h.undisturbed hd) hg
  case deliver shard delivered now disk _ _ hi =>
    rw [List.forall_mem_cons] at hg
    have hs : {s | s ∈ shard :: delivered} = insert shard {s | s ∈ delivered} :=
      Set.ext fun _ => List.mem_cons
    rw [hs, Set.union_insert, ← Set.insert_union]
    exact hi (hu.of_received hb) (h.deliver hg.1 (hu.received hb)) hg.2

-- Once all of them have, the peer holds the object.
theorem holds (h : Arrived crates peerDir bucket key metadata shards known disk)
    (henc : IsEncoding crates data policy shards) (hp : metadata.policy = policy.text)
    (he : metadata.etag = crates.sha256 data)
    (hk : ∀ i < policy.dataShards + policy.parityShards, ∃ shard ∈ known, shard.index = i) :
    Holds crates peerDir bucket key data policy shards disk := by
  have ⟨shard, hs, _⟩ := hk 0 (total_pos policy)
  have ⟨hdir, now, hx⟩ := h.index ⟨shard, hs⟩
  constructor
  case encoding => exact henc
  case dir => exact hdir
  case index => exact ⟨_, hx, by rw [hp, policyOfText_text]; rfl, he⟩
  case shards =>
    intro i hi
    have ⟨shard, hs, hi⟩ := hk i (by omega)
    exact ⟨shard.data, hi ▸ h.genuine shard hs, hi ▸ h.shard shard hs⟩
  case parity =>
    intro i hi
    have ⟨shard, hs, hi⟩ := hk i hi
    exact ⟨shard.data, hi ▸ h.shard shard hs⟩

end Arrived

-- Whatever a peer had before, and in whatever order and however often the shards of a put reach it,
-- it then has the object as the origin does.
theorem replicated {body : Bytes} {faults : List Fault} (hb : '/' ∉ bucket.toList)
    (hp : (putObjectHandler crates now dataDir bucket key header body).run w = (.ok metadata, w'))
    (hu : Undisturbed dataDir bucket key w'.disk disk) :
    ∃ shards w₁, (readShards crates dataDir bucket key).run ⟨disk, faults⟩ = (.ok shards, w₁) ∧
      ∀ delivered peer peer', Unobstructed peerDir bucket key peer.files →
        (∀ shard, shard ∈ delivered ↔ shard ∈ shards) →
        Deliveries crates text peerDir bucket key metadata delivered peer peer' →
        getResult crates peerDir bucket key ⟨peer', []⟩ = .ok body ∧
        ∃ m m', Index.entry w'.disk.index bucket key = some (crates.json.toVec m) ∧
          Index.entry peer'.index bucket key = some (crates.json.toVec m') ∧
          m'.etag = m.etag ∧ m'.sizeBytes = m.sizeBytes ∧ m'.policy = m.policy ∧
          m'.replicas = m.replicas := by
  have ⟨⟨shards, hs⟩, ⟨_, hm⟩, now', hx⟩ := Stored.of_putObjectHandler hp
  have ⟨loaded, hload, hindex, hgen⟩ := readShards_of_stored (w := ⟨disk, faults⟩) hb
    (hs.of_undisturbed hu)
  refine ⟨loaded, _, hload, fun delivered peer peer' hfree hmem hd => ?_⟩
  have ha := Arrived.empty.deliveries hb hfree hd fun shard hs =>
    (hgen shard ((hmem shard).mp hs)).1
  rw [Set.empty_union] at ha
  have hk (i : Nat) (hi : i < (policyOfText (header.getD "warm")).dataShards +
      (policyOfText (header.getD "warm")).parityShards) :
      ∃ shard ∈ {s | s ∈ delivered}, shard.index = i := by
    rw [← List.mem_range, ← hindex, List.mem_map] at hi
    have ⟨shard, hs, hi⟩ := hi
    exact ⟨shard, (hmem shard).mpr hs, hi⟩
  have hh := ha.holds hs.encoding (by rw [hm]; rfl) (by rw [hm]; rfl) hk
  have ⟨shard, hs, _⟩ := hk 0 (total_pos _)
  have ⟨_, _, hx'⟩ := ha.index ⟨shard, hs⟩
  have hpol : policyOfText metadata.policy = policyOfText (header.getD "warm") := by
    rw [hm]
    exact policyOfText_text _
  refine ⟨hh.getResult, _, _, hx, hx', ?_, ?_, ?_, ?_⟩
  · rw [hm]; rfl
  · rw [hm]; exact UInt64.ofNat_toNat
  · rw [hpol]; rfl
  · rw [hpol]; rfl

-- The shard of a short text under the policy without any other.
def hotShard (body : Bytes) : Shard where
  index := 0
  hash  := Sha256.hex (Bytes.toLe 8 body.length ++ body)
  data  := Bytes.toLe 8 body.length ++ body

theorem IsEncoding.hot {body : Bytes} (h : IsEncoding crates body .hot shards) :
    shards = [Bytes.toLe 8 body.length ++ body] := by
  have ⟨compressed, hc, h⟩ := h
  cases hc
  have ⟨_, _, h⟩ := Erasure.encodeErasure_eq_ok h
  have hlen : (Bytes.toLe 8 body.length ++ body).length = 8 + body.length := by simp
  have htake := List.take_of_length_le hlen.le
  rw [h]
  simp [Erasure.dataShard, Erasure.shardSize, StoragePolicy.dataShards, StoragePolicy.parityShards,
    StoragePolicy.erasureCoding, htake]

theorem readShards_of_hot {body : Bytes} (hb : '/' ∉ bucket.toList)
    (h : Stored .reference dataDir bucket key body .hot shards w.disk) :
    (readShards .reference dataDir bucket key).run w = (.ok [hotShard body],
      ⟨{ w.disk with index := w.disk.index.openTree (Index.treeName bucket) }, w.faults⟩) := by
  have ⟨loaded, hload, hindex, hgen⟩ := readShards_of_stored hb h
  have ⟨⟨i, hash, data⟩, hl⟩ : ∃ shard, loaded = [shard] :=
    List.length_eq_one_iff.mp (by simpa [StoragePolicy.dataShards, StoragePolicy.parityShards,
      StoragePolicy.erasureCoding] using congrArg List.length hindex)
  subst hl
  cases hindex
  have ⟨hd, hh⟩ := hgen _ (List.mem_singleton_self _)
  rw [h.encoding.hot] at hd
  obtain rfl : Bytes.toLe 8 body.length ++ body = data := Option.some.inj hd
  obtain rfl : hash = Sha256.hex (Bytes.toLe 8 body.length ++ body) := hh
  exact hload

def clock : Nat → String :=
  fun _ => "2026-01-01T00:00:00+00:00"

def putTextHandler (bucket key : String) (header : Option String) (text : String) :
    Io ObjectMetadata :=
  putObjectHandler .reference clock "/d" bucket key header (Bytes.ofString text)

-- Both puts are evaluated together.
theorem bye_hello_replies :
    ((putTextHandler "b" "a" (some "hot") "bye").run .empty).1 =
      .ok (textMetadata "b" "a" "bye" .hot) ∧
    ((putTextHandler "b" "a" (some "warm") "hello").run
      ⟨((putTextHandler "b" "a" (some "hot") "bye").run .empty).2.disk, []⟩).1 =
      .ok (textMetadata "b" "a" "hello" .warm) := by
  decide +kernel

theorem World.empty_entry {q : List Name} (h : q ≠ []) : World.empty.disk.files.entry q = none := by
  simp [World.empty, Files.entry, h]

-- Nothing is in the way on a disk with nothing on it.
theorem unobstructed_empty : Unobstructed "/p" "b" "a" World.empty.disk.files := by
  have ⟨files, hc⟩ : ∃ files, (Files.createDirAll (chunksDir "/p" "b") .none).run
      World.empty.disk.files = (.ok (), files) := by
    refine Files.createDirAll_of_forall (fun q _ data => ?_) (.inl (by decide))
    by_cases hq : q = []
    case pos => simp [hq]
    case neg => simp [World.empty_entry hq]
  refine ⟨files, hc, fun i => ?_⟩
  have hlen : ∀ q ∈ trail [] (chunksDir "/p" "b"), q.length ≤ 3 := by decide
  have hdir : (dirPlace [] "/p" "b").length = 3 := by decide
  have hn : shardPlace World.empty.disk.files.cwd "/p" "b" "a" i ∉ trail [] (chunksDir "/p" "b") := by
    intro hm
    have := hlen _ hm
    rw [shardPlace_eq, List.length_append] at this
    simp [World.empty, hdir] at this
  have he : ((Files.createDirAll (chunksDir "/p" "b") .none).run World.empty.disk.files).2.entry _ = _ :=
    (Files.createDirAll_entry_of_notMem hn).trans (World.empty_entry shardPlace_ne_nil)
  rw [hc] at he
  simp [he]

variable (crates text dataDir bucket key metadata) in
theorem exists_deliveries (delivered : List Shard) (disk : Disk) :
    ∃ disk', Deliveries crates text dataDir bucket key metadata delivered disk disk' := by
  induction delivered generalizing disk
  case nil => exact ⟨disk, .done⟩
  case cons shard delivered hi =>
    have ⟨disk', hd⟩ := hi (received crates text dataDir bucket key metadata clock shard disk)
    exact ⟨disk', .deliver hd⟩

-- A peer with an older version, which has one shard, gets the six shards of a newer one in the wrong
-- order, and then each of them again.
theorem replicated_hello :
    ∃ w w' peer shards peer', (putTextHandler "b" "a" (some "hot") "bye").run .empty =
        (.ok (textMetadata "b" "a" "bye" .hot), w) ∧
      received .reference (fun _ => "") "/p" "b" "a" (textMetadata "b" "a" "bye" .hot) clock
        (hotShard (Bytes.ofString "bye")) World.empty.disk = peer ∧
      getResult .reference "/p" "b" "a" ⟨peer, []⟩ = .ok (Bytes.ofString "bye") ∧
      (putTextHandler "b" "a" (some "warm") "hello").run ⟨w.disk, []⟩ =
        (.ok (textMetadata "b" "a" "hello" .warm), w') ∧
      ((readShards .reference "/d" "b" "a").run ⟨w'.disk, []⟩).1 = .ok shards ∧
      shards.map (·.index) = [0, 1, 2, 3, 4, 5] ∧
      Deliveries .reference (fun _ => "") "/p" "b" "a" (textMetadata "b" "a" "hello" .warm)
        (shards.reverse ++ shards) peer peer' ∧
      getResult .reference "/p" "b" "a" ⟨peer', []⟩ = .ok (Bytes.ofString "hello") := by
  have hb : '/' ∉ "b".toList := by decide
  have self (disk : Disk) : Undisturbed "/d" "b" "a" disk disk := ⟨.refl _, fun _ _ h => h, rfl⟩
  have ⟨hbye, hhello⟩ := bye_hello_replies
  have ⟨w, hp⟩ := Prog.exists_of_fst hbye
  rw [hp] at hhello
  have ⟨w', hp'⟩ := Prog.exists_of_fst hhello
  let peer := received .reference (fun _ => "") "/p" "b" "a" (textMetadata "b" "a" "bye" .hot) clock
    (hotShard (Bytes.ofString "bye")) World.empty.disk
  have hget : getResult .reference "/p" "b" "a" ⟨peer, []⟩ = .ok (Bytes.ofString "bye") := by
    have ⟨⟨_, hs⟩, _⟩ := Stored.of_putObjectHandler hp
    have ⟨shards, _, hread, hall⟩ :=
      @replicated _ (fun _ => "") _ _ "/p" _ _ _ _ _ _ _ _ [] hb hp (self _)
    rw [readShards_of_hot (w := ⟨w.disk, []⟩) hb hs] at hread
    cases hread
    exact (hall _ _ _ unobstructed_empty (fun _ => Iff.rfl) (.deliver .done)).1
  have ⟨shards, _, hread, hall⟩ :=
    @replicated _ (fun _ => "") _ _ "/p" _ _ _ _ _ _ _ _ [] hb hp' (self _)
  have ⟨peer', hd⟩ := exists_deliveries .reference (fun _ => "") "/p" "b" "a"
    (textMetadata "b" "a" "hello" .warm) (shards.reverse ++ shards) peer
  have hindex : shards.map (·.index) = List.range 6 := by
    have ⟨⟨_, hs⟩, _⟩ := Stored.of_putObjectHandler hp'
    have ⟨loaded, hload, hi, _⟩ := readShards_of_stored (w := ⟨w'.disk, []⟩) hb hs
    rw [hload] at hread
    cases hread
    exact hi
  exact ⟨w, w', peer, shards, peer', hp, rfl, hget, hp', congrArg Prod.fst hread, hindex, hd,
    (hall _ _ _ (unobstructed_empty.of_received hb) (by simp) hd).1⟩

end All4One.Storage
