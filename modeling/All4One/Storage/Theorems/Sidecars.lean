import All4One.Storage.Requests
import All4One.Storage.Theorems.Confinement

open Foundation Path

namespace All4One.Storage

variable {crates : Crates} {text : Failure → String} {role : Bool} {dataDir bucket key path : String}
  {fs fs₁ : Files} {data : Bytes} {hash : String} {size i : Nat} {w w' : World}

-- A path to a file that is named like a shard, which is also how the file next to it is named.
def IsShardPath (path : String) (i : Nat) : Prop :=
  ∀ cwd, ∃ dir object, resolve cwd path = dir ++ [(chunkId object i).toList] ∧
    resolve cwd (path ++ ".meta") = dir ++ [(chunkId object i ++ ".meta").toList]

theorem isShardPath_chunkPath :
    IsShardPath (chunkPath (chunksDir dataDir bucket) (objectId bucket key) i) i :=
  fun _ => ⟨_, _, shardPlace_eq, sidecarPlace_eq⟩

theorem isShardPath_transferPath : IsShardPath (transferPath dataDir bucket key i) i :=
  fun _ => ⟨_, _, resolve_transferPath, transferPlace_eq (by decide)⟩

section Names

variable {dir dir' : List Name} {object object' : String} {j : Nat}

theorem shardName_inj :
    dir ++ [(chunkId object i).toList] = dir' ++ [(chunkId object' j).toList] ↔
    dir = dir' ∧ object = object' ∧ i = j := by
  rw [append_singleton_inj, String.toList_inj, chunkId_inj]

theorem sidecarName_inj :
    dir ++ [(chunkId object i ++ ".meta").toList] = dir' ++ [(chunkId object' j ++ ".meta").toList] ↔
    dir = dir' ∧ object = object' ∧ i = j := by
  rw [append_singleton_inj, String.toList_append, String.toList_append, List.append_left_inj,
    String.toList_inj, chunkId_inj]

theorem shardName_ne_sidecarName :
    dir ++ [(chunkId object i).toList] ≠ dir' ++ [(chunkId object' j ++ ".meta").toList] := by
  rw [ne_eq, append_singleton_inj, String.toList_inj]
  exact fun h => chunkId_ne_sidecar _ _ _ _ h.2

end Names

namespace Truthful

theorem of_isBlank {disk : Disk} (h : disk.IsBlank) : Truthful crates disk.files :=
  fun dir object i data _ hd => absurd hd (h.files dir object i data)

theorem of_files (h : Truthful crates fs)
    (hf : ∀ q data, fs₁.entry q = some (.file data) → fs.entry q = some (.file data)) :
    Truthful crates fs₁ :=
  fun dir object i data content hd hc => h dir object i data content (hf _ _ hd) (hf _ _ hc)

-- A shard and the file next to it are written one after the other. Where there is a directory in the
-- way of the latter, the shard is left without one.
theorem of_pair (h : Truthful crates fs) (hp : IsShardPath path i)
    (h₁ : (Files.write path data .none).run fs = (.ok (), fs₁)) :
    Truthful crates ((Files.write (path ++ ".meta") (sidecar i (crates.sha256 data) size)
      .none).run fs₁).2 := by
  obtain ⟨dir, object, hs, hm⟩ := hp fs.cwd
  rw [Files.write_none, Files.resolve, hs] at h₁
  split at h₁
  case isFalse => cases h₁
  case isTrue hw =>
    cases h₁
    have hne : dir ++ [(chunkId object i).toList] ≠ [] := by simp
    -- What is named otherwise is as before.
    have hkept {d x j dat content} (hn : ¬ (d = dir ∧ x = object ∧ j = i))
        (hd : fs.entry (d ++ [(chunkId x j).toList]) = some (.file dat))
        (hc : (fs.set (dir ++ [(chunkId object i).toList]) (.file data)).entry
          (d ++ [(chunkId x j ++ ".meta").toList]) = some (.file content)) :
        ∃ size, content = sidecar j (crates.sha256 dat) size := by
      rw [Files.entry_set_of_ne shardName_ne_sidecarName.symm] at hc
      exact h _ _ _ _ _ hd hc
    rw [Files.write_none, Files.resolve, Files.set_cwd, hm]
    intro d x j dat content hd hc
    by_cases hn : d = dir ∧ x = object ∧ j = i
    case neg =>
      have hn₁ := mt shardName_inj.mp hn
      have hn₂ := mt sidecarName_inj.mp hn
      split at hd
      case isTrue =>
        rw [if_pos ‹_›, Files.entry_set_of_ne hn₂] at hc
        rw [Files.entry_set_of_ne shardName_ne_sidecarName, Files.entry_set_of_ne hn₁] at hd
        exact hkept hn hd hc
      case isFalse =>
        rw [if_neg ‹_›] at hc
        rw [Files.entry_set_of_ne hn₁] at hd
        exact hkept hn hd hc
    case pos =>
      obtain ⟨rfl, rfl, rfl⟩ := hn
      split at hd
      case isTrue =>
        rw [if_pos ‹_›, Files.entry_set_self (by simp)] at hc
        rw [Files.entry_set_of_ne shardName_ne_sidecarName, Files.entry_set_self hne] at hd
        cases hd
        cases hc
        exact ⟨size, rfl⟩
      case isFalse hw' =>
        rw [if_neg hw'] at hc
        refine absurd ⟨?_, ?_⟩ hw'
        · rw [Files.leads_append (by decide)]
          exact (Files.extends_set_file (by rw [← hs]; exact hw.2)).leads hw.1
        · rw [Files.resolve, Files.set_cwd, hm, hc]
          simp

end Truthful

-- Nothing goes wrong on the disk, and the files next to the shards are right.
structure IsClean (crates : Crates) (w : World) : Prop where
  faults : w.faults = []
  files  : Truthful crates w.disk.files

def KeepsClean (crates : Crates) (w w' : World) : Prop :=
  IsClean crates w → IsClean crates w'

theorem Io.files_of_no_faults {op : Fault → Prog Files IoError Unit} (h : w.faults = []) :
    ((Io.files op).run w).2 =
    ⟨{ w.disk with files := ((op .none).run w.disk.files).2 }, []⟩ := by
  simp only [Io.files, Io.fault, h, List.headD_nil, List.tail_nil]
  split
  case h_1 hr => rw [hr]
  case h_2 hr => rw [hr]

theorem Io.files_ok_of_no_faults {op : Fault → Prog Files IoError Unit} (h : w.faults = [])
    (hr : (Io.files op).run w = (.ok (), w')) :
    (op .none).run w.disk.files = (.ok (), w'.disk.files) := by
  have := (Io.files_ok hr).1
  rwa [Io.fault, h] at this

namespace KeepsClean

theorem refl (w : World) : KeepsClean crates w w := id

theorem trans {w₁ w₂ w₃ : World} (h₁ : KeepsClean crates w₁ w₂) (h₂ : KeepsClean crates w₂ w₃) :
    KeepsClean crates w₁ w₃ :=
  h₂ ∘ h₁

theorem createChunksDir : (createChunksDir dataDir bucket).Keeps (KeepsClean crates) := by
  intro w h
  rw [All4One.Storage.createChunksDir, Io.files_of_no_faults h.faults]
  exact ⟨rfl, h.files.of_files fun _ _ => Files.file_of_createDirs⟩

theorem index {name : Bytes} {op : Sled.Db → Sled.Db} :
    (Io.index name op).Keeps (KeepsClean crates) := by
  intro w h
  rw [Io.index_of_no_faults h.faults]
  exact ⟨rfl, h.files⟩

theorem createBucket : (Index.createBucket bucket).Keeps (KeepsClean crates) := by
  rw [Index.createBucket]
  exact index

theorem indexObject {now : Nat → String} {etag : String} {policy : StoragePolicy} :
    (Index.putObject crates now bucket key etag size policy).Keeps (KeepsClean crates) := by
  rw [Index.putObject]
  exact index

theorem putIndex {now : Nat → String} {policy : StoragePolicy} :
    (putIndex crates now bucket key data policy).Keeps (KeepsClean crates) := by
  rw [All4One.Storage.putIndex]
  exact indexObject

-- A shard that can not be written is as it was.
theorem write_error {e : Failure} (h : IsClean crates w)
    (hr : (Io.files (Files.write path data)).run w = (.error e, w')) : w' = w := by
  obtain ⟨_, ho, hi⟩ := Io.files_error hr
  rw [Io.fault, h.faults, List.headD_nil] at ho
  have hf : w'.faults = w.faults := by rw [Io.files_faults hr, h.faults]; rfl
  have hw : w' = ⟨⟨w'.disk.files, w'.disk.index⟩, w'.faults⟩ := rfl
  rw [hw, Files.write_none_error ho, hi, hf]

-- A shard is followed by the file next to it.
theorem pair (size : Nat) (hp : IsShardPath path i) (h : IsClean crates w)
    (hr : (Io.files (Files.write path data)).run w = (.ok (), w')) :
    IsClean crates ((Io.files (Files.write (path ++ ".meta")
      (sidecar i (crates.sha256 data) size))).run w').2 := by
  have hf : w'.faults = [] := by rw [Io.files_faults hr, h.faults]; rfl
  rw [Io.files_of_no_faults hf]
  exact ⟨rfl, h.files.of_pair hp (Io.files_ok_of_no_faults h.faults hr)⟩

theorem writeShard : (writeShard crates (chunksDir dataDir bucket) (objectId bucket key) size i
    data).Keeps (KeepsClean crates) := by
  intro w h
  rw [All4One.Storage.writeShard]
  rcases hr : (Io.files (Files.write (chunkPath (chunksDir dataDir bucket) (objectId bucket key) i)
    data)).run w with ⟨_ | _, w₁⟩
  case error => rw [Prog.bind_of_error hr, write_error h hr]; exact h
  case ok    => rw [Prog.bind_of_ok hr]; exact pair size isShardPath_chunkPath h hr

theorem putObject {now : Nat → String} {policy : StoragePolicy} :
    (putObject crates now dataDir bucket key data policy).Keeps (KeepsClean crates) := by
  rw [putObject_eq]
  refine .bind (fun _ _ _ => trans) createChunksDir fun _ => ?_
  refine .bind (fun _ _ _ => trans) (.ofExcept refl _) fun _ => ?_
  refine .bind (fun _ _ _ => trans) (.ofExcept refl _) fun _ => ?_
  refine .bind (fun _ _ _ => trans)
    (.forEach refl (fun _ _ _ => trans) fun _ _ => writeShard) fun _ => ?_
  exact .bind (fun _ _ _ => trans) putIndex fun _ => .pure refl

theorem transferChunk {payload : TransferChunkRequest} {now : Nat → String}
    (hh : role → payload.hash = crates.sha256 payload.data) :
    (transferChunk crates text now role dataDir payload).Keeps (KeepsClean crates) := by
  intro w h
  cases role
  case false => exact h
  case true =>
    simp only [All4One.Storage.transferChunk, Bool.not_true, Bool.false_eq_true, ↓reduceIte]
    have h₁ := (createChunksDir : Prog.Keeps _ (All4One.Storage.createChunksDir dataDir payload.bucket)) w h
    rw [All4One.Storage.createChunksDir] at h₁
    have hp : IsShardPath (chunkPath (chunksDir dataDir payload.bucket)
        (safeObjectId payload.bucket payload.key) payload.shardIndex) payload.shardIndex :=
      isShardPath_transferPath
    generalize chunkPath (chunksDir dataDir payload.bucket)
      (safeObjectId payload.bucket payload.key) payload.shardIndex = path at hp
    rw [Prog.attempt_bind]
    generalize (Io.files (Files.createDirAll (chunksDir dataDir payload.bucket))).run w = r at h₁
    obtain ⟨_ | _, w₁⟩ := r
    case error => exact h₁
    case ok =>
      simp only
      rw [Prog.attempt_bind, hh rfl]
      rcases hs : (Io.files (Files.write path payload.data)).run w₁ with ⟨_ | _, w₂⟩
      case error => exact write_error h₁ hs ▸ h₁
      case ok =>
        have h₂ := pair payload.objectSize.toNat hp h₁ hs
        simp only
        rw [Prog.attempt_bind, Prog.attempt_bind, Prog.attempt_bind]
        exact indexObject _ (createBucket _ h₂)

theorem deleteObject : (deleteObject bucket key).Keeps (KeepsClean crates) := by
  rw [All4One.Storage.deleteObject, Index.deleteObject]
  exact index

end KeepsClean

theorem IsClean.serve {r : Request} (h : IsClean crates w) (hh : r.IsHonest crates role) :
    IsClean crates (r.serve crates text role dataDir w) := by
  cases r
  case put      => exact KeepsClean.putObject _ h
  case delete   => exact KeepsClean.deleteObject _ h
  case transfer => exact KeepsClean.transferChunk hh _ h

theorem refuses_of_role {payload : TransferChunkRequest} :
    Refuses crates text false dataDir payload :=
  fun _ _ => ⟨_, rfl, rfl⟩

-- As long as transfers come with the hash of their data, the files next to the shards are right. A
-- transfer that comes with another one has been refused then.
theorem sidecars_truthful {disk₀ disk : Disk} {rs : List Request} (h₀ : disk₀.IsBlank)
    (hv : Transition.Visits (Requests.step crates text role dataDir) disk₀ rs disk)
    (hg : Transition.Guarded (Requests.step crates text role dataDir)
      (fun _ r => r.IsHonest crates role) disk₀ rs) :
    Truthful crates disk.files ∧
    ∀ payload now, .transfer payload now ∈ rs → payload.hash ≠ crates.sha256 payload.data →
      Refuses crates text role dataDir payload := by
  constructor
  case left =>
    refine hg.invariant (I := fun disk => Truthful crates disk.files) hv (.of_isBlank h₀)
      fun disk r disk' hd hh hs => ?_
    cases hs
    exact (IsClean.serve ⟨rfl, hd⟩ hh).files
  case right =>
    clear hv h₀
    intro payload now hm hne
    induction rs generalizing disk₀
    case nil => cases hm
    case cons r rs hi =>
      obtain ⟨hh, hg⟩ := hg _ rfl
      rcases List.mem_cons.mp hm with rfl | hm
      case inr => exact hi hg hm
      case inl =>
        cases role
        case false => exact refuses_of_role
        case true  => exact absurd (hh rfl) hne

-- A shard of one byte string under some hash.
def claimedShard (text hash : String) : TransferChunkRequest where
  bucket     := "b"
  key        := "k"
  shardIndex := 0
  data       := Bytes.ofString text
  hash       := hash
  policy     := "hot"
  objectSize := 5
  etag       := ""

theorem World.empty_isBlank : World.empty.disk.IsBlank where
  index _ _ := rfl
  files dir object i data h := by
    have hne : dir ++ [(chunkId object i).toList] ≠ [] := by simp
    rw [show World.empty.disk.files.entry (dir ++ [(chunkId object i).toList]) = none from
      if_neg hne] at h
    cases h

theorem Requests.exists_run (crates : Crates) (text : Failure → String) (role : Bool)
    (dataDir : String) (disk : Disk) (rs : List Request) : ∃ disk',
    Transition.run (Requests.step crates text role dataDir) disk rs = some disk' := by
  induction rs generalizing disk
  case nil => exact ⟨disk, rfl⟩
  case cons r rs hi =>
    obtain ⟨disk', h⟩ := hi (r.serve crates text role dataDir ⟨disk, []⟩).disk
    exact ⟨disk', Transition.run_of_step rfl h⟩

-- The shards of a put, and one of them taken over by a transfer.
theorem sidecars_truthful_transfer : ∃ disk,
    Transition.run (Requests.step .reference (fun _ => "") true "/d") World.empty.disk
      [.put "b" "k" (Bytes.ofString "hello") .warm fun _ => "2026-01-01T00:00:00+00:00",
        .transfer (claimedShard "world" (Sha256.hex (Bytes.ofString "world")))
          fun _ => "2026-01-01T00:00:00+00:00"] = some disk ∧
    Truthful .reference disk.files := by
  obtain ⟨disk, h⟩ := Requests.exists_run .reference (fun _ => "") true "/d" World.empty.disk
    [.put "b" "k" (Bytes.ofString "hello") .warm fun _ => "2026-01-01T00:00:00+00:00",
      .transfer (claimedShard "world" (Sha256.hex (Bytes.ofString "world")))
        fun _ => "2026-01-01T00:00:00+00:00"]
  refine ⟨disk, h, (sidecars_truthful World.empty_isBlank (.last h) (.of_forall fun _ r hr => ?_)).1⟩
  rcases List.mem_pair.mp hr with rfl | rfl
  · trivial
  · exact fun _ => rfl

-- A shard is accepted under an empty hash.
theorem sidecars_lie :
    ∃ w, (claimedShard "hello" "").hash ≠ Sha256.hex (claimedShard "hello" "").data ∧
      (transferChunk .reference (fun _ => "") (fun _ => "2026-01-01T00:00:00+00:00") true "/d"
        (claimedShard "hello" "")).run .empty = (.ok ⟨true, ""⟩, w) ∧
      ¬ Truthful .reference w.disk.files := by
  have hr : ((transferChunk .reference (fun _ => "") (fun _ => "2026-01-01T00:00:00+00:00") true "/d"
      (claimedShard "hello" "")).run .empty).1 = .ok ⟨true, ""⟩ := by
    decide +kernel
  have hs : ((transferChunk .reference (fun _ => "") (fun _ => "2026-01-01T00:00:00+00:00") true "/d"
      (claimedShard "hello" "")).run .empty).2.disk.files.entry
      (["d".toList, "chunks".toList, "b".toList] ++ [(chunkId "b-k" 0).toList]) =
      some (.file (Bytes.ofString "hello")) := by
    decide +kernel
  have hm : ((transferChunk .reference (fun _ => "") (fun _ => "2026-01-01T00:00:00+00:00") true "/d"
      (claimedShard "hello" "")).run .empty).2.disk.files.entry
      (["d".toList, "chunks".toList, "b".toList] ++ [(chunkId "b-k" 0 ++ ".meta").toList]) =
      some (.file (sidecar 0 "" 5)) := by
    decide +kernel
  have hh : (Sha256.hex (Bytes.ofString "hello")).toList.head? = some '2' := by
    decide +kernel
  obtain ⟨w, hr⟩ := Prog.exists_of_fst hr
  rw [hr] at hs hm
  refine ⟨w, ?_, hr, fun ht => ?_⟩
  · intro he
    have he : "" = Sha256.hex (Bytes.ofString "hello") := he
    rw [← he] at hh
    cases hh
  · obtain ⟨size, hc⟩ := ht _ _ _ _ _ hs hm
    have hc : sidecar 0 "" 5 = sidecar 0 (Sha256.hex (Bytes.ofString "hello")) size := hc
    rw [sidecar, sidecar, Bytes.ofString_inj, ← String.toList_inj] at hc
    generalize Sha256.hex (Bytes.ofString "hello") = hash at hc hh
    obtain ⟨cs, hcs⟩ := List.head?_eq_some_iff.mp hh
    simp [hcs, toString] at hc

end All4One.Storage
