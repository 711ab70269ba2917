import All4One.Storage.Theorems.RoundTrip
import All4One.Storage.Transfer

open Foundation Path

namespace All4One.Storage

variable {crates : Crates} {text : Failure → String} {now : Nat → String} {role : Bool}
  {dataDir bucket key : String} {payload : TransferChunkRequest} {w w' : World}

theorem slashToDash_append (s t : String) : slashToDash (s ++ t) = slashToDash s ++ slashToDash t := by
  simp [slashToDash]

theorem slashToDash_eq_self {s : String} (h : '/' ∉ s.toList) : slashToDash s = s := by
  have (c : Char) (hc : c ∈ s.toList) : (if c = '/' then '-' else c) = c := by
    rw [if_neg]
    rintro rfl
    exact h hc
  rw [slashToDash, List.map_congr_left this, List.map_id', String.ofList_toList]

-- Without a slash in the bucket the two ways to name an object agree.
theorem safeObjectId_eq (h : '/' ∉ bucket.toList) : safeObjectId bucket key = objectId bucket key := by
  have hd : slashToDash "-" = "-" := slashToDash_eq_self (by decide)
  rw [safeObjectId, objectId, slashToDash_append, slashToDash_append, slashToDash_eq_self h, hd]

theorem policyOfText_text (policy : StoragePolicy) : policyOfText policy.text = policy := by
  rw [policy.text_eq_display]
  cases policy <;> rfl

theorem totalShards_text (policy : StoragePolicy) :
    totalShards policy.text = policy.dataShards + policy.parityShards := by
  rw [policy.text_eq_display]
  cases policy <;> rfl

namespace Io

theorem index_of_no_faults {name : Bytes} {op : Sled.Db → Sled.Db} (h : w.faults = []) :
    (index name op).run w = (.ok (), ⟨{ w.disk with index := op (w.disk.index.openTree name) }, []⟩) := by
  simp [index, fault, h]

end Io

section Accepted

variable (dataDir bucket key : String) (i : Nat)

-- Where a transfer writes a shard, and the file next to it.
def transferPath : String :=
  chunkPath (chunksDir dataDir bucket) (safeObjectId bucket key) i

def writeTransferred (data : Bytes) : Io Unit :=
  Io.files (Files.write (transferPath dataDir bucket key i) data)

def writeSidecar (hash : String) (size : Nat) : Io Unit :=
  Io.files (Files.write (transferPath dataDir bucket key i ++ ".meta") (sidecar i hash size))

end Accepted

-- The steps of a transfer that is accepted. The last three may fail unnoticed.
theorem transferChunk_accepted {r : TransferChunkResponse}
    (h : (transferChunk crates text now role dataDir payload).run w = (.ok r, w'))
    (ha : r.accepted = true) :
    ∃ w₁ w₂ w₃ w₄ r₃ r₄ r₅, (createChunksDir dataDir payload.bucket).run w = (.ok (), w₁) ∧
      (writeTransferred dataDir payload.bucket payload.key payload.shardIndex payload.data).run w₁ =
        (.ok (), w₂) ∧
      (writeSidecar dataDir payload.bucket payload.key payload.shardIndex payload.hash
        payload.objectSize.toNat).run w₂ = (r₃, w₃) ∧
      (Index.createBucket payload.bucket).run w₃ = (r₄, w₄) ∧
      (Index.putObject crates now payload.bucket payload.key payload.etag payload.objectSize.toNat
        (policyOfText payload.policy)).run w₄ = (r₅, w') := by
  cases role
  case false =>
    cases h
    cases ha
  case true =>
    simp only [createChunksDir, writeTransferred, writeSidecar, transferPath]
    simp only [transferChunk, Bool.not_true, Bool.false_eq_true, ↓reduceIte] at h
    rw [Prog.attempt_bind] at h
    rcases hc : (Io.files (Files.createDirAll (chunksDir dataDir payload.bucket))).run w with
      ⟨_ | _, w₁⟩
    all_goals simp only [hc] at h
    case error =>
      cases h
      cases ha
    case ok =>
      rw [Prog.attempt_bind] at h
      rcases hs : (Io.files (Files.write (chunkPath (chunksDir dataDir payload.bucket)
        (safeObjectId payload.bucket payload.key) payload.shardIndex) payload.data)).run w₁ with
        ⟨_ | _, w₂⟩
      all_goals simp only [hs] at h
      case error =>
        cases h
        cases ha
      case ok =>
        rw [Prog.attempt_bind, Prog.attempt_bind, Prog.attempt_bind, Prog.pure_run,
          Prod.mk.injEq] at h
        rcases hm : (Io.files (Files.write (chunkPath (chunksDir dataDir payload.bucket)
          (safeObjectId payload.bucket payload.key) payload.shardIndex ++ ".meta")
          (sidecar payload.shardIndex payload.hash payload.objectSize.toNat))).run w₂ with ⟨r₃, w₃⟩
        rcases hi : (Index.createBucket payload.bucket).run w₃ with ⟨r₄, w₄⟩
        simp only [hm, hi] at h
        have ⟨r₅, hp⟩ := Prog.exists_of_snd h.2
        exact ⟨w₁, w₂, w₃, w₄, r₃, r₄, r₅, rfl, hs, hm, hi, hp⟩

-- What a transfer without failures leaves behind.
structure Received (crates : Crates) (now : Nat → String) (dataDir : String)
    (payload : TransferChunkRequest) (disk disk' : Disk) : Prop where
  dir   : HasDir dataDir payload.bucket disk'.files
  files : Files.Extends disk.files disk'.files
  shard : disk'.files.entry (shardPlace disk.files.cwd dataDir payload.bucket payload.key
    payload.shardIndex) = some (.file payload.data)
  other : ∀ i ≠ payload.shardIndex, ∀ data,
    disk.files.entry (shardPlace disk.files.cwd dataDir payload.bucket payload.key i) =
      some (.file data) →
    disk'.files.entry (shardPlace disk.files.cwd dataDir payload.bucket payload.key i) =
      some (.file data)
  index : Index.entry disk'.index payload.bucket payload.key = some (crates.json.toVec
    (Index.metadata now payload.bucket payload.key payload.etag payload.objectSize.toNat
      (policyOfText payload.policy)))

section Received

variable {w₁ w₂ w₃ w₄ : World} {r₃ r₄ r₅ : Except Failure Unit} {hash etag : String} {size i : Nat}
  {data : Bytes} {policy : StoragePolicy}

theorem createChunksDir_faults (h : (createChunksDir dataDir bucket).run w = (r₃, w')) :
    w'.faults = w.faults.tail := by
  rw [createChunksDir] at h
  exact Io.files_faults h

theorem writeTransferred_ok (hb : '/' ∉ bucket.toList)
    (h : (writeTransferred dataDir bucket key i data).run w = (.ok (), w')) :
    Files.Extends w.disk.files w'.disk.files ∧
    w'.disk.files.entry (shardPlace w.disk.files.cwd dataDir bucket key i) = some (.file data) ∧
    (∀ q, q ≠ shardPlace w.disk.files.cwd dataDir bucket key i →
      w'.disk.files.entry q = w.disk.files.entry q) ∧ w'.faults = w.faults.tail := by
  rw [writeTransferred, transferPath, safeObjectId_eq hb] at h
  have ⟨⟨he, ho⟩, _⟩ := (Io.files_write_keeps _ _).of_eq h
  exact ⟨he, Files.write_ok (Io.files_ok h).1, ho, Io.files_faults h⟩

-- A sidecar is never in the way of a shard.
theorem writeSidecar_keeps (hb : '/' ∉ bucket.toList)
    (h : (writeSidecar dataDir bucket key i hash size).run w = (r₃, w')) :
    Files.Extends w.disk.files w'.disk.files ∧
    (∀ j, w'.disk.files.entry (shardPlace w.disk.files.cwd dataDir bucket key j) =
      w.disk.files.entry (shardPlace w.disk.files.cwd dataDir bucket key j)) ∧
    w'.faults = w.faults.tail := by
  rw [writeSidecar, transferPath, safeObjectId_eq hb] at h
  have ⟨⟨he, ho⟩, _⟩ := (Io.files_write_keeps _ _).of_eq h
  exact ⟨he, fun j => ho _ shardPlace_ne_sidecarPlace, Io.files_faults h⟩

-- Without failures the index gets its entry.
theorem index_of_no_faults (hf : w.faults = [])
    (hc : (Index.createBucket bucket).run w = (r₄, w₄))
    (hp : (Index.putObject crates now bucket key etag size policy).run w₄ = (r₅, w')) :
    w'.disk.files = w.disk.files ∧ w'.faults = [] ∧
    Index.entry w'.disk.index bucket key =
      some (crates.json.toVec (Index.metadata now bucket key etag size policy)) := by
  rw [Index.createBucket, Io.index_of_no_faults hf] at hc
  cases hc
  rw [Index.putObject, Io.index_of_no_faults rfl] at hp
  cases hp
  refine ⟨rfl, rfl, ?_⟩
  rw [Index.entry_insert, if_pos ⟨rfl, rfl⟩]

theorem Received.of_transferChunk {r : TransferChunkResponse} (hb : '/' ∉ payload.bucket.toList)
    (hf : w.faults = [])
    (h : (transferChunk crates text now role dataDir payload).run w = (.ok r, w'))
    (ha : r.accepted = true) :
    Received crates now dataDir payload w.disk w'.disk ∧ w'.faults = [] := by
  have ⟨w₁, w₂, w₃, w₄, r₃, r₄, r₅, hc, hs, hm, hi, hp⟩ := transferChunk_accepted h ha
  have hg := (createChunksDir_keeps.of_eq hc).1
  have ⟨he₂, hshard, ho₂, hf₂⟩ := writeTransferred_ok hb hs
  have ⟨he₃, ho₃, hf₃⟩ := writeSidecar_keeps hb hm
  have hf₃ : w₃.faults = [] := by
    simp [hf₃, hf₂, createChunksDir_faults hc, hf]
  have ⟨hfiles, hf', hx⟩ := index_of_no_faults hf₃ hi hp
  have hc₁ : w₁.disk.files.cwd = w.disk.files.cwd := hg.cwd
  have hc₂ : w₂.disk.files.cwd = w.disk.files.cwd := he₂.cwd.trans hc₁
  rw [hc₁] at hshard ho₂
  rw [hc₂] at ho₃
  refine ⟨?_, hf'⟩
  constructor
  case dir => exact hfiles ▸ (createChunksDir_ok hc).of_extends (he₂.trans he₃)
  case files => exact hfiles ▸ ((Files.Extends.of_grows hg).trans he₂).trans he₃
  case shard => rw [hfiles, ho₃, hshard]
  case other =>
    intro i hi data hd
    rw [hfiles, ho₃, ho₂ _ fun he => hi (shardPlace_inj.mp he).2]
    exact hg.entry _ _ hd
  case index => exact hx

end Received

end All4One.Storage
