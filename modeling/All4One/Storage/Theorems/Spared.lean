import All4One.Storage.Handlers
import All4One.Storage.Theorems.Sidecars

open Foundation Path

namespace All4One.Storage

-- A place that is not one of a shard or of a file next to a shard, wherever that may be.
def NoShard (q : List Name) : Prop :=
  ∀ dir object i, q ≠ dir ++ [(chunkId object i).toList] ∧
    q ≠ dir ++ [(chunkId object i ++ ".meta").toList]

def Spares (w w' : World) : Prop :=
  Files.Spares NoShard w.disk.files w'.disk.files

namespace Spares

variable {crates : Crates} {text : Failure → String} {now : Nat → String} {role : Bool}
  {dataDir bucket key path : String} {header : Option String} {body data : Bytes} {size i : Nat}
  {payload : TransferChunkRequest} {policy : StoragePolicy} {name : Bytes} {op : Sled.Db → Sled.Db}

theorem refl (w : World) : Spares w w :=
  Files.Spares.refl _

theorem trans (w₁ w₂ w₃ : World) (h₁ : Spares w₁ w₂) (h₂ : Spares w₂ w₃) : Spares w₁ w₃ :=
  Files.Spares.trans h₁ h₂

theorem files {op : Fault → Prog Files IoError Unit}
    (h : ∀ fault, (op fault).Keeps (Files.Spares NoShard)) : (Io.files op).Keeps Spares := by
  intro w
  have hw := h (Io.fault w) w.disk.files
  simp only [Spares, Io.files]
  split
  case h_1 hr => rwa [hr] at hw
  case h_2 hr => rwa [hr] at hw

theorem index : (Io.index name op).Keeps Spares := by
  intro w
  rw [Spares, Io.index_files]
  exact .refl _

theorem indexObject {etag : String} :
    (Index.putObject crates now bucket key etag size policy).Keeps Spares := by
  rw [Index.putObject]
  exact index

theorem write (hp : IsShardPath path i) : (Io.files (Files.write path data)).Keeps Spares :=
  files fun fault fs => Files.write_spares _ _ fun hn => by
    obtain ⟨dir, object, hs, -⟩ := hp fs.cwd
    exact (hn dir object i).1 hs

theorem writeSidecar (hp : IsShardPath path i) :
    (Io.files (Files.write (path ++ ".meta") data)).Keeps Spares :=
  files fun fault fs => Files.write_spares _ _ fun hn => by
    obtain ⟨dir, object, -, hs⟩ := hp fs.cwd
    exact (hn dir object i).2 hs

theorem createDir : (Io.files (Files.createDirAll path)).Keeps Spares :=
  files fun fault => Files.createDirAll_spares path fault

theorem putObject : (putObject crates now dataDir bucket key data policy).Keeps Spares := by
  rw [putObject_eq]
  refine .bind trans createDir fun _ => .bind trans (.ofExcept refl _) fun _ => ?_
  refine .bind trans (.ofExcept refl _) fun _ => ?_
  refine .bind trans (.forEach refl trans fun _ _ => ?_) fun _ =>
    .bind trans (by rw [putIndex]; exact indexObject) fun _ => .pure refl
  rw [writeShard]
  exact .bind trans (write isShardPath_chunkPath) fun _ => writeSidecar isShardPath_chunkPath

theorem caught {α : Type} {x : Io α} (h : x.Keeps Spares) : (ApiRest.caught x).Keeps Spares := by
  refine .bind trans (.attempt h) fun r => ?_
  split
  · exact .ofExcept refl _
  · exact .pure refl

theorem putObjectHandler : (ApiRest.putObjectHandler crates text now role dataDir bucket key header
    body).Keeps Spares := by
  cases role
  case false => exact .pure refl
  case true =>
    refine .bind trans (caught (.bind trans (.attempt index) fun _ => putObject)) fun r => ?_
    cases r
    case error => exact .pure refl
    case ok    => exact .pure refl

theorem deleteObjectHandler : (ApiRest.deleteObjectHandler text role bucket key).Keeps Spares := by
  cases role
  case false => exact .pure refl
  case true =>
    have hd : (deleteObject bucket key).Keeps Spares := by
      rw [deleteObject, Index.deleteObject]
      exact index
    refine .bind trans (caught hd) fun r => ?_
    cases r
    case error => exact .pure refl
    case ok    => exact .pure refl

theorem transferChunk : (transferChunk crates text now role dataDir payload).Keeps Spares := by
  cases role
  case false => exact .pure refl
  case true =>
    have hp : IsShardPath (chunkPath (chunksDir dataDir payload.bucket)
        (safeObjectId payload.bucket payload.key) payload.shardIndex) payload.shardIndex :=
      isShardPath_transferPath
    refine .bind trans (.attempt createDir) fun r => ?_
    cases r
    case error => exact .pure refl
    case ok =>
      refine .bind trans (.attempt (write hp)) fun r => ?_
      cases r
      case error => exact .pure refl
      case ok =>
        refine .bind trans (.attempt (writeSidecar hp)) fun _ => ?_
        exact .bind trans (.attempt index) fun _ => .bind trans (.attempt indexObject) fun _ => .pure refl

end Spares

end All4One.Storage
