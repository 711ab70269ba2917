import All4One.Foundation.Refinement
import All4One.Storage.Theorems.Download
import All4One.Storage.Theorems.Listing
import All4One.Storage.Theorems.Tidy

open Foundation Path

namespace All4One.Storage

section Caught

variable {α β : Type} {x : Io α} {f : Except Failure α → Io β} {w w' : World} {a : α} {e : Failure}
  {crates : Crates} {name : Bytes} {op : Sled.Db → Sled.Db}

theorem caught_bind_of_ok (h : x.run w = (.ok a, w')) :
    (ApiRest.caught x >>= f).run w = (f (.ok a)).run w' :=
  Prog.bind_of_ok (by rw [Download.caught_run, h])

-- The handler goes on after an error, unless it is a panic.
theorem caught_bind_of_error (h : x.run w = (.error e, w')) : (ApiRest.caught x >>= f).run w =
    if e = .panic then (.error .panic, w') else (f (.error e)).run w' := by
  split
  case isTrue he => exact Prog.bind_of_error (by rw [Download.caught_run, h, he])
  case isFalse he =>
    refine Prog.bind_of_ok (a := Except.error e) ?_
    rw [Download.caught_run, h]
    cases e <;> first | rfl | exact absurd rfl he

theorem index_troubled (h : (Io.index name op).run w = (.error e, w')) : Troubled w.faults := by
  by_contra ht
  simp only [Io.index, (fault_of_not_troubled ht).1] at h
  cases h

theorem index_faults : ((Io.index name op).run w).2.faults = w.faults.tail := by
  simp only [Io.index]
  split <;> rfl

theorem isFailure_error {status : Nat} {error : String} : IsFailure (some (.error status error)) := by
  rintro r hr
  cases hr
  exact ⟨status, error, rfl⟩

end Caught

namespace Disk

-- Two disks have the same files, and the same in the trees of the index.
def Same (disk disk' : Disk) : Prop :=
  disk'.files = disk.files ∧ ∀ name key, disk'.index.get name key = disk.index.get name key

theorem Same.refl (disk : Disk) : disk.Same disk :=
  ⟨rfl, fun _ _ => rfl⟩

theorem Same.trans {disk₁ disk₂ disk₃ : Disk} (h₁ : disk₁.Same disk₂) (h₂ : disk₂.Same disk₃) :
    disk₁.Same disk₃ :=
  ⟨h₂.1.trans h₁.1, fun name key => (h₂.2 name key).trans (h₁.2 name key)⟩

end Disk

section Same

variable {crates : Crates} {text : Failure → String} {dataDir bucket key : String} {w w' : World}
  {keyPrefix : Option String} {maxKeys : Option Nat} {e : Failure} {name : Bytes}

def KeepsSame (w w' : World) : Prop :=
  w.disk.Same w'.disk

theorem keepsSame_trans (w₁ w₂ w₃ : World) (h₁ : KeepsSame w₁ w₂) (h₂ : KeepsSame w₂ w₃) :
    KeepsSame w₁ w₃ :=
  h₁.trans h₂

theorem createBucket_keepsSame : (Index.createBucket bucket).Keeps KeepsSame := by
  intro w
  simp only [Index.createBucket, Io.index]
  split
  case h_1 => exact ⟨rfl, fun _ _ => Sled.Db.get_openTree⟩
  case h_2 => exact .refl _
  case h_3 => exact ⟨rfl, fun _ _ => Sled.Db.get_openTree⟩

theorem same_of_index_error {op : Sled.Db → Sled.Db} (h : (Io.index name op).run w = (.error e, w')) :
    w.disk.Same w'.disk := by
  refine ⟨(Io.index_opened h).1, fun _ _ => ?_⟩
  rcases (Io.index_opened h).2 with hi | hi
  · rw [hi]
  · rw [hi, Sled.Db.get_openTree]

theorem listObjects_keepsSame : (Index.listObjects crates bucket keyPrefix maxKeys).Keeps KeepsSame :=
  fun _ => ⟨rfl, fun _ _ => Sled.Db.get_openTree⟩

theorem lookup_keepsSame : (Index.getObject crates bucket key).Keeps KeepsSame :=
  fun _ => ⟨rfl, fun _ _ => Sled.Db.get_openTree⟩

theorem getObject_keepsSame : (getObject crates dataDir bucket key).Keeps KeepsSame :=
  .bind keepsSame_trans lookup_keepsSame fun _ => .reads (fun w => .refl w.disk) _

theorem caught_keepsSame {α : Type} {x : Io α} (h : x.Keeps KeepsSame) :
    (ApiRest.caught x).Keeps KeepsSame := by
  intro w
  rw [Download.caught_run]
  split <;> exact h w

theorem getObjectHandler_keepsSame :
    (ApiRest.getObjectHandler crates text true dataDir bucket key).Keeps KeepsSame := by
  have refl (w : World) : KeepsSame w w := .refl w.disk
  refine .bind keepsSame_trans (caught_keepsSame getObject_keepsSame) fun r => ?_
  cases r
  case error => exact .pure refl
  case ok    => exact .bind keepsSame_trans lookup_keepsSame.attempt fun _ => .ofExcept refl _

end Same

section Indexed

variable {crates : Crates} {bucket key : String} {keyPrefix : Option String} {db : Sled.Db}
  {objects : List ObjectMetadata} {now : Nat → String} {dataDir : String} {body : Bytes}
  {policy : StoragePolicy}

theorem IsIndexed.putObject {w w' : World} {r : Except Failure ObjectMetadata}
    (h : IsIndexed crates w.disk.index)
    (hp : (putObject crates now dataDir bucket key body policy).run w = (r, w')) :
    IsIndexed crates w'.disk.index := by
  have hs : (Request.put bucket key body policy now).serve crates (fun _ => "") true dataDir w = w' :=
    congrArg Prod.snd hp
  exact hs ▸ h.serve

end Indexed

-- The objects of a store are the entries of the index, and a whole object can be read.
structure StandsFor (crates : Crates) (dataDir : String) (names : Set (String × String)) (disk : Disk)
    (store : Store) : Prop where
  tidy    : Tidy dataDir disk.files
  sound   : disk.IsSound crates dataDir
  indexed : IsIndexed crates disk.index
  entry   : ∀ b k, Index.entry disk.index b k =
    (store.lookup (b, k)).map fun o => crates.json.toVec o.metadata
  named   : ∀ b k o, store.lookup (b, k) = some o → (b, k) ∈ names ∧
    o.metadata.bucket = b ∧ o.metadata.key = k ∧ o.metadata.etag = crates.sha256 o.body
  whole   : ∀ b k o, store.lookup (b, k) = some o → o.whole →
    getResult crates dataDir b k ⟨disk, []⟩ = .ok o.body

namespace StandsFor

variable {crates : Crates} {text : Failure → String} {dataDir bucket key : String}
  {names : Set (String × String)} {disk disk' : Disk} {store : Store} {w w' : World} {o : Object}
  {faults : List Fault}

theorem start (h : disk.IsNew dataDir) : StandsFor crates dataDir names disk ∅ where
  tidy         := h.tidy
  sound        := .of_isFresh fun _ _ => h.index _ _
  indexed b k v hv := by rw [h.index] at hv; cases hv
  entry b k    := by rw [Finmap.lookup_empty]; exact h.index b _
  named b k o ho := by rw [Finmap.lookup_empty] at ho; cases ho
  whole b k o ho := by rw [Finmap.lookup_empty] at ho; cases ho

theorem same (h : StandsFor crates dataDir names disk store) (hs : disk.Same disk') :
    StandsFor crates dataDir names disk' store := by
  have hx (b k : String) : Index.entry disk'.index b k = Index.entry disk.index b k := hs.2 _ _
  have he : Files.Extends disk.files disk'.files := hs.1 ▸ .refl _
  constructor
  case tidy    => rw [hs.1]; exact h.tidy
  case sound   => exact h.sound.of_extends he fun b k v hv => by rwa [hx] at hv
  case indexed => exact fun b k v hv => h.indexed b k v (hs.2 _ _ ▸ hv)
  case entry   => exact fun b k => (hx b k).trans (h.entry b k)
  case named   => exact h.named
  case whole =>
    intro b k o ho hw
    have hg : getResult crates dataDir b k ⟨disk', []⟩ = getResult crates dataDir b k ⟨disk, []⟩ :=
      getResult_congr h.sound he (hx b k) fun _ _ _ _ _ hi => by rw [hs.1]; exact hi
    rw [hg, h.whole b k o ho hw]

section Apart

variable {cwd : List Name} {b k b' k' : String}

-- Objects that are apart have files of their own.
theorem not_sameFiles (h : Apart names) (hn : (b, k) ∈ names) (hn' : (b', k') ∈ names)
    (hne : (b, k) ≠ (b', k')) : ¬ SameFiles cwd dataDir b k b' k' := by
  rintro ⟨hd, ho⟩
  rw [dirPlace_of_isName (h.plain _ hn), dirPlace_of_isName (h.plain _ hn'), append_singleton_inj,
    String.toList_inj] at hd
  obtain ⟨-, rfl⟩ := hd
  rw [objectId, objectId, slashToDash_append, slashToDash_append (b ++ "-"), ← String.toList_inj,
    String.toList_append, String.toList_append, List.append_cancel_left_eq, String.toList_inj] at ho
  exact hne (Prod.ext rfl (h.keys _ hn _ hn' rfl ho))

end Apart

section List

variable {keyPrefix : Option String} {m : ObjectMetadata}

theorem has_iff (h : StandsFor crates dataDir names disk store) :
    Index.entry disk.index bucket m.key = some (crates.json.toVec m) ↔ store.Has bucket m := by
  rw [h.entry, Option.map_eq_some_iff]
  constructor
  case mp =>
    rintro ⟨o, ho, hv⟩
    exact ⟨m.key, o, ho, crates.json.toVec_injective hv⟩
  case mpr =>
    rintro ⟨k, o, ho, rfl⟩
    exact ⟨o, (h.named _ _ _ ho).2.2.1 ▸ ho, rfl⟩

theorem listObjects (h : StandsFor crates dataDir names disk store) (bucket : String)
    (keyPrefix : Option String) (maxKeys : Option Nat) (faults : List Fault) :
    ∃ objects, IsListing (store.Has bucket) keyPrefix objects ∧
      ((Index.listObjects crates bucket keyPrefix maxKeys).run ⟨disk, faults⟩).1 =
        .ok (objects.take (maxKeys.getD 1000)) :=
  ⟨_, h.indexed.isListing (fun _ => h.has_iff) keyPrefix, h.indexed.listResult⟩

end List

section Put

variable {now : Nat → String} {body : Bytes} {policy : StoragePolicy} {metadata : ObjectMetadata}
  {e : Failure} {b k : String}

-- A put leaves every object alone that it is not a put of.
theorem getResult_of_put {r : Except Failure ObjectMetadata}
    (h : StandsFor crates dataDir names w.disk store) (ha : Apart names) (hn : (bucket, key) ∈ names)
    (hp : (putObject crates now dataDir bucket key body policy).run w = (r, w'))
    (ho : store.lookup (b, k) = some o) (hne : (b, k) ≠ (bucket, key)) :
    getResult crates dataDir b k ⟨w'.disk, []⟩ = getResult crates dataDir b k ⟨w.disk, []⟩ := by
  have hov := putObject_overwrites hp
  have hx : Index.entry w'.disk.index b k = Index.entry w.disk.index b k := by
    cases r
    case error => exact putObject_entry_of_error hp
    case ok    => rw [putObject_entry hp, if_neg (by rwa [← Prod.mk.injEq])]
  have hf : ¬ SameFiles w.disk.files.cwd dataDir b k bucket key :=
    not_sameFiles ha (h.named b k o ho).1 hn hne
  exact getResult_congr h.sound hov.files hx
    fun _ _ i _ _ => hov.other _ _ fun j =>
      ⟨fun he => hf (shardPlace_inj.mp he).1, shardPlace_ne_sidecarPlace⟩

theorem put (h : StandsFor crates dataDir names w.disk store) (ha : Apart names)
    (hn : (bucket, key) ∈ names)
    (hp : (putObject crates now dataDir bucket key body policy).run w = (.ok metadata, w')) :
    StandsFor crates dataDir names w'.disk (store.put
      (Index.metadata now bucket key (crates.sha256 body) body.length policy) body) where
  tidy    := (putObject_keepsTidy (ha.plain _ hn)).of_eq hp h.tidy
  sound   := h.sound.putObject hp
  indexed := h.indexed.putObject hp
  entry b k := by
    rw [putObject_entry hp, Store.lookup_put, h.entry]
    change _ = Option.map _ (if b = bucket ∧ k = key then _ else _)
    split <;> rfl
  named b k o ho := by
    rw [Store.lookup_put] at ho
    split at ho
    case isTrue hbk  => cases ho; obtain ⟨rfl, rfl⟩ := hbk; exact ⟨hn, rfl, rfl, rfl⟩
    case isFalse     => exact h.named b k o ho
  whole b k o ho hw := by
    rw [Store.lookup_put] at ho
    split at ho
    case isTrue hbk =>
      cases ho
      obtain ⟨rfl, rfl⟩ := hbk
      exact getResult_faults.trans (getResult_self hp)
    case isFalse hne => rw [h.getResult_of_put ha hn hp ho (by rwa [ne_eq, Prod.mk.injEq]), h.whole b k o ho hw]

theorem spoil (h : StandsFor crates dataDir names w.disk store) (ha : Apart names)
    (hn : (bucket, key) ∈ names)
    (hp : (putObject crates now dataDir bucket key body policy).run w = (.error e, w')) :
    StandsFor crates dataDir names w'.disk (store.spoil bucket key) where
  tidy    := (putObject_keepsTidy (ha.plain _ hn)).of_eq hp h.tidy
  sound   := h.sound.putObject hp
  indexed := h.indexed.putObject hp
  entry b k := by
    rw [putObject_entry_of_error hp, h.entry, Store.lookup_spoil]
    split
    case isTrue  => rw [Option.map_map]; rfl
    case isFalse => rfl
  named b k o ho := by
    rw [Store.lookup_spoil] at ho
    split at ho
    case isFalse => exact h.named b k o ho
    case isTrue =>
      obtain ⟨o', ho', rfl⟩ := Option.map_eq_some_iff.mp ho
      exact h.named _ _ o' ho'
  whole b k o ho hw := by
    rw [Store.lookup_spoil] at ho
    split at ho
    case isFalse hne =>
      rw [h.getResult_of_put ha hn hp ho (by rwa [ne_eq, Prod.mk.injEq]), h.whole b k o ho hw]
    case isTrue =>
      obtain ⟨o', -, rfl⟩ := Option.map_eq_some_iff.mp ho
      cases hw

-- A body that does not fit is refused, and nothing else changes.
theorem refuse (h : StandsFor crates dataDir names w.disk store) (hb : IsName bucket.toList)
    (hf : ¬ Fits crates body policy)
    (hp : (putObject crates now dataDir bucket key body policy).run w = (.error e, w')) :
    StandsFor crates dataDir names w'.disk store := by
  have hg : Files.Grows w.disk.files w'.disk.files ∧ w'.disk.index = w.disk.index := by
    cases PutChunks.of_run hp
    case notCreated hc         => exact createChunksDir_keeps.of_eq hc
    case notEncoded _ hc       => exact createChunksDir_keeps.of_eq hc
    case notWritten henc _ _   => exact absurd (fits_iff.mpr ⟨_, henc⟩) hf
    case notIndexed henc _ _ _ => exact absurd (fits_iff.mpr ⟨_, henc⟩) hf
  constructor
  case tidy    => exact (putObject_keepsTidy hb).of_eq hp h.tidy
  case sound   => exact h.sound.putObject hp
  case indexed => rw [hg.2]; exact h.indexed
  case entry   => rw [hg.2]; exact h.entry
  case named   => exact h.named
  case whole =>
    intro b k o ho hw
    have hx : Index.entry w'.disk.index b k = Index.entry w.disk.index b k := by rw [hg.2]
    have hr : getResult crates dataDir b k ⟨w'.disk, []⟩ = getResult crates dataDir b k ⟨w.disk, []⟩ :=
      getResult_congr h.sound hg.1.toExtends hx fun _ _ i _ _ hi => hg.1.entry _ _ hi
    rw [hr, h.whole b k o ho hw]

end Put

theorem delete (h : StandsFor crates dataDir names w.disk store)
    (hd : (deleteObject bucket key).run w = (.ok (), w')) :
    StandsFor crates dataDir names w'.disk (store.delete bucket key) := by
  have hf := deleteObject_files hd
  have he : Files.Extends w.disk.files w'.disk.files := hf ▸ .refl _
  have hl {b k : String} {o : Object} (ho : (store.delete bucket key).lookup (b, k) = some o) :
      ¬ (b = bucket ∧ k = key) ∧ store.lookup (b, k) = some o := by
    rw [Store.lookup_delete] at ho
    split at ho
    case isTrue      => cases ho
    case isFalse hne => exact ⟨hne, ho⟩
  constructor
  case tidy  => rw [hf]; exact h.tidy
  case sound => exact h.sound.deleteObject hd
  case indexed =>
    rw [deleteObject, Index.deleteObject] at hd
    rw [Io.index_ok hd]
    exact h.indexed.openTree.remove
  case entry =>
    intro b k
    rw [deleteObject_entry hd, Store.lookup_delete, h.entry]
    split <;> rfl
  case named => exact fun b k o ho => h.named b k o (hl ho).2
  case whole =>
    intro b k o ho hw
    obtain ⟨hne, ho⟩ := hl ho
    rw [← h.whole b k o ho hw]
    refine getResult_congr h.sound he ?_
      fun _ _ _ _ _ hi => by rw [hf]; exact hi
    rw [deleteObject_entry hd, if_neg hne]

end StandsFor

end All4One.Storage
