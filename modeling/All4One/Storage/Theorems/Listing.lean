import All4One.Storage.Store
import All4One.Storage.Theorems.Deletion
import Mathlib.Data.Set.List

open Foundation

namespace All4One.Storage

namespace IsIndexed

variable {crates : Crates} {db : Sled.Db} {bucket : String}

-- What is found in a bucket are the metadata of objects, each under its key.
theorem exists_items (h : IsIndexed crates db) (bucket : String) : ∃ objects : List ObjectMetadata,
    bucketItems bucket db = objects.map fun m => (Bytes.ofString m.key, crates.json.toVec m) := by
  have hm : bucketItems bucket db ∈
      Set.range (List.map fun m : ObjectMetadata => (Bytes.ofString m.key, crates.json.toVec m)) := by
    rw [Set.range_list_map]
    intro item hi
    obtain ⟨m, hm, -⟩ := h.exists_of_mem hi
    exact ⟨m, hm.symm⟩
  obtain ⟨objects, ho⟩ := hm
  exact ⟨objects, ho.symm⟩

-- The entries of a bucket that match are a listing of the objects that have one.
theorem isListing {held : ObjectMetadata → Prop} (h : IsIndexed crates db)
    (hheld : ∀ m, Index.entry db bucket m.key = some (crates.json.toVec m) ↔ held m)
    (keyPrefix : Option String) :
    IsListing held keyPrefix (matching crates keyPrefix (bucketItems bucket db)) := by
  obtain ⟨objects, ho⟩ := h.exists_items bucket
  have hp : (bucketItems bucket db).Pairwise fun b b' => b.1 < b'.1 := HashMap.pairwise_sorted
  have hf : (bucketItems bucket db).filterMap (crates.json.fromSlice ·.2) = objects := by
    rw [ho, List.filterMap_map]
    simp only [Function.comp_def, crates.json.fromSlice_toVec, List.filterMap_some]
  rw [ho, List.pairwise_map] at hp
  rw [matching, hf]
  constructor
  case ascending => exact hp.filter _
  case exact =>
    intro m
    have hi : (Bytes.ofString m.key, crates.json.toVec m) ∈
        objects.map (fun m => (Bytes.ofString m.key, crates.json.toVec m)) ↔ m ∈ objects :=
      List.mem_map_of_injective fun _ _ h => crates.json.toVec_injective (Prod.ext_iff.mp h).2
    have hm : (Bytes.ofString m.key, crates.json.toVec m) ∈ bucketItems bucket db ↔ held m := by
      rw [bucketItems, Sled.Db.mem_iter]
      exact hheld m
    rw [← hm, ho, hi, List.mem_filter, decide_eq_true_eq]

end IsIndexed

namespace Index

-- A write to the index.
inductive Write
  | put (now : Nat → String) (bucket key etag : String) (sizeBytes : Nat) (policy : StoragePolicy)
  | delete (bucket key : String)

namespace Write

def io (crates : Crates) : Write → Io Unit
  | put now bucket key etag sizeBytes policy =>
    putObject crates now bucket key etag sizeBytes policy
  | delete bucket key => deleteObject bucket key

-- What a write makes of an object.
def apply (bucket key : String) (o : Option ObjectMetadata) : Write → Option ObjectMetadata
  | put now b k etag sizeBytes policy =>
    if bucket = b ∧ key = k then some (metadata now b k etag sizeBytes policy) else o
  | delete b k => if bucket = b ∧ key = k then none else o

end Write

-- The object that the last put of it has made, unless it has been deleted since.
def lastPut (writes : List Write) (bucket key : String) : Option ObjectMetadata :=
  writes.foldl (Write.apply bucket key) none

-- The worlds that writes lead to, and those of the writes that have not failed.
inductive Reached (crates : Crates) (w₀ : World) : List Write → World → Prop
  | start : Reached crates w₀ [] w₀
  | done {writes w w'} {write : Write} :
    Reached crates w₀ writes w →
    (write.io crates).run w = (.ok (), w') →
    Reached crates w₀ (writes ++ [write]) w'
  | failed {writes w e w'} {write : Write} :
    Reached crates w₀ writes w →
    (write.io crates).run w = (.error e, w') →
    Reached crates w₀ writes w'

-- The index has an entry for each object, and no other.
structure Holds (crates : Crates) (writes : List Write) (db : Sled.Db) : Prop where
  indexed : IsIndexed crates db
  entry   : ∀ bucket key, entry db bucket key = (lastPut writes bucket key).map crates.json.toVec

variable {crates : Crates} {writes : List Write} {write : Write} {w₀ w w' : World} {db : Sled.Db}
  {bucket key name : String} {o : ObjectMetadata} {keyPrefix : Option String} {maxKeys : Option Nat}

theorem lastPut_concat : lastPut (writes ++ [write]) bucket key =
    write.apply bucket key (lastPut writes bucket key) := by
  rw [lastPut, List.foldl_append]
  rfl

theorem eq_of_lastPut (h : lastPut writes bucket key = some o) : o.bucket = bucket ∧ o.key = key := by
  induction writes using List.reverseRecOn
  case nil => cases h
  case append_singleton writes write hi =>
    rw [lastPut_concat] at h
    cases write
    case put =>
      simp only [Write.apply] at h
      split at h
      case isTrue hbk => cases h; exact ⟨hbk.1.symm, hbk.2.symm⟩
      case isFalse    => exact hi h
    case delete =>
      simp only [Write.apply] at h
      split at h
      case isTrue  => cases h
      case isFalse => exact hi h

namespace Holds

theorem init (h : db.trees = ∅) : Holds crates [] db where
  indexed b key value hv := by simp [Sled.Db.get, Sled.Db.tree, h] at hv
  entry _ _              := by simp [Index.entry, Sled.Db.get, Sled.Db.tree, h, lastPut]

theorem openTree {name : Bytes} (h : Holds crates writes db) : Holds crates writes (db.openTree name) where
  indexed      := h.indexed.openTree
  entry bucket key := entry_openTree.trans (h.entry bucket key)

theorem insert {now : Nat → String} {etag : String} {sizeBytes : Nat} {policy : StoragePolicy}
    (h : Holds crates writes db) :
    Holds crates (writes ++ [.put now bucket key etag sizeBytes policy])
      (db.insert (treeName bucket) (Bytes.ofString key)
        (crates.json.toVec (metadata now bucket key etag sizeBytes policy))) where
  indexed := h.indexed.insert rfl rfl
  entry b k := by
    rw [entry_insert, lastPut_concat, Write.apply, h.entry]
    split <;> rfl

theorem remove (h : Holds crates writes db) :
    Holds crates (writes ++ [.delete bucket key])
      (db.remove (treeName bucket) (Bytes.ofString key)) where
  indexed := h.indexed.remove
  entry b k := by
    rw [entry_remove, lastPut_concat, Write.apply, h.entry]
    split <;> rfl

theorem of_done (h : Holds crates writes w.disk.index) (hw : (write.io crates).run w = (.ok (), w')) :
    Holds crates (writes ++ [write]) w'.disk.index := by
  cases write
  all_goals
    simp only [Write.io, putObject, deleteObject] at hw
    rw [Io.index_ok hw]
  case put    => exact h.openTree.insert
  case delete => exact h.openTree.remove

theorem of_failed {e : Failure} (h : Holds crates writes w.disk.index)
    (hw : (write.io crates).run w = (.error e, w')) : Holds crates writes w'.disk.index := by
  cases write
  all_goals
    simp only [Write.io, putObject, deleteObject] at hw
    rcases (Io.index_opened hw).2 with hi | hi
    · rw [hi]; exact h
    · rw [hi]; exact h.openTree

theorem of_reached (h₀ : w₀.disk.index.trees = ∅) (h : Reached crates w₀ writes w) :
    Holds crates writes w.disk.index := by
  induction h
  case start           => exact .init h₀
  case done _ hw hi    => exact hi.of_done hw
  case failed _ hw hi  => exact hi.of_failed hw

end Holds

-- The bucket has an object with this metadata.
def Has (writes : List Write) (bucket : String) (m : ObjectMetadata) : Prop :=
  ∃ key, lastPut writes bucket key = some m

theorem Holds.has_iff (h : Holds crates writes db) :
    Index.entry db bucket o.key = some (crates.json.toVec o) ↔ Has writes bucket o := by
  rw [h.entry, Option.map_eq_some_iff]
  constructor
  case mp =>
    rintro ⟨o', ho', hv⟩
    exact ⟨o.key, crates.json.toVec_injective hv ▸ ho'⟩
  case mpr =>
    rintro ⟨key, hl⟩
    exact ⟨o, (eq_of_lastPut hl).2 ▸ hl, rfl⟩

-- A listing is the first of the objects that the last puts have made, whatever writes have failed.
theorem listObjects_exact (crates : Crates) (w₀ w : World) (writes : List Write) (bucket : String)
    (keyPrefix : Option String) (maxKeys : Option Nat) (h₀ : w₀.disk.index.trees = ∅)
    (h : Reached crates w₀ writes w) :
    ∃ objects, IsListing (Has writes bucket) keyPrefix objects ∧
      (listResult crates bucket keyPrefix maxKeys w.disk) =
        .ok (objects.take (maxKeys.getD 1000)) := by
  have hh : Holds crates writes w.disk.index := .of_reached h₀ h
  exact ⟨_, hh.indexed.isListing (fun _ => hh.has_iff) keyPrefix, hh.indexed.listResult⟩

-- One object of two is left, and the bucket is listed.
theorem listObjects_exact_sample :
    let writes : List Write := [
      .put (fun _ => "t") "b" "logs/a" "e₁" 1 .hot, .put (fun _ => "t") "b" "logs/b" "e₂" 2 .warm,
      .delete "b" "logs/a"]
    let write (w : World) (wr : Write) : World := ((wr.io .reference).run w).2
    ∃ objects, IsListing (Has writes "b") (some "logs/") objects ∧
      listResult .reference "b" (some "logs/") (some 2) (writes.foldl write .empty).disk =
        .ok (objects.take 2) := by
  intro writes write
  have h₀ : Reached .reference .empty [] .empty := .start
  have h : Reached .reference .empty writes (writes.foldl write .empty) :=
    ((h₀.done rfl).done rfl).done rfl
  exact listObjects_exact .reference .empty _ writes "b" (some "logs/") (some 2) rfl h

end Index

end All4One.Storage
