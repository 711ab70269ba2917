import All4One.Foundation.Lists
import All4One.Storage.System
import All4One.Storage.Theorems.RoundTrip

open Foundation Path

namespace All4One.Storage

-- An entry of the index speaks of shard files that are there, under one of the policies.
structure IsEntry (crates : Crates) (dataDir bucket key : String) (files : Files) (value : Bytes)
    (m : ObjectMetadata) (policy : StoragePolicy) : Prop where
  value  : value = crates.json.toVec m
  text   : m.policy = policy.text
  dir    : HasDir dataDir bucket files
  shards : ∀ i < policy.dataShards + policy.parityShards,
    ∃ shard, files.entry (shardPlace files.cwd dataDir bucket key i) = some (.file shard)

def Disk.IsSound (crates : Crates) (dataDir : String) (disk : Disk) : Prop :=
  ∀ bucket key value, Index.entry disk.index bucket key = some value →
    ∃ m policy, IsEntry crates dataDir bucket key disk.files value m policy

variable {crates : Crates} {now : Nat → String} {dataDir bucket key : String} {data value : Bytes}
  {policy : StoragePolicy} {w w' : World} {metadata m : ObjectMetadata} {disk disk' : Disk}
  {fs fs' : Files}

theorem IsEntry.of_extends (h : IsEntry crates dataDir bucket key fs value m policy)
    (he : Files.Extends fs fs') : IsEntry crates dataDir bucket key fs' value m policy where
  value       := h.value
  text        := h.text
  dir         := h.dir.of_extends he
  shards i hi := by
    obtain ⟨_, hs⟩ := h.shards i hi
    rw [he.cwd]
    exact he.file _ _ hs

theorem IsEntry.of_stored {shards : List Bytes}
    (h : Stored crates dataDir bucket key data policy shards disk) :
    ∃ m, Index.entry disk.index bucket key = some (crates.json.toVec m) ∧
      IsEntry crates dataDir bucket key disk.files (crates.json.toVec m) m policy := by
  obtain ⟨m, hm, hp, _⟩ := h.index
  refine ⟨m, hm, rfl, hp, h.dir, fun i hi => ?_⟩
  rw [← h.encoding.length] at hi
  exact ⟨_, h.files i hi⟩

namespace Disk.IsSound

theorem of_isFresh (h : disk.IsFresh) : disk.IsSound crates dataDir := by
  intro bucket key value hv
  rw [h] at hv
  cases hv

-- Files and directories stay, and the index gets no other entries.
theorem of_extends (h : disk.IsSound crates dataDir) (he : Files.Extends disk.files disk'.files)
    (hx : ∀ b k v, Index.entry disk'.index b k = some v → Index.entry disk.index b k = some v) :
    disk'.IsSound crates dataDir := by
  intro b k v hv
  obtain ⟨m, policy, hm⟩ := h b k v (hx b k v hv)
  exact ⟨m, policy, hm.of_extends he⟩

theorem putObject {r : Except Failure ObjectMetadata} (h : w.disk.IsSound crates dataDir)
    (hr : (putObject crates now dataDir bucket key data policy).run w = (r, w')) :
    w'.disk.IsSound crates dataDir := by
  have he := (putObject_overwrites hr).files
  cases r
  case error => exact h.of_extends he fun b k v hv => by rwa [putObject_entry_of_error hr] at hv
  case ok =>
    intro b k v hv
    by_cases hbk : b = bucket ∧ k = key
    case pos =>
      obtain ⟨rfl, rfl⟩ := hbk
      obtain ⟨_, hs⟩ := Stored.of_putObject hr
      obtain ⟨m, hm, hi⟩ := IsEntry.of_stored hs
      rw [hm, Option.some.injEq] at hv
      exact ⟨m, policy, hv ▸ hi⟩
    case neg =>
      rw [putObject_entry hr, if_neg hbk] at hv
      obtain ⟨m, policy, hm⟩ := h b k v hv
      exact ⟨m, policy, hm.of_extends he⟩

end Disk.IsSound

theorem deleteObject_files {r : Except Failure Unit} (h : (deleteObject bucket key).run w = (r, w')) :
    w'.disk.files = w.disk.files := by
  rw [deleteObject, Index.deleteObject] at h
  cases r
  case error => exact (Io.index_error h).1
  case ok    => rw [Io.index_ok h]

theorem deleteObject_entry {b k : String} (h : (deleteObject bucket key).run w = (.ok (), w')) :
    Index.entry w'.disk.index b k =
    if b = bucket ∧ k = key then none else Index.entry w.disk.index b k := by
  rw [deleteObject, Index.deleteObject] at h
  rw [Io.index_ok h, Index.entry_remove, Index.entry_openTree]

theorem deleteObject_entry_of_error {e : Failure} {b k : String}
    (h : (deleteObject bucket key).run w = (.error e, w')) :
    Index.entry w'.disk.index b k = Index.entry w.disk.index b k := by
  rw [deleteObject, Index.deleteObject] at h
  exact (Io.index_error h).2 b k

theorem Disk.IsSound.deleteObject {r : Except Failure Unit} (h : w.disk.IsSound crates dataDir)
    (hr : (deleteObject bucket key).run w = (r, w')) : w'.disk.IsSound crates dataDir := by
  refine h.of_extends (deleteObject_files hr ▸ .refl _) fun b k v hv => ?_
  cases r
  case error => rwa [deleteObject_entry_of_error hr] at hv
  case ok =>
    rw [deleteObject_entry hr] at hv
    split at hv
    · cases hv
    · exact hv

theorem Disk.IsReachable.putObject {r : Except Failure ObjectMetadata}
    (hr : w.disk.IsReachable crates dataDir)
    (h : (putObject crates now dataDir bucket key data policy).run w = (r, w')) :
    w'.disk.IsReachable crates dataDir := by
  obtain ⟨disk₀, hf, es, hr⟩ := hr
  refine ⟨disk₀, hf, es ++ [.put bucket key data policy now w.faults], ?_⟩
  have hp : perform crates dataDir w.disk (.put bucket key data policy now w.faults) = w'.disk :=
    congrArg (fun r => r.2.disk) h
  rw [Transition.run_append, hr, Option.bind_some, Transition.run, step, hp]
  rfl

-- A get returns what it did as long as the index says the same of the object and its data shards
-- stay.
theorem getResult_congr (hs : w.disk.IsSound crates dataDir)
    (he : Files.Extends w.disk.files w'.disk.files)
    (hx : Index.entry w'.disk.index bucket key = Index.entry w.disk.index bucket key)
    (hf : ∀ m, Index.entry w.disk.index bucket key = some (crates.json.toVec m) →
      ∀ i < (layout m.policy).dataShards, ∀ shard,
        w.disk.files.entry (shardPlace w.disk.files.cwd dataDir bucket key i) = some (.file shard) →
        w'.disk.files.entry (shardPlace w.disk.files.cwd dataDir bucket key i) = some (.file shard)) :
    getResult crates dataDir bucket key w' = getResult crates dataDir bucket key w := by
  cases hv : Index.entry w.disk.index bucket key
  case none => rw [getResult_of_none hv, getResult_of_none (hx.trans hv)]
  case some =>
    obtain ⟨m, policy, hm⟩ := hs _ _ _ hv
    have hm' := hm.of_extends he
    rw [hm.value] at hv
    rw [getResult_of_some hv, getResult_of_some (hx.trans hv)]
    have hl : layout m.policy = _ := hm.text ▸ layout_text policy
    obtain ⟨shards, hlen, hshards⟩ := Lists.exists_of_forall hm.shards
    -- The data shards are loaded first, and they are the same ones before and after.
    obtain ⟨_, hload, hd⟩ := loadShards_of_data (n := policy.dataShards) (p := policy.parityShards)
      hm.dir (by omega) (fun i _ => hshards i (by omega)) fun i hi => by simp [hshards i (by omega)]
    obtain ⟨_, hload', hd'⟩ := loadShards_of_data (n := policy.dataShards)
      (p := policy.parityShards) hm'.dir (by omega)
      (fun i hi => he.cwd ▸ hf m hv i (by rw [hl]; exact hi) _ (hshards i (by omega)))
      fun i hi => by obtain ⟨_, hi⟩ := hm'.shards i hi; simp [hi]
    refine decodeChunks_of_loaded (by rw [hl]; exact hload) (by rw [hl]; exact hload') fun i hi => ?_
    rw [hl] at hi
    exact (hd' i hi).trans (hd i hi).symm

end All4One.Storage
