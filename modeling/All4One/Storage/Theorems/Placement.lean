import All4One.Storage.Placement
import All4One.Storage.Theorems.RoundTrip

open Foundation Path

namespace All4One.Storage

section Durable

variable {chunkId : String} {chunkSize : UInt64} {policy : StoragePolicy} {nodes : List NodeCapacity}
  {placement failed : List Uuid}

-- A placement of a chunk on different nodes of a list, which survives the failures that its policy is
-- made for.
structure Durable (policy : StoragePolicy) (nodes : List NodeCapacity) (placement : List Uuid) :
    Prop where
  nodup       : placement.Nodup
  mem         : ∀ id ∈ placement, id ∈ nodes.map (·.nodeId)
  recoverable : ∀ failed : List Uuid, failed.toFinset.card ≤ policy.tolerance →
    isRecoverable placement policy failed

theorem determinePlacement_sublist :
    (determinePlacement chunkId chunkSize policy nodes).Sublist (nodes.map (·.nodeId)) := by
  rw [determinePlacement_eq]
  exact (List.take_sublist _ _).map _

theorem length_determinePlacement : (determinePlacement chunkId chunkSize policy nodes).length =
    min policy.replicas nodes.length := by
  simp [determinePlacement_eq]

theorem durable_hot (hn : (nodes.map (·.nodeId)).Nodup) (hl : StoragePolicy.hot.width ≤ nodes.length) :
    Durable .hot nodes (determinePlacement chunkId chunkSize .hot nodes) where
  nodup       := hn.sublist determinePlacement_sublist
  mem _ h     := determinePlacement_sublist.subset h
  recoverable := by
    intro failed hf
    have hd : (determinePlacement chunkId chunkSize .hot nodes).Nodup :=
      hn.sublist determinePlacement_sublist
    have ha : _ ≤ available _ failed + _ := length_le_available_add_card hd
    rw [length_determinePlacement] at ha
    rw [isRecoverable_iff]
    simp only [StoragePolicy.width, StoragePolicy.tolerance, StoragePolicy.erasureCoding,
      StoragePolicy.replicas, StoragePolicy.dataShards, Option.getD_none] at *
    omega

-- What takes several shards is placed on one node.
theorem not_isRecoverable_determinePlacement (hp : policy ≠ .hot) :
    ¬ isRecoverable (determinePlacement chunkId chunkSize policy nodes) policy failed := by
  have hl : (determinePlacement chunkId chunkSize policy nodes).length =
      min policy.replicas nodes.length :=
    length_determinePlacement
  have ha : available (determinePlacement chunkId chunkSize policy nodes) failed ≤ _ := available_le
  rw [isRecoverable_iff]
  have : policy.replicas < policy.dataShards := by cases policy <;> first | exact absurd rfl hp | decide
  omega

-- A chunk is placed as its policy promises if and only if the policy is to copy it.
theorem durable_iff (chunkId : String) (chunkSize : UInt64) (policy : StoragePolicy)
    (nodes : List NodeCapacity) (hn : (nodes.map (·.nodeId)).Nodup)
    (hl : policy.width ≤ nodes.length) :
    Durable policy nodes (determinePlacement chunkId chunkSize policy nodes) ↔ policy = .hot := by
  constructor
  case mp =>
    intro h
    by_contra hp
    exact not_isRecoverable_determinePlacement hp (h.recoverable [] (Nat.zero_le _))
  case mpr =>
    rintro rfl
    exact durable_hot hn hl

def sampleNodes (count : Nat) : List NodeCapacity :=
  (List.range count).map fun i => ⟨BitVec.ofNat 128 i, 1000, 0⟩

theorem durable_iff_sample :
    Durable .hot (sampleNodes 5) (determinePlacement "test" 100 .hot (sampleNodes 5)) :=
  (durable_iff "test" 100 .hot (sampleNodes 5) (by decide) (by decide)).mpr rfl

-- Six nodes are there for six shards, and none of them fails.
theorem durable_fails : ¬ ∀ (chunkId : String) (chunkSize : UInt64) (policy : StoragePolicy)
    (nodes : List NodeCapacity), (nodes.map (·.nodeId)).Nodup → policy.width ≤ nodes.length →
    Durable policy nodes (determinePlacement chunkId chunkSize policy nodes) := by
  intro h
  have := (h "test" 100 .warm (sampleNodes 6) (by decide) (by decide)).recoverable [] (by decide)
  exact absurd this (by decide)

end Durable

-- The shard files that were on the nodes that have failed are missing, and nothing else is.
structure Lost (dataDir bucket key : String) (placement failed : List Uuid) (fs fs' : Files) :
    Prop where
  cwd   : fs'.cwd = fs.cwd
  other : ∀ q, (∀ i < placement.length, q ≠ shardPlace fs.cwd dataDir bucket key i) →
    fs'.entry q = fs.entry q
  file  : ∀ i (hi : i < placement.length), fs'.entry (shardPlace fs.cwd dataDir bucket key i) =
    if placement[i] ∈ failed then none else fs.entry (shardPlace fs.cwd dataDir bucket key i)

variable {crates : Crates} {now : Nat → String} {dataDir bucket key : String} {data : Bytes}
  {policy : StoragePolicy} {shards : List Bytes} {placement failed : List Uuid} {w w' : World}
  {metadata : ObjectMetadata} {disk : Disk} {fs fs' : Files} {faults : List Fault}

theorem Lost.damaged (hs : Stored crates dataDir bucket key data policy shards disk)
    (hl : placement.length = shards.length) (h : Lost dataDir bucket key placement failed disk.files fs) :
    Damaged dataDir bucket key placement.length disk.files fs where
  cwd       := h.cwd
  other     := h.other
  file i hi := by
    rw [h.file i hi, hs.files i (hl ▸ hi)]
    split <;> simp

theorem getResult_lost_iff (hs : Stored crates dataDir bucket key data policy shards disk)
    (hl : placement.length = policy.dataShards + policy.parityShards)
    (h : Lost dataDir bucket key placement failed disk.files fs) :
    getResult crates dataDir bucket key ⟨{ disk with files := fs }, faults⟩ = .ok data ↔
    ∀ id ∈ placement.take policy.dataShards, id ∉ failed := by
  have hd := hl ▸ h.damaged hs (hl.trans hs.encoding.length.symm)
  constructor
  case mp =>
    intro hr id hid hf
    obtain ⟨i, hi, rfl⟩ := List.mem_take_iff_getElem.mp hid
    rw [Nat.lt_min] at hi
    have hm := h.file i hi.2
    rw [if_pos hf] at hm
    rw [getResult_of_missing hs hd ⟨i, hi.1, hm⟩] at hr
    cases hr
  case mpr =>
    intro hall
    refine getResult_of_stored hs hd fun i hi => ?_
    have hi' : i < placement.length := hl ▸ Nat.lt_add_right _ hi
    rw [h.file i hi', if_neg (hall _ (List.mem_take_iff_getElem.mpr ⟨i, Nat.lt_min.mpr ⟨hi, hi'⟩, rfl⟩))]

-- Where the nodes of all data shards are there, there are enough nodes.
theorem dataShards_le_available (hl : placement.length = policy.dataShards + policy.parityShards)
    (h : ∀ id ∈ placement.take policy.dataShards, id ∉ failed) :
    policy.dataShards ≤ available placement failed := by
  have hf : (placement.take policy.dataShards).filter (· ∉ failed) = placement.take policy.dataShards :=
    List.filter_eq_self.mpr fun id hid => decide_eq_true (h id hid)
  have hp := ((List.take_sublist policy.dataShards placement).filter (· ∉ failed)).length_le
  rw [hf, List.length_take, hl] at hp
  rw [available]
  omega

-- As many of the nodes are left as have not failed.
theorem available_add_length (placement failed : List Uuid) :
    available placement failed + (placement.filter (· ∈ failed)).length = placement.length := by
  have := List.length_eq_length_filter_add (l := placement) (· ∈ failed)
  simp only [available, decide_not] at *
  omega

-- Whether an object can be recovered is whether it can be read, unless the node of a data shard is
-- among the ones that have failed and these are no more than the policy has parity shards.
theorem isRecoverable_iff_getResult (crates : Crates) (now : Nat → String)
    (dataDir bucket key : String) (data : Bytes) (policy : StoragePolicy) (w w' : World)
    (metadata : ObjectMetadata) (placement failed : List Uuid) (fs : Files) (faults : List Fault)
    (h : (putObject crates now dataDir bucket key data policy).run w = (.ok metadata, w'))
    (hl : placement.length = policy.dataShards + policy.parityShards)
    (hf : Lost dataDir bucket key placement failed w'.disk.files fs) :
    (isRecoverable placement policy failed ↔
      getResult crates dataDir bucket key ⟨{ w'.disk with files := fs }, faults⟩ = .ok data) ↔
    (∀ id ∈ placement.take policy.dataShards, id ∉ failed) ∨
      policy.parityShards < (placement.filter (· ∈ failed)).length := by
  obtain ⟨shards, hs⟩ := Stored.of_putObject h
  rw [isRecoverable_iff, getResult_lost_iff hs hl hf]
  have hd (hall : ∀ id ∈ placement.take policy.dataShards, id ∉ failed) :=
    dataShards_le_available hl hall
  have ha := available_add_length placement failed
  constructor
  case mp =>
    intro hi
    by_cases hr : policy.dataShards ≤ available placement failed
    case pos => exact .inl (hi.mp hr)
    case neg => exact .inr (by omega)
  case mpr =>
    rintro (hall | hm)
    · exact iff_of_true (hd hall) hall
    · have hr : ¬ policy.dataShards ≤ available placement failed := by omega
      exact iff_of_false hr fun hall => hr (hd hall)

theorem lost_erase (hn : placement.Nodup) {i : Nat} (hi : i < placement.length) :
    Lost dataDir bucket key placement [placement[i]] fs
      (fs.erase (shardPlace fs.cwd dataDir bucket key i)) where
  cwd        := rfl
  other q hq := by rw [Files.entry_erase, if_neg fun h => hq i hi h.1]
  file j hj  := by
    have hp : shardPlace fs.cwd dataDir bucket key j = shardPlace fs.cwd dataDir bucket key i ↔
        placement[j] = placement[i] := by
      rw [hn.getElem_inj_iff]
      exact ⟨fun h => (shardPlace_inj.mp h).2, fun h => h ▸ rfl⟩
    rw [Files.entry_erase]
    simp only [hp, shardPlace_ne_nil, ne_eq, not_false_eq_true, and_true, List.mem_singleton]

def sampleIds : List Uuid :=
  [0, 1, 2, 3, 4, 5]

-- The node of a parity shard fails.
theorem isRecoverable_iff_getResult_sample :
    ∃ w', ((putText "b" "a/b" "hello" .warm).run
        ((putText "b" "a/b" "an older version" .hot).run .empty).2).2 = w' ∧
      (isRecoverable sampleIds .warm [4] ↔
        getResult .reference "/d" "b" "a/b" ⟨{ w'.disk with
          files := w'.disk.files.erase (shardPlace w'.disk.files.cwd "/d" "b" "a/b" 4) }, []⟩ =
        .ok (Bytes.ofString "hello")) := by
  obtain ⟨w', h⟩ := Prog.exists_of_fst putText_hot_warm
  refine ⟨w', congrArg Prod.snd h, ?_⟩
  exact (isRecoverable_iff_getResult _ _ _ _ _ _ .warm _ w' _ sampleIds [4] _ [] h rfl
    (lost_erase (by decide) (i := 4) (by decide))).mpr
    (.inl (by simp [sampleIds, StoragePolicy.dataShards, StoragePolicy.erasureCoding]))

-- The node of a data shard fails.
theorem isRecoverable_iff_getResult_fails : ¬ ∀ (crates : Crates) (now : Nat → String)
    (dataDir bucket key : String) (data : Bytes) (policy : StoragePolicy) (w w' : World)
    (metadata : ObjectMetadata) (placement failed : List Uuid) (fs : Files) (faults : List Fault),
    policy.erasureCoding.isSome →
    (putObject crates now dataDir bucket key data policy).run w = (.ok metadata, w') →
    placement.length = policy.dataShards + policy.parityShards → placement.Nodup →
    Lost dataDir bucket key placement failed w'.disk.files fs →
    (isRecoverable placement policy failed ↔
      getResult crates dataDir bucket key ⟨{ w'.disk with files := fs }, faults⟩ = .ok data) := by
  intro hall
  obtain ⟨w', h⟩ := Prog.exists_of_fst putText_hot_warm
  obtain ⟨_, hs⟩ := Stored.of_putObject h
  have hlost : Lost "/d" "b" "a/b" sampleIds [sampleIds[0]] w'.disk.files _ :=
    lost_erase (by decide) (by decide)
  have hi := hall _ _ _ _ _ _ .warm _ w' _ sampleIds _ _ [] rfl h rfl (by decide) hlost
  have hr := (getResult_lost_iff hs rfl hlost).mp (hi.mp (by decide))
  exact hr 0 (by decide) (by decide)

end All4One.Storage
