import All4One.Foundation.Transition
import All4One.Storage.Reference

open Foundation Transition

namespace All4One.Storage.Index

-- The operations of the index.
inductive Op
  | createBucket (bucket : String)
  | putObject (now : Nat → String) (bucket key etag : String) (sizeBytes : Nat) (policy : StoragePolicy)
  | getObject (bucket key : String)
  | deleteObject (bucket key : String)
  | listObjects (bucket : String) (keyPrefix : Option String) (maxKeys : Option Nat)
  | bucketExists (bucket : String)
  -- The names of the trees come in some order.
  | listBuckets (names : List Bytes)

namespace Op

variable (crates : Crates) (disk : Disk)

-- Nothing goes wrong on the disk.
def perform : Op → Disk
  | createBucket bucket => ((Index.createBucket bucket).run ⟨disk, []⟩).2.disk
  | putObject now bucket key etag sizeBytes policy =>
    ((Index.putObject crates now bucket key etag sizeBytes policy).run ⟨disk, []⟩).2.disk
  | getObject bucket key    => ((Index.getObject crates bucket key).run ⟨disk, []⟩).2.disk
  | deleteObject bucket key => ((Index.deleteObject bucket key).run ⟨disk, []⟩).2.disk
  | listObjects bucket keyPrefix maxKeys =>
    ((Index.listObjects crates bucket keyPrefix maxKeys).run ⟨disk, []⟩).2.disk
  | bucketExists bucket     => ((Index.bucketExists bucket).run ⟨disk, []⟩).2.disk
  | listBuckets _           => disk

def bucket? : Op → Option String
  | createBucket bucket | putObject _ bucket .. | getObject bucket _ | deleteObject bucket _
  | listObjects bucket .. | bucketExists bucket => some bucket
  | listBuckets _                               => none

-- The bucket that an operation is to create.
def creates? : Op → Option String
  | createBucket bucket | putObject _ bucket .. => some bucket
  | _                                           => none

theorem bucket?_of_creates? {op : Op} {bucket : String} (h : op.creates? = some bucket) :
    op.bucket? = some bucket := by
  cases op <;> first | exact h | cases h

end Op

-- An index, and the buckets that have been named in a `create_bucket` or a `put_object`.
structure Catalog where
  disk  : Disk
  named : List String

namespace Catalog

def step (crates : Crates) (s : Catalog) (op : Op) : Option Catalog :=
  some ⟨op.perform crates s.disk, op.creates?.toList ++ s.named⟩

-- `list_buckets` returns a bucket.
def Lists (disk : Disk) (bucket : String) : Prop :=
  ∃ names buckets, disk.index.IsTreeNames names ∧ listBuckets names = some buckets ∧ bucket ∈ buckets

-- The buckets are those that have been named, as far as an operation tells, and they stay so if it is
-- not to create one.
def Faithful (crates : Crates) (s : Catalog) : Op → Prop
  | .createBucket _ | .putObject .. => True
  | .listBuckets names => s.disk.index.IsTreeNames names →
    ∃ buckets, listBuckets names = some buckets ∧ buckets.Nodup ∧ ∀ b, b ∈ buckets ↔ b ∈ s.named
  | .bucketExists bucket =>
    ((bucketExists bucket).run ⟨s.disk, []⟩).1 = .ok (decide (bucket ∈ s.named)) ∧
    ∀ b, Lists ((Op.bucketExists bucket).perform crates s.disk) b ↔ Lists s.disk b
  | op => ∀ b, Lists (op.perform crates s.disk) b ↔ Lists s.disk b

-- An operation that is not to create its bucket is on one that has been named.
def IsKnown (s : Catalog) (op : Op) : Prop :=
  ∀ bucket ∈ op.bucket?, op.creates? = none → bucket ∈ s.named

instance (s : Catalog) (op : Op) : Decidable (s.IsKnown op) :=
  inferInstanceAs (Decidable (∀ bucket ∈ op.bucket?, op.creates? = none → bucket ∈ s.named))

-- The trees are those of the buckets that have been named.
def Exact (s : Catalog) : Prop :=
  ∀ name, name ∈ s.disk.index.trees ↔ ∃ b ∈ s.named, name = treeName b

variable {crates : Crates} {s s' : Catalog} {op : Op} {names : List Bytes} {disk : Disk}

-- An operation opens the tree of its bucket, and no other.
theorem mem_trees_perform {name : Bytes} : name ∈ (op.perform crates disk).index.trees ↔
    (∃ b ∈ op.bucket?, name = treeName b) ∨ name ∈ disk.index.trees := by
  have opened (b : String) : name ∈ (disk.index.openTree (treeName b)).trees ↔
      (∃ b' ∈ some b, name = treeName b') ∨ name ∈ disk.index.trees := by
    rw [Sled.Db.mem_trees_openTree]
    simp
  cases op
  case listBuckets => exact (or_iff_right (by simp [Op.bucket?])).symm
  case putObject now bucket key etag sizeBytes policy =>
    refine Sled.Db.mem_trees_insert.trans ?_
    rw [Sled.Db.mem_trees_openTree, ← or_assoc, or_self]
    simp [Op.bucket?]
  case deleteObject bucket key =>
    refine Sled.Db.mem_trees_remove.trans ?_
    rw [Sled.Db.mem_trees_openTree, ← or_assoc, or_self]
    simp [Op.bucket?]
  case createBucket bucket => exact opened bucket
  case getObject bucket key => exact opened bucket
  case listObjects bucket keyPrefix maxKeys => exact opened bucket
  case bucketExists bucket => exact opened bucket

theorem treeName_ne_defaultTree (bucket : String) : treeName bucket ≠ Sled.Db.defaultTree := by
  intro h
  have hl := congrArg (List.head? ∘ String.toList) (Bytes.ofString_inj.mp h)
  simp only [Function.comp, String.toList_append] at hl
  cases hl

theorem bucketOf?_append (bucket : String) : bucketOf? ("bucket:" ++ bucket) = some bucket := by
  have hd : ("bucket:".toList ++ bucket.toList).drop 7 = bucket.toList := List.drop_left' rfl
  rw [bucketOf?, String.toList_append, if_pos (List.prefix_append _ _), hd, String.ofList_toList]

-- What is listed of trees that are those of buckets.
theorem listBuckets_eq (h : ∀ name ∈ names, name = Sled.Db.defaultTree ∨ ∃ b, name = treeName b) :
    ∃ buckets, listBuckets names = some buckets ∧
      buckets.map treeName = names.filter (· ≠ Sled.Db.defaultTree) := by
  induction names
  case nil => exact ⟨[], rfl, rfl⟩
  case cons name names hi =>
    rw [List.forall_mem_cons] at h
    obtain ⟨buckets, hb, hm⟩ := hi h.2
    rcases h.1 with rfl | ⟨b, rfl⟩
    · have hd : bucketOf? "__sled__default" = none := by decide
      refine ⟨buckets, ?_, ?_⟩
      · rw [listBuckets, Sled.Db.defaultTree, Bytes.toString?_ofString, hb]
        simp [hd]
      · rw [List.filter_cons_of_neg (by simp), hm]
    · refine ⟨b :: buckets, ?_, ?_⟩
      · rw [listBuckets, treeName, Bytes.toString?_ofString, hb]
        simp [bucketOf?_append]
      · rw [List.filter_cons_of_pos (by simp [treeName_ne_defaultTree]), List.map_cons, hm]

theorem listBuckets_of_isTreeNames
    (h : ∀ name ∈ disk.index.trees, ∃ b, name = treeName b) (hn : disk.index.IsTreeNames names) :
    ∃ buckets, listBuckets names = some buckets ∧ buckets.Nodup ∧
      ∀ b, b ∈ buckets ↔ treeName b ∈ disk.index.trees := by
  have ht : ∀ name ∈ names, name = Sled.Db.defaultTree ∨ ∃ b, name = treeName b :=
    fun name hm => ((hn.2 name).mp hm).imp_right (h name)
  obtain ⟨buckets, hb, hm⟩ := listBuckets_eq ht
  refine ⟨buckets, hb, ?_, fun b => ?_⟩
  · have hd : (buckets.map treeName).Nodup := hm ▸ hn.1.filter _
    exact hd.of_map
  · have hi : treeName b ∈ buckets.map treeName ↔ b ∈ buckets :=
      List.mem_map_of_injective fun _ _ => treeName_inj.mp
    rw [← hi, hm, List.mem_filter, hn.2]
    simp [treeName_ne_defaultTree]

-- The trees of an index can be listed.
theorem exists_isTreeNames (db : Sled.Db) : ∃ names, db.IsTreeNames names :=
  ⟨(insert Sled.Db.defaultTree db.trees.keys).toList, Finset.nodup_toList _, fun name => by
    simp [Finmap.mem_keys]⟩

theorem lists_iff (h : ∀ name ∈ disk.index.trees, ∃ b, name = treeName b) {b : String} :
    Lists disk b ↔ treeName b ∈ disk.index.trees := by
  constructor
  case mp =>
    rintro ⟨names, buckets, hn, hb, hm⟩
    obtain ⟨buckets', hb', -, hm'⟩ := listBuckets_of_isTreeNames h hn
    rw [hb] at hb'
    cases hb'
    exact (hm' b).mp hm
  case mpr =>
    intro hb
    obtain ⟨names, hn⟩ := exists_isTreeNames disk.index
    obtain ⟨buckets, hl, -, hm⟩ := listBuckets_of_isTreeNames h hn
    exact ⟨names, buckets, hn, hl, (hm b).mpr hb⟩

namespace Exact

theorem init (h : disk.index.trees = ∅) : Exact ⟨disk, []⟩ := by
  intro name
  simp [h, Finmap.notMem_empty]

theorem exists_treeName (h : Exact s) : ∀ name ∈ s.disk.index.trees, ∃ b, name = treeName b := by
  intro name hm
  obtain ⟨b, -, hb⟩ := (h name).mp hm
  exact ⟨b, hb⟩

theorem treeName_mem (h : Exact s) {b : String} : treeName b ∈ s.disk.index.trees ↔ b ∈ s.named := by
  rw [h]
  constructor
  case mp  => rintro ⟨b', hb', hn⟩; exact treeName_inj.mp hn ▸ hb'
  case mpr => exact fun hb => ⟨b, hb, rfl⟩

theorem step (h : Exact s) (hk : s.IsKnown op) (hs : s.step crates op = some s') : Exact s' := by
  cases hs
  intro name
  simp only [mem_trees_perform, List.mem_append, Option.mem_toList]
  constructor
  case mp =>
    rintro (⟨b, hb, hn⟩ | hm)
    · refine ⟨b, ?_, hn⟩
      cases hc : op.creates?
      case none   => exact .inr (hk b hb hc)
      case some c => exact .inl (Option.some.inj ((Op.bucket?_of_creates? hc).symm.trans hb) ▸ rfl)
    · obtain ⟨b, hb, hn⟩ := (h name).mp hm
      exact ⟨b, .inr hb, hn⟩
  case mpr =>
    rintro ⟨b, hb | hb, hn⟩
    · exact .inl ⟨b, Op.bucket?_of_creates? hb, hn⟩
    · exact .inr ((h name).mpr ⟨b, hb, hn⟩)

-- An operation leaves the buckets as they are if its own is one of them.
theorem same_iff (h : Exact s) {b : String} (hb : op.bucket? = some b) :
    (∀ b', Lists (op.perform crates s.disk) b' ↔ Lists s.disk b') ↔ b ∈ s.named := by
  have ho : ∀ name ∈ (op.perform crates s.disk).index.trees, ∃ b', name = treeName b' := by
    intro name hm
    rcases mem_trees_perform.mp hm with ⟨b', -, hn⟩ | hm
    · exact ⟨b', hn⟩
    · exact h.exists_treeName name hm
  have hl (b' : String) : Lists (op.perform crates s.disk) b' ↔ b' = b ∨ b' ∈ s.named := by
    rw [lists_iff ho, mem_trees_perform, h.treeName_mem, hb]
    simp [treeName_inj]
  have hl' (b' : String) : Lists s.disk b' ↔ b' ∈ s.named :=
    (lists_iff h.exists_treeName).trans h.treeName_mem
  simp only [hl, hl']
  constructor
  case mp  => exact fun hs => (hs b).mp (.inl rfl)
  case mpr => exact fun hb b' => ⟨Or.rec (fun he => he ▸ hb) id, .inr⟩

theorem faithful_iff (h : Exact s) : s.Faithful crates op ↔ s.IsKnown op := by
  have known {b : String} (hb : op.bucket? = some b) (hc : op.creates? = none) :
      s.IsKnown op ↔ b ∈ s.named := by
    simp [IsKnown, hb, hc]
  cases op
  case createBucket => exact iff_of_true trivial fun _ _ hc => nomatch hc
  case putObject    => exact iff_of_true trivial fun _ _ hc => nomatch hc
  case getObject bucket key    => exact (h.same_iff rfl).trans (known rfl rfl).symm
  case deleteObject bucket key => exact (h.same_iff rfl).trans (known rfl rfl).symm
  case listObjects bucket _ _  => exact (h.same_iff rfl).trans (known rfl rfl).symm
  case bucketExists bucket =>
    have hr : ((bucketExists bucket).run ⟨s.disk, []⟩).1 = .ok true := rfl
    rw [known rfl rfl, Faithful, h.same_iff rfl, hr, Except.ok.injEq, true_eq_decide_iff, and_self]
  case listBuckets names =>
    refine iff_of_true (fun hn => ?_) fun _ hb => nomatch hb
    obtain ⟨buckets, hl, hd, hm⟩ := listBuckets_of_isTreeNames h.exists_treeName hn
    exact ⟨buckets, hl, hd, fun b => (hm b).trans h.treeName_mem⟩

end Exact

-- The buckets are those that have been named, at every operation of exactly the runs that look for none
-- that has not been named.
theorem buckets_iff (crates : Crates) (disk : Disk) (h : disk.index.trees = ∅) (ops : List Op) :
    Guarded (step crates) (Faithful crates) ⟨disk, []⟩ ops ↔
    Guarded (step crates) IsKnown ⟨disk, []⟩ ops := by
  have init : Exact ⟨disk, []⟩ := .init h
  constructor
  case mp =>
    intro g
    exact g.imp init (fun _ _ _ h hf hs => h.step (h.faithful_iff.mp hf) hs)
      fun _ _ _ h hf _ => h.faithful_iff.mp hf
  case mpr =>
    intro g
    exact g.imp init (fun _ _ _ h hk hs => h.step hk hs) fun _ _ _ h hk _ => h.faithful_iff.mpr hk

-- A bucket that has been created is listed.
theorem buckets_iff_sample :
    Guarded (step .reference) (Faithful .reference) ⟨World.empty.disk, []⟩
      [.createBucket "b", .getObject "b" "k", .bucketExists "b",
        .listBuckets [Sled.Db.defaultTree, treeName "b"]] := by
  refine (buckets_iff .reference World.empty.disk rfl _).mpr ?_
  decide

-- A get of an object in a bucket that nobody has created creates it.
theorem buckets_fails : ¬ ∀ (crates : Crates) (disk : Disk), disk.index.trees = ∅ → ∀ ops : List Op,
    Guarded (step crates) (Faithful crates) ⟨disk, []⟩ ops := by
  intro h
  have ⟨hf, _⟩ := h .reference World.empty.disk rfl [.getObject "b" "k"] _ rfl
  have hk := (Exact.init rfl).faithful_iff.mp hf
  exact absurd (hk "b" rfl rfl) List.not_mem_nil

end Catalog

end All4One.Storage.Index
