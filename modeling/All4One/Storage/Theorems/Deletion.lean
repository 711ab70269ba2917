import All4One.Storage.Requests
import All4One.Storage.Theorems.Replication
import All4One.Storage.Theorems.Sidecars
import All4One.Storage.Theorems.Sound

open Foundation Path

namespace All4One.Storage

variable {crates : Crates} {text : Failure → String} {ioText : IoError → String} {role : Bool}
  {dataDir bucket key : String} {disk disk' : Disk} {w w' : World} {db : Sled.Db}

-- What the readers of a disk return.
def listResult (crates : Crates) (bucket : String) (keyPrefix : Option String) (maxKeys : Option Nat)
    (disk : Disk) : Except Failure (List ObjectMetadata) :=
  ((Index.listObjects crates bucket keyPrefix maxKeys).run ⟨disk, []⟩).1

def readResult (crates : Crates) (dataDir bucket key : String) (disk : Disk) :
    Except Failure (List Shard) :=
  ((readShards crates dataDir bucket key).run ⟨disk, []⟩).1

-- None of the readers yields an object, nor a shard that the disk `old` has of it.
structure Withheld (crates : Crates) (ioText : IoError → String) (dataDir bucket key : String)
    (old disk : Disk) : Prop where
  get   : ∃ e, getResult crates dataDir bucket key ⟨disk, []⟩ = .error e
  list  : ∀ b keyPrefix maxKeys listed, listResult crates b keyPrefix maxKeys disk = .ok listed →
    ∀ m ∈ listed, ¬ (m.bucket = bucket ∧ m.key = key)
  read  : ∃ e, readResult crates dataDir bucket key disk = .error e
  fetch : ∀ i j response, fetchChunk crates ioText dataDir disk.files ⟨bucket, key, i⟩ = .ok response →
    response.found = true → old.files.read (transferPath dataDir bucket key j) ≠ .ok response.data

-- The readers yield the same of every other object.
structure Unaffected (crates : Crates) (ioText : IoError → String) (dataDir bucket key : String)
    (disk disk' : Disk) : Prop where
  get   : ∀ b k, (b, k) ≠ (bucket, key) →
    getResult crates dataDir b k ⟨disk', []⟩ = getResult crates dataDir b k ⟨disk, []⟩
  list  : ∀ b keyPrefix maxKeys, ∃ listed listed',
    listResult crates b keyPrefix maxKeys disk = .ok listed ∧
    listResult crates b keyPrefix maxKeys disk' = .ok listed' ∧
    ∀ m ∈ listed, (m.bucket, m.key) ≠ (bucket, key) → m ∈ listed'
  read  : ∀ b k, (b, k) ≠ (bucket, key) →
    readResult crates dataDir b k disk' = readResult crates dataDir b k disk
  fetch : ∀ payload, fetchChunk crates ioText dataDir disk'.files payload =
    fetchChunk crates ioText dataDir disk.files payload

-- A delete of an object: from then on it is withheld, until it is stored again.
structure Deletes (crates : Crates) (text : Failure → String) (ioText : IoError → String)
    (role : Bool) (dataDir bucket key : String) (disk disk' : Disk) : Prop where
  withheld : ∀ es later, (∀ e ∈ es, ¬ e.1.Stores bucket key) →
    Transition.run (Requests.faultyStep crates text role dataDir) disk' es = some later →
    Withheld crates ioText dataDir bucket key disk later
  others   : Unaffected crates ioText dataDir bucket key disk disk'

section Keeps

variable {R : World → World → Prop} {payload : TransferChunkRequest} {now : Nat → String}

-- What all the writes of a transfer keep, the transfer keeps.
theorem transferChunk_keeps (refl : ∀ w, R w w) (trans : ∀ w₁ w₂ w₃, R w₁ w₂ → R w₂ w₃ → R w₁ w₃)
    (files : ∀ op, (Io.files op).Keeps R)
    (bucket : (Index.createBucket payload.bucket).Keeps R)
    (index : (Index.putObject crates now payload.bucket payload.key payload.etag
      payload.objectSize.toNat (policyOfText payload.policy)).Keeps R) :
    (transferChunk crates text now role dataDir payload).Keeps R := by
  cases role
  case false => exact .pure refl
  case true =>
    refine .bind trans (.attempt (files _)) fun r => ?_
    cases r
    case error => exact .pure refl
    case ok =>
      refine .bind trans (.attempt (files _)) fun r => ?_
      cases r
      case error => exact .pure refl
      case ok =>
        refine .bind trans (.attempt (files _)) fun _ => ?_
        refine .bind trans (.attempt bucket) fun _ => ?_
        exact .bind trans (.attempt index) fun _ => .pure refl

theorem putObject_keeps {data : Bytes} {policy : StoragePolicy} (refl : ∀ w, R w w)
    (trans : ∀ w₁ w₂ w₃, R w₁ w₂ → R w₂ w₃ → R w₁ w₃) (files : ∀ op, (Io.files op).Keeps R)
    (index : (Index.putObject crates now bucket key (crates.sha256 data) data.length policy).Keeps R) :
    (putObject crates now dataDir bucket key data policy).Keeps R := by
  rw [putObject_eq]
  refine .bind trans (files _) fun _ => ?_
  refine .bind trans (.ofExcept refl _) fun _ => ?_
  refine .bind trans (.ofExcept refl _) fun _ => ?_
  refine .bind trans (.forEach refl trans fun _ _ => .bind trans (files _) fun _ => files _) fun _ => ?_
  exact .bind trans index fun _ => .pure refl

end Keeps

section Index

variable {P : Sled.Db → Prop}

def KeepsIndex (P : Sled.Db → Prop) (w w' : World) : Prop :=
  P w.disk.index → P w'.disk.index

theorem files_keepsIndex (op : Fault → Prog Files IoError Unit) :
    (Io.files op).Keeps (KeepsIndex P) := by
  intro w h
  have any (f : Fault) : (op f).Keeps fun _ _ => True := fun _ => trivial
  have hi := (Io.files_keeps any w).2
  rwa [← hi] at h

theorem index_keepsIndex {name : Bytes} {op : Sled.Db → Sled.Db}
    (openTree : ∀ db name, P db → P (db.openTree name)) (hop : ∀ db, P db → P (op db)) :
    (Io.index name op).Keeps (KeepsIndex P) := by
  intro w h
  simp only [Io.index]
  split
  · exact hop _ (openTree _ _ h)
  · exact h
  · exact openTree _ _ h

-- A request opens trees, puts the entry of an object that it stores, or removes one.
theorem Request.serve_index {r : Request} (openTree : ∀ db name, P db → P (db.openTree name))
    (insert : ∀ b k now etag size policy, r.Stores b k → ∀ db, P db →
      P (db.insert (Index.treeName b) (Bytes.ofString k)
        (crates.json.toVec (Index.metadata now b k etag size policy))))
    (remove : ∀ b k db, P db → P (db.remove (Index.treeName b) (Bytes.ofString k)))
    (h : P w.disk.index) : P (r.serve crates text role dataDir w).disk.index := by
  have refl (w : World) : KeepsIndex P w w := id
  have trans (w₁ w₂ w₃ : World) : KeepsIndex P w₁ w₂ → KeepsIndex P w₂ w₃ → KeepsIndex P w₁ w₃ :=
    fun h₁ h₂ => h₂ ∘ h₁
  have put {b k now etag size policy} (hs : r.Stores b k) :
      (Index.putObject crates now b k etag size policy).Keeps (KeepsIndex P) :=
    index_keepsIndex openTree (insert b k now etag size policy hs)
  cases r
  case put => exact putObject_keeps refl trans files_keepsIndex (put ⟨rfl, rfl⟩) _ h
  case delete => exact index_keepsIndex openTree (remove _ _) _ h
  case transfer =>
    exact transferChunk_keeps refl trans files_keepsIndex
      (index_keepsIndex openTree fun _ => id) (put ⟨rfl, rfl⟩) _ h

end Index

-- Each entry of the index is the metadata of the object that it is the entry of.
def IsIndexed (crates : Crates) (db : Sled.Db) : Prop :=
  ∀ b key value, db.get (Index.treeName b) key = some value →
    ∃ m, value = crates.json.toVec m ∧ m.bucket = b ∧ key = Bytes.ofString m.key

namespace IsIndexed

theorem openTree {name : Bytes} (h : IsIndexed crates db) : IsIndexed crates (db.openTree name) := by
  intro b' k' v hv
  rw [Sled.Db.get_openTree] at hv
  exact h b' k' v hv

theorem insert {m : ObjectMetadata} {b k : String} (h : IsIndexed crates db) (hb : m.bucket = b)
    (hk : m.key = k) :
    IsIndexed crates (db.insert (Index.treeName b) (Bytes.ofString k) (crates.json.toVec m)) := by
  intro b' k' v hv
  rw [Sled.Db.get_insert] at hv
  split at hv
  case isTrue hbk =>
    cases hv
    exact ⟨m, rfl, hb.trans (Index.treeName_inj.mp hbk.1).symm, hbk.2.trans (hk ▸ rfl)⟩
  case isFalse => exact h b' k' v hv

theorem remove {b k : String} (h : IsIndexed crates db) :
    IsIndexed crates (db.remove (Index.treeName b) (Bytes.ofString k)) := by
  intro b' k' v hv
  rw [Sled.Db.get_remove] at hv
  split at hv
  case isTrue  => cases hv
  case isFalse => exact h b' k' v hv

theorem serve {r : Request} (h : IsIndexed crates w.disk.index) :
    IsIndexed crates (r.serve crates text role dataDir w).disk.index := by
  refine Request.serve_index ?_ ?_ ?_ h
  case refine_1 => exact fun _ _ h => h.openTree
  case refine_2 => exact fun _ _ _ _ _ _ _ _ h => h.insert rfl rfl
  case refine_3 => exact fun _ _ _ h => h.remove

theorem of_reachable {disk₀ : Disk} (h₀ : disk₀.IsBlank)
    (hr : Transition.Reachable (Requests.faultyStep crates text role dataDir) disk₀ disk) :
    IsIndexed crates disk.index := by
  refine hr.invariant (I := fun disk => IsIndexed crates disk.index) (fun b k v hv => ?_)
    fun disk e disk' hd hs => ?_
  · rw [h₀.index] at hv
    cases hv
  · cases hs
    exact serve hd

end IsIndexed

section List

variable {keyPrefix : Option String} {maxKeys : Option Nat} {n : Nat} {items : List (Bytes × Bytes)}
  {listed : List ObjectMetadata} {m : ObjectMetadata} {item : Bytes × Bytes} {b k : String}

-- The metadata that match, of entries that can all be parsed.
def matching (crates : Crates) (keyPrefix : Option String) (items : List (Bytes × Bytes)) :
    List ObjectMetadata :=
  (items.filterMap (crates.json.fromSlice ·.2)).filter fun m =>
    ∀ p ∈ keyPrefix, p.toList <+: m.key.toList

-- The first of them are listed.
theorem listFrom_eq (h : ∀ item ∈ items, (crates.json.fromSlice item.2).isSome) :
    Index.listFrom crates keyPrefix n items = .ok ((matching crates keyPrefix items).take n) := by
  induction items generalizing n
  case nil => cases n <;> rfl
  case cons item items hi =>
    rw [List.forall_mem_cons] at h
    obtain ⟨m, hm⟩ := Option.isSome_iff_exists.mp h.1
    cases n
    case zero => rfl
    case succ n =>
      have hc : (item :: items).filterMap (crates.json.fromSlice ·.2) =
          m :: items.filterMap (crates.json.fromSlice ·.2) := List.filterMap_cons_some hm
      rw [Index.listFrom, hm, matching, hc]
      by_cases hp : ∀ p ∈ keyPrefix, p.toList <+: m.key.toList
      case pos =>
        rw [List.filter_cons_of_pos (by simpa using hp), List.take_succ_cons]
        simp only [if_pos hp]
        rw [hi h.2]
        rfl
      case neg =>
        rw [List.filter_cons_of_neg (by simpa using hp)]
        simp only [if_neg hp]
        rw [hi h.2]
        rfl

-- The entries of a bucket.
def bucketItems (b : String) (db : Sled.Db) : List (Bytes × Bytes) :=
  (db.tree (Index.treeName b)).iter

theorem IsIndexed.exists_of_mem (h : IsIndexed crates db) (hi : item ∈ bucketItems b db) :
    ∃ m, item = (Bytes.ofString m.key, crates.json.toVec m) ∧
      crates.json.fromSlice item.2 = some m ∧ m.bucket = b := by
  have hi : db.get (Index.treeName b) item.1 = some item.2 := Sled.Db.mem_iter.mp hi
  obtain ⟨m, hv, hb, hk⟩ := h b item.1 item.2 hi
  exact ⟨m, Prod.ext hk hv, by rw [hv, crates.json.fromSlice_toVec], hb⟩

theorem IsIndexed.listResult (h : IsIndexed crates disk.index) :
    listResult crates b keyPrefix maxKeys disk =
    .ok ((matching crates keyPrefix (bucketItems b disk.index)).take (maxKeys.getD 1000)) := by
  have hl : All4One.Storage.listResult crates b keyPrefix maxKeys disk =
      Index.listFrom crates keyPrefix (maxKeys.getD 1000) (bucketItems b disk.index) := by
    simp only [All4One.Storage.listResult, Index.listObjects, Sled.Db.tree_openTree]
    rfl
  rw [hl, listFrom_eq fun item hi => ?_]
  obtain ⟨m, _, hm, _⟩ := h.exists_of_mem hi
  rw [hm]
  rfl

-- What is listed has its entry.
theorem IsIndexed.entry_of_mem (h : IsIndexed crates db)
    (hm : m ∈ matching crates keyPrefix (bucketItems b db)) :
    m.bucket = b ∧ Index.entry db m.bucket m.key = some (crates.json.toVec m) := by
  obtain ⟨item, hi, hp⟩ := List.mem_filterMap.mp (List.mem_of_mem_filter hm)
  obtain ⟨m', rfl, hm', hb⟩ := h.exists_of_mem hi
  obtain rfl : m' = m := by rw [hm', Option.some.injEq] at hp; exact hp
  have hg : db.get (Index.treeName b) (Bytes.ofString m'.key) = some (crates.json.toVec m') :=
    Sled.Db.mem_iter.mp hi
  subst hb
  exact ⟨rfl, hg⟩

end List

section Read

variable {files : Files} {data : Bytes} {payload : FetchChunkRequest} {m : ObjectMetadata}

theorem readResult_eq : readResult crates dataDir bucket key disk =
    (Index.parse crates bucket key (Index.entry disk.index bucket key)).bind fun m =>
      loadAllShards crates disk.files (chunksDir dataDir bucket) (safeObjectId bucket key)
        (List.range (totalShards m.policy)) := by
  have hr : ((Index.getObject crates bucket key).run ⟨disk, []⟩).1 =
      Index.parse crates bucket key (Index.entry disk.index bucket key) := by
    simp only [Index.getObject, Index.entry_openTree]
  rw [readResult, readShards]
  cases h : Index.parse crates bucket key (Index.entry disk.index bucket key)
  case error => rw [Prog.bind_of_error (Prod.ext (hr.trans h) rfl)]; rfl
  case ok    => rw [Prog.bind_of_ok (Prod.ext (hr.trans h) rfl)]; rfl

theorem readResult_of_none (h : Index.entry disk.index bucket key = none) :
    readResult crates dataDir bucket key disk =
    .error (.error s!"Object not found: {bucket}/{key}") := by
  rw [readResult_eq, h]
  rfl

theorem fetchChunk_of_read
    (h : files.read (transferPath dataDir payload.bucket payload.key payload.shardIndex) = .ok data) :
    fetchChunk crates ioText dataDir files payload = .ok ⟨data, crates.sha256 data, true⟩ := by
  rw [transferPath] at h
  have hp : files.pathExists (chunkPath (chunksDir dataDir payload.bucket)
      (safeObjectId payload.bucket payload.key) payload.shardIndex) = true := by
    rw [Files.read] at h
    split at h
    case h_1 hs => rw [Files.pathExists, hs]; rfl
    case h_2    => cases h
  simp only [fetchChunk, hp, h, if_pos]

end Read

section Delete

variable {faults : List Fault} {keyPrefix : Option String} {maxKeys : Option Nat} {b k : String}

theorem deleteObject_items (h : (deleteObject bucket key).run w = (.ok (), w')) :
    bucketItems b w'.disk.index =
    if b = bucket then
      (bucketItems b w.disk.index).filter (·.1 ≠ Bytes.ofString key)
    else
      bucketItems b w.disk.index := by
  rw [deleteObject, Index.deleteObject] at h
  rw [Io.index_ok h, bucketItems, Sled.Db.tree_remove, Sled.Db.tree_openTree]
  simp only [Index.treeName_inj]
  split
  · exact HashMap.sorted_erase
  · rfl

-- The entry of one key is taken out of a bucket.
theorem IsIndexed.matching_filter (h : IsIndexed crates db) :
    matching crates keyPrefix ((bucketItems b db).filter (·.1 ≠ Bytes.ofString key)) =
    (matching crates keyPrefix (bucketItems b db)).filter (·.key ≠ key) := by
  rw [matching, matching, List.filter_filter, List.filterMap_filter]
  rw [List.filter_filterMap, List.filter_filterMap]
  refine List.filterMap_congr fun item hi => ?_
  obtain ⟨m, rfl, hm, _⟩ := h.exists_of_mem hi
  rw [hm]
  by_cases hk : m.key = key
  case pos => simp [hk, Option.filter_some]
  case neg => simp [hk, Bytes.ofString_inj, Option.filter_some]

theorem withheld_of_none (hi : IsIndexed crates disk'.index)
    (hn : Index.entry disk'.index bucket key = none)
    (hf : ∀ i data, disk.files.read (transferPath dataDir bucket key i) ≠ .ok data) :
    Withheld crates ioText dataDir bucket key disk disk' where
  get  := ⟨_, getResult_of_none hn⟩
  read := ⟨_, readResult_of_none hn⟩
  fetch _ j response _ _ := hf j response.data
  list b keyPrefix maxKeys listed hl m hm := by
    rw [hi.listResult, Except.ok.injEq] at hl
    have ⟨_, he⟩ := hi.entry_of_mem (List.mem_of_mem_take (hl ▸ hm))
    rintro ⟨rfl, rfl⟩
    rw [hn] at he
    cases he

theorem entry_none_of_run {es : List (Request × List Fault)} {later : Disk}
    (hn : Index.entry disk.index bucket key = none) (hs : ∀ e ∈ es, ¬ e.1.Stores bucket key)
    (hr : Transition.run (Requests.faultyStep crates text role dataDir) disk es = some later) :
    Index.entry later.index bucket key = none := by
  induction es generalizing disk
  case nil => cases hr; exact hn
  case cons e es hi =>
    rw [List.forall_mem_cons] at hs
    obtain ⟨_, h₁, hr⟩ := Transition.run_cons_some.mp hr
    cases h₁
    refine hi ?_ hs.2 hr
    refine Request.serve_index (P := fun db => Index.entry db bucket key = none)
      (fun db name h => by rwa [Index.entry_openTree]) (fun b k _ _ _ _ hst db h => ?_)
      (fun b k db h => ?_) hn
    · rw [Index.entry_insert, if_neg, h]
      rintro ⟨rfl, rfl⟩
      exact hs.1 hst
    · rw [Index.entry_remove, h, ite_self]

theorem IsIndexed.of_run {es : List (Request × List Fault)} {later : Disk}
    (h : IsIndexed crates disk.index)
    (hr : Transition.run (Requests.faultyStep crates text role dataDir) disk es = some later) :
    IsIndexed crates later.index :=
  Transition.Reachable.invariant (I := fun disk => IsIndexed crates disk.index) ⟨es, hr⟩ h
    fun _ _ _ hd hs => by cases hs; exact serve hd

theorem unaffected_of_deleteObject (hi : IsIndexed crates w.disk.index)
    (h : (deleteObject bucket key).run w = (.ok (), w')) :
    Unaffected crates ioText dataDir bucket key w.disk w'.disk := by
  have hf := deleteObject_files h
  have hx (b k : String) (hne : (b, k) ≠ (bucket, key)) :
      Index.entry w'.disk.index b k = Index.entry w.disk.index b k := by
    rw [deleteObject_entry h, if_neg (by rwa [← Prod.mk.injEq])]
  have hi' : IsIndexed crates w'.disk.index := by
    have hs : (Request.delete bucket key).serve crates (fun _ => "") false "" w = w' :=
      congrArg Prod.snd h
    exact hs ▸ hi.serve
  constructor
  case get   => intro b k hne; rw [getResult_eq, getResult_eq, hf, hx b k hne]
  case read  => intro b k hne; rw [readResult_eq, readResult_eq, hf, hx b k hne]
  case fetch => intro payload; rw [hf]
  case list =>
    intro b keyPrefix maxKeys
    refine ⟨_, _, hi.listResult, hi'.listResult, fun m hm hne => ?_⟩
    rw [deleteObject_items h]
    split
    case isFalse => exact hm
    case isTrue hb =>
      rw [hi.matching_filter]
      refine Lists.mem_take_filter hm ?_
      have := (hi.entry_of_mem (List.mem_of_mem_take hm)).1
      simp only [ne_eq, decide_not, Bool.not_eq_eq_eq_not, Bool.not_true, decide_eq_false_iff_not]
      rintro rfl
      exact hne (by rw [this, hb])

end Delete

-- A deleted object is withheld from then on, and the others are as they were, if and only if nothing
-- was to be read in the places of its shards.
theorem delete_complete_iff {disk₀ : Disk} {faults : List Fault} (h₀ : disk₀.IsBlank)
    (hr : Transition.Reachable (Requests.faultyStep crates text role dataDir) disk₀ disk)
    (h : (deleteObject bucket key).run ⟨disk, faults⟩ = (.ok (), w')) :
    Deletes crates text ioText role dataDir bucket key disk w'.disk ↔
    ∀ i data, disk.files.read (transferPath dataDir bucket key i) ≠ .ok data := by
  have hi := IsIndexed.of_reachable h₀ hr
  have hf := deleteObject_files h
  have ho : Unaffected crates ioText dataDir bucket key disk w'.disk := unaffected_of_deleteObject hi h
  constructor
  case mp =>
    intro hd i data hread
    have hw := hd.withheld [] w'.disk (by simp) rfl
    exact hw.fetch i i _ (fetchChunk_of_read (hf ▸ hread)) rfl hread
  case mpr =>
    intro hn
    refine ⟨fun es later hs hrun => ?_, ho⟩
    have he : Index.entry w'.disk.index bucket key = none := by
      rw [deleteObject_entry h, if_pos ⟨rfl, rfl⟩]
    have hi' : IsIndexed crates w'.disk.index := by
      have hs : (Request.delete bucket key).serve crates text role dataDir ⟨disk, faults⟩ = w' :=
        congrArg Prod.snd h
      exact hs ▸ IsIndexed.serve hi
    exact withheld_of_none (hi'.of_run hrun) (entry_none_of_run he hs hrun) hn

theorem Requests.step_put {data : Bytes} {policy : StoragePolicy} {now : Nat → String}
    {faults : List Fault} {r : Except Failure ObjectMetadata}
    (h : (putObject crates now dataDir bucket key data policy).run ⟨disk, faults⟩ = (r, w')) :
    Requests.faultyStep crates text role dataDir disk (.put bucket key data policy now, faults) =
      some w'.disk := by
  rw [Requests.faultyStep, Request.serve, h]

-- An object in a bucket with a slash is put, and then one in another bucket.
theorem slash_replies :
    ((putText "a/b" "k" "hello" .hot).run .empty).1 = .ok (textMetadata "a/b" "k" "hello" .hot) ∧
    let w := ((putText "a/b" "k" "hello" .hot).run .empty).2
    ((putText "c" "o" "world" .hot).run ⟨w.disk, []⟩).1 =
      .ok (textMetadata "c" "o" "world" .hot) ∧
    ((putText "c" "o" "world" .hot).run ⟨w.disk, []⟩).2.disk.files.entry
      ["d".toList, "chunks".toList, "a".toList, "b".toList, "a".toList] = none := by
  decide +kernel

-- `fetch_chunk` looks for the shards of that object in a directory of the directory of the bucket.
theorem mem_trail_slash (i : Nat) :
    ["d".toList, "chunks".toList, "a".toList, "b".toList, "a".toList] ∈
      (trail [] (transferPath "/d" "a/b" "k" i)).dropLast := by
  have hs : '/' ∉ ("-shard-" ++ i.repr).toList := by
    rw [String.toList_append, List.mem_append, not_or]
    exact ⟨by decide, not_mem_repr rfl⟩
  have hp : transferPath "/d" "a/b" "k" i =
      join (chunksDir "/d" "a/b") (safeObjectId "a/b" "k") ++ ("-shard-" ++ i.repr) := by
    rw [transferPath, chunkPath, chunkId, String.append_assoc]
    exact join_append (by decide)
  rw [hp, trail_append hs]
  decide

-- The object can be read until it is deleted, and then none of the readers yields it. The other one
-- can still be read.
theorem delete_complete_slash :
    ∃ w w₁ w', (putText "a/b" "k" "hello" .hot).run .empty =
        (.ok (textMetadata "a/b" "k" "hello" .hot), w) ∧
      getResult .reference "/d" "a/b" "k" w = .ok (Bytes.ofString "hello") ∧
      (putText "c" "o" "world" .hot).run ⟨w.disk, []⟩ =
        (.ok (textMetadata "c" "o" "world" .hot), w₁) ∧
      (deleteObject "a/b" "k").run ⟨w₁.disk, []⟩ = (.ok (), w') ∧
      Deletes .reference (fun _ => "") (fun _ => "") true "/d" "a/b" "k" w₁.disk w'.disk ∧
      getResult .reference "/d" "c" "o" ⟨w'.disk, []⟩ = .ok (Bytes.ofString "world") := by
  have ⟨hp, hq, hn⟩ := slash_replies
  obtain ⟨w, hp⟩ := Prog.exists_of_fst hp
  simp only [hp] at hq hn
  obtain ⟨w₁, hq⟩ := Prog.exists_of_fst hq
  simp only [hq] at hn
  obtain ⟨w', h⟩ : ∃ w', (deleteObject "a/b" "k").run ⟨w₁.disk, []⟩ = (.ok (), w') := by
    rw [deleteObject, Index.deleteObject]
    exact ⟨_, Io.index_of_no_faults rfl⟩
  have hp' := hp
  have hq' := hq
  rw [putText] at hp' hq'
  have hr : Transition.Reachable (Requests.faultyStep .reference (fun _ => "") true "/d")
      World.empty.disk w₁.disk := by
    refine ⟨[(.put "a/b" "k" (Bytes.ofString "hello") .hot clock, []),
      (.put "c" "o" (Bytes.ofString "world") .hot clock, [])], ?_⟩
    exact Transition.run_of_step (Requests.step_put hp') <|
      Transition.run_of_step (Requests.step_put hq') rfl
  have hcwd : w₁.disk.files.cwd = [] :=
    (putObject_overwrites hq').files.cwd.trans (putObject_overwrites hp').files.cwd
  have hd : Deletes .reference (fun _ => "") (fun _ => "") true "/d" "a/b" "k" w₁.disk w'.disk := by
    refine (delete_complete_iff World.empty_isBlank hr h).mpr fun i data hread => ?_
    -- The directory is not there.
    rw [Files.read] at hread
    split at hread
    case h_2 => cases hread
    case h_1 hs =>
      rw [Files.stat] at hs
      split at hs
      case isFalse => cases hs
      case isTrue hl =>
        have := hl _ (by rw [hcwd]; exact mem_trail_slash i)
        rw [hn] at this
        cases this
  have hget : getResult .reference "/d" "c" "o" ⟨w₁.disk, []⟩ = .ok (Bytes.ofString "world") := by
    rw [getResult_eq, ← getResult_self hq', getResult_eq]
  exact ⟨w, w₁, w', hp, getResult_self hp', hq, h, hd,
    (hd.others.get "c" "o" (by decide)).trans hget⟩

-- The shard of an object is still served after the object has been deleted.
theorem delete_leaves_shards :
    ∃ w w', (putText "b" "k" "hello" .hot).run .empty =
        (.ok (textMetadata "b" "k" "hello" .hot), w) ∧
      (deleteObject "b" "k").run ⟨w.disk, []⟩ = (.ok (), w') ∧
      fetchChunk .reference (fun _ => "") "/d" w'.disk.files ⟨"b", "k", 0⟩ =
        .ok ⟨(hotShard (Bytes.ofString "hello")).data, (hotShard (Bytes.ofString "hello")).hash, true⟩ ∧
      ¬ Deletes .reference (fun _ => "") (fun _ => "") true "/d" "b" "k" w.disk w'.disk := by
  have hp : ((putText "b" "k" "hello" .hot).run .empty).1 =
      .ok (textMetadata "b" "k" "hello" .hot) := by
    decide +kernel
  obtain ⟨w, hp⟩ := Prog.exists_of_fst hp
  have hread : w.disk.files.read (transferPath "/d" "b" "k" 0) =
      .ok (hotShard (Bytes.ofString "hello")).data := by
    rw [putText] at hp
    obtain ⟨shards, hs⟩ := Stored.of_putObject hp
    obtain rfl := hs.encoding.hot
    have hb : '/' ∉ "b".toList := by decide
    rw [Files.read, transferPath, safeObjectId_eq hb, stat_chunkPath hs.dir, hs.files 0 (by simp)]
    rfl
  obtain ⟨w', h⟩ : ∃ w', (deleteObject "b" "k").run ⟨w.disk, []⟩ = (.ok (), w') := by
    rw [deleteObject, Index.deleteObject]
    exact ⟨_, Io.index_of_no_faults rfl⟩
  have hread' : w'.disk.files.read (transferPath "/d" "b" "k" 0) =
      .ok (hotShard (Bytes.ofString "hello")).data :=
    deleteObject_files h ▸ hread
  have hfetch : fetchChunk .reference (fun _ => "") "/d" w'.disk.files ⟨"b", "k", 0⟩ =
      .ok ⟨_, _, true⟩ :=
    fetchChunk_of_read hread'
  refine ⟨w, w', hp, h, hfetch, fun hd => ?_⟩
  exact (hd.withheld [] w'.disk (by simp) rfl).fetch 0 0 _ hfetch rfl hread

end All4One.Storage
