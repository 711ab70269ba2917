import All4One.Foundation.Bytes
import All4One.Foundation.HashMap

namespace Foundation.Sled

-- A tree is a map that is iterated over in the order of its keys.
abbrev Tree := HashMap Bytes Bytes

namespace Tree

def iter (t : Tree) : List (Bytes × Bytes) :=
  HashMap.sorted t

def last (t : Tree) : Option (Bytes × Bytes) :=
  t.iter.getLast?

end Tree

structure Db where
  trees : HashMap Bytes Tree

namespace Db

def tree (db : Db) (name : Bytes) : Tree :=
  (db.trees.lookup name).getD ∅

-- Opening a tree creates it.
def openTree (db : Db) (name : Bytes) : Db :=
  match db.trees.lookup name with
  | some _ => db
  | none   => { db with trees := db.trees.insert name ∅ }

def insert (db : Db) (name key value : Bytes) : Db :=
  { db with trees := db.trees.insert name ((db.tree name).insert key value) }

def remove (db : Db) (name key : Bytes) : Db :=
  { db with trees := db.trees.insert name ((db.tree name).erase key) }

def get (db : Db) (name key : Bytes) : Option Bytes :=
  (db.tree name).lookup key

-- The tree that every database has.
def defaultTree : Bytes :=
  Bytes.ofString "__sled__default"

-- `tree_names()`, in the order of a hash map.
def IsTreeNames (db : Db) (names : List Bytes) : Prop :=
  names.Nodup ∧ ∀ name, name ∈ names ↔ name = defaultTree ∨ name ∈ db.trees

variable {db : Db} {name name' key key' value : Bytes}

theorem mem_trees_openTree : name ∈ (db.openTree name').trees ↔ name = name' ∨ name ∈ db.trees := by
  cases h : db.trees.lookup name'
  case none => simp [openTree, h, Finmap.mem_insert]
  case some =>
    have hm : name' ∈ db.trees := Finmap.mem_of_lookup_eq_some h
    simp only [openTree, h]
    exact ⟨.inr, Or.rec (fun he => he ▸ hm) id⟩

theorem mem_trees_insert :
    name ∈ (db.insert name' key value).trees ↔ name = name' ∨ name ∈ db.trees :=
  Finmap.mem_insert

theorem mem_trees_remove : name ∈ (db.remove name' key).trees ↔ name = name' ∨ name ∈ db.trees :=
  Finmap.mem_insert

@[simp]
theorem get_openTree : (db.openTree name').get name key = db.get name key := by
  cases h : db.trees.lookup name'
  case some => simp [openTree, h]
  case none =>
    by_cases hn : name = name'
    case pos => subst hn; simp [openTree, h, get, tree]
    case neg => simp [openTree, h, get, tree, Finmap.lookup_insert_of_ne _ hn]

@[simp]
theorem tree_openTree : (db.openTree name').tree name = db.tree name := by
  cases h : db.trees.lookup name'
  case some => simp [openTree, h]
  case none =>
    by_cases hn : name = name'
    case pos => subst hn; simp [openTree, h, tree]
    case neg => simp [openTree, h, tree, Finmap.lookup_insert_of_ne _ hn]

theorem tree_remove : (db.remove name' key).tree name =
    if name = name' then (db.tree name).erase key else db.tree name := by
  by_cases hn : name = name'
  case pos => subst hn; simp [remove, tree]
  case neg => simp [remove, tree, Finmap.lookup_insert_of_ne _ hn, hn]

theorem get_insert :
    (db.insert name' key' value).get name key =
    if name = name' ∧ key = key' then some value else db.get name key := by
  by_cases hn : name = name'
  case pos => subst hn; simp [insert, get, tree, HashMap.lookup_insert']
  case neg => simp [insert, get, tree, Finmap.lookup_insert_of_ne _ hn, hn]

theorem get_remove :
    (db.remove name' key').get name key =
    if name = name' ∧ key = key' then none else db.get name key := by
  by_cases hn : name = name'
  case neg => simp [remove, get, tree, Finmap.lookup_insert_of_ne _ hn, hn]
  case pos =>
    subst hn
    by_cases hk : key = key'
    case pos => subst hk; simp [remove, get, tree]
    case neg => simp [remove, get, tree, Finmap.lookup_erase_ne hk, hk]

theorem mem_iter : (key, value) ∈ (db.tree name).iter ↔ db.get name key = some value :=
  HashMap.mem_sorted

end Db

-- A write that goes to the disk as a whole. A batch does so with all its insertions.
inductive Write
  | insert (tree key value : Bytes)
  | remove (tree key : Bytes)
  | batch (tree : Bytes) (inserts : List (Bytes × Bytes))

namespace Db

def write (db : Db) : Write → Db
  | .insert tree key value => db.insert tree key value
  | .remove tree key       => db.remove tree key
  | .batch tree inserts    => inserts.foldl (fun db kv => db.insert tree kv.1 kv.2) db

def writeAll (db : Db) (writes : List Write) : Db :=
  writes.foldl write db

variable {db : Db} {tree tree' name key : Bytes} {writes writes' : List Write} {keys : List Bytes}
  {inserts : List (Bytes × Bytes)}

@[simp]
theorem writeAll_nil : db.writeAll [] = db := rfl

theorem writeAll_append : db.writeAll (writes ++ writes') = (db.writeAll writes).writeAll writes' :=
  List.foldl_append

theorem get_batch_of_ne (h : name ≠ tree) :
    (db.write (.batch tree inserts)).get name key = db.get name key := by
  rw [write]
  induction inserts generalizing db
  case nil            => rfl
  case cons kv kvs hi => rw [List.foldl_cons, hi, get_insert]; simp [h]

theorem get_removes :
    (db.writeAll (keys.map (.remove tree))).get name key =
    if name = tree ∧ key ∈ keys then none else db.get name key := by
  induction keys generalizing db
  case nil => simp
  case cons k ks hi =>
    have hr : db.writeAll ((k :: ks).map (.remove tree)) =
      (db.remove tree k).writeAll (ks.map (.remove tree)) := rfl
    rw [hr, hi, get_remove]
    by_cases hn : name = tree <;> by_cases hk : key = k <;> simp [hn, hk]

end Db

end Foundation.Sled
