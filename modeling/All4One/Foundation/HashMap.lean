import Mathlib.Data.Finmap
import Mathlib.Data.Finset.Sort

namespace Foundation

-- A hash map is the finite map it stands for: two maps with the same bindings are equal, whatever
-- order an iteration over them happens to take.
abbrev HashMap (κ ν : Type) := Finmap fun _ : κ => ν

namespace HashMap

variable {κ ν : Type} [DecidableEq κ]

-- `if let Some(v) = m.get_mut(k) { *v = f(v) }`
def modify (m : HashMap κ ν) (k : κ) (f : ν → ν) : HashMap κ ν :=
  match m.lookup k with
  | some v => m.insert k (f v)
  | none   => m

variable {m : HashMap κ ν} {k k' : κ} {f : ν → ν}

@[simp]
theorem lookup_modify_self : (m.modify k f).lookup k = (m.lookup k).map f := by
  cases h : m.lookup k <;> simp [modify, h]

@[simp]
theorem lookup_modify_of_ne (h : k' ≠ k) : (m.modify k f).lookup k' = m.lookup k' := by
  cases hk : m.lookup k <;> simp [modify, hk, Finmap.lookup_insert_of_ne _ h]

theorem lookup_modify :
    (m.modify k f).lookup k' = if k' = k then (m.lookup k).map f else m.lookup k' := by
  split
  case isTrue h  => subst h; simp
  case isFalse h => simp [h]

theorem lookup_insert' {v : ν} :
    Finmap.lookup k' (Finmap.insert k v m) = if k' = k then some v else m.lookup k' := by
  split
  case isTrue h  => subst h; simp
  case isFalse h => simp [Finmap.lookup_insert_of_ne _ h]

section Sorted

variable [LinearOrder κ] {v : ν}

-- The bindings in the order of their keys.
def sorted (m : HashMap κ ν) : List (κ × ν) :=
  (m.keys.sort (· ≤ ·)).filterMap fun k => (m.lookup k).map (k, ·)

theorem mem_sorted : (k, v) ∈ m.sorted ↔ m.lookup k = some v := by
  simp only [sorted, List.mem_filterMap, Finset.mem_sort, Option.map_eq_some_iff, Prod.mk.injEq]
  constructor
  case mp =>
    rintro ⟨k', _, v', h, rfl, rfl⟩
    exact h
  case mpr =>
    intro h
    exact ⟨k, Finmap.mem_keys.mpr (Finmap.mem_of_lookup_eq_some h), v, h, rfl, rfl⟩

theorem pairwise_sorted : m.sorted.Pairwise fun b b' => b.1 < b'.1 := by
  rw [sorted, List.pairwise_filterMap]
  refine (Finset.sortedLT_sort m.keys).pairwise.imp ?_
  intro k k' hk b hb b' hb'
  have ⟨_, _, hb⟩ := Option.map_eq_some_iff.mp hb
  have ⟨_, _, hb'⟩ := Option.map_eq_some_iff.mp hb'
  rw [← hb, ← hb']
  exact hk

-- The bindings are in the order of their keys in one way only.
theorem eq_sorted {l : List (κ × ν)} (h : l.Pairwise fun b b' => b.1 < b'.1)
    (hm : ∀ k v, (k, v) ∈ l ↔ m.lookup k = some v) : l = m.sorted := by
  have : Std.Irrefl fun b b' : κ × ν => b.1 < b'.1 := ⟨fun b => lt_irrefl b.1⟩
  have : Std.Antisymm fun b b' : κ × ν => b.1 < b'.1 :=
    ⟨fun _ _ h h' => absurd h' (lt_asymm h)⟩
  exact h.eq_of_mem_iff pairwise_sorted fun ⟨k, v⟩ => by rw [hm, mem_sorted]

theorem sorted_erase : sorted (Finmap.erase k m) = m.sorted.filter (·.1 ≠ k) := by
  refine (eq_sorted (pairwise_sorted.filter _) fun k' v => ?_).symm
  rw [List.mem_filter, mem_sorted]
  by_cases hk : k' = k
  case pos => subst hk; simp
  case neg => simp [hk, Finmap.lookup_erase_ne hk]

end Sorted

end HashMap

-- A serialisation format, as far as a store relies on it: what was written is read back.
structure Serde (α β : Type) where
  toVec           : α → β
  fromSlice       : β → Option α
  fromSlice_toVec : ∀ a, fromSlice (toVec a) = some a

namespace Serde

theorem toVec_injective {α β : Type} (serde : Serde α β) : Function.Injective serde.toVec := by
  intro a a' h
  have hs := congrArg serde.fromSlice h
  rwa [serde.fromSlice_toVec, serde.fromSlice_toVec, Option.some_inj] at hs

-- The format that stores the value as it is.
def raw (α : Type) : Serde α α where
  toVec           := id
  fromSlice       := some
  fromSlice_toVec := fun _ => rfl

end Serde

end Foundation
