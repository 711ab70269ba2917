import Mathlib.Algebra.GroupWithZero.Nat
import Mathlib.Data.List.Nodup
import Mathlib.Data.List.Perm.Basic
import Mathlib.Data.List.Sort

namespace Foundation.Lists

variable {α β : Type*} {l : List α} {f : α → α} {g : α → β} {k : Nat} {a b : α}

theorem getElem?_modify_some {i : Nat} (ha : l[k]? = some a) (hb : (l.modify k f)[i]? = some b) :
    k = i ∧ b = f a ∨ l[i]? = some b := by
  rw [List.getElem?_modify] at hb
  by_cases hk : k = i
  case pos => subst hk; simp only [ha, ↓reduceIte] at hb; exact .inl ⟨rfl, (Option.some.inj hb).symm⟩
  case neg => simp only [hk, ↓reduceIte, id_map'] at hb; exact .inr hb

theorem mem_modify (ha : l[k]? = some a) (hb : b ∈ l.modify k f) : b = f a ∨ b ∈ l := by
  have ⟨_, hi⟩ := List.mem_iff_getElem?.mp hb
  exact (getElem?_modify_some ha hi).imp And.right List.mem_of_getElem?

theorem getElem?_concat (hb : (l ++ [a])[k]? = some b) : l[k]? = some b ∨ l[k]? = none ∧ b = a := by
  rw [List.getElem?_append] at hb
  split at hb
  case isTrue  => exact .inl hb
  case isFalse h =>
    refine .inr ⟨List.getElem?_eq_none (Nat.le_of_not_lt h), ?_⟩
    exact List.mem_singleton.mp (List.mem_of_getElem? hb)

theorem map_modify (h : ∀ a, g (f a) = g a) (l : List α) (k : Nat) :
    (l.modify k f).map g = l.map g := by
  refine List.ext_getElem? fun i => ?_
  simp only [List.getElem?_map, List.getElem?_modify]
  split <;> cases l[i]? <;> simp [h]

-- Where the elements are told apart by a key, the one that changes is the only one with its key.
theorem mem_modify_of_nodup (hn : (l.map g).Nodup) (ha : l[k]? = some a)
    (hb : b ∈ l.modify k f) : b = f a ∨ b ∈ l ∧ g b ≠ g a := by
  have ⟨i, hi⟩ := List.mem_iff_getElem?.mp hb
  rw [List.getElem?_modify] at hi
  by_cases hk : k = i
  case pos => subst hk; simp only [ha, ↓reduceIte] at hi; exact .inl (Option.some.inj hi).symm
  case neg =>
    simp only [hk, ↓reduceIte, id_map'] at hi
    refine .inr ⟨List.mem_of_getElem? hi, fun h => hk ?_⟩
    have hl := (List.getElem?_eq_some_iff.mp ha).1
    have hl : k < (l.map g).length := by simpa using hl
    exact (List.getElem?_inj hl hn).mp (by simp [ha, hi, h])

theorem count_map_eraseIdx [BEq β] (ha : l[k]? = some a) (x : β) :
    ((l.eraseIdx k).map g).count x + (if g a == x then 1 else 0) = (l.map g).count x := by
  obtain ⟨hk, rfl⟩ := List.getElem?_eq_some_iff.mp ha
  rw [← ((List.getElem_cons_eraseIdx_perm hk).map g).count_eq, List.map_cons, List.count_cons]

-- What counts for one thing does not count for another one.
theorem countP_add_countP_le {p q r : α → Bool} (hp : ∀ a, p a → r a) (hq : ∀ a, q a → r a)
    (hd : ∀ a, p a → q a = false) : l.countP p + l.countP q ≤ l.countP r := by
  induction l
  case nil => simp
  case cons a l hi =>
    simp only [List.countP_cons]
    cases hpa : p a
    case true => rw [hd a hpa, if_pos (hp a hpa)]; simp; omega
    case false =>
      cases hqa : q a
      case true  => rw [if_pos (hq a hqa)]; simp; omega
      case false => simp; omega

-- Where one element changes, so does a sum by as much.
theorem sum_map_modify {w : α → Nat} (ha : l[k]? = some a) :
    ((l.modify k f).map w).sum + w a = (l.map w).sum + w (f a) := by
  induction l generalizing k
  case nil => simp at ha
  case cons b l hi =>
    cases k
    case zero =>
      simp only [List.getElem?_cons_zero, Option.some.injEq] at ha
      subst ha
      simp only [List.modify_zero_cons, List.map_cons, List.sum_cons]
      omega
    case succ k =>
      simp only [List.getElem?_cons_succ] at ha
      have := hi ha
      simp only [List.modify_succ_cons, List.map_cons, List.sum_cons]
      omega

-- What is among the first elements stays there when others are taken out.
theorem mem_take_filter {p : α → Bool} {n : Nat} (h : a ∈ l.take n) (ha : p a) :
    a ∈ (l.filter p).take n := by
  have hp : (l.take n).filter p <+: (l.filter p) := (List.take_prefix n l).filter p
  have hl : ((l.take n).filter p).length ≤ n :=
    Nat.le_trans (List.length_filter_le _ _) (List.length_take_le n l)
  have ht : (l.take n).filter p <+: (l.filter p).take n := List.prefix_take_iff.mpr ⟨hp, hl⟩
  exact ht.subset (List.mem_filter.mpr ⟨h, ha⟩)

theorem exists_of_forall {p : Nat → α → Prop} {n : Nat} (h : ∀ i < n, ∃ a, p i a) :
    ∃ l : List α, l.length = n ∧ ∀ i (hi : i < l.length), p i l[i] := by
  choose f hf using fun i : Fin n => h i i.isLt
  exact ⟨List.ofFn f, List.length_ofFn, fun i hi => by simpa using hf ⟨i, by simpa using hi⟩⟩

-- What is looked for by something that nothing else has is found.
theorem find?_of_injective [DecidableEq β] (hg : Function.Injective g) (ha : a ∈ l) :
    l.find? (fun b => g a = g b) = some a := by
  obtain ⟨b, hb⟩ := Option.isSome_iff_exists.mp
    (List.find?_isSome (p := fun b => decide (g a = g b)).mpr ⟨a, ha, decide_eq_true rfl⟩)
  have := List.find?_some hb
  rw [hb, hg (of_decide_eq_true this)]

-- What is found first in a sorted list is the least of what might be found.
theorem find?_insertionSort {r : α → α → Prop} [DecidableRel r] [Std.Total r] [IsTrans α r]
    {p : α → Bool} (h : (l.insertionSort r).find? p = some a) :
    a ∈ l ∧ p a ∧ ∀ b ∈ l, p b → r a b := by
  have ⟨hp, as, bs, hs, has⟩ := List.find?_eq_some_iff_append.mp h
  have hmem (b : α) : b ∈ l ↔ b ∈ as ++ a :: bs := by
    rw [← hs, List.mem_insertionSort]
  have hsort := List.pairwise_insertionSort r l
  rw [hs, List.pairwise_append, List.pairwise_cons] at hsort
  refine ⟨(hmem a).mpr (by simp), hp, fun b hb hpb => ?_⟩
  rcases List.mem_append.mp ((hmem b).mp hb) with hb | hb
  · have := has b hb
    simp [hpb] at this
  · rcases List.mem_cons.mp hb with rfl | hb
    · exact (Std.Total.total b b).elim id id
    · exact hsort.2.1.1 b hb

-- The lists that are made of the elements of two lists, those of each in their order.
def interleavings : List α → List α → List (List α)
  | [], l                => [l]
  | l, []                => [l]
  | a :: l₁, b :: l₂ =>
    (interleavings l₁ (b :: l₂)).map (a :: ·) ++ (interleavings (a :: l₁) l₂).map (b :: ·)
termination_by l₁ l₂ => l₁.length + l₂.length

end Foundation.Lists
