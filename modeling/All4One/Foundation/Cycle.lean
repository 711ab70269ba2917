import Mathlib.Data.Fintype.Card
import Mathlib.Data.Set.Finite.Basic
import Mathlib.Logic.Relation
import Mathlib.Order.WellFounded

open Relation

namespace Foundation

def Acyclic {α : Type*} (r : α → α → Prop) : Prop :=
  ∀ a, ¬ TransGen r a a

namespace Acyclic

variable {α : Type*} {r : α → α → Prop}

-- The elements of a cycle each have a successor among them.
theorem exists_closed_of_cycle {a : α} (h : TransGen r a a) :
    ∃ S : Set α, a ∈ S ∧ ∀ x ∈ S, ∃ y ∈ S, r x y := by
  refine ⟨{ x | ReflTransGen r a x ∧ TransGen r x a }, ⟨.refl, h⟩, ?_⟩
  rintro x ⟨hax, hxa⟩
  have ⟨y, hxy, hya⟩ := TransGen.head'_iff.mp hxa
  refine ⟨y, ⟨hax.tail hxy, ?_⟩, hxy⟩
  exact hya.cases_tail.elim (fun e => e ▸ h) fun ⟨_, hb, hc⟩ => .tail' hb hc

-- Where only finitely many elements have a successor, a set without a cycle in it has an element
-- whose successors all lie outside of it.
theorem exists_sink (ha : Acyclic r) (hf : { x | ∃ y, r x y }.Finite) {S : Set α}
    (hS : S.Nonempty) : ∃ x ∈ S, ∀ y ∈ S, ¬ r x y := by
  by_contra hc
  push Not at hc
  have hsub : S ⊆ { x | ∃ y, r x y } := fun x hx => (hc x hx).imp fun _ h => h.2
  have := (hf.subset hsub).to_subtype
  let r' (x y : S) : Prop := TransGen r y.val x.val
  have : IsTrans S r' := ⟨fun _ _ _ h₁ h₂ => h₂.trans h₁⟩
  have : Std.Irrefl r' := ⟨fun x => ha x.val⟩
  have hw := Finite.wellFounded_of_trans_of_irrefl r'
  have ⟨x, _, hx⟩ := hw.has_min Set.univ ⟨⟨hS.some, hS.some_mem⟩, trivial⟩
  have ⟨y, hy, hr⟩ := hc x.val x.property
  exact hx ⟨y, hy⟩ trivial (.single hr)

end Acyclic

end Foundation
