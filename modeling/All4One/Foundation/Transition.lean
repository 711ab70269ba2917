import Mathlib.Algebra.GroupWithZero.Nat
import Mathlib.Data.List.Induction
import Mathlib.Data.Option.Basic

namespace Foundation

-- A system is given by what each event does to a state: `none` if the event is not enabled there.
namespace Transition

variable {σ ε : Type*} (step : σ → ε → Option σ)

def run : σ → List ε → Option σ
  | s, []      => some s
  | s, e :: es => (step s e).bind (run · es)

def Reachable (s₀ s : σ) : Prop :=
  ∃ es, run step s₀ es = some s

-- Every event of a run meets a condition on it and on the state it finds. A run ends where its next
-- event is not enabled.
def Guarded (guard : σ → ε → Prop) : σ → List ε → Prop
  | _, []      => True
  | s, e :: es => ∀ s', step s e = some s' → guard s e ∧ Guarded guard s' es

instance {guard : σ → ε → Prop} [∀ s e, Decidable (guard s e)] :
    (s : σ) → (es : List ε) → Decidable (Guarded step guard s es)
  | _, []      => .isTrue trivial
  | s, e :: es =>
    match h : step s e with
    | none    => .isTrue fun _ hs => nomatch h.symm.trans hs
    | some s' =>
      have : Decidable (Guarded step guard s' es) := instDecidableGuarded s' es
      decidable_of_iff (guard s e ∧ Guarded step guard s' es) <| by simp [Guarded, h]

-- A relation holds between any state of a run and any later one.
def Along (R : σ → σ → Prop) (s₀ : σ) (es : List ε) : Prop :=
  ∀ pre mid s₁ s₂, pre ++ mid <+: es → run step s₀ pre = some s₁ → run step s₁ mid = some s₂ → R s₁ s₂

-- The states a run passes through, its last state included.
def Visits : σ → List ε → σ → Prop
  | s, [],      t => t = s
  | s, e :: es, t => t = s ∨ ∃ s', step s e = some s' ∧ Visits s' es t

-- What the events of a run put out, up to where the run ends.
def outputs {ω : Type*} (out : σ → ε → List ω) : σ → List ε → List ω
  | _, []      => []
  | s, e :: es =>
    match step s e with
    | some s' => out s e ++ outputs out s' es
    | none    => []

variable {step} {s s₀ s₁ s₂ : σ} {e : ε} {es es₁ es₂ : List ε}

theorem run_cons_some :
    run step s (e :: es) = some s₂ ↔ ∃ s₁, step s e = some s₁ ∧ run step s₁ es = some s₂ :=
  Option.bind_eq_some_iff

theorem run_of_step (h : step s e = some s₁) (hr : run step s₁ es = some s₂) :
    run step s (e :: es) = some s₂ :=
  run_cons_some.mpr ⟨s₁, h, hr⟩

theorem run_append : run step s (es₁ ++ es₂) = (run step s es₁).bind (run step · es₂) := by
  induction es₁ generalizing s
  case nil => rfl
  case cons e es hi =>
    simp only [List.cons_append, run]
    cases step s e <;> simp [hi]

theorem run_concat_some : run step s (es ++ [e]) = some s₂ ↔
    ∃ s₁, run step s es = some s₁ ∧ step s₁ e = some s₂ := by
  simp [run_append, run, Option.bind_eq_some_iff]

theorem run_append_of_some (h₁ : run step s es₁ = some s₁) (h₂ : run step s₁ es₂ = some s₂) :
    run step s (es₁ ++ es₂) = some s₂ := by
  simp [run_append, h₁, h₂]

theorem outputs_append {ω : Type*} {out : σ → ε → List ω} (h : run step s es₁ = some s₁) :
    outputs step out s (es₁ ++ es₂) = outputs step out s es₁ ++ outputs step out s₁ es₂ := by
  induction es₁ generalizing s
  case nil => cases h; rfl
  case cons e es hi =>
    have ⟨s', hs, h⟩ := run_cons_some.mp h
    simp only [List.cons_append, outputs, hs, hi h, List.append_assoc]

theorem outputs_concat {ω : Type*} {out : σ → ε → List ω} (h : run step s es = some s₁)
    (hs : step s₁ e = some s₂) :
    outputs step out s (es ++ [e]) = outputs step out s es ++ out s₁ e := by
  rw [outputs_append h]
  simp [outputs, hs]

theorem Reachable.append (h : Reachable step s₀ s₁) (hr : run step s₁ es = some s₂) :
    Reachable step s₀ s₂ := by
  have ⟨_, h⟩ := h
  exact ⟨_, run_append_of_some h hr⟩

-- What holds initially and is kept by every event holds in every reachable state.
theorem Reachable.invariant {I : σ → Prop} (h : Reachable step s₀ s) (init : I s₀)
    (kept : ∀ s e s', I s → step s e = some s' → I s') : I s := by
  have ⟨es, h⟩ := h
  clear ‹Reachable _ _ _›
  induction es generalizing s₀
  case nil => simp only [run, Option.some.injEq] at h; exact h ▸ init
  case cons e es hi =>
    have ⟨s₁, h₁, h⟩ := run_cons_some.mp h
    exact hi (kept _ _ _ init h₁) h

-- The same for a run whose events all meet a condition: the condition helps to keep the invariant,
-- and the invariant holds at every state on the way.
theorem Guarded.invariant {I : σ → Prop} {guard : σ → ε → Prop} (g : Guarded step guard s₀ es)
    (h : Visits step s₀ es s) (init : I s₀)
    (kept : ∀ s e s', I s → guard s e → step s e = some s' → I s') : I s := by
  induction es generalizing s₀
  case nil => exact h ▸ init
  case cons e es hi =>
    rcases h with rfl | ⟨s₁, h₁, h⟩
    · exact init
    · have ⟨hg, g⟩ := g _ h₁
      exact hi g h (kept _ _ _ init hg h₁)

-- What a condition and an invariant that it helps to keep say of each event.
theorem Guarded.imp {I : σ → Prop} {guard guard' : σ → ε → Prop} (g : Guarded step guard s₀ es)
    (init : I s₀) (kept : ∀ s e s', I s → guard s e → step s e = some s' → I s')
    (h : ∀ s e s', I s → guard s e → step s e = some s' → guard' s e) :
    Guarded step guard' s₀ es := by
  induction es generalizing s₀
  case nil => trivial
  case cons e es hi =>
    intro s' hs
    have ⟨hg, g⟩ := g s' hs
    exact ⟨h _ _ _ init hg hs, hi g (kept _ _ _ init hg hs)⟩

theorem guarded_append {guard : σ → ε → Prop} : Guarded step guard s (es₁ ++ es₂) ↔
    Guarded step guard s es₁ ∧ ∀ s', run step s es₁ = some s' → Guarded step guard s' es₂ := by
  induction es₁ generalizing s
  case nil => simp [Guarded, run]
  case cons e es hi =>
    simp only [List.cons_append, Guarded, hi, run_cons_some]
    constructor
    case mp =>
      intro h
      refine ⟨fun s' hs => ⟨(h s' hs).1, (h s' hs).2.1⟩, ?_⟩
      rintro s' ⟨s₁, h₁, hr⟩
      exact (h s₁ h₁).2.2 s' hr
    case mpr =>
      intro ⟨h, h'⟩ s₁ h₁
      exact ⟨(h s₁ h₁).1, (h s₁ h₁).2, fun s' hr => h' s' ⟨s₁, h₁, hr⟩⟩

theorem Guarded.of_forall {guard : σ → ε → Prop} (h : ∀ s, ∀ e ∈ es, guard s e) :
    Guarded step guard s₀ es := by
  induction es generalizing s₀
  case nil => trivial
  case cons e es hi =>
    exact fun _ _ => ⟨h _ e List.mem_cons_self, hi fun s e he => h s e (List.mem_cons_of_mem _ he)⟩

theorem Guarded.of_step {guard : σ → ε → Prop} (h : step s e = some s₁) (hg : guard s e)
    (hr : Guarded step guard s₁ es) : Guarded step guard s (e :: es) := by
  intro s' hs
  cases h.symm.trans hs
  exact ⟨hg, hr⟩

theorem Guarded.and {guard guard' : σ → ε → Prop} (h : Guarded step guard s₀ es)
    (h' : Guarded step guard' s₀ es) : Guarded step (fun s e => guard s e ∧ guard' s e) s₀ es := by
  induction es generalizing s₀
  case nil => trivial
  case cons e es hi =>
    exact fun s' hs => ⟨⟨(h s' hs).1, (h' s' hs).1⟩, hi (h s' hs).2 (h' s' hs).2⟩

theorem Visits.last (h : run step s₀ es = some s) : Visits step s₀ es s := by
  induction es generalizing s₀
  case nil => simp only [run, Option.some.injEq] at h; exact h.symm
  case cons e es hi =>
    have ⟨s₁, h₁, h⟩ := run_cons_some.mp h
    exact .inr ⟨s₁, h₁, hi h⟩

-- Where a preorder is kept by exactly the events that meet a condition, it holds along exactly the
-- runs whose events all do.
theorem along_iff_guarded {R : σ → σ → Prop} {guard : σ → ε → Prop} (refl : ∀ s, R s s)
    (trans : ∀ s₁ s₂ s₃, R s₁ s₂ → R s₂ s₃ → R s₁ s₃)
    (kept : ∀ s e s', step s e = some s' → (R s s' ↔ guard s e)) :
    Along step R s₀ es ↔ Guarded step guard s₀ es := by
  induction es generalizing s₀
  case nil =>
    simp only [Guarded, iff_true]
    intro pre mid s₁ s₂ hp h₁ h₂
    obtain ⟨rfl, rfl⟩ := List.append_eq_nil_iff.mp (List.prefix_nil.mp hp)
    simp only [run, Option.some.injEq] at h₁ h₂
    subst h₁ h₂
    exact refl _
  case cons e es hi =>
    constructor
    case mp =>
      intro h s' hs
      refine ⟨(kept _ _ _ hs).mp ?_, hi.mp fun pre mid s₁ s₂ hp h₁ h₂ => ?_⟩
      · exact h [] [e] s₀ s' (by simp) rfl (by simp [run, hs])
      · exact h (e :: pre) mid s₁ s₂ (by simpa using hp) (by simp [run, hs, h₁]) h₂
    case mpr =>
      intro g pre mid s₁ s₂ hp h₁ h₂
      cases pre
      case nil =>
        simp only [run, Option.some.injEq] at h₁
        subst h₁
        cases mid
        case nil => simp only [run, Option.some.injEq] at h₂; exact h₂ ▸ refl _
        case cons e' mid =>
          obtain ⟨rfl, hm⟩ := List.cons_prefix_cons.mp hp
          have ⟨s', hs, h₂⟩ := run_cons_some.mp h₂
          have ⟨hg, g⟩ := g _ hs
          exact trans _ _ _ ((kept _ _ _ hs).mpr hg) <| hi.mpr g [] mid s' s₂ hm rfl h₂
      case cons e' pre =>
        obtain ⟨rfl, hm⟩ := List.cons_prefix_cons.mp hp
        have ⟨s', hs, h₁⟩ := run_cons_some.mp h₁
        exact hi.mpr (g _ hs).2 pre mid s₁ s₂ hm h₁ h₂

-- Where a property of a state is kept, under an invariant, by exactly the events that meet a
-- condition, it holds in all states of exactly the runs whose events all do.
theorem visits_iff_guarded {I P : σ → Prop} {A : ε → Prop} {guard : σ → ε → Prop} (init : I s₀)
    (holds : P s₀) (allowed : ∀ e ∈ es, A e)
    (invariant : ∀ s e s', I s → A e → step s e = some s' → I s')
    (kept : ∀ s e s', I s → P s → A e → step s e = some s' → (P s' ↔ guard s e)) :
    (∀ s, Visits step s₀ es s → P s) ↔ Guarded step guard s₀ es := by
  induction es generalizing s₀
  case nil =>
    refine iff_of_true ?_ trivial
    rintro s rfl
    exact holds
  case cons e es hi =>
    have ⟨ha, allowed⟩ := List.forall_mem_cons.mp allowed
    have next {s'} (hs : step s₀ e = some s') (hp : P s') :=
      hi (invariant _ _ _ init ha hs) hp allowed
    constructor
    case mp =>
      intro h s' hs
      have hp : P s' := h s' <| .inr ⟨s', hs, by cases es <;> simp [Visits]⟩
      exact ⟨(kept _ _ _ init holds ha hs).mp hp, (next hs hp).mp fun s hv => h s (.inr ⟨s', hs, hv⟩)⟩
    case mpr =>
      intro g s hv
      rcases hv with rfl | ⟨s', hs, hv⟩
      · exact holds
      · have ⟨hg, g⟩ := g s' hs
        exact (next hs ((kept _ _ _ init holds ha hs).mpr hg)).mpr g s hv

-- Where a property that is lost is lost for good, and an event keeps it if and only if it meets a
-- condition, it holds at the end of exactly the runs whose events all do.
theorem holds_iff_guarded {I P : σ → Prop} {guard : σ → ε → Prop} (h : run step s₀ es = some s)
    (init : I s₀) (invariant : ∀ s e s', I s → step s e = some s' → I s')
    (kept : ∀ s e s', I s → step s e = some s' → (P s' ↔ P s ∧ guard s e)) :
    P s ↔ P s₀ ∧ Guarded step guard s₀ es := by
  induction es generalizing s₀
  case nil =>
    simp only [run, Option.some.injEq] at h
    exact h ▸ (and_iff_left trivial).symm
  case cons e es hi =>
    have ⟨s₁, h₁, h⟩ := run_cons_some.mp h
    rw [hi h (invariant _ _ _ init h₁), kept _ _ _ init h₁, and_assoc]
    simp only [Guarded, h₁, Option.some.injEq, forall_eq']

-- What holds of the events so far and the state that they have led to.
theorem run_history {I : List ε → σ → Prop} (h : run step s₀ es = some s) (init : I [] s₀)
    (kept : ∀ es s e s', I es s → step s e = some s' → I (es ++ [e]) s') : I es s := by
  induction es using List.reverseRecOn generalizing s
  case nil => simp only [run, Option.some.injEq] at h; exact h ▸ init
  case append_singleton es e hi =>
    have ⟨s₁, h₁, hs⟩ := run_concat_some.mp h
    exact kept _ _ _ _ (hi h₁) hs

-- Where some events draw on a reserve that others add to, there are no more of the former in a run
-- than the reserve and what is added to it allow.
theorem countP_le_of_run {μ : σ → Nat} {draws : ε → Bool} {gain : ε → Nat}
    (h : run step s₀ es = some s)
    (paid : ∀ s e s', step s e = some s' → μ s' + (if draws e then 1 else 0) ≤ μ s + gain e) :
    μ s + es.countP draws ≤ μ s₀ + (es.map gain).sum := by
  induction es generalizing s₀
  case nil => simp only [run, Option.some.injEq] at h; simp [h]
  case cons e es hi =>
    have ⟨s₁, h₁, h⟩ := run_cons_some.mp h
    have hp := paid _ _ _ h₁
    have hi := hi h
    rw [List.countP_cons, List.map_cons, List.sum_cons]
    omega

-- Where all events of a kind draw on a reserve, they lead to a state in which none of them is possible.
theorem exists_run_of_measure {guard : σ → ε → Prop} {μ : σ → Nat}
    (draws : ∀ s e s', guard s e → step s e = some s' → μ s' < μ s) (s₀ : σ) :
    ∃ es s, Guarded step guard s₀ es ∧ run step s₀ es = some s ∧ ∀ e, guard s e → step s e = none := by
  induction hn : μ s₀ using Nat.strongRecOn generalizing s₀
  case ind n hi =>
    by_cases hF : ∀ e, guard s₀ e → step s₀ e = none
    case pos => exact ⟨[], s₀, trivial, rfl, hF⟩
    case neg =>
      push Not at hF
      have ⟨e, hg, hs⟩ := hF
      have ⟨s₁, h₁⟩ := Option.ne_none_iff_exists'.mp hs
      have ⟨es, s, g, h, hF⟩ := hi _ (hn ▸ draws _ _ _ hg h₁) s₁ rfl
      exact ⟨e :: es, s, .of_step h₁ hg g, run_of_step h₁ h, hF⟩

end Transition

end Foundation
