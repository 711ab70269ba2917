import All4One.Foundation.Prog
import All4One.Foundation.Transition
import Mathlib.Logic.Function.Basic

namespace Foundation

-- A program that is done one operation at a time, and what it returns once all have gone through.
structure Thread (ι ε α : Type) where
  todo   : List ι
  result : Except ε α

-- Threads that share a state.
structure Threads (σ τ ι ε α : Type) where
  state   : σ
  threads : τ → Thread ι ε α

variable {σ τ ι ε α : Type}

-- One operation after the other, with nobody in between.
def Thread.prog (perform : ι → Prog σ ε Unit) (t : Thread ι ε α) : Prog σ ε α :=
  .forEach t.todo perform >>= fun _ => .ofExcept t.result

namespace Threads

variable [DecidableEq τ]

def advance (s : Threads σ τ ι ε α) (t : τ) (ops : List ι) (state : σ) : Threads σ τ ι ε α where
  state   := state
  threads := Function.update s.threads t ⟨ops, (s.threads t).result⟩

def fail (s : Threads σ τ ι ε α) (t : τ) (e : ε) (state : σ) : Threads σ τ ι ε α where
  state   := state
  threads := Function.update s.threads t ⟨[], .error e⟩

variable (perform : τ → ι → Prog σ ε Unit)

-- The next operation of a thread. One that fails is its last.
def step (s : Threads σ τ ι ε α) (t : τ) : Option (Threads σ τ ι ε α) :=
  match (s.threads t).todo with
  | []        => none
  | op :: ops =>
    match (perform t op).run s.state with
    | (.ok (), state)   => some (s.advance t ops state)
    | (.error e, state) => some (s.fail t e state)

variable {perform}

inductive Step (s : Threads σ τ ι ε α) (t : τ) : Threads σ τ ι ε α → Prop
  | done {op ops state} :
    (s.threads t).todo = op :: ops →
    (perform t op).run s.state = (.ok (), state) →
    Step s t (s.advance t ops state)
  | failed {op ops e state} :
    (s.threads t).todo = op :: ops →
    (perform t op).run s.state = (.error e, state) →
    Step s t (s.fail t e state)

variable {s s₀ s' : Threads σ τ ι ε α} {t t' : τ} {ts : List τ} {op : ι} {ops : List ι} {state : σ}
  {e : ε} {a : α}

@[simp] theorem advance_state : (s.advance t ops state).state = state := rfl
@[simp] theorem fail_state : (s.fail t e state).state = state := rfl

@[simp]
theorem advance_self : (s.advance t ops state).threads t = ⟨ops, (s.threads t).result⟩ :=
  Function.update_self ..

@[simp]
theorem advance_of_ne (h : t' ≠ t) : (s.advance t ops state).threads t' = s.threads t' :=
  Function.update_of_ne h _ _

@[simp]
theorem fail_self : (s.fail t e state).threads t = ⟨[], .error e⟩ :=
  Function.update_self ..

@[simp]
theorem fail_of_ne (h : t' ≠ t) : (s.fail t e state).threads t' = s.threads t' :=
  Function.update_of_ne h _ _

theorem Step.of_step (h : step perform s t = some s') : @Step σ τ ι ε α _ perform s t s' := by
  simp only [step] at h
  split at h
  case h_1 => cases h
  case h_2 ht =>
    split at h
    case h_1 hp => cases h; exact done ht hp
    case h_2 hp => cases h; exact failed ht hp

theorem step_of_ok (ht : (s.threads t).todo = op :: ops)
    (hp : (perform t op).run s.state = (.ok (), state)) :
    step perform s t = some (s.advance t ops state) := by
  simp only [step, ht, hp]

theorem step_of_error (ht : (s.threads t).todo = op :: ops)
    (hp : (perform t op).run s.state = (.error e, state)) :
    step perform s t = some (s.fail t e state) := by
  simp only [step, ht, hp]

-- Nobody has to come in between: a thread that goes on alone does what its program does.
theorem exists_run_of_prog {r : Except ε α}
    (h : ((s.threads t).prog (perform t)).run s.state = (r, state)) :
    ∃ n, Transition.run (step perform) s (List.replicate n t) =
      some ⟨state, Function.update s.threads t ⟨[], r⟩⟩ := by
  generalize ht : (s.threads t).todo = todo
  induction todo generalizing s
  case nil =>
    rw [Thread.prog, ht, Prog.forEach_nil, Prog.bind_of_ok Prog.pure_run] at h
    cases h
    refine ⟨0, ?_⟩
    have hs : (⟨[], (s.threads t).result⟩ : Thread ι ε α) = s.threads t := by rw [← ht]
    rw [hs, Function.update_eq_self]
    rfl
  case cons op ops hi =>
    rcases hp : (perform t op).run s.state with ⟨_ | _, state₁⟩
    case error e =>
      rw [Thread.prog, ht, Prog.forEach_cons, Prog.bind_of_error (Prog.bind_of_error hp)] at h
      cases h
      exact ⟨1, Transition.run_of_step (step_of_error ht hp) rfl⟩
    case ok =>
      have hs := step_of_ok ht hp
      rw [Thread.prog, ht, Prog.forEach_cons, Prog.bind_assoc, Prog.bind_of_ok hp] at h
      have ⟨n, hn⟩ := hi (s := s.advance t ops state₁) (by simpa [Thread.prog] using h) (by simp)
      exact ⟨n + 1, Transition.run_of_step hs (by simpa [advance] using hn)⟩

-- A failure is final.
theorem result_of_step (h : step perform s t = some s')
    (hr : (s'.threads t').result = .ok a) : (s.threads t').result = .ok a := by
  cases Step.of_step h
  case done =>
    by_cases ht : t' = t
    · subst ht; simpa using hr
    · simpa [ht] using hr
  case failed =>
    by_cases ht : t' = t
    · subst ht; simp at hr
    · simpa [ht] using hr

theorem result_of_run (h : Transition.run (step perform) s ts = some s')
    (hr : (s'.threads t').result = .ok a) : (s.threads t').result = .ok a := by
  induction ts generalizing s
  case nil => simp only [Transition.run, Option.some.injEq] at h; exact h ▸ hr
  case cons t ts hi =>
    obtain ⟨s₁, h₁, h⟩ := Transition.run_cons_some.mp h
    exact result_of_step h₁ (hi h)

-- What a thread still has to do is the end of what it had to do.
theorem suffix_of_step (h : step perform s t = some s') :
    (s'.threads t').todo <:+ (s.threads t').todo := by
  cases Step.of_step h
  case done ops _ ht hp =>
    by_cases hne : t' = t
    case pos => subst hne; simp [ht]
    case neg => simp [hne]
  case failed =>
    by_cases hne : t' = t
    case pos => subst hne; simp
    case neg => simp [hne]

theorem suffix_of_run (h : Transition.run (step perform) s ts = some s') :
    (s'.threads t').todo <:+ (s.threads t').todo := by
  induction ts generalizing s
  case nil =>
    simp only [Transition.run, Option.some.injEq] at h
    exact h ▸ List.suffix_rfl
  case cons t ts hi =>
    obtain ⟨s₁, h₁, h⟩ := Transition.run_cons_some.mp h
    exact (hi h).trans (suffix_of_step h₁)

-- Where all threads return without an error, what each operation that goes through keeps holds to
-- the end.
theorem invariant {I : Threads σ τ ι ε α → Prop} {guard : Threads σ τ ι ε α → τ → Prop}
    (g : Transition.Guarded (step perform) guard s₀ ts)
    (h : Transition.run (step perform) s₀ ts = some s)
    (hr : ∀ t, ∃ a, (s.threads t).result = .ok a) (init : I s₀)
    (kept : ∀ s t op ops state, I s → guard s t → (s.threads t).todo = op :: ops →
      (perform t op).run s.state = (.ok (), state) →
      I (s.advance t ops state)) : I s := by
  induction ts generalizing s₀
  case nil => simp only [Transition.run, Option.some.injEq] at h; exact h ▸ init
  case cons t ts hi =>
    obtain ⟨s₁, h₁, h⟩ := Transition.run_cons_some.mp h
    obtain ⟨hg, g⟩ := g _ h₁
    refine hi g h ?_
    cases Step.of_step h₁
    case done ht hp => exact kept _ _ _ _ _ init hg ht hp
    case failed =>
      obtain ⟨a, ha⟩ := hr t
      have := result_of_run h ha
      simp at this

end Threads

end Foundation
