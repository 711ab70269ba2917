import Mathlib.Data.Prod.Basic

namespace Foundation

-- A program on a state that may fail. What it has done before it fails stays done.
structure Prog (σ ε α : Type) where
  run : σ → Except ε α × σ

namespace Prog

variable {σ ε α β : Type}

instance : Monad (Prog σ ε) where
  pure a   := ⟨fun s => (.ok a, s)⟩
  bind x f := ⟨fun s =>
    match x.run s with
    | (.ok a, s')    => (f a).run s'
    | (.error e, s') => (.error e, s')⟩

def ofExcept (r : Except ε α) : Prog σ ε α :=
  ⟨fun s => (r, s)⟩

-- A program that looks at the state.
def reads (f : σ → Except ε α) : Prog σ ε α :=
  ⟨fun s => (f s, s)⟩

-- A program that changes the state.
def update (f : σ → σ) : Prog σ ε Unit :=
  ⟨fun s => (.ok (), f s)⟩

-- `map_err`
def mapErr {ε' : Type} (f : ε → ε') (x : Prog σ ε α) : Prog σ ε' α :=
  ⟨fun s => ((x.run s).1.mapError f, (x.run s).2)⟩

-- A program whose failure is up to whoever runs it.
def attempt (x : Prog σ ε α) : Prog σ ε (Except ε α) :=
  ⟨fun s => (.ok (x.run s).1, (x.run s).2)⟩

-- The outcome of a program that is not to fail.
def succeed (x : Prog σ ε α) (s : σ) : Option (α × σ) :=
  match x.run s with
  | (.ok a, s')   => some (a, s')
  | (.error _, _) => none

def forEach : List α → (α → Prog σ ε Unit) → Prog σ ε Unit
  | [],      _ => pure ()
  | a :: as, f => f a >>= fun _ => forEach as f

variable {x : Prog σ ε α} {f : α → Prog σ ε β} {s s' : σ} {a : α} {b : β} {e : ε}

section

variable {ε' : Type} {g : ε → ε'} {a : α} {e : ε}

@[simp] theorem mapError_ok : (Except.ok a : Except ε α).mapError g = .ok a := rfl
@[simp] theorem mapError_error : (Except.error e : Except ε α).mapError g = .error (g e) := rfl

theorem except_bind_eq_ok {r : Except ε α} {f : α → Except ε β} {b : β} :
    r >>= f = .ok b ↔ ∃ a, r = .ok a ∧ f a = .ok b := by
  cases r
  case error e => exact iff_of_false (fun h => nomatch h) fun ⟨_, h, _⟩ => nomatch h
  case ok a    => exact ⟨fun h => ⟨a, rfl, h⟩, fun ⟨_, ha, h⟩ => Except.ok.inj ha ▸ h⟩

end

@[simp] theorem pure_run : (pure a : Prog σ ε α).run s = (.ok a, s) := rfl
@[simp] theorem ofExcept_run {r : Except ε α} : (ofExcept r).run s = (r, s) := rfl
@[simp] theorem reads_run {f : σ → Except ε α} : (reads f).run s = (f s, s) := rfl

@[simp] theorem update_run {f : σ → σ} : (update f : Prog σ ε Unit).run s = (.ok (), f s) := rfl

theorem mapErr_run {ε' : Type} {f : ε → ε'} :
    (mapErr f x).run s = ((x.run s).1.mapError f, (x.run s).2) :=
  rfl

@[simp] theorem attempt_run : (attempt x).run s = (.ok (x.run s).1, (x.run s).2) := rfl

@[simp] theorem forEach_nil {f : α → Prog σ ε Unit} : forEach [] f = pure () := rfl

theorem attempt_bind {f : Except ε α → Prog σ ε β} :
    (attempt x >>= f).run s = (f (x.run s).1).run (x.run s).2 :=
  rfl

theorem forEach_cons {f : α → Prog σ ε Unit} {as : List α} :
    forEach (a :: as) f = f a >>= fun _ => forEach as f :=
  rfl

theorem mapErr_eq_ok {ε' : Type} {g : ε → ε'} :
    (mapErr g x).run s = (.ok a, s') ↔ x.run s = (.ok a, s') := by
  simp only [mapErr]
  rcases x.run s with ⟨_ | _, _⟩ <;> simp

theorem mapErr_of_error {ε' : Type} {g : ε → ε'} {e : ε} (h : x.run s = (.error e, s')) :
    (mapErr g x).run s = (.error (g e), s') := by
  rw [mapErr_run, h, mapError_error]

theorem succeed_eq_some : x.succeed s = some (a, s') ↔ x.run s = (.ok a, s') := by
  simp only [succeed]
  split
  case h_1 h => simp [h]
  case h_2 h => simp [h]

theorem exists_of_fst {r : Except ε α} (h : (x.run s).1 = r) : ∃ s', x.run s = (r, s') :=
  ⟨_, Prod.ext h rfl⟩

theorem exists_of_snd (h : (x.run s).2 = s') : ∃ r, x.run s = (r, s') :=
  ⟨_, Prod.ext rfl h⟩

theorem bind_of_ok (h : x.run s = (.ok a, s')) : (x >>= f).run s = (f a).run s' := by
  change (match x.run s with | (.ok a, s') => (f a).run s' | (.error e, s') => (.error e, s')) = _
  rw [h]

theorem bind_of_error (h : x.run s = (.error e, s')) : (x >>= f).run s = (.error e, s') := by
  change (match x.run s with | (.ok a, s') => (f a).run s' | (.error e, s') => (.error e, s')) = _
  rw [h]

theorem bind_congr {g : α → Prog σ ε β} (h : ∀ {a s}, (f a).run s = (g a).run s) :
    (x >>= f).run s = (x >>= g).run s := by
  rcases hx : x.run s with ⟨_ | a, s₁⟩
  case error => rw [bind_of_error hx, bind_of_error hx]
  case ok    => rw [bind_of_ok hx, bind_of_ok hx, h]

theorem bind_congr_left {y : Prog σ ε α} (h : x.run s = y.run s) :
    (x >>= f).run s = (y >>= f).run s := by
  rcases hy : y.run s with ⟨_ | a, s₁⟩
  case error => rw [bind_of_error hy, bind_of_error (h.trans hy)]
  case ok    => rw [bind_of_ok hy, bind_of_ok (h.trans hy)]

theorem bind_assoc {γ : Type} {g : β → Prog σ ε γ} :
    (x >>= f >>= g).run s = (x >>= fun a => f a >>= g).run s := by
  rcases h : x.run s with ⟨_ | a, s₁⟩
  case error => rw [bind_of_error h, bind_of_error (bind_of_error h)]
  case ok =>
    rw [bind_of_ok h]
    rcases hf : (f a).run s₁ with ⟨_ | b, s₂⟩
    case error => rw [bind_of_error hf, bind_of_error ((bind_of_ok h).trans hf)]
    case ok    => rw [bind_of_ok hf, bind_of_ok ((bind_of_ok h).trans hf)]

theorem bind_eq_ok : (x >>= f).run s = (.ok b, s') ↔
    ∃ a s₁, x.run s = (.ok a, s₁) ∧ (f a).run s₁ = (.ok b, s') := by
  rcases hx : x.run s with ⟨_ | a, s₁⟩
  case error => simp [bind_of_error hx]
  case ok =>
    rw [bind_of_ok hx]
    exact ⟨fun h => ⟨a, s₁, rfl, h⟩, fun ⟨_, _, h, hf⟩ => by cases h; exact hf⟩

theorem ofExcept_ok_bind : (ofExcept (.ok a) >>= f).run s = (f a).run s :=
  rfl

theorem reads_ok_bind {g : σ → α} : (reads (fun s => .ok (g s)) >>= f).run s = (f (g s)).run s :=
  rfl

theorem ofExcept_bind {r : Except ε α} : (ofExcept r >>= f).run s =
    match r with
    | .ok a    => (f a).run s
    | .error e => (.error e, s) := by
  cases r <;> rfl

theorem forEach_append {f : α → Prog σ ε Unit} {l m : List α} :
    (forEach (l ++ m) f).run s = (forEach l f >>= fun _ => forEach m f).run s := by
  induction l generalizing s
  case nil => rfl
  case cons a l hi =>
    rw [List.cons_append, forEach_cons, forEach_cons, bind_assoc]
    exact bind_congr hi

theorem forEach_congr {f g : α → Prog σ ε Unit} {l : List α}
    (h : ∀ {a s}, (f a).run s = (g a).run s) : (forEach l f).run s = (forEach l g).run s := by
  induction l generalizing s
  case nil => rfl
  case cons a l hi =>
    rw [forEach_cons, forEach_cons, bind_congr_left h]
    exact bind_congr hi

theorem forEach_pair {f : α → Prog σ ε Unit} {a b : α} :
    (forEach [a, b] f).run s = (f a >>= fun _ => f b).run s := by
  rw [forEach_cons]
  refine bind_congr fun {_ s} => ?_
  rcases h : (f b).run s with ⟨_ | _, _⟩
  case error => rw [forEach_cons, bind_of_error h]
  case ok    => rw [forEach_cons, bind_of_ok h]; rfl

theorem forEach_flatMap {f : β → Prog σ ε Unit} {g : α → List β} {l : List α} :
    (forEach (l.flatMap g) f).run s = (forEach l fun a => forEach (g a) f).run s := by
  induction l generalizing s
  case nil => rfl
  case cons a l hi =>
    rw [List.flatMap_cons, forEach_append, forEach_cons]
    exact bind_congr hi

-- In a loop that goes through, the body goes through for each element, between the loops over the
-- elements before and after it.
theorem forEach_append_cons {f : α → Prog σ ε Unit} {l m : List α} :
    (forEach (l ++ a :: m) f).run s = (.ok (), s') ↔
    ∃ s₁ s₂, (forEach l f).run s = (.ok (), s₁) ∧ (f a).run s₁ = (.ok (), s₂) ∧
      (forEach m f).run s₂ = (.ok (), s') := by
  induction l generalizing s
  case nil =>
    rw [List.nil_append, forEach_cons, bind_eq_ok]
    constructor
    · rintro ⟨_, s₂, h⟩
      exact ⟨s, s₂, rfl, h⟩
    · rintro ⟨_, s₂, h₁, h⟩
      cases h₁
      exact ⟨(), s₂, h⟩
  case cons b l hi =>
    rw [List.cons_append, forEach_cons, forEach_cons, bind_eq_ok]
    simp only [hi, bind_eq_ok]
    constructor
    · rintro ⟨_, s₀, h₀, s₁, s₂, h₁, h₂⟩
      exact ⟨s₁, s₂, ⟨(), s₀, h₀, h₁⟩, h₂⟩
    · rintro ⟨s₁, s₂, ⟨_, s₀, h₀, h₁⟩, h₂⟩
      exact ⟨(), s₀, h₀, s₁, s₂, h₁, h₂⟩

-- Whether or not it fails, a program takes a state to a related one.
def Keeps (R : σ → σ → Prop) (x : Prog σ ε α) : Prop :=
  ∀ s, R s (x.run s).2

namespace Keeps

variable {R : σ → σ → Prop}

theorem of_eq {r : Except ε α} (k : Keeps R x) (h : x.run s = (r, s')) : R s s' := by
  have := k s
  rwa [h] at this

theorem pure (refl : ∀ s, R s s) : Keeps R (Pure.pure a : Prog σ ε α) :=
  refl

theorem ofExcept (refl : ∀ s, R s s) (r : Except ε α) : Keeps R (Prog.ofExcept r : Prog σ ε α) :=
  refl

theorem reads (refl : ∀ s, R s s) (f : σ → Except ε α) : Keeps R (Prog.reads f : Prog σ ε α) :=
  refl

theorem mapErr {ε' : Type} {g : ε → ε'} (hx : Keeps R x) : Keeps R (Prog.mapErr g x) :=
  hx

theorem attempt (hx : Keeps R x) : Keeps R (Prog.attempt x) :=
  hx

theorem bind (trans : ∀ s₁ s₂ s₃, R s₁ s₂ → R s₂ s₃ → R s₁ s₃) (hx : Keeps R x)
    (hf : ∀ a, Keeps R (f a)) : Keeps R (x >>= f) := by
  intro s
  rcases h : x.run s with ⟨_ | a, s₁⟩
  case error => rw [bind_of_error h]; exact hx.of_eq h
  case ok    => rw [bind_of_ok h]; exact trans _ _ _ (hx.of_eq h) (hf a s₁)

-- What the first part of a program has done is only followed by the rest.
theorem after (refl : ∀ s, R s s) (hf : ∀ a, Keeps R (f a)) : R (x.run s).2 ((x >>= f).run s).2 := by
  rcases h : x.run s with ⟨_ | a, s₁⟩
  case error => rw [bind_of_error h]; exact refl s₁
  case ok    => rw [bind_of_ok h]; exact hf a s₁

theorem forEach {f : α → Prog σ ε Unit} {l : List α} (refl : ∀ s, R s s)
    (trans : ∀ s₁ s₂ s₃, R s₁ s₂ → R s₂ s₃ → R s₁ s₃) (h : ∀ a ∈ l, Keeps R (f a)) :
    Keeps R (forEach l f) := by
  induction l
  case nil => exact .pure refl
  case cons a l hi =>
    rw [List.forall_mem_cons] at h
    exact .bind trans h.1 fun _ => hi h.2

end Keeps

-- Where a condition holds, a program does not fail, and the condition holds afterwards.
def Completes (I : σ → Prop) (x : Prog σ ε α) : Prop :=
  ∀ s, I s → ∃ a s', x.run s = (.ok a, s') ∧ I s'

namespace Completes

variable {I : σ → Prop}

theorem pure : Completes I (Pure.pure a : Prog σ ε α) :=
  fun s hi => ⟨a, s, rfl, hi⟩

theorem bind (hx : Completes I x) (hf : ∀ a, Completes I (f a)) : Completes I (x >>= f) := by
  intro s hi
  obtain ⟨a, s₁, hr, hi⟩ := hx s hi
  rw [bind_of_ok hr]
  exact hf a s₁ hi

theorem forEach {f : α → Prog σ ε Unit} {l : List α} (h : ∀ a, Completes I (f a)) :
    Completes I (Prog.forEach l f) := by
  induction l
  case nil          => exact .pure
  case cons a l hi  => exact .bind (h a) fun _ => hi

end Completes

-- A program does not see what a map of the states changes, and leaves it as it is.
def Ignores (I : σ → Prop) (g : σ → σ) (x : Prog σ ε α) : Prop :=
  ∀ s, I s → I (x.run s).2 ∧ x.run (g s) = ((x.run s).1, g (x.run s).2)

namespace Ignores

variable {I : σ → Prop} {g : σ → σ}

theorem pure : Ignores I g (Pure.pure a : Prog σ ε α) :=
  fun _ hi => ⟨hi, rfl⟩

theorem ofExcept (r : Except ε α) : Ignores I g (Prog.ofExcept r : Prog σ ε α) :=
  fun _ hi => ⟨hi, rfl⟩

theorem reads {f : σ → Except ε α} (h : ∀ s, I s → f (g s) = f s) :
    Ignores I g (Prog.reads f : Prog σ ε α) :=
  fun s hi => ⟨hi, Prod.ext (h s hi) rfl⟩

theorem update {f : σ → σ} (h : ∀ s, I s → I (f s) ∧ f (g s) = g (f s)) :
    Ignores I g (Prog.update f : Prog σ ε Unit) :=
  fun s hi => ⟨(h s hi).1, Prod.ext rfl (h s hi).2⟩

theorem mapErr {ε' : Type} {f : ε → ε'} (h : Ignores I g x) : Ignores I g (Prog.mapErr f x) := by
  intro s hi
  obtain ⟨hi', he⟩ := h s hi
  exact ⟨hi', by simp only [Prog.mapErr, he]⟩

theorem bind (hx : Ignores I g x) (hf : ∀ a, Ignores I g (f a)) : Ignores I g (x >>= f) := by
  intro s hi
  obtain ⟨hi', he⟩ := hx s hi
  rcases h : x.run s with ⟨_ | a, s₁⟩
  case error =>
    rw [h] at he hi'
    rw [bind_of_error h, bind_of_error he]
    exact ⟨hi', rfl⟩
  case ok =>
    rw [h] at he hi'
    rw [bind_of_ok h, bind_of_ok he]
    exact hf a s₁ hi'

end Ignores

end Prog

end Foundation
