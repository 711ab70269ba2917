import All4One.Foundation.Prog

namespace Foundation.Prog

variable {σ ε ε' α β : Type}

-- From a state with a precondition, a program that returns does so with one postcondition, and one that
-- fails leaves another.
def Triple (P : σ → Prop) (x : Prog σ ε α) (Q : α → σ → Prop) (E : σ → Prop) : Prop :=
  ∀ s, P s → (∀ a s', x.run s = (.ok a, s') → Q a s') ∧ ∀ e s', x.run s = (.error e, s') → E s'

namespace Triple

variable {P P' : σ → Prop} {x : Prog σ ε α} {f : α → Prog σ ε β} {Q Q' : α → σ → Prop}
  {R : β → σ → Prop} {E E' : σ → Prop} {a : α}

theorem pure (h : ∀ s, P s → Q a s) : Triple P (Pure.pure a : Prog σ ε α) Q E :=
  fun s hp => ⟨fun _ _ hr => (by cases hr; exact h s hp), fun _ _ hr => (by cases hr)⟩

theorem ofExcept {r : Except ε α} (ok : ∀ a s, r = .ok a → P s → Q a s)
    (error : ∀ e s, r = .error e → P s → E s) : Triple P (Prog.ofExcept r) Q E := by
  intro s hp
  constructor
  case left  => intro a s' hr; cases hr; exact ok a s rfl hp
  case right => intro e s' hr; cases hr; exact error e s rfl hp

-- A look at the state changes nothing.
theorem reads {g : σ → α} (h : ∀ s, P s → Q (g s) s) :
    Triple P (Prog.reads fun s => .ok (g s) : Prog σ ε α) Q E :=
  fun s hp => ⟨fun _ _ hr => (by cases hr; exact h s hp), fun _ _ hr => (by cases hr)⟩

theorem update {g : σ → σ} {Q : Unit → σ → Prop} (h : ∀ s, P s → Q () (g s)) :
    Triple P (Prog.update g : Prog σ ε Unit) Q E :=
  fun s hp => ⟨fun _ _ hr => (by cases hr; exact h s hp), fun _ _ hr => (by cases hr)⟩

theorem bind (hx : Triple P x Q E) (hf : ∀ a, Triple (Q a) (f a) R E) : Triple P (x >>= f) R E := by
  intro s hp
  obtain ⟨ok, error⟩ := hx s hp
  rcases hr : x.run s with ⟨e | a, s₁⟩
  case ok => rw [bind_of_ok hr]; exact hf a s₁ (ok a s₁ hr)
  case error =>
    rw [bind_of_error hr]
    constructor
    case left  => intro b s' h; cases h
    case right => intro e' s' h; cases h; exact error e s₁ hr

theorem mapErr {g : ε → ε'} (hx : Triple P x Q E) : Triple P (Prog.mapErr g x) Q E := by
  intro s hp
  obtain ⟨ok, error⟩ := hx s hp
  refine ⟨fun a s' hr => ok a s' (mapErr_eq_ok.mp hr), fun e s' hr => ?_⟩
  rw [mapErr_run] at hr
  rcases h : x.run s with ⟨e' | a, s₁⟩ <;> rw [h] at hr <;> cases hr
  exact error e' s₁ h

theorem weaken (hx : Triple P x Q E) (pre : ∀ s, P' s → P s) (post : ∀ a s, Q a s → Q' a s)
    (error : ∀ s, E s → E' s) : Triple P' x Q' E' :=
  fun s hp => ⟨fun a s' hr => post a s' ((hx s (pre s hp)).1 a s' hr),
    fun e s' hr => error s' ((hx s (pre s hp)).2 e s' hr)⟩

-- What a program keeps is a postcondition either way.
theorem of_keeps {K : σ → σ → Prop} {I : σ → Prop} (hx : Keeps K x) (h : ∀ s s', P s → K s s' → I s') :
    Triple P x (fun _ => I) I :=
  fun s hp => ⟨fun _ s' hr => h s s' hp (hx.of_eq hr), fun _ s' hr => h s s' hp (hx.of_eq hr)⟩

-- What a program keeps may be added on both sides.
theorem frame {K : σ → σ → Prop} {I : σ → Prop} (hx : Triple P x Q E) (hk : Keeps K x)
    (h : ∀ s s', I s → K s s' → I s') :
    Triple (fun s => P s ∧ I s) x (fun a s => Q a s ∧ I s) fun s => E s ∧ I s :=
  fun s hp => ⟨fun a s' hr => ⟨(hx s hp.1).1 a s' hr, h s s' hp.2 (hk.of_eq hr)⟩,
    fun e s' hr => ⟨(hx s hp.1).2 e s' hr, h s s' hp.2 (hk.of_eq hr)⟩⟩

end Triple

end Foundation.Prog
