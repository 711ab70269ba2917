import All4One.Storage.DbCache

open Foundation Transition

namespace All4One.Storage.DbCache

variable {ι : Type} {error : String} {s s' : DbCache ι} {t t' : ι} {ts : List ι}

-- The database is open once at most, and the one that has it open is a task that is about to insert it
-- or the cache.
structure Valid (s : DbCache ι) : Prop where
  returned : ∀ t db, s.phase t = .returned (.ok db) → s.cached = some db
  opened   : ∀ t db, s.phase t = .opened db → s.cached = none ∧ s.isOpen ≠ []
  unique   : ∀ t t' db db', s.phase t = .opened db → s.phase t' = .opened db' → t = t'
  cached   : ∀ db, s.cached = some db → s.isOpen ≠ []
  isOpen   : s.isOpen ≠ [] → (∃ db, s.cached = some db) ∨ ∃ t db, s.phase t = .opened db

theorem Valid.init : Valid (init : DbCache ι) where
  returned _ _ h        := by cases h
  opened _ _ h          := by cases h
  unique _ _ _ _ h      := by cases h
  cached _ h            := by cases h
  isOpen h              := absurd rfl h

-- No task has failed, and none that is about to open the database will find it open.
structure Sound (s : DbCache ι) : Prop where
  ok     : ∀ t e, s.phase t ≠ .returned (.error e)
  free   : ∀ t, s.phase t = .opening → s.isOpen = []
  unique : ∀ t t', s.phase t = .opening → s.phase t' = .opening → t = t'

theorem Sound.init : Sound (init : DbCache ι) where
  ok _ _ h       := by cases h
  free _ h       := by cases h
  unique _ _ h _ := by cases h

-- At the end nothing is wrong if and only if all have got the same handle.
theorem oneHandle_iff_sound (hv : Valid s) (hc : s.Complete) : s.OneHandle ↔ Sound s := by
  constructor
  case mp =>
    rintro ⟨db, h⟩
    refine ⟨fun t e ht => ?_, fun t ht => ?_, fun t _ ht _ => ?_⟩
    · cases h t _ ht
    · rcases hc t with hl | ⟨r, hr⟩
      · rw [ht] at hl; cases hl
      · rw [ht] at hr; cases hr
    · rcases hc t with hl | ⟨r, hr⟩
      · rw [ht] at hl; cases hl
      · rw [ht] at hr; cases hr
  case mpr =>
    intro h
    refine ⟨s.cached.getD 0, fun t r ht => ?_⟩
    cases r
    case error e => exact absurd ht (h.ok t e)
    case ok db   => rw [hv.returned t db ht]; rfl

variable [DecidableEq ι]

-- A task goes on, and nothing else changes.
theorem Valid.goTo {p : Phase} (h : Valid s) (ho : ∀ db, s.phase t ≠ .opened db)
    (hp : ∀ db, p ≠ .opened db) (hr : ∀ db, p = .returned (.ok db) → s.cached = some db) :
    Valid (s.goTo t p) where
  returned t' db ht := by
    rw [goTo_phase] at ht
    split at ht
    case isTrue  => exact hr db ht
    case isFalse => exact h.returned t' db ht
  opened t' db ht := by
    rw [goTo_phase] at ht
    split at ht
    case isTrue  => exact absurd ht (hp db)
    case isFalse => exact h.opened t' db ht
  unique t' t'' db db' ht ht' := by
    rw [goTo_phase] at ht ht'
    split at ht
    case isTrue  => exact absurd ht (hp db)
    case isFalse =>
      split at ht'
      case isTrue  => exact absurd ht' (hp db')
      case isFalse => exact h.unique t' t'' db db' ht ht'
  cached := h.cached
  isOpen hi := by
    refine (h.isOpen hi).imp_right fun ⟨t', db, ht⟩ => ⟨t', db, ?_⟩
    rw [goTo_phase, if_neg (fun (he : t' = t) => ho db (he ▸ ht)), ht]

theorem Valid.step (h : Valid s) (hs : step error s t = some s') : Valid s' := by
  cases Step.of_step hs
  case hit db hp hc =>
    refine h.goTo (by simp [hp]) (by simp) fun db' hd => ?_
    cases hd
    exact hc
  case miss hp hc    => exact h.goTo (by simp [hp]) (by simp) (by simp)
  case refused hp hi => exact h.goTo (by simp [hp]) (by simp) (by simp)
  case opened hp hi =>
    have hn : s.cached = none := Option.eq_none_iff_forall_ne_some.mpr fun db hc => h.cached db hc hi
    have ho : ∀ t db, s.phase t ≠ .opened db := fun t db ht => (h.opened t db ht).2 hi
    refine ⟨fun t' db ht => ?_, fun t' db ht => ⟨hn, by simp⟩, fun t' t'' db db' ht ht' => ?_,
      fun db hc => by simp, fun _ => .inr ⟨t, s.count, ?_⟩⟩
    · rw [goTo_phase] at ht
      split at ht
      case isTrue  => cases ht
      case isFalse => exact h.returned t' db ht
    · rw [goTo_phase] at ht ht'
      split at ht
      case isFalse => exact absurd ht (ho t' db)
      case isTrue he =>
        split at ht'
        case isFalse    => exact absurd ht' (ho t'' db')
        case isTrue he' => exact he.trans he'.symm
    · rw [goTo_phase, if_pos rfl]
  case taken db db' hp hc =>
    rw [(h.opened t db hp).1] at hc
    cases hc
  case inserted db hp hc =>
    have ho : ∀ t', t' ≠ t → ∀ db, s.phase t' ≠ .opened db :=
      fun t' hne db' ht => hne (h.unique t' t db' db ht hp)
    refine ⟨fun t' db' ht => ?_, fun t' db' ht => ?_, fun t' t'' db' db'' ht ht' => ?_,
      fun db' _ => (h.opened t db hp).2, fun _ => .inl ⟨db, rfl⟩⟩
    · rw [goTo_phase] at ht
      split at ht
      case isTrue  => cases ht; rfl
      case isFalse =>
        have := h.returned t' db' ht
        rw [hc] at this
        cases this
    · rw [goTo_phase] at ht
      split at ht
      case isTrue      => cases ht
      case isFalse hne => exact absurd ht (ho t' hne db')
    · rw [goTo_phase] at ht
      split at ht
      case isTrue      => cases ht
      case isFalse hne => exact absurd ht (ho t' hne db')

-- What the others are doing is what they have been doing before.
theorem phase_of_step (hs : step error s t = some s') (h : t' ≠ t) : s'.phase t' = s.phase t' := by
  cases Step.of_step hs <;> exact Function.update_of_ne h _ _

theorem Sound.of_step (hv : Valid s) (hs : step error s t = some s') (h : Sound s') : Sound s := by
  have step := Step.of_step hs
  -- A task that is about to open the database has found it free.
  have free (hp : s.phase t = .opening) : s.isOpen = [] ∧ s'.isOpen ≠ [] := by
    cases step
    case opened _ hi  => exact ⟨hi, by simp⟩
    case refused _ hi => exact absurd (by rw [goTo_phase, if_pos rfl]) (h.ok t _)
    all_goals simp_all
  constructor
  case ok =>
    intro t' e ht
    by_cases hne : t' = t
    case pos =>
      subst hne
      cases step <;> simp_all
    case neg => exact h.ok t' e (by rw [phase_of_step hs hne, ht])
  case free =>
    intro t' ht
    by_cases hne : t' = t
    case pos => exact (free (hne ▸ ht)).1
    case neg =>
      have hi := h.free t' (by rw [phase_of_step hs hne, ht])
      cases step
      case opened => simp at hi
      case taken db _ hp hc =>
        rw [(hv.opened t db hp).1] at hc
        cases hc
      all_goals exact hi
  case unique =>
    have other (t' : ι) (hne : t' ≠ t) (ht' : s.phase t' = .opening) : s.phase t ≠ .opening :=
      fun ht => (free ht).2 (h.free t' (by rw [phase_of_step hs hne, ht']))
    intro t₁ t₂ h₁ h₂
    by_cases hne₁ : t₁ = t
    case pos =>
      by_contra hne
      exact other t₂ (fun he => hne (hne₁.trans he.symm)) h₂ (hne₁ ▸ h₁)
    case neg =>
      by_cases hne₂ : t₂ = t
      case pos => exact absurd (hne₂ ▸ h₂) (other t₁ hne₁ h₁)
      case neg =>
        exact h.unique t₁ t₂ (by rw [phase_of_step hs hne₁, h₁]) (by rw [phase_of_step hs hne₂, h₂])

-- A task goes on that is neither about to open the database nor fails.
theorem Sound.advance {p : Phase} (h : Sound s) (hp : p ≠ .opening)
    (he : ∀ e, p ≠ .returned (.error e)) (hs : s'.phase = (s.goTo t p).phase)
    (hi : ∀ t' ≠ t, s.phase t' = .opening → s'.isOpen = []) : Sound s' := by
  have opening (t' : ι) (ht : s'.phase t' = .opening) : t' ≠ t ∧ s.phase t' = .opening := by
    rw [hs, goTo_phase] at ht
    split at ht
    case isTrue      => exact absurd ht hp
    case isFalse hne => exact ⟨hne, ht⟩
  constructor
  case ok =>
    intro t' e ht
    rw [hs, goTo_phase] at ht
    split at ht
    case isTrue  => exact he e ht
    case isFalse => exact h.ok t' e ht
  case free =>
    intro t' ht
    exact hi t' (opening t' ht).1 (opening t' ht).2
  case unique =>
    intro t₁ t₂ h₁ h₂
    exact h.unique t₁ t₂ (opening t₁ h₁).2 (opening t₂ h₂).2

theorem Sound.keep (hv : Valid s) (hs : step error s t = some s') (h : Sound s)
    (hf : s.FirstAlone t) : Sound s' := by
  cases Step.of_step hs
  case hit   => exact h.advance (by simp) (by simp) rfl fun t' _ ht => h.free t' ht
  case refused hp hi => exact absurd (h.free t hp) hi
  case inserted      => exact h.advance (by simp) (by simp) rfl fun t' _ ht => h.free t' ht
  case taken db _ hp hc =>
    rw [(hv.opened t db hp).1] at hc
    cases hc
  case opened hp _ =>
    exact h.advance (by simp) (by simp) rfl fun t' hne ht => absurd (h.unique t' t ht hp) hne
  case miss hp hc =>
    have hl := hf hp hc
    have opening (t' : ι) (ht : (s.goTo t .opening).phase t' = .opening) : t' = t := by
      by_contra hne
      rw [goTo_phase, if_neg hne, hl t'] at ht
      cases ht
    constructor
    case ok =>
      intro t' e ht
      rw [goTo_phase] at ht
      split at ht
      case isTrue  => cases ht
      case isFalse => exact h.ok t' e ht
    case free =>
      intro t' ht
      by_contra hi
      rcases hv.isOpen hi with ⟨db, hdb⟩ | ⟨t'', db, hdb⟩
      · rw [hc] at hdb; cases hdb
      · rw [hl t''] at hdb; cases hdb
    case unique =>
      intro t₁ t₂ h₁ h₂
      rw [opening t₁ h₁, opening t₂ h₂]

-- A task that finds the cache empty after another one will not get the database open, or keeps the
-- other one from it.
theorem Sound.firstAlone (hv : Valid s) (hs : step error s t = some s') (h : Sound s') :
    s.FirstAlone t := by
  intro hp hc t'
  have h₀ := h.of_step hv hs
  cases Step.of_step hs
  case miss =>
    by_contra hl
    have hne : t' ≠ t := fun he => hl (he ▸ hp)
    cases ht : s.phase t'
    case looking => exact hl ht
    case opening =>
      refine hne (h.unique t' t ?_ ?_)
      · rw [goTo_phase, if_neg hne, ht]
      · rw [goTo_phase, if_pos rfl]
    case opened db =>
      have := h.free t (by rw [goTo_phase, if_pos rfl])
      exact (hv.opened t' db ht).2 this
    case returned r =>
      cases r
      case error e => exact h₀.ok t' e ht
      case ok db   => rw [hv.returned t' db ht] at hc; cases hc
  all_goals simp_all

theorem sound_iff_of_step (hv : Valid s) (hs : step error s t = some s') :
    Sound s' ↔ Sound s ∧ s.FirstAlone t := by
  constructor
  case mp  => exact fun h => ⟨h.of_step hv hs, h.firstAlone hv hs⟩
  case mpr => exact fun h => h.1.keep hv hs h.2

-- All calls return the same handle if and only if each of them that finds the cache empty has found it
-- before any other one looked.
theorem oneHandle_iff (error : String) (ts : List ι) (s : DbCache ι)
    (h : run (DbCache.step error) init ts = some s) (hc : s.Complete) :
    s.OneHandle ↔ Guarded (DbCache.step error) FirstAlone init ts := by
  have hv : Valid s := Reachable.invariant ⟨ts, h⟩ .init fun _ _ _ hv hs => hv.step hs
  rw [oneHandle_iff_sound hv hc,
    holds_iff_guarded (P := Sound) h .init (fun _ _ _ hv hs => hv.step hs)
      fun _ _ _ hv hs => sound_iff_of_step hv hs]
  exact and_iff_right .init

-- The first of two tasks is done before the second one looks.
theorem oneHandle_iff_sample :
    ∃ s, run (DbCache.step "") (init (ι := Bool)) [true, true, true, false] = some s ∧ s.OneHandle := by
  refine ⟨_, rfl, ?_⟩
  exact (oneHandle_iff "" [true, true, true, false] _ rfl
    fun t => by cases t <;> exact .inr ⟨_, rfl⟩).mpr (by decide)

-- Both look before one of them has opened the database.
theorem oneHandle_fails : ¬ ∀ (ι : Type) (_ : DecidableEq ι) (error : String) (ts : List ι)
    (s : DbCache ι), run (DbCache.step error) init ts = some s → s.Complete → s.OneHandle := by
  intro hall
  have ⟨db, h⟩ := hall Bool inferInstance "" [true, false, true, false, true] _ rfl
    fun t => by cases t <;> exact .inr ⟨_, rfl⟩
  cases h false _ rfl

end All4One.Storage.DbCache
