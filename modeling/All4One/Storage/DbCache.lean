import All4One.Foundation.Transition
import All4One.Storage.Policy
import Mathlib.Logic.Function.Basic

open Foundation

namespace All4One.Storage

-- An open database, as one of those that `sled::open` has returned.
abbrev DbHandle := Nat

namespace DbCache

-- Where a task is in `get_db`.
inductive Phase
  | looking
  | opening
  | opened (db : DbHandle)
  | returned (result : Except Failure DbHandle)
  deriving DecidableEq, Repr

end DbCache

open DbCache

-- The cache has one entry, as all tasks have the same data directory. A handle is open as long as a
-- task or the cache has it.
structure DbCache (ι : Type) where
  cached : Option DbHandle
  isOpen : List DbHandle
  count  : Nat
  phase  : ι → Phase

namespace DbCache

variable {ι : Type} [DecidableEq ι]

def init : DbCache ι where
  cached  := none
  isOpen  := []
  count   := 0
  phase _ := .looking

def goTo (s : DbCache ι) (t : ι) (phase : Phase) : DbCache ι :=
  { s with phase := Function.update s.phase t phase }

-- What a task does next: it looks in the cache, opens the database or inserts the handle. `sled::open`
-- has an error for a path that is open already.
def step (error : String) (s : DbCache ι) (t : ι) : Option (DbCache ι) :=
  match s.phase t with
  | .looking =>
    match s.cached with
    | some db => some (s.goTo t (.returned (.ok db)))
    | none    => some (s.goTo t .opening)
  | .opening =>
    if s.isOpen = [] then
      some { s.goTo t (.opened s.count) with isOpen := [s.count], count := s.count + 1 }
    else
      some (s.goTo t (.returned (.error (.error s!"Failed to open index DB: {error}"))))
  | .opened db =>
    match s.cached with
    -- The handle that has been opened is dropped.
    | some db' => some { s.goTo t (.returned (.ok db')) with isOpen := s.isOpen.erase db }
    | none     => some { s.goTo t (.returned (.ok db)) with cached := some db }
  | .returned _ => none

inductive Step (error : String) (s : DbCache ι) (t : ι) : DbCache ι → Prop
  | hit {db} :
    s.phase t = .looking →
    s.cached = some db →
    Step error s t (s.goTo t (.returned (.ok db)))
  | miss :
    s.phase t = .looking →
    s.cached = none →
    Step error s t (s.goTo t .opening)
  | opened :
    s.phase t = .opening →
    s.isOpen = [] →
    Step error s t { s.goTo t (.opened s.count) with isOpen := [s.count], count := s.count + 1 }
  | refused :
    s.phase t = .opening →
    s.isOpen ≠ [] →
    Step error s t (s.goTo t (.returned (.error (.error s!"Failed to open index DB: {error}"))))
  | taken {db db'} :
    s.phase t = .opened db →
    s.cached = some db' →
    Step error s t { s.goTo t (.returned (.ok db')) with isOpen := s.isOpen.erase db }
  | inserted {db} :
    s.phase t = .opened db →
    s.cached = none →
    Step error s t { s.goTo t (.returned (.ok db)) with cached := some db }

-- The tasks that have begun have all returned.
def Complete (s : DbCache ι) : Prop :=
  ∀ t, s.phase t = .looking ∨ ∃ r, s.phase t = .returned r

-- All results are the same handle.
def OneHandle (s : DbCache ι) : Prop :=
  ∃ db, ∀ t r, s.phase t = .returned r → r = .ok db

-- A task only finds the cache empty when it is the first one.
def FirstAlone (s : DbCache ι) (t : ι) : Prop :=
  s.phase t = .looking → s.cached = none → ∀ t', s.phase t' = .looking

instance [Fintype ι] (s : DbCache ι) (t : ι) : Decidable (s.FirstAlone t) :=
  inferInstanceAs (Decidable (_ → _ → ∀ _, _))

variable {error : String} {s s' : DbCache ι} {t t' : ι} {p : Phase}

@[simp] theorem goTo_cached : (s.goTo t p).cached = s.cached := rfl
@[simp] theorem goTo_isOpen : (s.goTo t p).isOpen = s.isOpen := rfl

theorem goTo_phase : (s.goTo t p).phase t' = if t' = t then p else s.phase t' :=
  Function.update_apply ..

theorem Step.of_step (h : step error s t = some s') : Step error s t s' := by
  rw [step] at h
  split at h
  case h_1 hp =>
    split at h
    case h_1 hc => exact Option.some.inj h ▸ hit hp hc
    case h_2 hc => exact Option.some.inj h ▸ miss hp hc
  case h_2 hp =>
    split at h
    case isTrue hf  => exact Option.some.inj h ▸ opened hp hf
    case isFalse hf => exact Option.some.inj h ▸ refused hp hf
  case h_3 hp =>
    split at h
    case h_1 hc => exact Option.some.inj h ▸ taken hp hc
    case h_2 hc => exact Option.some.inj h ▸ inserted hp hc
  case h_4 => cases h

-- A task that has not returned goes on whatever the others do.
theorem exists_step (h : ∀ r, s.phase t ≠ .returned r) : ∃ s', step error s t = some s' := by
  rw [step]
  split
  case h_1 => split <;> exact ⟨_, rfl⟩
  case h_2 => split <;> exact ⟨_, rfl⟩
  case h_3 => split <;> exact ⟨_, rfl⟩
  case h_4 hp => exact absurd hp (h _)

end DbCache

end All4One.Storage
