import Mathlib.Order.Basic
import Mathlib.Data.Fintype.Defs

namespace All4One

inductive JobStatus
  | queued
  | scheduled
  | running
  | completed
  | failed
  | cancelled
  deriving DecidableEq, Repr

namespace JobStatus

instance : Fintype JobStatus where
  elems    := ⟨[queued, scheduled, running, completed, failed, cancelled], by decide⟩
  complete := by intro a; cases a <;> decide

-- The documented status model is `queued -> scheduled -> running -> completed|failed|cancelled`.
def rank : JobStatus → Nat
  | queued    => 0
  | scheduled => 1
  | running   => 2
  | completed => 3
  | failed    => 3
  | cancelled => 3

def isTerminal : JobStatus → Bool
  | completed | failed | cancelled => true
  | _                              => false

-- A status may only be followed by itself or by one of higher rank. A terminal status is followed
-- by nothing else.
instance : LE JobStatus where
  le a b := a = b ∨ a.rank < b.rank

instance : DecidableLE JobStatus := fun a b =>
  inferInstanceAs (Decidable (a = b ∨ a.rank < b.rank))

instance : PartialOrder JobStatus where
  le_refl      := by decide
  le_trans     := by decide
  le_antisymm  := by decide

theorem eq_of_le_of_isTerminal {a b : JobStatus} (h : a ≤ b) (ht : a.isTerminal) : b = a := by
  revert a b
  decide

theorem le_of_not_isTerminal {a b : JobStatus} (ha : ¬ a.isTerminal) (hb : b.isTerminal) :
    a ≤ b := by
  revert a b
  decide

@[simp]
theorem queued_le (a : JobStatus) : queued ≤ a := by
  revert a
  decide

@[simp]
theorem le_queued {a : JobStatus} : a ≤ queued ↔ a = queued := by
  revert a
  decide

end JobStatus

inductive Runtime
  | docker
  | python
  | jar
  | executable
  | wasm
  deriving DecidableEq, Repr

structure JobResources where
  cpuCores : UInt32
  memoryMb : UInt32
  deriving DecidableEq, Repr

end All4One
