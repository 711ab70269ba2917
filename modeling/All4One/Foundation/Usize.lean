import Mathlib.Algebra.Group.Nat.Defs
import Mathlib.Data.List.Basic

-- Numbers of 64 bits, and the slices that they are indices of. There is no result where an operation
-- would leave its range.
namespace Foundation.Usize

def max : Nat := 2 ^ 64 - 1

def add (m n : Nat) : Option Nat :=
  if m + n ≤ max then some (m + n) else none

def mul (m n : Nat) : Option Nat :=
  if m * n ≤ max then some (m * n) else none

def sub (m n : Nat) : Option Nat :=
  if n ≤ m then some (m - n) else none

def divCeil (m n : Nat) : Option Nat :=
  if n = 0 then none else some ((m + n - 1) / n)

variable {α : Type*}

-- `&xs[start..stop]`
def slice (xs : List α) (start stop : Nat) : Option (List α) :=
  if start ≤ stop ∧ stop ≤ xs.length then some (xs.extract start stop) else none

-- `xs[..stop].copy_from_slice(ys)`
def copyFromSlice (xs : List α) (stop : Nat) (ys : List α) : Option (List α) :=
  if stop ≤ xs.length ∧ ys.length = stop then some (ys ++ xs.drop stop) else none

variable {m n start stop : Nat} {xs ys : List α}

end Foundation.Usize
