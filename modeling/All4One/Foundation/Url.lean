import All4One.Foundation.Bytes

-- Queries, and the encoding of what they are made of.
namespace Foundation.Url

def hexValue (b : UInt8) : Option UInt8 :=
  if 48 ≤ b ∧ b ≤ 57 then some (b - 48)
  else if 65 ≤ b ∧ b ≤ 70 then some (b - 55)
  else if 97 ≤ b ∧ b ≤ 102 then some (b - 87)
  else none

-- What is encoded as a percent sign and two digits.
def unescape (c a b : UInt8) : Option UInt8 :=
  if c = 37 then
    (hexValue a).bind fun hi => (hexValue b).map fun lo => 16 * hi + lo
  else
    none

-- A percent sign that is not followed by two digits stays as it is.
def percentDecode : Bytes → Bytes
  | c :: a :: b :: bs =>
    match unescape c a b with
    | some byte => byte :: percentDecode bs
    | none      => c :: percentDecode (a :: b :: bs)
  | bs => bs

def isEscaped : Bytes → Bool
  | c :: a :: b :: bs => (unescape c a b).isSome || isEscaped (a :: b :: bs)
  | _                 => false

-- The value of the first parameter of a name, as it is in the query.
def firstParam (name query : String) : Option String :=
  (query.toList.splitOn '&').findSome? fun pair =>
    if pair.takeWhile (· ≠ '=') = name.toList then
      some (String.ofList ((pair.dropWhile (· ≠ '=')).drop 1))
    else
      none

variable {bs : Bytes}

theorem percentDecode_of_not_isEscaped (h : ¬ isEscaped bs) : percentDecode bs = bs := by
  fun_induction percentDecode bs
  case case1 c a b bs byte hu hi => simp [isEscaped, hu] at h
  case case2 c a b bs hu hi =>
    rw [hi (by simpa [isEscaped, hu] using h)]
  case case3 => rfl

theorem length_percentDecode_le (bs : Bytes) : (percentDecode bs).length ≤ bs.length := by
  fun_induction percentDecode bs
  case case1 => simp only [List.length_cons]; omega
  case case2 => simp only [List.length_cons] at *; omega
  case case3 => exact Nat.le_refl _

theorem length_percentDecode_lt (h : isEscaped bs) : (percentDecode bs).length < bs.length := by
  fun_induction percentDecode bs
  case case1 c a b bs byte hu hi =>
    have := length_percentDecode_le bs
    simp only [List.length_cons]
    omega
  case case2 c a b bs hu hi =>
    have := hi (by simpa [isEscaped, hu] using h)
    simp only [List.length_cons] at *
    omega
  case case3 bs hc =>
    rw [isEscaped] at h
    · cases h
    · exact hc

-- Only what has no escapes is its own encoding.
theorem percentDecode_ne_self (h : isEscaped bs) : percentDecode bs ≠ bs := by
  intro he
  have := length_percentDecode_lt h
  rw [he] at this
  exact Nat.lt_irrefl _ this

end Foundation.Url
