import Mathlib.Data.List.DropRight

namespace Foundation.Text

-- The characters with the Unicode property `White_Space`.
def isWhitespace (c : Char) : Bool :=
  let n := c.toNat
  (0x09 ≤ n ∧ n ≤ 0x0d) ∨ n = 0x20 ∨ n = 0x85 ∨ n = 0xa0 ∨ n = 0x1680 ∨
    (0x2000 ≤ n ∧ n ≤ 0x200a) ∨ n = 0x2028 ∨ n = 0x2029 ∨ n = 0x202f ∨ n = 0x205f ∨ n = 0x3000

def trim (s : String) : String :=
  String.ofList <| (s.toList.dropWhile isWhitespace).rdropWhile isWhitespace

-- `s.trim().is_empty()`
def isBlank (s : String) : Bool :=
  s.toList.all isWhitespace

theorem isBlank_append (s t : String) : isBlank (s ++ t) = (isBlank s && isBlank t) := by
  simp [isBlank]

-- `s.rsplit_once(sep)`
def rsplitOnce (sep : Char) (s : String) : Option (String × String) :=
  let cs := s.toList
  if sep ∈ cs then
    some (.ofList (cs.rdropWhile (· ≠ sep)).dropLast, .ofList (cs.rtakeWhile (· ≠ sep)))
  else
    none

-- `s.split(sep)`
def split (sep : Char) (s : String) : List String :=
  (s.toList.splitOn sep).map String.ofList

-- `s.parse::<u16>()`
def parseU16 (s : String) : Option UInt16 :=
  let digits :=
    match s.toList with
    | '+' :: cs => cs
    | cs        => cs
  if digits ≠ [] ∧ digits.all Char.isDigit then
    let n := digits.foldl (fun n c => 10 * n + (c.toNat - '0'.toNat)) 0
    if n < 65536 then some (.ofNat n) else none
  else
    none

end Foundation.Text
