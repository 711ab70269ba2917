import Mathlib.Data.BitVec

namespace All4One

abbrev Uuid := BitVec 128

instance : LawfulBEq Uuid := inferInstance

namespace Uuid

-- The `count` lowest base-16 digits of `n`, the most significant one first.
def hexDigits : (count n : Nat) → List Char
  | 0,         _ => []
  | count + 1, n => hexDigits count (n / 16) ++ [(n % 16).digitChar]

def hexValue (c : Char) : Option Nat :=
  if '0' ≤ c ∧ c ≤ '9' then some (c.toNat - '0'.toNat)
  else if 'a' ≤ c ∧ c ≤ 'f' then some (c.toNat - 'a'.toNat + 10)
  else if 'A' ≤ c ∧ c ≤ 'F' then some (c.toNat - 'A'.toNat + 10)
  else none

def parseDigits (digits : List Char) : Option Nat :=
  digits.foldlM (fun acc c => (hexValue c).map (16 * acc + ·)) 0

def hyphenate (digits : List Char) : List Char :=
  digits.take 8 ++ '-' :: (digits.drop 8).take 4 ++ '-' :: (digits.drop 12).take 4 ++
    '-' :: (digits.drop 16).take 4 ++ '-' :: digits.drop 20

def toText (u : Uuid) : String :=
  String.ofList (hyphenate (hexDigits 32 u.toNat))

def parseSimple (digits : List Char) : Option Uuid :=
  (parseDigits digits).map (BitVec.ofNat 128)

def parseHyphenated (text : List Char) : Option Uuid :=
  if text[8]? = some '-' ∧ text[13]? = some '-' ∧ text[18]? = some '-' ∧ text[23]? = some '-' then
    parseSimple <| text.take 8 ++ (text.drop 9).take 4 ++ (text.drop 14).take 4 ++
      (text.drop 19).take 4 ++ text.drop 24
  else
    none

-- The forms that `Uuid::parse_str` documents: simple, hyphenated, braced and URN.
def parseStr (s : String) : Option Uuid :=
  let text := s.toList
  match text.length with
  | 32 => parseSimple text
  | 36 => parseHyphenated text
  | 38 =>
    if text.head? = some '{' ∧ text.getLast? = some '}' then
      parseHyphenated (text.drop 1).dropLast
    else
      none
  | 45 =>
    if text.take 9 = "urn:uuid:".toList then parseHyphenated (text.drop 9) else none
  | _ => none

theorem length_hexDigits (count n : Nat) : (hexDigits count n).length = count := by
  induction count generalizing n <;> simp [hexDigits, *]

theorem hexValue_digitChar (d : Fin 16) : hexValue (Nat.digitChar d) = some d.val := by
  revert d
  decide

theorem parseDigits_hexDigits (count n : Nat) :
    parseDigits (hexDigits count n) = some (n % 16 ^ count) := by
  induction count generalizing n
  case zero => simp [hexDigits, parseDigits, Nat.mod_one]
  case succ count hi =>
    have hd := hexValue_digitChar ⟨n % 16, Nat.mod_lt _ (by decide)⟩
    simp only [parseDigits] at hi
    simp only [parseDigits, hexDigits, List.foldlM_append, hi, List.foldlM_cons, hd,
      List.foldlM_nil, Option.map_some, Option.bind_eq_bind, Option.bind_some, Option.pure_def]
    rw [Nat.pow_succ', Nat.mod_mul, Nat.add_comm]

theorem length_hyphenate {digits : List Char} (h : digits.length = 32) :
    (hyphenate digits).length = 36 := by
  simp [hyphenate, h]

theorem parseHyphenated_hyphenate {digits : List Char} (h : digits.length = 32) :
    parseHyphenated (hyphenate digits) = parseSimple digits := by
  have ⟨a, b, c, d, e, hs, ha, hb, hc, hd⟩ : ∃ a b c d e, digits = a ++ (b ++ (c ++ (d ++ e))) ∧
      a.length = 8 ∧ b.length = 4 ∧ c.length = 4 ∧ d.length = 4 := by
    refine ⟨digits.take 8, (digits.drop 8).take 4, (digits.drop 12).take 4,
      (digits.drop 16).take 4, digits.drop 20, ?_, ?_⟩
    · have (n m : Nat) : (digits.drop n).take m ++ digits.drop (n + m) = digits.drop n := by
        rw [← List.drop_drop, List.take_append_drop]
      rw [this 16 4, this 12 4, this 8 4, List.take_append_drop]
    · simp [h]
  subst hs
  -- What is cut out beyond the end of a group is empty.
  have hn (l : List Char) (n : Nat) (hl : l.length ≤ n) : l.drop n = [] := List.drop_eq_nil_of_le hl
  simp [hyphenate, parseHyphenated, List.drop_append, List.getElem?_append,
    ha, hb, hc, hd, hn]

@[simp]
theorem parseStr_toText (u : Uuid) : parseStr u.toText = some u := by
  have h := length_hexDigits 32 u.toNat
  simp only [parseStr, toText, String.toList_ofList, length_hyphenate h,
    parseHyphenated_hyphenate h, parseSimple, parseDigits_hexDigits, Option.map_some]
  rw [Nat.mod_eq_of_lt (show u.toNat < 16 ^ 32 from u.isLt), BitVec.ofNat_toNat, BitVec.setWidth_eq]

theorem toText_injective : Function.Injective toText := fun u v h => by
  simpa using congrArg parseStr h

end Uuid

structure NodeId where
  uuid : Uuid
  deriving DecidableEq, Repr

structure JobId where
  uuid : Uuid
  deriving DecidableEq, Repr

end All4One
