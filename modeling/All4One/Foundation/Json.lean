import All4One.Foundation.Bytes

namespace Foundation.Json

-- Text in the compact form: strings and numbers, with nothing between the tokens.

def hexVal (c : Char) : Nat :=
  if c.isDigit then c.toNat - '0'.toNat else c.toNat - 'a'.toNat + 10

def escape (c : Char) : List Char :=
  match c with
  | '"'    => ['\\', '"']
  | '\\'   => ['\\', '\\']
  | '\x08' => ['\\', 'b']
  | '\x0c' => ['\\', 'f']
  | '\n'   => ['\\', 'n']
  | '\r'   => ['\\', 'r']
  | '\t'   => ['\\', 't']
  | c      =>
    if c.toNat < 32 then
      ['\\', 'u', '0', '0', Nat.digitChar (c.toNat / 16), Nat.digitChar (c.toNat % 16)]
    else
      [c]

def unescape : Char → Char
  | 'b' => '\x08'
  | 'f' => '\x0c'
  | 'n' => '\n'
  | 'r' => '\r'
  | 't' => '\t'
  | c   => c

-- The characters of a string and its closing quote.
def writeString (s : String) : List Char :=
  s.toList.flatMap escape ++ ['"']

def readChars : List Char → Option (List Char × List Char)
  | '"' :: cs => some ([], cs)
  | '\\' :: 'u' :: _ :: _ :: h :: l :: cs =>
    (readChars cs).map fun r => (Char.ofNat (16 * hexVal h + hexVal l) :: r.1, r.2)
  | '\\' :: c :: cs => (readChars cs).map fun r => (unescape c :: r.1, r.2)
  | c :: cs => (readChars cs).map fun r => (c :: r.1, r.2)
  | [] => none

def readString (cs : List Char) : Option (String × List Char) :=
  (readChars cs).map fun r => (String.ofList r.1, r.2)

def writeNat (n : Nat) : List Char :=
  Nat.toDigits 10 n

def readNat (cs : List Char) : Option (Nat × List Char) :=
  let ds := cs.takeWhile Char.isDigit
  if ds = [] then none else some (Nat.ofDigitChars 10 ds 0, cs.dropWhile Char.isDigit)

def readLiteral (lit : String) (cs : List Char) : Option (List Char) :=
  if lit.toList.isPrefixOf cs then some (cs.drop lit.toList.length) else none

variable {cs : List Char}

theorem hexVal_digitChar : ∀ d < 16, hexVal (Nat.digitChar d) = d := by
  decide

theorem readChars_escape (c : Char) : readChars (escape c ++ cs) =
    (readChars cs).map fun r => (c :: r.1, r.2) := by
  rw [escape.eq_def]
  split
  case h_8 =>
    split
    case isTrue h =>
      have hh := hexVal_digitChar (c.toNat / 16) (by omega)
      have hl := hexVal_digitChar (c.toNat % 16) (by omega)
      simp only [List.cons_append, List.nil_append, readChars, hh, hl, Nat.div_add_mod,
        Char.ofNat_toNat]
    case isFalse =>
      rw [List.singleton_append, readChars.eq_def]
      split <;> simp_all
  all_goals rfl

theorem readString_writeString (s : String) : readString (writeString s ++ cs) = some (s, cs) := by
  have h (l : List Char) : readChars (l.flatMap escape ++ '"' :: cs) = some (l, cs) := by
    induction l
    case nil         => rfl
    case cons c l hi => rw [List.flatMap_cons, List.append_assoc, readChars_escape, hi]; rfl
  rw [readString, writeString, List.append_assoc, List.singleton_append, h]
  simp

theorem readNat_writeNat (n : Nat) {c : Char} (h : c.isDigit = false) :
    readNat (writeNat n ++ c :: cs) = some (n, c :: cs) := by
  have hd : ∀ c ∈ writeNat n, c.isDigit := fun c hc =>
    Nat.isDigit_of_mem_toDigits (by decide) (by decide) hc
  have ht : (writeNat n ++ c :: cs).takeWhile Char.isDigit = writeNat n := by
    rw [List.takeWhile_append_of_pos hd, List.takeWhile_cons_of_neg (by simp [h]), List.append_nil]
  have hn : writeNat n ≠ [] := Nat.toDigits_ne_nil
  simp only [readNat, ht, hn, ↓reduceIte]
  rw [List.dropWhile_append_of_pos hd, List.dropWhile_cons_of_neg (by simp [h]), writeNat,
    Nat.ofDigitChars_ten_toDigits]

theorem readLiteral_append (lit : String) : readLiteral lit (lit.toList ++ cs) = some cs := by
  simp [readLiteral]

-- A reader in several steps reads what each of its steps reads.
theorem bind_of_some {α β : Type} {x : Option α} {f : α → Option β} {a : α} {r : Option β}
    (hx : x = some a) (hf : f a = r) : (x >>= f) = r := by
  subst hx
  exact hf

end Foundation.Json
