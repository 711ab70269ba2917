import All4One.Foundation.Bytes
import Mathlib.Data.List.ReduceOption
import Mathlib.Data.List.TakeWhile

-- `BufReader::lines`
namespace Foundation.LineReader

def newline : UInt8 := 10

-- A line that has an end, without a carriage return before that.
def stripReturn (line : Bytes) : Bytes :=
  if line.getLast? = some 13 then line.dropLast else line

-- What a reader makes of what it has not read yet: it waits, it is at the end, or it has a line. The
-- last line need not have an end.
inductive Next
  | waits
  | ends
  | line (raw rest : Bytes)

def next (closed : Bool) (unread : Bytes) : Next :=
  match unread.dropWhile (· ≠ newline) with
  | _ :: rest => .line (stripReturn (unread.takeWhile (· ≠ newline))) rest
  | []        => if !closed then .waits else if unread = [] then .ends else .line unread []

-- The lines of a text: what is before, between and after the newlines, but for an empty end.
def lines (text : Bytes) : List Bytes :=
  let parts := text.splitOn newline
  parts.dropLast.map stripReturn ++ (parts.getLast?.filter (· ≠ [])).toList

-- The lines up to the first one that is not UTF-8.
def texts (raws : List Bytes) : List String :=
  ((raws.map Bytes.toString?).takeWhile (·.isSome)).reduceOption

variable {text line unread raw rest more : Bytes} {closed : Bool} {raws raws' : List Bytes}
  {said : List String}

theorem lines_cons (h : newline ∉ line) :
    lines (line ++ newline :: rest) = stripReturn line :: lines rest := by
  have hs : (line ++ newline :: rest).splitOn newline = line :: rest.splitOn newline := by
    rw [List.splitOn_append_cons_self, List.splitOn_eq_singleton h]
    rfl
  have hne : rest.splitOn newline ≠ [] := List.splitOn_ne_nil _ _
  simp only [lines, hs, List.dropLast_cons_of_ne_nil hne, List.map_cons, List.cons_append,
    List.getLast?_cons_of_ne_nil hne]

theorem lines_of_notMem (h : newline ∉ text) : lines text = if text = [] then [] else [text] := by
  simp only [lines, List.splitOn_eq_singleton h]
  split <;> simp [*]

theorem split_newline (unread : Bytes) : newline ∉ unread.takeWhile (· ≠ newline) ∧
    (newline ∉ unread ∧ unread.dropWhile (· ≠ newline) = [] ∨
      ∃ rest, unread.dropWhile (· ≠ newline) = newline :: rest ∧
        unread = unread.takeWhile (· ≠ newline) ++ newline :: rest) := by
  refine ⟨fun h => by simpa using List.mem_takeWhile_imp h, ?_⟩
  cases hd : unread.dropWhile (· ≠ newline)
  case nil =>
    refine .inl ⟨fun h => ?_, rfl⟩
    simpa using List.dropWhile_eq_nil_iff.mp hd _ h
  case cons c rest =>
    have hc : c = newline := by
      have := List.head?_dropWhile_not (fun c => decide (c ≠ newline)) unread
      rw [hd] at this
      simpa using this
    subst hc
    exact .inr ⟨rest, rfl, by rw [← hd, List.takeWhile_append_dropWhile]⟩

-- A line that is read is the first one of what there is and of what may come yet.
theorem lines_of_line (h : next closed unread = .line raw rest) (hm : closed → more = []) :
    lines (unread ++ more) = raw :: lines (rest ++ more) := by
  have ⟨ht, hs⟩ := split_newline unread
  rcases hs with ⟨hn, hd⟩ | ⟨rest', hd, hu⟩
  case inl =>
    rw [next, hd] at h
    cases closed
    case false => cases h
    case true =>
      obtain rfl := hm rfl
      simp only [Bool.not_true, Bool.false_eq_true, ↓reduceIte] at h
      split at h
      case isTrue => cases h
      case isFalse hne =>
        cases h
        rw [List.append_nil, lines_of_notMem hn, if_neg hne]
        rfl
  case inr =>
    rw [next, hd] at h
    cases h
    conv_lhs => rw [hu, List.append_assoc]
    exact lines_cons ht

theorem eq_nil_of_ends (h : next closed unread = .ends) : closed = true ∧ unread = [] := by
  have ⟨_, hs⟩ := split_newline unread
  rcases hs with ⟨_, hd⟩ | ⟨_, hd, _⟩ <;> rw [next, hd] at h
  case inr => cases h
  case inl =>
    cases closed
    case false => cases h
    case true =>
      simp only [Bool.not_true, Bool.false_eq_true, ↓reduceIte] at h
      split at h
      case isTrue hu => exact ⟨rfl, hu⟩
      case isFalse   => cases h

-- What has been decoded comes first.
theorem texts_append (h : raws.map Bytes.toString? = said.map some) :
    texts (raws ++ raws') = said ++ texts raws' := by
  have ht : (said.map some).reduceOption = said := by simp [List.reduceOption]
  rw [texts, List.map_append, h, List.takeWhile_append_of_pos (by simp), List.reduceOption_append, ht,
    texts]

theorem texts_of_bad (h : raw.toString? = none) : texts (raw :: raws) = [] := by
  simp [texts, h]

@[simp]
theorem texts_nil : texts [] = [] := rfl

end Foundation.LineReader
