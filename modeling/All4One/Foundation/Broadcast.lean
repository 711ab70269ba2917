import All4One.Foundation.HashMap
import Mathlib.Data.List.Infix

-- A channel that keeps the last messages for all of its readers.
namespace Foundation.Broadcast

-- How many messages have been sent, the last ones of them, and how far each reader has come.
structure Channel (κ α : Type) [DecidableEq κ] (capacity : Nat) where
  count   : Nat
  kept    : List α
  readers : HashMap κ Nat
  size    : kept.length = min capacity count
  behind  : ∀ k n, readers.lookup k = some n → n ≤ count

-- What a reader gets: a message, or how many of them are gone.
inductive Received (α : Type)
  | message (a : α)
  | lagged (missed : Nat)

namespace Channel

variable {κ α : Type} [DecidableEq κ] {capacity : Nat} (c : Channel κ α capacity)

def empty : Channel κ α capacity where
  count   := 0
  kept    := []
  readers := ∅
  size    := by simp
  behind  := by simp

-- A message that nobody is there to read is dropped.
def send (a : α) : Channel κ α capacity :=
  if c.readers.keys = ∅ then
    c
  else {
    count   := c.count + 1
    kept    := (c.kept ++ [a]).drop (c.kept.length + 1 - capacity)
    readers := c.readers
    size    := by have := c.size; simp; omega
    behind  := fun k n h => Nat.le_succ_of_le (c.behind k n h)
  }

-- A reader that is `k` has come as far as `n`.
def setReader (k : κ) (n : Nat) (h : n ≤ c.count) : Channel κ α capacity :=
  { c with
    readers := c.readers.insert k n
    behind  := by
      intro k' n' hn
      rw [HashMap.lookup_insert'] at hn
      split at hn
      · cases hn; exact h
      · exact c.behind k' n' hn }

-- A reader gets what is sent after it has come.
def subscribe (k : κ) : Channel κ α capacity :=
  c.setReader k c.count (le_refl _)

def leave (k : κ) : Channel κ α capacity :=
  { c with
    readers := c.readers.erase k
    behind  := by
      intro k' n hn
      by_cases hk : k' = k
      case pos => rw [hk, Finmap.lookup_erase] at hn; cases hn
      case neg => exact c.behind k' n (by rwa [Finmap.lookup_erase_ne hk] at hn) }

-- The number of the first message that is kept.
def oldest : Nat :=
  c.count - capacity

theorem oldest_le : c.oldest ≤ c.count :=
  Nat.sub_le _ _

-- How many messages are there for a reader, those that are gone included.
def waiting (k : κ) : Nat :=
  ((c.readers.lookup k).map (c.count - ·)).getD 0

-- The next message for a reader, if there is one.
def receive (k : κ) : Option (Received α × Channel κ α capacity) :=
  match c.readers.lookup k with
  | none      => none
  | some next =>
    if next < c.oldest then
      some (.lagged (c.oldest - next), c.setReader k c.oldest c.oldest_le)
    else
      match h : c.kept[next - c.oldest]? with
      | none   => none
      | some a => some (.message a, c.setReader k (next + 1) (by
          have := (List.getElem?_eq_some_iff.mp h).1
          have := c.size
          simp only [oldest] at *
          omega))

end Channel

-- What a reader has got of the messages that have been sent since it came, if it has come past so many
-- of them and has missed so many of these.
structure Follows {α : Type} (capacity : Nat) (sent got : List α) (passed missed : Nat) : Prop where
  le      : passed ≤ sent.length
  length  : got.length + missed = passed
  inOrder : got.Sublist (sent.take passed)
  -- What it has come past and is still kept it has got.
  recent  : (sent.take passed).drop (sent.length - capacity) <:+ got

namespace Follows

variable {α : Type} {capacity passed missed : Nat} {sent got : List α} {a : α}

theorem start : Follows capacity ([] : List α) [] 0 0 where
  le      := le_refl _
  length  := rfl
  inOrder := .slnil
  recent  := by simp

theorem send (h : Follows capacity sent got passed missed) :
    Follows capacity (sent ++ [a]) got passed missed where
  le      := h.le.trans (by simp)
  length  := h.length
  inOrder := by rw [List.take_append_of_le_length h.le]; exact h.inOrder
  recent  := by
    have hd : (sent.take passed).drop ((sent ++ [a]).length - capacity) <:+
        (sent.take passed).drop (sent.length - capacity) := by
      have hle : sent.length - capacity ≤ (sent ++ [a]).length - capacity := by simp; omega
      rw [← Nat.add_sub_cancel' hle, ← List.drop_drop]
      exact List.drop_suffix _ _
    rw [List.take_append_of_le_length h.le]
    exact hd.trans h.recent

theorem message (h : Follows capacity sent got passed missed) (ha : sent[passed]? = some a)
    (hk : sent.length - capacity ≤ passed) :
    Follows capacity sent (got ++ [a]) (passed + 1) missed := by
  have hlt : passed < sent.length := (List.getElem?_eq_some_iff.mp ha).1
  have ht : sent.take (passed + 1) = sent.take passed ++ [a] := by
    rw [List.take_add_one, ha]
    rfl
  have hl : (sent.take passed).length = passed := List.length_take_of_le h.le
  constructor
  case le      => exact hlt
  case length  => have := h.length; simp; omega
  case inOrder => rw [ht]; exact h.inOrder.append (List.Sublist.refl [a])
  case recent =>
    obtain ⟨l, hl'⟩ := h.recent
    rw [ht, List.drop_append_of_le_length (by omega)]
    exact ⟨l, by rw [← List.append_assoc, hl']⟩

-- A reader that is too late goes on with what is still kept.
theorem lag (h : Follows capacity sent got passed missed) (hk : passed < sent.length - capacity) :
    Follows capacity sent got (sent.length - capacity) (missed + (sent.length - capacity - passed)) where
  le      := Nat.sub_le _ _
  length  := by have := h.length; omega
  inOrder := h.inOrder.trans <| (List.take_sublist_take_left (Nat.le_of_lt hk))
  recent  := by rw [List.drop_eq_nil_of_le (by simp)]; exact List.nil_suffix

-- A reader that has missed nothing has got all that it has come past.
theorem eq_take (h : Follows capacity sent got passed 0) : got = sent.take passed :=
  h.inOrder.eq_of_length <| by have := h.length; have := h.le; simp; omega

theorem last (h : Follows capacity sent got sent.length missed) :
    sent.drop (sent.length - capacity) <:+ got := by
  have := h.recent
  rwa [List.take_length] at this

end Follows

namespace Channel

variable {κ α : Type} [DecidableEq κ] {capacity : Nat} {c c' : Channel κ α capacity} {k k' : κ}
  {sent got : List α} {a : α} {missed : Nat} {r : Received α}

theorem readers_send : (c.send a).readers = c.readers := by
  rw [send]
  split <;> rfl

theorem lookup_setReader {n : Nat} {h : n ≤ c.count} : (c.setReader k' n h).readers.lookup k =
    if k = k' then some n else c.readers.lookup k :=
  HashMap.lookup_insert'

theorem lookup_subscribe : (c.subscribe k').readers.lookup k =
    if k = k' then some c.count else c.readers.lookup k :=
  lookup_setReader

theorem subscribe_frame (h : k ≠ k') : (c.subscribe k').count = c.count ∧
    (c.subscribe k').kept = c.kept ∧ (c.subscribe k').readers.lookup k = c.readers.lookup k :=
  ⟨rfl, rfl, by rw [lookup_subscribe, if_neg h]⟩

theorem leave_frame (h : k ≠ k') : (c.leave k').count = c.count ∧
    (c.leave k').kept = c.kept ∧ (c.leave k').readers.lookup k = c.readers.lookup k :=
  ⟨rfl, rfl, Finmap.lookup_erase_ne h⟩

-- What a reader gets is of no matter to the others.
theorem receive_frame (h : c.receive k' = some (r, c')) (hk : k ≠ k') :
    c'.count = c.count ∧ c'.kept = c.kept ∧ c'.readers.lookup k = c.readers.lookup k := by
  have hr {n : Nat} {hn : n ≤ c.count} :
      (c.setReader k' n hn).readers.lookup k = c.readers.lookup k := by
    rw [lookup_setReader, if_neg hk]
  rw [receive] at h
  split at h
  case h_1 => cases h
  case h_2 =>
    split at h
    case isTrue => cases h; exact ⟨rfl, rfl, hr⟩
    case isFalse =>
      split at h
      case h_1 => cases h
      case h_2 => cases h; exact ⟨rfl, rfl, hr⟩

-- How a reader gets on with what has been sent since it came.
structure Carries (c : Channel κ α capacity) (k : κ) (sent got : List α) (missed : Nat) : Prop where
  le      : sent.length ≤ c.count
  kept    : sent.drop (sent.length - capacity) <:+ c.kept
  follows : ∃ passed, c.readers.lookup k = some (c.count - sent.length + passed) ∧
    Follows capacity sent got passed missed

namespace Carries

theorem start : (c.subscribe k).Carries k [] [] 0 where
  le      := Nat.zero_le _
  kept    := by simp
  follows := ⟨0, by rw [lookup_subscribe, if_pos rfl]; rfl, .start⟩

-- What becomes of other readers is of no matter to one.
theorem congr (h : c.Carries k sent got missed) (hc : c'.count = c.count) (hk : c'.kept = c.kept)
    (hr : c'.readers.lookup k = c.readers.lookup k) : c'.Carries k sent got missed where
  le      := hc ▸ h.le
  kept    := hk ▸ h.kept
  follows := by rw [hr, hc]; exact h.follows

theorem keys_ne (h : c.Carries k sent got missed) : c.readers.keys ≠ ∅ := by
  obtain ⟨passed, hl, -⟩ := h.follows
  exact Finset.ne_empty_of_mem (Finmap.mem_keys.mpr (Finmap.mem_of_lookup_eq_some hl))

theorem suffix_send (h : sent.drop (sent.length - capacity) <:+ c.kept) :
    (sent ++ [a]).drop ((sent ++ [a]).length - capacity) <:+ c.kept ++ [a] := by
  cases capacity
  case zero => rw [List.drop_eq_nil_of_le (by simp)]; exact List.nil_suffix
  case succ n =>
    have hd : sent.drop (sent.length - n) <:+ sent.drop (sent.length - (n + 1)) := by
      have hle : sent.length - (n + 1) ≤ sent.length - n := by omega
      rw [← Nat.add_sub_cancel' hle, ← List.drop_drop]
      exact List.drop_suffix _ _
    obtain ⟨l, hl⟩ := hd.trans h
    refine ⟨l, ?_⟩
    rw [List.length_append, List.length_singleton, Nat.add_sub_add_right,
      List.drop_append_of_le_length (Nat.sub_le _ _), ← List.append_assoc, hl]

theorem send (h : c.Carries k sent got missed) : (c.send a).Carries k (sent ++ [a]) got missed := by
  obtain ⟨passed, hl, hf⟩ := h.follows
  have hle := h.le
  have hs := c.size
  have hc : (c.send a).count = c.count + 1 := by rw [Channel.send, if_neg h.keys_ne]
  have hk : (c.send a).kept = (c.kept ++ [a]).drop (c.kept.length + 1 - capacity) := by
    rw [Channel.send, if_neg h.keys_ne]
  constructor
  case le => rw [hc]; simp; omega
  case kept =>
    rw [hk]
    refine List.suffix_of_suffix_length_le (suffix_send h.kept) (List.drop_suffix _ _) ?_
    simp
    omega
  case follows =>
    refine ⟨passed, ?_, hf.send⟩
    rw [readers_send, hl, hc, List.length_append, List.length_singleton, Nat.add_sub_add_right]

-- A reader gets the next message. If that is gone already, it goes on with the first that is kept.
theorem receive (h : c.Carries k sent got missed) (hr : c.receive k = some (r, c')) :
    (∃ a, r = .message a ∧ c'.Carries k sent (got ++ [a]) missed) ∨
    ∃ n, r = .lagged n ∧ capacity < c.waiting k ∧ c'.Carries k sent got (missed + n) := by
  obtain ⟨passed, hl, hf⟩ := h.follows
  have hle := h.le
  have hp := hf.le
  have hs := c.size
  rw [Channel.receive] at hr
  split at hr
  case h_1 hn => rw [hl] at hn; cases hn
  case h_2 next hn =>
    rw [hl] at hn
    cases hn
    split at hr
    case isTrue hlt =>
      cases hr
      rw [oldest] at hlt
      have hm : c.oldest - (c.count - sent.length + passed) = sent.length - capacity - passed := by
        rw [oldest]
        omega
      refine .inr ⟨_, rfl, ?_, h.le, h.kept, sent.length - capacity, ?_, hm ▸ hf.lag (by omega)⟩
      case refine_1 => simp only [waiting, hl, Option.map_some, Option.getD_some]; omega
      case refine_2 =>
        rw [lookup_setReader, if_pos rfl, Option.some.injEq]
        simp only [setReader, oldest]
        omega
    case isFalse hge =>
      split at hr
      case h_1 => cases hr
      case h_2 a ha =>
        cases hr
        rw [oldest] at hge ha
        refine .inl ⟨a, rfl, h.le, h.kept, passed + 1, ?_, hf.message ?_ (by omega)⟩
        case refine_1 => rw [lookup_setReader, if_pos rfl]; rfl
        case refine_2 =>
          obtain ⟨l, hl'⟩ := h.kept
          have hlen := congrArg List.length hl'
          simp only [List.length_append, List.length_drop] at hlen
          rw [← hl', List.getElem?_append_right (by omega), List.getElem?_drop] at ha
          rw [← ha]
          congr 1
          omega

theorem waiting_eq (h : c.Carries k sent got missed) :
    ∃ passed, c.waiting k = sent.length - passed ∧ Follows capacity sent got passed missed := by
  obtain ⟨passed, hl, hf⟩ := h.follows
  have hle := h.le
  refine ⟨passed, ?_, hf⟩
  simp only [waiting, hl, Option.map_some, Option.getD_some]
  omega

-- A reader that has missed nothing has got all up to what is waiting for it.
theorem eq_take (h : c.Carries k sent got 0) : got = sent.take (sent.length - c.waiting k) := by
  obtain ⟨passed, hw, hf⟩ := h.waiting_eq
  have := hf.le
  rw [hw, hf.eq_take]
  congr 1
  omega

theorem last (h : c.Carries k sent got missed) (hw : c.waiting k = 0) :
    sent.drop (sent.length - capacity) <:+ got := by
  obtain ⟨passed, hw', hf⟩ := h.waiting_eq
  obtain rfl : passed = sent.length := by have := hf.le; omega
  exact hf.last

theorem sublist (h : c.Carries k sent got missed) : got.Sublist sent := by
  obtain ⟨_, -, hf⟩ := h.follows
  exact hf.inOrder.trans (List.take_sublist _ _)

end Carries

end Channel

end Foundation.Broadcast
