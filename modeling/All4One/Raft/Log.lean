import Mathlib.Data.Prod.Lex
import All4One.Raft.LogStore

open Foundation

namespace All4One.Raft

-- Log ids are ordered by the term, the node and the index.
namespace LogId

def key (id : LogId) : Nat ×ₗ Nat ×ₗ Nat :=
  toLex (id.leaderId.term, toLex (id.leaderId.nodeId.uuid.toNat, id.index))

theorem key_injective : Function.Injective key := by
  rintro ⟨⟨term, ⟨uuid⟩⟩, index⟩ ⟨⟨term', ⟨uuid'⟩⟩, index'⟩ h
  simp only [key, EmbeddingLike.apply_eq_iff_eq, Prod.mk.injEq, BitVec.toNat_inj] at h
  obtain ⟨rfl, rfl, rfl⟩ := h
  rfl

instance : LinearOrder LogId :=
  LinearOrder.lift' key key_injective

end LogId

-- What a log store stands for: the entry that was last appended at each index, as far as it has been
-- neither truncated nor purged since, and the values that were saved last.
structure Log where
  entries    : Nat → Option Entry
  lastPurged : Option LogId
  vote       : Option Vote
  committed  : Option LogId

namespace Log

open SledLogStore

def empty : Log := ⟨fun _ => none, none, none, none⟩

def append (log : Log) (entries : List Entry) : Log :=
  { log with
    entries := entries.foldl (fun m e => Function.update m e.logId.index (some e)) log.entries }

def truncate (log : Log) (id : LogId) : Log :=
  { log with entries := fun i => if id.index ≤ i then none else log.entries i }

def purge (log : Log) (id : LogId) : Log :=
  { log with
    entries    := fun i => if i ≤ id.index then none else log.entries i
    lastPurged := some id }

def call (log : Log) : Call → Log
  | .append entries          => log.append entries
  | .truncate id             => log.truncate id
  | .purge id                => log.purge id
  | .saveVote vote           => { log with vote := some vote }
  | .saveCommitted committed => { log with committed }
  | .reopen                  => log

def after (calls : List Call) : Log :=
  calls.foldl call empty

-- The entries of a log in the order of their indices.
structure Lists (m : Nat → Option Entry) (entries : List Entry) : Prop where
  sorted : entries.Pairwise (·.logId.index < ·.logId.index)
  mem    : ∀ e, e ∈ entries ↔ m e.logId.index = some e

-- Those that lie in a range.
structure Reads (log : Log) (range : IndexRange) (entries : List Entry) : Prop where
  sorted : entries.Pairwise (·.logId.index < ·.logId.index)
  mem    : ∀ e, e ∈ entries ↔ log.entries e.logId.index = some e ∧ range.contains e.logId.index = true

-- The id that the next entry follows: the one of the last entry, or else what was purged last.
def Latest (log : Log) (id : Option LogId) : Prop :=
  (∃ i e, log.entries i = some e ∧ id = some e.logId ∧ ∀ j e', log.entries j = some e' → j ≤ i) ∨
  (∀ i, log.entries i = none) ∧ id = log.lastPurged

-- Entries with consecutive indices and increasing ids.
def Continues : Option LogId → List Entry → Prop
  | _,    []      => True
  | last, e :: es =>
    (∀ l, last = some l → l < e.logId ∧ e.logId.index = l.index + 1) ∧ Continues (some e.logId) es

-- What openraft calls on a store for this log.
inductive Admits (log : Log) : Call → Prop
  | append {entries latest} :
    log.Latest latest → Continues latest entries → (∀ e ∈ entries, e.logId.index < 2 ^ 64) →
    Admits log (.append entries)
  | truncate {id} :
    (∀ p, log.lastPurged = some p → p.index < id.index) → Admits log (.truncate id)
  | purge {id} :
    (∀ p, log.lastPurged = some p → p ≤ id) →
    ((∃ e, log.entries id.index = some e ∧ e.logId = id) ∨
      ∀ i e, log.entries i = some e → e.logId < id ∧ i < id.index) →
    Admits log (.purge id)
  | saveVote {vote}           : Admits log (.saveVote vote)
  | saveCommitted {committed} : Admits log (.saveCommitted committed)
  | reopen                    : Admits log .reopen

-- A call leaves an entry, once something has been purged.
def Keeps (log : Log) : Call → Prop
  | .purge id    => ∃ i e, log.entries i = some e ∧ id.index < i
  | .truncate id => log.lastPurged = none ∨ ∃ i e, log.entries i = some e ∧ i < id.index
  | _            => True

def step (log : Log) (c : Call) : Option Log :=
  some (log.call c)

end Log

end All4One.Raft
