import All4One.Foundation.Sled
import All4One.Foundation.Transition
import All4One.Raft.Store

open Foundation

namespace All4One.Raft

structure Vote where
  leaderId  : LeaderId
  committed : Bool
  deriving DecidableEq, Repr

structure LogState where
  lastPurgedLogId : Option LogId
  lastLogId       : Option LogId
  deriving DecidableEq, Repr

-- The JSON form of what a log store holds.
structure LogSerde where
  entry : Serde Entry Bytes
  vote  : Serde Vote Bytes
  logId : Serde LogId Bytes

-- One end of a range of indices.
inductive IndexBound
  | included (index : Nat)
  | excluded (index : Nat)
  | unbounded
  deriving DecidableEq, Repr

structure IndexRange where
  first : IndexBound
  last  : IndexBound
  deriving DecidableEq, Repr

namespace IndexRange

def all : IndexRange := ⟨.unbounded, .unbounded⟩

def contains (range : IndexRange) (index : Nat) : Bool :=
  (match range.first with
    | .included i => i ≤ index
    | .excluded i => i < index
    | .unbounded  => true) &&
  (match range.last with
    | .included i => index ≤ i
    | .excluded i => index < i
    | .unbounded  => true)

end IndexRange

-- `db` is the sled database `raft-log`.
structure SledLogStore where
  db : Sled.Db

namespace SledLogStore

def encodeIndex (index : Nat) : Bytes :=
  Bytes.toBe 8 index

-- A key of fewer bytes is a panic.
def decodeIndex (bytes : Bytes) : Option Nat :=
  if bytes.length < 8 then none else some (Bytes.ofBe (bytes.take 8))

def logTree : Bytes := .ofString "entries"
def metaTree : Bytes := .ofString "meta"

def voteKey : Bytes := .ofString "vote"
def committedKey : Bytes := .ofString "committed"
def lastPurgedKey : Bytes := .ofString "last_purged"

def openDb (db : Sled.Db) : SledLogStore := ⟨db⟩

-- What is called on a log store in order to change it, and opening it again.
inductive Call
  | append (entries : List Entry)
  | truncate (logId : LogId)
  | purge (logId : LogId)
  | saveVote (vote : Vote)
  | saveCommitted (committed : Option LogId)
  | reopen

-- A call changes the log itself.
def Call.isLog : Call → Bool
  | append _ | truncate _ | purge _         => true
  | saveVote _ | saveCommitted _ | reopen => false

-- The indices that a call stores are 64 bits wide.
def Call.IsWide : Call → Prop
  | append entries => ∀ e ∈ entries, e.logId.index < 2 ^ 64
  | _              => True

instance : DecidablePred Call.IsWide
  | .append entries => inferInstanceAs (Decidable (∀ e ∈ entries, e.logId.index < 2 ^ 64))
  | .truncate _ | .purge _ | .saveVote _ | .saveCommitted _ | .reopen => isTrue trivial

section Read

variable (serde : LogSerde) (s : SledLogStore)

-- The loop in `try_get_log_entries`.
def collect (range : IndexRange) : List (Bytes × Bytes) → Option (List Entry)
  | []           => some []
  | (k, v) :: kvs => do
    let index ← decodeIndex k
    if range.contains index then
      let entry ← serde.entry.fromSlice v
      let entries ← collect range kvs
      some (entry :: entries)
    else
      collect range kvs

def tryGetLogEntries (range : IndexRange) : Option (List Entry) := do
  let entries ← collect serde range (s.db.tree logTree).iter
  some (entries.mergeSort (·.logId.index ≤ ·.logId.index))

-- A key of the tree `meta`. The outer option is the error of a value that can not be read.
def readMeta {α : Type} (serde : Serde α Bytes) (key : Bytes) : Option (Option α) :=
  match s.db.get metaTree key with
  | some b => (serde.fromSlice b).map some
  | none   => some none

def readVote : Option (Option Vote) :=
  s.readMeta serde.vote voteKey

def readCommitted : Option (Option LogId) :=
  s.readMeta serde.logId committedKey

def getLogState : Option LogState := do
  let lastPurged ← s.readMeta serde.logId lastPurgedKey
  let lastLog ←
    match (s.db.tree logTree).last with
    | some (_, v) => (serde.entry.fromSlice v).map fun e => some e.logId
    | none        => some none
  some { lastPurgedLogId := lastPurged, lastLogId := lastLog }

end Read

section Write

variable (serde : LogSerde) (s : SledLogStore)

-- The keys of the log whose indices satisfy a condition.
def keysWhere (p : Nat → Bool) : List (Bytes × Bytes) → Option (List Bytes)
  | []           => some []
  | (k, _) :: kvs => do
    let index ← decodeIndex k
    let keys ← keysWhere p kvs
    some (if p index then k :: keys else keys)

def append (entries : List Entry) : List Sled.Write :=
  [.batch logTree (entries.map fun e => (encodeIndex e.logId.index, serde.entry.toVec e))]

def truncate (logId : LogId) : Option (List Sled.Write) := do
  let keys ← keysWhere (logId.index ≤ ·) (s.db.tree logTree).iter
  some (keys.map (.remove logTree))

def purge (logId : LogId) : Option (List Sled.Write) := do
  let keys ← keysWhere (· ≤ logId.index) (s.db.tree logTree).iter
  some (keys.map (.remove logTree) ++ [.insert metaTree lastPurgedKey (serde.logId.toVec logId)])

def saveVote (vote : Vote) : List Sled.Write :=
  [.insert metaTree voteKey (serde.vote.toVec vote)]

def saveCommitted : Option LogId → List Sled.Write
  | some id => [.insert metaTree committedKey (serde.logId.toVec id)]
  | none    => [.remove metaTree committedKey]

-- The writes to sled that a call makes, in their order.
def writes : Call → Option (List Sled.Write)
  | .append entries          => some (append serde entries)
  | .truncate logId          => s.truncate logId
  | .purge logId             => s.purge serde logId
  | .saveVote vote           => some (saveVote serde vote)
  | .saveCommitted committed => some (saveCommitted serde committed)
  | .reopen                  => some []

def call (c : Call) : Option SledLogStore := do
  let writes ← s.writes serde c
  some (openDb (s.db.writeAll writes))

-- A call that is cut off after some of its writes, and the store that is opened afterwards.
def crash (c : Call) (n : Nat) : Option SledLogStore := do
  let writes ← s.writes serde c
  some (openDb (s.db.writeAll (writes.take n)))

end Write

end SledLogStore

end All4One.Raft
