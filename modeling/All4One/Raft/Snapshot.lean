import All4One.Foundation.Transition
import All4One.Raft.Store

open Foundation

namespace All4One.Raft

structure SnapshotMeta where
  lastLogId      : Option LogId
  lastMembership : StoredMembership
  snapshotId     : String
  deriving DecidableEq, Repr

structure Snapshot (β : Type) where
  metadata : SnapshotMeta
  data     : β
  deriving DecidableEq, Repr

-- `SledSnapshotBuilder`
structure SledSnapshotBuilder where
  state : RaftState

section

variable {β : Type} (serde : Serde RaftState β)

-- `snapshotId` is the UUID that is drawn.
def SledSnapshotBuilder.buildSnapshot (builder : SledSnapshotBuilder) (snapshotId : String) :
    Snapshot β where
  metadata.lastLogId      := builder.state.lastApplied
  metadata.lastMembership := builder.state.lastMembership
  metadata.snapshotId     := snapshotId
  data                    := serde.toVec builder.state

namespace SledStateMachine

def appliedState (sm : SledStateMachine β) : Option LogId × StoredMembership :=
  (sm.state.lastApplied, sm.state.lastMembership)

def getSnapshotBuilder (sm : SledStateMachine β) : SledSnapshotBuilder where
  state := sm.state

-- `null` is what `serde_json` writes for a value that is not there.
def getCurrentSnapshot [DecidableEq β] (null : β) (sm : SledStateMachine β) : Option (Snapshot β) :=
  let data := serde.toVec sm.state
  if data = null ∨ sm.state.lastApplied.isNone then
    none
  else
    some ⟨⟨sm.state.lastApplied, sm.state.lastMembership, "latest"⟩, data⟩

-- `none` is the error of a snapshot that can not be read.
def installSnapshot (sm : SledStateMachine β) (snapshot : Snapshot β) : Option (SledStateMachine β) :=
  match serde.fromSlice snapshot.data with
  | none       => none
  | some state =>
    let state := { state with
      lastApplied    := snapshot.metadata.lastLogId
      lastMembership := snapshot.metadata.lastMembership
    }
    some { db := sm.db.insert "state" (serde.toVec state), state }

-- An `apply` call that is cut off: after some of its entries, or once it has written the state.
def applyInterrupted (sm : SledStateMachine β) (entries : List TimedEntry) :
    Option Nat → SledStateMachine β
  | some n => { sm with state := (applyEntries sm.state (entries.take n)).2 }
  | none   => (apply serde sm entries).2

end SledStateMachine

end

-- The clock readings at which a replica applies the entries of a log.
def timed (clock : Nat → String) (log : List Entry) : List TimedEntry :=
  log.zipIdx.map fun (e, i) => (e, clock i)

-- How many entries of a log do not follow the one that was applied last.
def position (log : List Entry) : Option LogId → Nat
  | none    => 0
  | some id => log.countP fun e => e.logId.index ≤ id.index

-- A log on its way to a state machine, and then to the one of another node. `next` is where the caller
-- of the state machine goes on in the log, which it learns from the state machine or a snapshot when
-- it starts and counts itself from then on. `answers` are the entries of each `apply` call together
-- with what the call returned.
structure Delivery (β : Type) where
  sm      : SledStateMachine β
  next    : Nat
  answers : List (List Entry × List RaftCommandResponse)

namespace Delivery

inductive Event (β : Type)
  | apply (n : Nat) (clock : Nat → String)
  | restart
  | crash (n : Nat) (clock : Nat → String) (stop : Option Nat)
  | build (snapshotId : String) (receiver : SledStateMachine β)
  | current (receiver : SledStateMachine β)

variable {β : Type} [DecidableEq β] (serde : Serde RaftState β) (null : β) (log : List Entry)

def batch (d : Delivery β) (n : Nat) : List Entry :=
  (log.drop d.next).take n

def openDb (d : Delivery β) (db : HashMap String β) : Delivery β :=
  let sm : SledStateMachine β := .openDb serde db
  { d with sm, next := position log sm.appliedState.1 }

-- `none` is the error of a snapshot that can not be read.
def install (d : Delivery β) (receiver : SledStateMachine β) (snapshot : Snapshot β) :
    Option (Delivery β) :=
  (receiver.installSnapshot serde snapshot).map fun sm =>
    { d with sm, next := position log snapshot.metadata.lastLogId }

def step (d : Delivery β) : Event β → Option (Delivery β)
  | .apply n clock =>
    let batch := d.batch log n
    let (responses, sm) := d.sm.apply serde (timed clock batch)
    some { sm, next := d.next + batch.length, answers := d.answers ++ [(batch, responses)] }
  | .restart => some (d.openDb serde log d.sm.db)
  | .crash n clock stop =>
    some (d.openDb serde log (d.sm.applyInterrupted serde (timed clock (d.batch log n)) stop).db)
  | .build snapshotId receiver =>
    d.install serde log receiver (d.sm.getSnapshotBuilder.buildSnapshot serde snapshotId)
  -- Without a snapshot there is nothing to hand on.
  | .current receiver =>
    match d.sm.getCurrentSnapshot serde null with
    | none          => some d
    | some snapshot => d.install serde log receiver snapshot

def start : Delivery β where
  sm      := .openDb serde ∅
  next    := 0
  answers := []

end Delivery

end All4One.Raft
