import All4One.Common.Id
import All4One.Foundation.HashMap
import All4One.Raft.Commands

open Foundation

namespace All4One.Raft

structure LeaderId where
  term   : Nat
  nodeId : NodeId
  deriving DecidableEq, Repr

structure LogId where
  leaderId : LeaderId
  index    : Nat
  deriving DecidableEq, Repr

structure Membership where
  configs : List (List NodeId)
  nodes   : List (NodeId × String)
  deriving DecidableEq, Repr

structure StoredMembership where
  logId      : Option LogId
  membership : Membership
  deriving DecidableEq, Repr

inductive EntryPayload
  | blank
  | normal (cmd : RaftCommand)
  | membership (m : Membership)
  deriving DecidableEq, Repr

structure Entry where
  logId   : LogId
  payload : EntryPayload
  deriving DecidableEq, Repr

@[ext]
structure RaftState where
  lastApplied    : Option LogId
  lastMembership : StoredMembership
  jobRegistry    : HashMap String RegisteredJob
  enrollTokens   : HashMap String EnrollToken
  deriving DecidableEq

namespace RaftState

def default : RaftState where
  lastApplied    := none
  lastMembership := ⟨none, ⟨[], []⟩⟩
  jobRegistry    := ∅
  enrollTokens   := ∅

instance : Inhabited RaftState := ⟨default⟩

end RaftState

namespace RaftCommandResponse

def accepted : RaftCommandResponse where
  success := true
  error   := none
  data    := none

def rejected (error : String) : RaftCommandResponse where
  success := false
  error   := some error
  data    := none

end RaftCommandResponse

open RaftCommandResponse

-- A log entry together with the RFC 3339 text of the wall clock at the moment it is applied.
abbrev TimedEntry := Entry × String

-- `db` is the sled database `raft-sm` of serialised states.
structure SledStateMachine (β : Type) where
  db    : HashMap String β
  state : RaftState

namespace SledStateMachine

def applyCommand (state : RaftState) (now : String) :
    RaftCommand → RaftCommandResponse × RaftState
  | .registerJob jobId nodeId runtime createdAt =>
    match state.jobRegistry.lookup jobId with
    | some _ => (rejected "already registered", state)
    | none   =>
      let job : RegisteredJob := {
        jobId, nodeId, runtime, status := "queued", createdAt, updatedAt := createdAt
      }
      (accepted, { state with jobRegistry := state.jobRegistry.insert jobId job })
  | .updateJobStatus jobId status _ =>
    match state.jobRegistry.lookup jobId with
    | some job =>
      let job := { job with status, updatedAt := now }
      (accepted, { state with jobRegistry := state.jobRegistry.insert jobId job })
    | none => (rejected s!"job {jobId} not found", state)
  | .addMember .. | .removeMember .. => (accepted, state)
  | .storeEnrollToken token expiresAt issuedBy =>
    let entry : EnrollToken := { token, issuedBy, expiresAt, used := false }
    (accepted, { state with enrollTokens := state.enrollTokens.insert token entry })
  | .consumeEnrollToken token =>
    match state.enrollTokens.lookup token with
    | some t =>
      if t.used then
        (rejected "token already used", state)
      else
        let t := { t with used := true }
        (accepted, { state with enrollTokens := state.enrollTokens.insert token t })
    | none => (rejected "token not found", state)

-- One round of the loop in `apply`.
def applyEntry (state : RaftState) (e : TimedEntry) : RaftCommandResponse × RaftState :=
  let state := { state with lastApplied := some e.1.logId }
  match e.1.payload with
  | .blank        => (accepted, state)
  | .normal cmd   => applyCommand state e.2 cmd
  | .membership m => (accepted, { state with lastMembership := ⟨some e.1.logId, m⟩ })

def applyEntries (state : RaftState) : List TimedEntry → List RaftCommandResponse × RaftState
  | []      => ([], state)
  | e :: es =>
    let (resp, state)      := applyEntry state e
    let (responses, state) := applyEntries state es
    (resp :: responses, state)

variable {β : Type} (serde : Serde RaftState β)

def openDb (db : HashMap String β) : SledStateMachine β where
  db    := db
  state :=
    match db.lookup "state" with
    | some b => (serde.fromSlice b).getD .default
    | none   => .default

def apply (sm : SledStateMachine β) (entries : List TimedEntry) :
    List RaftCommandResponse × SledStateMachine β :=
  let (responses, state) := applyEntries sm.state entries
  (responses, { db := sm.db.insert "state" (serde.toVec state), state })

-- A sequence of `apply` calls. The responses of all calls are collected in order.
def applyBatches (sm : SledStateMachine β) :
    List (List TimedEntry) → List RaftCommandResponse × SledStateMachine β
  | []      => ([], sm)
  | b :: bs =>
    let (responses, sm)  := apply serde sm b
    let (responses', sm) := applyBatches sm bs
    (responses ++ responses', sm)

end SledStateMachine

end All4One.Raft
