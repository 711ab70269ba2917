import All4One.Membership.Network
import All4One.Raft.Store

open Foundation

namespace All4One.Raft

-- A majority of each configuration.
def Membership.IsQuorum (m : Membership) (accepts : List NodeId) : Prop :=
  m.configs ≠ [] ∧ ∀ config ∈ m.configs, config.length < 2 * config.countP (· ∈ accepts)

instance (m : Membership) (accepts : List NodeId) : Decidable (m.IsQuorum accepts) :=
  inferInstanceAs (Decidable (_ ∧ _))

def EntryPayload.membership? : EntryPayload → Option Membership
  | membership m => some m
  | _            => none

-- What a node keeps: its log, how much of it has been applied, and what has come of that.
structure RaftNode where
  log     : List Entry
  applied : Nat
  state   : RaftState
  deriving DecidableEq

namespace RaftNode

open SledStateMachine

def empty : RaftNode where
  log     := []
  applied := 0
  state   := .default

-- The membership is the last one in the log.
def membership (node : RaftNode) : Membership :=
  (node.log.filterMap (·.payload.membership?)).getLast?.getD ⟨[], []⟩

-- `init_raft` on what the data directory holds of a node. It adds a membership to an empty log.
def initRaft (nodeId : NodeId) (grpcEndpoint : String) (initialPeers : List (NodeId × String))
    (node : RaftNode) : RaftNode :=
  if node.log = [] then
    let members : AList fun _ : NodeId => String :=
      initialPeers.foldl (fun members peer => members.insert peer.1 peer.2)
        (.singleton nodeId grpcEndpoint)
    let membership : Membership := {
      configs := [members.keys]
      nodes   := members.entries.map fun e => (e.1, e.2)
    }
    { node with log := [⟨⟨⟨0, nodeId⟩, 0⟩, .membership membership⟩] }
  else
    node

-- The entries of a log that have been committed and not been applied are applied in their order.
def catchUp (log : List Entry) (committed : Nat) (now : String) (node : RaftNode) : RaftNode where
  log     := log
  applied := max node.applied committed
  state   := (applyEntries node.state (((log.take committed).drop node.applied).map (·, now))).2

-- A leader adds an entry to its log. It commits and applies it, and has a response, if a majority of
-- its membership accepts the entry.
def propose (leaderId : LeaderId) (payload : EntryPayload) (now : String) (accepts : List NodeId)
    (node : RaftNode) : Option (RaftCommandResponse × RaftNode) :=
  if node.membership.IsQuorum accepts then
    let node := node.catchUp node.log node.log.length now
    let entry : Entry := ⟨⟨leaderId, node.log.length⟩, payload⟩
    let (response, state) := applyEntry node.state (entry, now)
    some (response, { log := node.log ++ [entry], applied := node.applied + 1, state })
  else
    none

end RaftNode

-- A response that `RaftNode::apply_command` has returned.
structure Reply where
  nodeId   : NodeId
  cmd      : RaftCommand
  response : RaftCommandResponse
  deriving DecidableEq

-- The agents, what those of them that take part in the quorum keep of it, and their replies so far.
structure Cluster where
  network : Membership.Network
  rafts   : HashMap NodeId RaftNode
  replies : List Reply

namespace Cluster

def start : Cluster where
  network := .start
  rafts   := ∅
  replies := []

inductive Event
  | network (e : Membership.Network.Event)
  | initRaft (a : NodeId) (grpcEndpoint : String)
  | elect (a : NodeId) (leaderId : LeaderId) (now : String) (accepts : List NodeId)
  | applyCommand (a : NodeId) (cmd : RaftCommand) (leaderId : LeaderId) (now : String)
    (accepts : List NodeId)
  | replicate (a b : NodeId) (now : String)
  deriving DecidableEq

def setRaft (s : Cluster) (a : NodeId) (node : RaftNode) : Cluster :=
  { s with rafts := s.rafts.insert a node }

variable (net : Membership.Setting)

def step (s : Cluster) : Event → Option Cluster
  | .network e => do
    let network ← Membership.Network.step net s.network e
    return { s with network }
  -- `run_agent` knows of no other members when it starts.
  | .initRaft a grpcEndpoint => do
    let m ← s.network.members.lookup a
    if m.localNode.profile.quorumParticipant then
      return s.setRaft a (((s.rafts.lookup a).getD .empty).initRaft a grpcEndpoint [])
    else
      none
  | .elect a leaderId now accepts => do
    let node ← s.rafts.lookup a
    let (_, node) ← node.propose leaderId .blank now accepts
    return s.setRaft a node
  | .applyCommand a cmd leaderId now accepts => do
    let node ← s.rafts.lookup a
    match node.propose leaderId (.normal cmd) now accepts with
    | some (response, node) =>
      return { s.setRaft a node with replies := s.replies ++ [⟨a, cmd, response⟩] }
    | none => return s
  -- A member follows a leader whose log continues its own.
  | .replicate a b now => do
    let leader ← s.rafts.lookup a
    let node ← s.rafts.lookup b
    if (∃ config ∈ leader.membership.configs, b ∈ config) ∧ node.log <+: leader.log then
      return s.setRaft b (node.catchUp leader.log leader.applied now)
    else
      none

end Cluster

end All4One.Raft
