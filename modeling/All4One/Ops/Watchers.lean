import All4One.Common.Node
import All4One.Foundation.Diff

open Foundation

namespace All4One

-- `{:?}`
def NodeStatus.debug : NodeStatus → String
  | online    => "Online"
  | suspected => "Suspected"
  | offline   => "Offline"

-- `nodes.iter().map(|(id, info)| (*id, info.status.clone()))`
def ClusterState.statuses (cluster : ClusterState) : AList fun _ : NodeId => NodeStatus where
  entries   := cluster.nodes.entries.map fun e => ⟨e.1, e.2.status⟩
  nodupKeys := .map₂ (fun _ n => n.status) _ cluster.nodes.nodupKeys

namespace Ops

structure OpsEvent where
  sentAt  : String
  kind    : String
  level   : String
  message : String
  nodeId  : Option String
  jobId   : Option String
  deriving DecidableEq, Repr

def publishOpsEvent (now kind level message : String) (nodeId : Option NodeId)
    (jobId : Option JobId) : OpsEvent where
  sentAt  := now
  kind    := kind
  level   := level
  message := message
  nodeId  := nodeId.map (·.uuid.toText)
  jobId   := jobId.map (·.uuid.toText)

def changedMessage (nodeId : NodeId) (prev status : NodeStatus) : String :=
  "Node " ++ nodeId.uuid.toText ++ " changed status " ++ (prev.debug ++ " -> " ++ status.debug)

def discoveredMessage (nodeId : NodeId) (status : NodeStatus) : String :=
  "Node " ++ nodeId.uuid.toText ++ " discovered with status " ++ status.debug

def removedMessage (nodeId : NodeId) : String :=
  "Node " ++ nodeId.uuid.toText ++ " removed from cluster view"

-- What the loop sees in a round: the cluster, what it collects from it, in the order in which an
-- iteration visits it, and the time at which it comes to a node.
structure Seen where
  snapshot  : ClusterState
  current   : AList fun _ : NodeId => NodeStatus
  now       : NodeId → String
  collected : current.entries.Perm snapshot.statuses.entries

-- The body of the loop.
def round (lastStatus : AList fun _ : NodeId => NodeStatus) (seen : Seen) : List OpsEvent :=
  (seen.current.entries.filterMap fun ⟨nodeId, status⟩ =>
    match lastStatus.lookup nodeId with
    | some prev =>
      if prev ≠ status then
        some <| publishOpsEvent (seen.now nodeId) "node.status_changed"
          (if status = .online then "info" else "warn") (changedMessage nodeId prev status)
          (some nodeId) none
      else
        none
    | none =>
      some <| publishOpsEvent (seen.now nodeId) "node.discovered" "info"
        (discoveredMessage nodeId status) (some nodeId) none) ++
  (lastStatus.keys.filter (· ∉ seen.current)).map fun nodeId =>
    publishOpsEvent (seen.now nodeId) "node.removed" "warn" (removedMessage nodeId) (some nodeId)
      none

-- What is published in each of the rounds.
def rounds (lastStatus : AList fun _ : NodeId => NodeStatus) : List Seen → List (List OpsEvent)
  | []            => []
  | seen :: seens => round lastStatus seen :: rounds seen.current seens

def startOpsWatchers (first : Seen) (seens : List Seen) : List (List OpsEvent) :=
  rounds first.current seens

namespace OpsEvent

def isMembership (event : OpsEvent) : Bool :=
  event.kind ∈ ["node.status_changed", "node.discovered", "node.removed"]

def statuses : List NodeStatus :=
  [.online, .suspected, .offline]

-- What a listener reads from an event about the nodes of the cluster.
def change? (event : OpsEvent) : Option (Change NodeId NodeStatus) := do
  let nodeId ← (event.nodeId.bind Uuid.parseStr).map NodeId.mk
  if event.kind = "node.status_changed" then
    (statuses.product statuses).find? (fun s => event.message = changedMessage nodeId s.1 s.2) |>.map
      fun s => .changed nodeId s.1 s.2
  else if event.kind = "node.discovered" then
    statuses.find? (fun s => event.message = discoveredMessage nodeId s) |>.map (.added nodeId)
  else if event.kind = "node.removed" then
    some (.removed nodeId)
  else
    none

end OpsEvent

-- A listener keeps a map of the nodes. It passes over the events that are not about them.
def hear (nodes : HashMap NodeId NodeStatus) (event : OpsEvent) :
    Option (HashMap NodeId NodeStatus) :=
  match event.change? with
  | some change => change.apply nodes
  | none        => some nodes

-- The map of the listener after each of the rounds.
def listen (nodes : HashMap NodeId NodeStatus) :
    List (List OpsEvent) → Option (List (HashMap NodeId NodeStatus))
  | []               => some []
  | events :: rounds => do
    let nodes ← events.foldlM hear nodes
    (listen nodes rounds).map (nodes :: ·)

end Ops

end All4One
