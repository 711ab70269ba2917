import All4One.Jobs.System
import All4One.Membership.Config
import All4One.Storage.Handlers

open Foundation

namespace All4One

open Storage

-- What a node is asked about objects and their shards, over REST or by another node.
inductive StorageRequest
  | createBucket (bucket : String)
  | list (bucket : String) (keyPrefix : Option String) (maxKeys : Option Nat)
  | put (bucket key : String) (header : Option String) (body : Bytes) (now : Nat → String)
  | get (bucket key : String)
  | delete (bucket key : String)
  | transfer (payload : TransferChunkRequest) (now : Nat → String)
  | fetch (payload : FetchChunkRequest)

inductive StorageAnswer
  | rest (reply : Except Failure ApiRest.Reply)
  | transferred (response : Except Failure TransferChunkResponse)
  | fetched (response : Except String FetchChunkResponse)
  deriving DecidableEq

-- The answer says that nothing has been done, and has no data.
def StorageAnswer.isRefusal : StorageAnswer → Bool
  | rest (.ok reply)           => reply.status = 503
  | transferred (.ok response) => ¬ response.accepted
  | fetched (.ok response)     => ¬ response.found ∧ response.data = []
  | fetched (.error _)         => true
  | _                          => false

-- The nodes and what they are made of.
structure Deployment where
  net     : Network
  roles   : NodeId → RolesConfig
  dataDir : NodeId → String
  crates  : Crates
  text    : Failure → String
  ioText  : IoError → String

-- The handlers of a node, those of `ApiRest` and those of `ServiceImpl`.
def Deployment.serve (d : Deployment) (n : NodeId) (w : World) : StorageRequest → StorageAnswer × World
  | .createBucket bucket =>
    let r := (ApiRest.createBucket d.text (d.roles n).storage bucket).run w
    (.rest r.1, r.2)
  | .list bucket keyPrefix maxKeys =>
    let r := (ApiRest.listBucketObjects d.crates d.text (d.roles n).storage bucket keyPrefix maxKeys).run w
    (.rest r.1, r.2)
  | .put bucket key header body now =>
    let r := (ApiRest.putObjectHandler d.crates d.text now (d.roles n).storage (d.dataDir n) bucket key
      header body).run w
    (.rest r.1, r.2)
  | .get bucket key =>
    let r := (ApiRest.getObjectHandler d.crates d.text (d.roles n).storage (d.dataDir n) bucket key).run w
    (.rest r.1, r.2)
  | .delete bucket key =>
    let r := (ApiRest.deleteObjectHandler d.text (d.roles n).storage bucket key).run w
    (.rest r.1, r.2)
  | .transfer payload now =>
    let r := (transferChunk d.crates d.text now (d.roles n).storage (d.dataDir n) payload).run w
    (.transferred r.1, r.2)
  | .fetch payload =>
    (.fetched (fetchChunk d.crates d.ioText (d.dataDir n) w.disk.files payload), w)

namespace RoleSystem

structure State where
  jobs  : JobSystem
  disks : NodeId → Disk

inductive Event
  | job (ev : JobSystem.Event)
  | storage (n : NodeId) (request : StorageRequest) (faults : List Fault)

variable (d : Deployment)

def init (clusters : NodeId → ClusterState) (disks : NodeId → Disk) : State where
  jobs  := .init clusters
  disks := disks

def step (s : State) : Event → Option State
  | .job ev                    => (s.jobs.step d.net ev).map fun jobs => { s with jobs }
  | .storage n request faults =>
    let disk := (d.serve n ⟨s.disks n, faults⟩ request).2.disk
    some { s with disks := Function.update s.disks n disk }

-- The nodes that `pick_node` picks in an event, each with the node that picks it.
def picks (s : JobSystem) : JobSystem.Event → Option (NodeId × NodeId)
  | .enqueue n request _ _ =>
    if request.isValid then
      (pickNode (d.net.localNode n) (s.clusters n) request.scheduling).map (n, ·)
    else
      none
  | .pick k => do
    let t ← s.tasks[k]?
    let m ← pickNode (d.net.localNode t.node) (s.clusters t.node) t.scheduling
    return (t.node, m)
  | _ => none

-- The node on which an event starts the process of a job.
def starts (s : JobSystem) : JobSystem.Event → Option NodeId
  | .spawn k => s.executors[k]?.map (·.node)
  | _        => none

-- A node does in an event what its roles allow.
def Enforced (s : State) : Event → Prop
  | .job ev =>
    (∀ n ∈ starts s.jobs ev, (d.roles n).executor) ∧
    ∀ p ∈ picks d s.jobs ev, p.2 ≠ p.1 → (d.roles p.2).executor
  | .storage n request faults =>
    ¬ (d.roles n).storage →
      (d.serve n ⟨s.disks n, faults⟩ request).1.isRefusal ∧
      (d.serve n ⟨s.disks n, faults⟩ request).2.disk = s.disks n

-- The calls of `submit_job` for a job that another node has given its id.
def called (s : JobSystem) : JobSystem.Event → Option (NodeId × Grpc.SubmitJobRequest)
  | .submit k _                => s.tasks[k]?.bind (·.submission d.net)
  | .submitLate i _            => s.late[i]?
  | .foreignSubmit n request _ => some (n, request)
  | _                          => none

-- The view of the cluster and the request that a node is picked by in an event.
def schedules (s : JobSystem) : JobSystem.Event → Option (ClusterState × SchedulingRequest)
  | .enqueue n request _ _ => if request.isValid then some (s.clusters n, request.scheduling) else none
  | .pick k                => s.tasks[k]?.map fun t => (s.clusters t.node, t.scheduling)
  | _                      => none

-- What no handler checks: the first of the suitable nodes has the executor role, and so has a node
-- that a valid `SubmitJob` reaches. A shard that is fetched from a node without the storage role is
-- not there.
def Allowed (s : State) : Event → Prop
  | .job ev =>
    (∀ p ∈ schedules s.jobs ev, ∀ node ∈ p.1.values, p.1.IsFirst p.2 node →
      (d.roles node.profile.id).executor) ∧
    ∀ c ∈ called d s.jobs ev, c.2.job?.isSome → (d.roles c.1).executor
  | .storage n (.fetch payload) _ =>
    (d.roles n).storage ∨ ¬ ((s.disks n).files.read (chunkPath (chunksDir (d.dataDir n) payload.bucket)
      (safeObjectId payload.bucket payload.key) payload.shardIndex)).isOk
  | .storage .. => True

instance (s : State) : (e : Event) → Decidable (Allowed d s e)
  | .job _                    => inferInstanceAs (Decidable (_ ∧ _))
  | .storage _ (.fetch _) _    => inferInstanceAs (Decidable (_ ∨ _))
  | .storage _ (.createBucket _) _ => .isTrue trivial
  | .storage _ (.list ..) _     => .isTrue trivial
  | .storage _ (.put ..) _      => .isTrue trivial
  | .storage _ (.get ..) _      => .isTrue trivial
  | .storage _ (.delete ..) _   => .isTrue trivial
  | .storage _ (.transfer ..) _ => .isTrue trivial

end RoleSystem

end All4One
