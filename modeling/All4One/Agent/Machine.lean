import All4One.Agent.Boot
import All4One.Foundation.Transition
import All4One.Storage.Handlers

open Foundation

namespace All4One.Agent

open All4One.Membership

-- An agent that serves: the id it has, and what it has been started with.
structure Running where
  nodeId : NodeId
  boot   : Boot

-- A machine, whose agent comes and goes while the disk stays.
structure Machine where
  disk     : Storage.Disk
  cluster  : ClusterState
  lastSeen : HashMap NodeId Nat
  running  : Option Running

-- The agent is started or stops, or it serves a request. The first writes to the disk in each of these
-- meet with the faults that are listed.
inductive Event
  | start (boot : Boot) (faults : List Fault)
  | stop
  | put (bucket key : String) (header : Option String) (body : Bytes) (now : Nat → String)
    (faults : List Fault)
  | delete (bucket key : String) (faults : List Fault)
  | transfer (payload : Storage.TransferChunkRequest) (now : Nat → String) (faults : List Fault)
  | join (payload : JoinRequest) (now : Nat) (utc : Int) (faults : List Fault)
  | addToCrl (now : String) (nodeId revokedBy : Uuid) (faults : List Fault)

-- What the agents of a machine work with: where their data is, and what other crates do for them.
structure Setting where
  dataDir     : String
  crates      : Storage.Crates
  failureText : Storage.Failure → String
  certText    : CertFailure → String
  crlJson     : Serde (List RevokedNode) String

namespace Machine

variable (setting : Setting) (m : Machine)

def issuer (faults : List Fault) : Issuer where
  files    := m.disk.files
  faults   := faults
  cluster  := m.cluster
  lastSeen := m.lastSeen

def setIssuer (s : Issuer) : Machine :=
  { m with disk := { m.disk with files := s.files }, cluster := s.cluster, lastSeen := s.lastSeen }

-- What a program that works on the storage makes of the disk.
def store {α : Type} (x : Storage.Io α) (faults : List Fault) : Machine :=
  { m with disk := (x.run ⟨m.disk, faults⟩).2.disk }

def joinEnv (boot : Boot) (now : Nat) (utc : Int) : JoinEnv where
  dataDir    := setting.dataDir
  security   := boot.config.security
  selfSigned := boot.selfSigned
  text       := setting.certText
  version    := boot.version
  now        := now
  utc        := utc

-- An agent that fails to start is gone. Only an agent that runs serves.
def step : Event → Option Machine
  | .start boot faults =>
    if m.running.isSome ∨ boot.config.node.dataDir ≠ setting.dataDir then
      none
    else
      let r := boot.runAgent.run (m.issuer faults)
      some { m.setIssuer r.2 with running := r.1.toOption.map (⟨·, boot⟩) }
  | .stop => m.running.map fun _ => { m with running := none }
  | .put bucket key header body now faults => m.running.map fun a =>
    m.store (Storage.ApiRest.putObjectHandler setting.crates setting.failureText now
      a.boot.config.roles.storage setting.dataDir bucket key header body) faults
  | .delete bucket key faults => m.running.map fun a =>
    m.store (Storage.ApiRest.deleteObjectHandler setting.failureText a.boot.config.roles.storage
      bucket key) faults
  | .transfer payload now faults => m.running.map fun a =>
    m.store (Storage.transferChunk setting.crates setting.failureText now
      a.boot.config.roles.storage setting.dataDir payload) faults
  | .join payload now utc faults => m.running.map fun a =>
    m.setIssuer ((join (joinEnv setting a.boot now utc) payload).run (m.issuer faults)).2
  | .addToCrl now nodeId revokedBy faults => m.running.map fun _ =>
    m.setIssuer ((CertificateManager.addToCrl setting.crlJson setting.dataDir now nodeId revokedBy).run
      (m.issuer faults)).2

end Machine

end All4One.Agent
