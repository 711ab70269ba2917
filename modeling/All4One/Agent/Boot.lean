import All4One.Membership.Config
import All4One.Membership.Enrolment

open Foundation

namespace All4One.Agent

open All4One.Membership

inductive NodeIdFailure
  | file (err : CertFailure)
  | invalidFormat
  deriving DecidableEq, Repr

def nodeIdPath (dataDir : String) : String :=
  Path.join dataDir "node-id"

-- The id that a text has, blanks around it aside.
def parseNodeId (data : Bytes) : Except NodeIdFailure NodeId :=
  match Bytes.toString? data with
  | none     => .error (.file .notUtf8)
  | some raw =>
    match Uuid.parseStr (Text.trim raw) with
    | some id => .ok ⟨id⟩
    | none    => .error .invalidFormat

-- `fresh` is the id that would be a new one.
def nodeId (dataDir : String) (fresh : NodeId) : Prog Issuer NodeIdFailure NodeId := do
  Prog.mapErr .file (CertificateManager.io (Files.createDirAll dataDir))
  let exist ← .reads fun s => .ok (s.files.pathExists (nodeIdPath dataDir))
  if exist then
    .reads fun s =>
      match s.files.read (nodeIdPath dataDir) with
      | .error err => .error (.file (.io err))
      | .ok data   => parseNodeId data
  else
    Prog.mapErr .file
      (CertificateManager.io (Files.write (nodeIdPath dataDir) (.ofString fresh.uuid.toText)))
    return fresh

-- What an agent finds in its configuration and its environment of how it can be reached.
structure Address where
  bindAddress       : String
  grpcPort          : UInt16
  restPort          : UInt16
  advertiseHost     : Option String
  advertiseGrpcPort : Option String
  advertiseRestPort : Option String
  hostname          : Option String

namespace Address

variable (address : Address)

def host : String :=
  let listened := if address.bindAddress = "0.0.0.0" then address.hostname else some address.bindAddress
  ((address.advertiseHost.filter fun v => !Text.isBlank v) <|> listened).getD address.bindAddress

def advertised (value : Option String) (port : UInt16) : UInt16 :=
  (value.bind fun v => Text.parseU16 (Text.trim v)).getD port

def grpcEndpoint : String :=
  s!"{address.host}:{advertised address.advertiseGrpcPort address.grpcPort}"

def restEndpoint : String :=
  s!"{address.host}:{advertised address.advertiseRestPort address.restPort}"

end Address

-- An agent that boots: its configuration, what it finds of its machine, what other crates do for it, and
-- what comes back from an endpoint at each attempt to join there.
structure Boot where
  config     : Config
  seeds      : List String
  caCert     : Option (Except String Unit)
  address    : Address
  version    : String
  cpuCores   : UInt32
  memoryMb   : UInt32
  now        : Nat
  fresh      : NodeId
  selfSigned : List String → Except String CertifiedKey
  serve      : Nat → String → JoinRequest → Except String JoinResponse

inductive BootFailure
  | nodeId (err : NodeIdFailure)
  | start (err : StartFailure)
  deriving DecidableEq, Repr

namespace Boot

variable (boot : Boot) (id : NodeId)

def localNode : NodeInfo where
  profile      := boot.config.profile id boot.cpuCores boot.memoryMb
  status       := .online
  version      := boot.version
  grpcEndpoint := boot.address.grpcEndpoint
  restEndpoint := boot.address.restEndpoint

def joinSecret : Option String :=
  if boot.config.security.mode = "shared-secret" then
    let secret := Text.trim boot.config.security.sharedSecret
    if secret = "" then none else some secret
  else
    none

def joinRequest : JoinRequest where
  nodeId       := id.uuid.toText
  joinSecret   := boot.joinSecret.getD ""
  tier         := boot.config.node.tier.toUInt32
  grpcEndpoint := boot.address.grpcEndpoint
  restEndpoint := boot.address.restEndpoint

def normalizeEndpoint (endpoint : String) : String :=
  if "http://".toList <+: endpoint.toList ∨ "https://".toList <+: endpoint.toList then
    endpoint
  else
    "http://" ++ endpoint

-- The certificate of the CA, if there is one in the configuration, only has to be readable.
def requestJoinWithCa (attempt : Nat) (seed : String) : Except String JoinResponse := do
  boot.caCert.getD (.ok ())
  boot.serve attempt (normalizeEndpoint seed) (boot.joinRequest id)

def start : Start where
  localNode  := boot.localNode id
  now        := boot.now
  tier       := boot.config.node.tier
  seeds      := boot.seeds
  selfSigned := boot.selfSigned
  request    := boot.requestJoinWithCa id

-- `run_agent`, up to where the agent serves.
def runAgent : Prog Issuer BootFailure NodeId := do
  let id ← Prog.mapErr .nodeId (nodeId boot.config.node.dataDir boot.fresh)
  Prog.mapErr .start (Membership.runAgent boot.config.node.dataDir (boot.start id))
  return id

end Boot

end All4One.Agent
