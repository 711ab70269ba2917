import All4One.Foundation.Text
import All4One.Grpc.Messages
import All4One.Membership.Certificates

open Foundation

namespace All4One.Membership

open Grpc (Status)

structure SecurityConfig where
  mode         : String
  sharedSecret : String
  deriving DecidableEq, Repr

structure JoinRequest where
  nodeId       : String
  joinSecret   : String
  tier         : UInt32
  grpcEndpoint : String
  restEndpoint : String
  deriving DecidableEq, Repr

structure JoinResponse where
  nodeCertPem   : String
  nodeKeyPem    : String
  caCertPem     : String
  expiresAtUnix : Int
  deriving DecidableEq, Repr

-- A node that serves a join request: its configuration, what other crates do for it, what its errors
-- are displayed as, its version, and its clocks.
structure JoinEnv where
  dataDir    : String
  security   : SecurityConfig
  selfSigned : List String → Except String CertifiedKey
  text       : CertFailure → String
  version    : String
  now        : Nat
  utc        : Int

variable (env : JoinEnv)

-- The gate in `join`.
def checkSecret (security : SecurityConfig) (joinSecret : String) : Except Status Unit :=
  let provided := Text.trim joinSecret
  if provided ≠ "" then
    if security.mode ≠ "shared-secret" then
      .error ⟨.unauthenticated, "join_secret enrollment is only allowed in dev mode"⟩
    else
      let configured := Text.trim security.sharedSecret
      if configured = "" ∨ provided ≠ configured then
        .error ⟨.unauthenticated, "invalid join_secret"⟩
      else
        .ok ()
  else
    .ok ()

-- The certificates that `join` returns: the one of the node, and the one of the CA.
def issue (nodeId : Uuid) : Prog Issuer Status (CertifiedKey × String) := do
  Prog.mapErr (fun e => ⟨.internal, s!"Failed to initialize CA: {env.text e}"⟩)
    (CertificateManager.initCa env.selfSigned env.dataDir)
  let node ← Prog.mapErr (fun e => ⟨.internal, s!"Failed to generate cert: {env.text e}"⟩)
    (CertificateManager.generateNodeCert env.selfSigned env.dataDir nodeId)
  let ca ← Prog.mapErr (fun e => ⟨.internal, s!"Failed to load CA cert: {env.text e}"⟩)
    (.reads fun s => CertificateManager.loadCaPem env.dataDir s.files)
  return (node, ca)

def joiningNode (version : String) (nodeId : Uuid) (payload : JoinRequest) : NodeInfo where
  profile := {
    id                := ⟨nodeId⟩
    tier              := payload.tier.toUInt8
    availability      := ""
    quorumParticipant := false
    resources         := { cpuCores := 0, memoryMb := 0, diskMb := none }
    capabilities      := {
      docker := false, python := none, java := none, wasm := false, gpuEnabled := false
      storageNode := false
    }
  }
  status       := .online
  version      := version
  grpcEndpoint := payload.grpcEndpoint
  restEndpoint := payload.restEndpoint

def grant (node : NodeInfo) (s : Issuer) : Issuer :=
  { s with
    cluster  := s.cluster.upsert node
    lastSeen := s.lastSeen.insert node.profile.id env.now }

def join (payload : JoinRequest) : Prog Issuer Status JoinResponse := do
  let nodeId ← .ofExcept <|
    match Uuid.parseStr payload.nodeId with
    | some nodeId => .ok nodeId
    | none        => .error ⟨.invalidArgument, "invalid node_id in join request"⟩
  .reads fun s =>
    if CertificateManager.hasCaKey env.dataDir s.files then
      .ok ()
    else
      .error ⟨.failedPrecondition, "This node is not a certificate issuer (missing CA key)"⟩
  .ofExcept (checkSecret env.security payload.joinSecret)
  let (node, ca) ← issue env nodeId
  .update (grant env (joiningNode env.version nodeId payload))
  return {
    nodeCertPem   := node.cert
    nodeKeyPem    := node.keyPair
    caCertPem     := ca
    expiresAtUnix := env.utc + 90 * 24 * 3600
  }

end All4One.Membership
