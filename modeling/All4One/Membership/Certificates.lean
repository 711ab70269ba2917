import All4One.Common.Node
import All4One.Foundation.Files

open Foundation

namespace All4One.Membership

-- A certificate and its private key, both in PEM.
structure CertifiedKey where
  cert    : String
  keyPair : String
  deriving DecidableEq, Repr

inductive CertFailure
  | io (err : IoError)
  | rcgen (message : String)
  | notUtf8
  deriving DecidableEq, Repr

-- What a node that others join works on, and what is going to happen to its writes.
structure Issuer where
  files    : Files
  faults   : List Fault
  cluster  : ClusterState
  lastSeen : HashMap NodeId Nat

namespace CertificateManager

def certsDir (dataDir : String) : String :=
  Path.join dataDir "certs"

def caKeyPath (dataDir : String) : String :=
  Path.join (certsDir dataDir) "ca.key"

def caCrtPath (dataDir : String) : String :=
  Path.join (certsDir dataDir) "ca.crt"

def io (op : Fault → Prog Files IoError Unit) : Prog Issuer CertFailure Unit where
  run s :=
    let r := (op (s.faults.headD .none)).run s.files
    (r.1.mapError .io, { s with files := r.2, faults := s.faults.tail })

-- Permissions are not kept track of.
def setPermissions (path : String) (fault : Fault) : Prog Files IoError Unit where
  run fs :=
    if fs.pathExists path then
      match fault with
      | .none => (.ok (), fs)
      | _     => (.error .broken, fs)
    else
      (.error .refused, fs)

def ensureDirs (dataDir : String) : Prog Issuer CertFailure Unit :=
  io (Files.createDirAll (certsDir dataDir))

def hasCaKey (dataDir : String) (files : Files) : Bool :=
  files.pathExists (caKeyPath dataDir)

def loadCaPem (dataDir : String) (files : Files) : Except CertFailure String :=
  match files.read (caCrtPath dataDir) with
  | .error err => .error (.io err)
  | .ok data   =>
    match Bytes.toString? data with
    | some pem => .ok pem
    | none     => .error .notUtf8

-- `generate_simple_self_signed` of `rcgen`, for the names that it is given.
variable (selfSigned : List String → Except String CertifiedKey)

def generateCaCert : Except CertFailure CertifiedKey :=
  (selfSigned ["all4one-ca"]).mapError .rcgen

def initCa (dataDir : String) : Prog Issuer CertFailure Unit := do
  ensureDirs dataDir
  let exist ← .reads fun s =>
    .ok (s.files.pathExists (caKeyPath dataDir) && s.files.pathExists (caCrtPath dataDir))
  if exist then
    return ()
  let ca ← .ofExcept (generateCaCert selfSigned)
  io (Files.write (caCrtPath dataDir) (.ofString ca.cert))
  io (Files.write (caKeyPath dataDir) (.ofString ca.keyPair))
  io (setPermissions (caKeyPath dataDir))

def generateNodeCert (dataDir : String) (nodeId : Uuid) : Prog Issuer CertFailure CertifiedKey := do
  ensureDirs dataDir
  .ofExcept ((selfSigned [nodeId.toText]).mapError .rcgen)

end CertificateManager

end All4One.Membership
