import All4One.Foundation.Json
import All4One.Membership.Join

open Foundation

namespace All4One.Membership

structure RevokedNode where
  nodeId    : Uuid
  revokedAt : String
  revokedBy : Uuid
  deriving DecidableEq, Repr

namespace RevokedNode

open Json

-- An entry, and what comes after it.
def write (r : RevokedNode) (cs : List Char) : List Char :=
  "  \x7b\n    \"node_id\": \"".toList ++ (writeString r.nodeId.toText ++
  (",\n    \"revoked_at\": \"".toList ++ (writeString r.revokedAt ++
  (",\n    \"revoked_by\": \"".toList ++ (writeString r.revokedBy.toText ++
  ("\n  \x7d".toList ++ cs))))))

def read (cs : List Char) : Option (RevokedNode × List Char) := do
  let cs ← readLiteral "  \x7b\n    \"node_id\": \"" cs
  let (nodeId, cs) ← readString cs
  let nodeId ← Uuid.parseStr nodeId
  let cs ← readLiteral ",\n    \"revoked_at\": \"" cs
  let (revokedAt, cs) ← readString cs
  let cs ← readLiteral ",\n    \"revoked_by\": \"" cs
  let (revokedBy, cs) ← readString cs
  let revokedBy ← Uuid.parseStr revokedBy
  let cs ← readLiteral "\n  \x7d" cs
  some ({ nodeId, revokedAt, revokedBy }, cs)

def writeRest : List RevokedNode → List Char
  | []       => ['\n', ']']
  | r :: crl => ',' :: '\n' :: r.write (writeRest crl)

-- There are no more entries than characters.
def readRest : Nat → List Char → Option (List RevokedNode)
  | n + 1, ',' :: '\n' :: cs => do
    let (r, cs) ← read cs
    let crl ← readRest n cs
    some (r :: crl)
  | _, cs => if cs = ['\n', ']'] then some [] else none

def writeList : List RevokedNode → List Char
  | []       => ['[', ']']
  | r :: crl => '[' :: '\n' :: r.write (writeRest crl)

def readList : List Char → Option (List RevokedNode)
  | ['[', ']']       => some []
  | '[' :: '\n' :: cs => do
    let (r, cs) ← read cs
    let crl ← readRest cs.length cs
    some (r :: crl)
  | _ => none

theorem read_write (r : RevokedNode) (cs : List Char) : read (r.write cs) = some (r, cs) :=
  bind_of_some (readLiteral_append _) <| bind_of_some (readString_writeString _) <|
  bind_of_some (Uuid.parseStr_toText _) <|
  bind_of_some (readLiteral_append _) <| bind_of_some (readString_writeString _) <|
  bind_of_some (readLiteral_append _) <| bind_of_some (readString_writeString _) <|
  bind_of_some (Uuid.parseStr_toText _) <| bind_of_some (readLiteral_append _) rfl

theorem readRest_writeRest (crl : List RevokedNode) {n : Nat} (h : crl.length ≤ n) :
    readRest n (writeRest crl) = some crl := by
  induction crl generalizing n
  case nil => cases n <;> rfl
  case cons r crl hi =>
    cases n
    case zero   => simp at h
    case succ n =>
      exact bind_of_some (read_write r _) <| bind_of_some (hi (Nat.le_of_succ_le_succ h)) rfl

theorem suffix_write (r : RevokedNode) (cs : List Char) : cs <:+ r.write cs :=
  (List.suffix_append _ _).trans <| (List.suffix_append _ _).trans <| (List.suffix_append _ _).trans <|
  (List.suffix_append _ _).trans <| (List.suffix_append _ _).trans <| (List.suffix_append _ _).trans <|
  List.suffix_append _ _

theorem length_le_writeRest (crl : List RevokedNode) : crl.length ≤ (writeRest crl).length := by
  induction crl
  case nil           => exact Nat.zero_le _
  case cons r crl hi =>
    have hl := (suffix_write r (writeRest crl)).length_le
    simp only [writeRest, List.length_cons]
    omega

-- What `serde_json::to_string_pretty` makes of the list, and back.
def json : Serde (List RevokedNode) String where
  toVec crl       := String.ofList (writeList crl)
  fromSlice text  := readList text.toList
  fromSlice_toVec crl := by
    rw [String.toList_ofList]
    cases crl
    case nil        => rfl
    case cons r crl =>
      exact bind_of_some (read_write r _) <|
        bind_of_some (readRest_writeRest crl (length_le_writeRest crl)) rfl

end RevokedNode

inductive CrlFailure
  | cert (err : CertFailure)
  | json
  deriving DecidableEq, Repr

-- No certificate could be had from any seed: the last error, if a seed was asked at all.
inductive StartFailure
  | cert (err : CertFailure)
  | join (seed error : String)
  | noSeeds
  deriving DecidableEq, Repr

-- An agent that starts: its configuration, what other crates do for it, and what the seeds answer to
-- each of its requests to join.
structure Start where
  localNode  : NodeInfo
  now        : Nat
  tier       : UInt8
  seeds      : List String
  selfSigned : List String → Except String CertifiedKey
  request    : Nat → String → Except String JoinResponse

namespace CertificateManager

def crlFile (dataDir : String) : String :=
  Path.join (certsDir dataDir) "crl.json"

def nodeCrtPath (dataDir : String) : String :=
  Path.join (certsDir dataDir) "node.crt"

def nodeKeyPath (dataDir : String) : String :=
  Path.join (certsDir dataDir) "node.key"

def hasNodeCredentials (dataDir : String) (files : Files) : Bool :=
  files.pathExists (nodeCrtPath dataDir) && files.pathExists (nodeKeyPath dataDir) &&
    files.pathExists (caCrtPath dataDir)

def saveNodeCert (dataDir certPem keyPem caPem : String) : Prog Issuer CertFailure Unit := do
  ensureDirs dataDir
  io (Files.write (nodeCrtPath dataDir) (.ofString certPem))
  io (Files.write (nodeKeyPath dataDir) (.ofString keyPem))
  io (setPermissions (nodeKeyPath dataDir))
  io (Files.write (caCrtPath dataDir) (.ofString caPem))

-- The list is in pretty JSON.
variable (json : Serde (List RevokedNode) String)

-- What both of the following read.
def loadCrl (dataDir : String) (files : Files) : Except CrlFailure (List RevokedNode) :=
  if files.pathExists (crlFile dataDir) then
    match files.read (crlFile dataDir) with
    | .error err => .error (.cert (.io err))
    | .ok data   =>
      match Bytes.toString? data with
      | none      => .error (.cert .notUtf8)
      | some text =>
        match json.fromSlice text with
        | some crl => .ok crl
        | none     => .error .json
  else
    .ok []

def isRevoked (dataDir : String) (nodeId : Uuid) (files : Files) : Except CrlFailure Bool :=
  (loadCrl json dataDir files).map fun crl => crl.any (·.nodeId = nodeId)

def addToCrl (dataDir now : String) (nodeId revokedBy : Uuid) :
    Prog Issuer CrlFailure Unit := do
  Prog.mapErr .cert (ensureDirs dataDir)
  let crl ← .reads fun s => loadCrl json dataDir s.files
  let crl :=
    if crl.any (·.nodeId = nodeId) then
      crl
    else
      crl ++ [{ nodeId, revokedAt := now, revokedBy }]
  Prog.mapErr .cert (io (Files.write (crlFile dataDir) (.ofString (json.toVec crl))))

end CertificateManager

-- The seeds are asked in turn, twenty times over.
def Start.answers (start : Start) : List (String × Except String JoinResponse) :=
  (List.range 20).flatMap fun attempt => start.seeds.map fun seed => (seed, start.request attempt seed)

-- The rest of the answers, and the last error before them.
def enrollWithSeedCa (dataDir : String) :
    List (String × Except String JoinResponse) → StartFailure → Prog Issuer StartFailure Unit
  | [],                        last => .ofExcept (.error last)
  | (_, .ok bundle) :: _,      _    =>
    Prog.mapErr .cert
      (CertificateManager.saveNodeCert dataDir bundle.nodeCertPem bundle.nodeKeyPem bundle.caCertPem)
  | (seed, .error e) :: rest,  _    => enrollWithSeedCa dataDir rest (.join seed e)

def Start.isBootstrapIssuer (start : Start) : Bool :=
  start.tier = 0 || start.seeds.isEmpty

-- What comes of the cluster and of the certificates when `run_agent` starts.
def runAgent (dataDir : String) (start : Start) : Prog Issuer StartFailure Unit := do
  .update fun s => { s with
    cluster  := ClusterState.default.upsert start.localNode
    lastSeen := Finmap.insert start.localNode.profile.id start.now ∅ }
  Prog.mapErr .cert (CertificateManager.ensureDirs dataDir)
  if start.isBootstrapIssuer then
    Prog.mapErr .cert (CertificateManager.initCa start.selfSigned dataDir)
  else
    let exist ← .reads fun s => .ok (CertificateManager.hasNodeCredentials dataDir s.files)
    if exist then
      return ()
    else
      enrollWithSeedCa dataDir start.answers .noSeeds

namespace Issuer

-- What happens at a node: someone is revoked, a request to join comes in, or the agent restarts.
inductive Event
  | addToCrl (now : String) (nodeId revokedBy : Uuid)
  | join (env : JoinEnv) (payload : JoinRequest)
  | start (start : Start)

variable (json : Serde (List RevokedNode) String) (dataDir : String)

def step (s : Issuer) : Event → Issuer
  | .addToCrl now nodeId revokedBy =>
    ((CertificateManager.addToCrl json dataDir now nodeId revokedBy).run s).2
  | .join env payload => ((join { env with dataDir } payload).run s).2
  | .start start      => ((runAgent dataDir start).run s).2

end Issuer

end All4One.Membership
