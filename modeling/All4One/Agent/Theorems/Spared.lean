import All4One.Agent.Machine
import All4One.Membership.Theorems.Enrolment
import All4One.Storage.Theorems.Spared

open Foundation Path

namespace All4One.Agent

open All4One.Membership CertificateManager
open Prog (Keeps)

variable {names : List String} {dataDir n p : String} {data : Bytes} {s s' : Issuer}

-- A place that has one of these names in its directory.
def Named (names : List String) (q : List Name) : Prop :=
  ∃ dir, ∃ n ∈ names, q = dir ++ [n.toList]

theorem not_named (h : n ∉ names) {dir : List Name} : ¬ Named names (dir ++ [n.toList]) := by
  rintro ⟨dir', n', hn, he⟩
  rw [Storage.append_singleton_inj, String.toList_inj] at he
  exact h (he.2 ▸ hn)

-- No shard has a name like these.
theorem noShard_of_named (h : ∀ n ∈ names, ¬ "-shard-".toList <:+: n.toList) {q : List Name}
    (hq : Named names q) : Storage.NoShard q := by
  obtain ⟨dir, n, hn, rfl⟩ := hq
  intro dir' object i
  have hs (suffix : String) : n ≠ Storage.chunkId object i ++ suffix := by
    rintro rfl
    refine h _ hn ⟨object.toList, i.repr.toList ++ suffix.toList, ?_⟩
    simp [Storage.chunkId]
  constructor
  case left =>
    rw [ne_eq, Storage.append_singleton_inj, String.toList_inj]
    exact fun he => hs "" (by simpa using he.2)
  case right =>
    rw [ne_eq, Storage.append_singleton_inj, String.toList_inj]
    exact fun he => hs ".meta" he.2

-- Nothing goes away, and files with these names stay as they are.
def Spares (names : List String) (s s' : Issuer) : Prop :=
  Files.Spares (Named names) s.files s'.files

namespace Spares

variable {selfSigned : List String → Except String CertifiedKey} {env : JoinEnv}
  {payload : JoinRequest} {json : Serde (List RevokedNode) String} {now : String} {id id' : Uuid}

theorem refl (s : Issuer) : Spares names s s :=
  Files.Spares.refl _

theorem trans (s₁ s₂ s₃ : Issuer) (h₁ : Spares names s₁ s₂) (h₂ : Spares names s₂ s₃) :
    Spares names s₁ s₃ :=
  Files.Spares.trans h₁ h₂

theorem createDir : Keeps (Spares names) (io (Files.createDirAll p)) := fun s =>
  Files.createDirAll_spares p _ s.files

theorem ensureDirs : Keeps (Spares names) (ensureDirs dataDir) :=
  createDir

theorem write (hn : IsName n.toList) (h : n ∉ names) :
    Keeps (Spares names) (io (Files.write (join p n) data)) := fun s =>
  Files.write_spares _ _ <| by
    rw [Files.resolve, resolve_join_name hn]
    exact not_named h

-- A file may be made where nothing is.
theorem create (h : s.files.entry (s.files.resolve p) = none) :
    Spares names s ((io (Files.write p data)).run s).2 :=
  .of_grows (Files.write_grows data _ h)

theorem setPermissions : Keeps (Spares names) (io (setPermissions p)) := by
  intro s
  have hf : (io (CertificateManager.setPermissions p) |>.run s).2.files = s.files :=
    setPermissions_files
  rw [Spares, hf]
  exact .refl _

theorem initCa (hc : "ca.crt" ∉ names) (hk : "ca.key" ∉ names) :
    Keeps (Spares names) (initCa selfSigned dataDir) := by
  refine .bind trans ensureDirs fun _ => .bind trans (.reads refl _) fun exist => ?_
  cases exist
  case true => exact .pure refl
  case false =>
    refine .bind trans (.ofExcept refl _) fun ca => ?_
    refine .bind trans (write isName_caCrt hc) fun _ => .bind trans (write isName_caKey hk) fun _ => ?_
    exact setPermissions

theorem join (hc : "ca.crt" ∉ names) (hk : "ca.key" ∉ names) :
    Keeps (Spares names) (join env payload) := by
  refine .bind trans (.ofExcept refl _) fun id => .bind trans (.reads refl _) fun _ => ?_
  refine .bind trans (.ofExcept refl _) fun _ => .bind trans ?_ fun r => ?_
  case refine_1 =>
    refine .bind trans (.mapErr (initCa hc hk)) fun _ => .bind trans (.mapErr ?_) fun _ => ?_
    case refine_1 => exact .bind trans ensureDirs fun _ => .ofExcept refl _
    case refine_2 => exact .bind trans (.mapErr (.reads refl _)) fun _ => .pure refl
  case refine_2 =>
    have hg (node : NodeInfo) :
        Keeps (Spares names) (.update (grant env node) : Prog Issuer Grpc.Status Unit) :=
      fun s => Spares.refl s
    exact .bind trans (hg _) fun _ => .pure refl

section Credentials

variable (hnc : "node.crt" ∉ names) (hnk : "node.key" ∉ names) (hc : "ca.crt" ∉ names)
include hnc hnk hc

theorem saveNodeCert {certPem keyPem caPem : String} :
    Keeps (Spares names) (saveNodeCert dataDir certPem keyPem caPem) := by
  have hn : IsName "node.crt".toList := by constructor <;> decide
  have hn' : IsName "node.key".toList := by constructor <;> decide
  refine .bind trans ensureDirs fun _ => .bind trans (write hn hnc) fun _ => ?_
  refine .bind trans (write hn' hnk) fun _ => .bind trans setPermissions fun _ => ?_
  exact write isName_caCrt hc

theorem enroll {answers : List (String × Except String JoinResponse)} {last : StartFailure} :
    Keeps (Spares names) (enrollWithSeedCa dataDir answers last) := by
  induction answers generalizing last
  case nil => exact .ofExcept refl _
  case cons answer rest hi =>
    obtain ⟨seed, _ | bundle⟩ := answer
    case error => exact hi
    case ok    => exact .mapErr (saveNodeCert hnc hnk hc)

theorem runAgent {start : Start} (hk : "ca.key" ∉ names) :
    Keeps (Spares names) (Membership.runAgent dataDir start) := by
  have hu : Keeps (Spares names) (.update fun s => { s with
      cluster  := ClusterState.default.upsert start.localNode
      lastSeen := Finmap.insert start.localNode.profile.id start.now ∅ } :
        Prog Issuer StartFailure Unit) :=
    fun s => Spares.refl s
  refine .bind trans hu fun _ => .bind trans (.mapErr ensureDirs) fun _ => ?_
  split
  case isTrue => exact .mapErr (initCa hc hk)
  case isFalse =>
    refine .bind trans (.reads refl _) fun exist => ?_
    cases exist
    case true  => exact .pure refl
    case false => exact enroll hnc hnk hc

end Credentials

theorem addToCrl (h : "crl.json" ∉ names) :
    Keeps (Spares names) (addToCrl json dataDir now id id') := by
  have hn : IsName "crl.json".toList := by constructor <;> decide
  refine .bind trans (.mapErr ensureDirs) fun _ => .bind trans (.reads refl _) fun crl => ?_
  exact .mapErr (write hn h)

end Spares

end All4One.Agent
