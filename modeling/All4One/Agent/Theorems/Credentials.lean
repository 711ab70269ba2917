import All4One.Agent.Theorems.Identity
import All4One.Foundation.Triple
import All4One.Membership.Theorems.Credentials

open Foundation Path Transition

namespace All4One.Agent

open All4One.Membership CertificateManager
open Prog (Keeps Triple)

-- A path that leads through no directory but those above its place.
def IsDirect (cwd : List Name) (p : String) : Prop :=
  ∀ q ∈ trail cwd p, q <+: resolve cwd p

-- What is there under a name in the directory of the certificates.
def certFile (dataDir n : String) (files : Files) : Option Entry :=
  files.entry (files.resolve (join (certsDir dataDir) n))

variable {dataDir n : String} {data : Bytes} {files files' : Files} {s s' : Issuer} {cwd : List Name}
  {id fresh : NodeId}

section Frame

theorem isName_certs : IsName "certs".toList := by
  constructor <;> decide

theorem resolve_cert (hn : IsName n.toList) :
    resolve cwd (join (certsDir dataDir) n) = resolve cwd dataDir ++ ["certs".toList, n.toList] := by
  rw [resolve_join_name hn, certsDir, resolve_join_name isName_certs, List.append_assoc]
  rfl

-- The certificates are not on the way to their directory.
theorem notMem_trail (hd : IsDirect cwd dataDir) (hn : IsName n.toList) :
    resolve cwd (join (certsDir dataDir) n) ∉ trail cwd dataDir ∧
      resolve cwd (join (certsDir dataDir) n) ∉ trail cwd (certsDir dataDir) := by
  have hdata : resolve cwd (join (certsDir dataDir) n) ∉ trail cwd dataDir := by
    intro hm
    have := (hd _ hm).length_le
    rw [resolve_cert hn] at this
    simp at this
  refine ⟨hdata, fun hm => ?_⟩
  rcases mem_trail hm with hm | hm
  · exact hdata ((trail_join_name isName_certs).subset hm)
  · rw [resolve_cert hn, certsDir, resolve_join_name isName_certs] at hm
    simpa using congrArg List.length hm

-- The certificates stay as they are, and no other faults are met with than those ahead.
structure SameCerts (dataDir : String) (s s' : Issuer) : Prop where
  faults : s'.faults ⊆ s.faults
  files  : IsDirect s.files.cwd dataDir → s'.files.cwd = s.files.cwd ∧
    ∀ n : String, IsName n.toList → certFile dataDir n s'.files = certFile dataDir n s.files

namespace SameCerts

theorem refl (s : Issuer) : SameCerts dataDir s s where
  faults  := List.Subset.refl _
  files _ := ⟨rfl, fun _ _ => rfl⟩

theorem trans (s₁ s₂ s₃ : Issuer) (h₁ : SameCerts dataDir s₁ s₂) (h₂ : SameCerts dataDir s₂ s₃) :
    SameCerts dataDir s₁ s₃ := by
  refine ⟨List.Subset.trans h₂.faults h₁.faults, fun hd => ?_⟩
  obtain ⟨hc, hf⟩ := h₁.files hd
  obtain ⟨hc', hf'⟩ := h₂.files (hc ▸ hd)
  exact ⟨hc'.trans hc, fun n hn => (hf' n hn).trans (hf n hn)⟩

theorem createDir {p : String} (hp : ∀ cwd, IsDirect cwd dataDir → ∀ n : String, IsName n.toList →
    resolve cwd (join (certsDir dataDir) n) ∉ trail cwd p) :
    Keeps (SameCerts dataDir) (io (Files.createDirAll p)) := by
  refine fun s => ⟨List.tail_subset _, fun hd => ?_⟩
  have hc := (Files.createDirAll_grows p (s.faults.headD .none) s.files).cwd
  refine ⟨hc, fun n hn => ?_⟩
  have he : ((Files.createDirAll p (s.faults.headD .none)).run s.files).2.entry
      (resolve s.files.cwd (join (certsDir dataDir) n)) = _ :=
    Files.createDirAll_entry_of_notMem (hp s.files.cwd hd n hn)
  simp only [certFile, Files.resolve, io, hc]
  exact he

theorem createDataDir : Keeps (SameCerts dataDir) (io (Files.createDirAll dataDir)) :=
  createDir fun _ hd _ hn => (notMem_trail hd hn).1

theorem ensureDirs : Keeps (SameCerts dataDir) (ensureDirs dataDir) :=
  createDir fun _ hd _ hn => (notMem_trail hd hn).2

theorem setPermissions {p : String} : Keeps (SameCerts dataDir) (io (setPermissions p)) := by
  refine fun s => ⟨List.tail_subset _, fun _ => ?_⟩
  have hf : ((io (CertificateManager.setPermissions p)).run s).2.files = s.files :=
    setPermissions_files
  rw [hf]
  exact ⟨rfl, fun _ _ => rfl⟩

theorem writeNodeId : Keeps (SameCerts dataDir) (io (Files.write (nodeIdPath dataDir) data)) := by
  refine fun s => ⟨List.tail_subset _, fun _ => ?_⟩
  have hc := (Files.write_extends (nodeIdPath dataDir) data (s.faults.headD .none) s.files).cwd
  refine ⟨hc, fun n hn => ?_⟩
  simp only [certFile, Files.resolve, io, hc]
  refine Files.write_entry_of_ne fun he => ?_
  rw [resolve_cert hn, resolve_nodeIdPath, Files.resolve] at he
  simpa using congrArg List.length he

theorem nodeId : Keeps (SameCerts dataDir) (nodeId dataDir fresh) := by
  refine .bind trans (.mapErr createDataDir) fun _ => .bind trans (.reads refl _) fun exist => ?_
  cases exist
  case true  => exact .reads refl _
  case false => exact .bind trans (.mapErr writeNodeId) fun _ => .pure refl

end SameCerts

end Frame

section Save

variable {broken : Prop} {bundle : JoinResponse}

-- What there is of a text once it has been written, if writes may break off.
def Left (broken : Prop) (whole data : Bytes) : Prop :=
  data = whole ∨ broken ∧ data <+: whole

-- If writes do not break off, no faults are ahead.
def Unbroken (broken : Prop) (s : Issuer) : Prop :=
  broken ∨ ∀ fault ∈ s.faults, fault = .none

theorem Unbroken.of_subset (h : Unbroken broken s) (hs : s'.faults ⊆ s.faults) :
    Unbroken broken s' :=
  h.imp_right fun h fault hf => h fault (hs hf)

-- A certificate and its key have been saved, and after that a certificate of a CA.
structure Saved (broken : Prop) (dataDir : String) (bundle : JoinResponse) (files : Files) : Prop where
  crt : certFile dataDir "node.crt" files = some (.file (.ofString bundle.nodeCertPem))
  key : certFile dataDir "node.key" files = some (.file (.ofString bundle.nodeKeyPem))
  ca  : ∃ data, Left broken (.ofString bundle.caCertPem) data ∧
    certFile dataDir "ca.crt" files = some (.file data)

-- What a write of a certificate does to the others.
structure Writes (dataDir n : String) (s s' : Issuer) : Prop where
  faults : s'.faults ⊆ s.faults
  cwd    : s'.files.cwd = s.files.cwd
  others : ∀ m : String, IsName m.toList → m ≠ n →
    certFile dataDir m s'.files = certFile dataDir m s.files

theorem writes_write (hn : IsName n.toList) :
    Keeps (Writes dataDir n) (io (Files.write (join (certsDir dataDir) n) data)) := by
  intro s
  have hc := (Files.write_extends (join (certsDir dataDir) n) data (s.faults.headD .none) s.files).cwd
  refine ⟨List.tail_subset _, hc, fun m hm hne => ?_⟩
  simp only [certFile, Files.resolve, io, hc]
  exact Files.write_entry_of_ne (resolve_certs_ne hm hn hne)

theorem write_triple (broken : Prop) {P E : Issuer → Prop} {Q : Unit → Issuer → Prop}
    (hn : IsName n.toList)
    (ok : ∀ s s', P s → Writes dataDir n s s' →
      certFile dataDir n s'.files = some (.file data) → Q () s')
    (error : ∀ s s', P s → Writes dataDir n s s' →
      (Unbroken broken s → certFile dataDir n s'.files = certFile dataDir n s.files ∨
        ∃ part, Left broken data part ∧ certFile dataDir n s'.files = some (.file part)) → E s') :
    Triple P (io (Files.write (join (certsDir dataDir) n) data)) Q E := by
  intro s hp
  constructor
  case left =>
    intro _ s' hr
    have hw := (writes_write hn).of_eq hr
    obtain ⟨-, hd, rfl⟩ := write_eq_ok.mp hr
    exact ok s _ hp hw (Files.entry_set_self (Files.replace_ne_nil hd.2))
  case right =>
    intro e s' hr
    have hw := (writes_write hn).of_eq hr
    refine error s s' hp hw fun hu => ?_
    rcases hf : (Files.write (join (certsDir dataDir) n) data (s.faults.headD .none)).run s.files
      with ⟨err | _, files⟩
    all_goals
      rw [io_run hf] at hr
      cases hr
    rw [certFile, Files.resolve, hw.cwd]
    rcases Files.write_error_entry hf with he | ⟨hne, part, hpart, he⟩
    · exact .inl he
    · refine .inr ⟨part, .inr ⟨hu.resolve_right fun hnone => hne ?_, hpart⟩, he⟩
      cases hs : s.faults
      case nil            => rfl
      case cons fault fs  => exact hnone fault (hs ▸ List.mem_cons_self)

theorem isName_nodeCrt : IsName "node.crt".toList := by
  constructor <;> decide

theorem isName_nodeKey : IsName "node.key".toList := by
  constructor <;> decide

-- The certificate of the CA is the last to be written, so that the others are there once it is.
theorem saveNodeCert_triple (hd : IsDirect cwd dataDir) :
    Triple (fun s => s.files.cwd = cwd ∧ Unbroken broken s ∧ certFile dataDir "ca.crt" s.files = none)
      (saveNodeCert dataDir bundle.nodeCertPem bundle.nodeKeyPem bundle.caCertPem)
      (fun _ s => Saved broken dataDir bundle s.files)
      (fun s => certFile dataDir "ca.crt" s.files = none ∨ Saved broken dataDir bundle s.files) := by
  let ca (s : Issuer) :=
    s.files.cwd = cwd ∧ Unbroken broken s ∧ certFile dataDir "ca.crt" s.files = none
  let crt (s : Issuer) :=
    certFile dataDir "node.crt" s.files = some (.file (.ofString bundle.nodeCertPem))
  let key (s : Issuer) :=
    certFile dataDir "node.key" s.files = some (.file (.ofString bundle.nodeKeyPem))
  have same {s s' : Issuer} (hp : ca s) (hs : SameCerts dataDir s s') : ca s' := by
    obtain ⟨hc, hf⟩ := hs.files (hp.1 ▸ hd)
    exact ⟨hc.trans hp.1, hp.2.1.of_subset hs.faults, (hf _ isName_caCrt).trans hp.2.2⟩
  have other {n : String} {s s' : Issuer} (hp : ca s) (hw : Writes dataDir n s s') (hn : "ca.crt" ≠ n) :
      ca s' :=
    ⟨hw.cwd.trans hp.1, hp.2.1.of_subset hw.faults, (hw.others _ isName_caCrt hn).trans hp.2.2⟩
  refine .bind (Q := fun _ => ca) ?_ fun _ => .bind (Q := fun _ s => ca s ∧ crt s) ?_ fun _ =>
    .bind (Q := fun _ s => ca s ∧ crt s ∧ key s) ?_ fun _ =>
    .bind (Q := fun _ s => ca s ∧ crt s ∧ key s) ?_ fun _ => ?_
  case refine_1 =>
    exact (Triple.of_keeps SameCerts.ensureDirs fun s s' => same).weaken (fun _ hp => hp)
      (fun _ _ hs => hs) fun s hs => .inl hs.2.2
  case refine_2 =>
    refine write_triple broken isName_nodeCrt (fun s s' hp hw hf => ?_) fun s s' hp hw _ => ?_
    · exact ⟨other hp hw (by decide), hf⟩
    · exact .inl (other hp hw (by decide)).2.2
  case refine_3 =>
    refine write_triple broken isName_nodeKey (fun s s' hp hw hf => ?_) fun s s' hp hw _ => ?_
    · exact ⟨other hp.1 hw (by decide), (hw.others _ isName_nodeCrt (by decide)).trans hp.2, hf⟩
    · exact .inl (other hp.1 hw (by decide)).2.2
  case refine_4 =>
    have hk : Keeps (SameCerts dataDir) (io (setPermissions (nodeKeyPath dataDir))) :=
      SameCerts.setPermissions
    refine (Triple.of_keeps hk fun s s' hp hs => ?_).weaken (fun _ hp => hp)
      (fun _ _ hs => hs) fun s hs => .inl hs.1.2.2
    obtain ⟨-, hf⟩ := hs.files (hp.1.1 ▸ hd)
    exact ⟨same hp.1 hs, (hf _ isName_nodeCrt).trans hp.2.1, (hf _ isName_nodeKey).trans hp.2.2⟩
  case refine_5 =>
    refine write_triple broken isName_caCrt (fun s s' hp hw hf => ?_) fun s s' hp hw hf => ?_
    all_goals
      have hcrt := (hw.others _ isName_nodeCrt (by decide)).trans hp.2.1
      have hkey := (hw.others _ isName_nodeKey (by decide)).trans hp.2.2
    · exact ⟨hcrt, hkey, _, .inl rfl, hf⟩
    · rcases hf hp.1.2.1 with hf | hf
      · exact .inl (hf.trans hp.1.2.2)
      · exact .inr ⟨hcrt, hkey, hf⟩

end Save

section Enrol

variable {broken : Prop} {P : JoinResponse → Prop}

-- An answer has been saved that meets a condition.
def Enrolled (broken : Prop) (P : JoinResponse → Prop) (dataDir : String) (files : Files) : Prop :=
  ∃ bundle, P bundle ∧ Saved broken dataDir bundle files

theorem enroll_triple (hd : IsDirect cwd dataDir) {answers : List (String × Except String JoinResponse)}
    {last : StartFailure} (h : ∀ seed response, (seed, .ok response) ∈ answers → P response) :
    Triple (fun s => s.files.cwd = cwd ∧ Unbroken broken s ∧ certFile dataDir "ca.crt" s.files = none)
      (enrollWithSeedCa dataDir answers last) (fun _ s => Enrolled broken P dataDir s.files)
      (fun s => certFile dataDir "ca.crt" s.files = none ∨ Enrolled broken P dataDir s.files) := by
  induction answers generalizing last
  case nil => exact .ofExcept (fun _ _ h => by cases h) fun _ s _ hp => .inl hp.2.2
  case cons answer answers hi =>
    obtain ⟨seed, _ | bundle⟩ := answer
    case error => exact hi fun seed response hm => h seed response (List.mem_cons_of_mem _ hm)
    case ok =>
      have hb := h seed bundle List.mem_cons_self
      exact .mapErr <| (saveNodeCert_triple hd).weaken (fun _ hp => hp) (fun _ _ hs => ⟨_, hb, hs⟩)
        fun _ hs => hs.imp_right fun hs => ⟨_, hb, hs⟩

theorem pathExists_cert (h : HasCerts dataDir files) (hn : IsName n.toList) :
    files.pathExists (join (certsDir dataDir) n) = (certFile dataDir n files).isSome := by
  rw [Files.pathExists, Files.stat_of_leads (Files.leads_join h hn), certFile]

theorem Enrolled.congr (h : Enrolled broken P dataDir files)
    (hf : ∀ n : String, IsName n.toList → certFile dataDir n files' = certFile dataDir n files) :
    Enrolled broken P dataDir files' := by
  obtain ⟨bundle, hi, hs⟩ := h
  refine ⟨bundle, hi, ?_, ?_, ?_⟩
  · rw [hf _ isName_nodeCrt, hs.crt]
  · rw [hf _ isName_nodeKey, hs.key]
  · rw [hf _ isName_caCrt]
    exact hs.ca

theorem Enrolled.hasNodeCredentials (h : Enrolled broken P dataDir files)
    (hc : HasCerts dataDir files) : hasNodeCredentials dataDir files = true := by
  obtain ⟨bundle, -, hs⟩ := h
  obtain ⟨data, -, hca⟩ := hs.ca
  have exist {n : String} {e : Entry} (hn : IsName n.toList) (hf : certFile dataDir n files = some e) :
      files.pathExists (join (certsDir dataDir) n) = true := by
    rw [pathExists_cert hc hn, hf]
    rfl
  rw [CertificateManager.hasNodeCredentials, nodeCrtPath, nodeKeyPath, caCrtPath,
    exist isName_nodeCrt hs.crt, exist isName_nodeKey hs.key, exist isName_caCrt hca]
  rfl

-- An agent that joins creates directories, and enrols if it has no certificate yet.
theorem runAgent_of_joins {start : Start} (hj : start.isBootstrapIssuer = false) {I E : Issuer → Prop}
    {Q : Unit → Issuer → Prop} (same : ∀ s s', I s → SameCerts dataDir s s' → I s')
    (saved : ∀ s, I s → HasCerts dataDir s.files → hasNodeCredentials dataDir s.files = true → Q () s)
    (enroll : Triple
      (fun s => (I s ∧ HasCerts dataDir s.files) ∧ hasNodeCredentials dataDir s.files = false)
      (enrollWithSeedCa dataDir start.answers .noSeeds) Q E)
    (error : ∀ s, I s → E s) : Triple I (runAgent dataDir start) Q E := by
  have hu (s : Issuer) (cluster : ClusterState) (lastSeen : HashMap NodeId Nat) :
      SameCerts dataDir s { s with cluster, lastSeen } :=
    ⟨List.Subset.refl _, fun _ => ⟨rfl, fun _ _ => rfl⟩⟩
  refine .bind (Q := fun _ => I) (.update fun s hp => same s _ hp (hu s _ _)) fun _ =>
    .bind (Q := fun _ s => I s ∧ HasCerts dataDir s.files) (.mapErr fun s hp => ?_) fun _ => ?_
  case refine_1 =>
    have he (r : Except CertFailure Unit) (s' : Issuer) (hr : (ensureDirs dataDir).run s = (r, s')) :
        I s' :=
      same s s' hp (SameCerts.ensureDirs.of_eq hr)
    exact ⟨fun _ s' hr => ⟨he _ s' hr, hasCerts_of_ensureDirs hr⟩, fun e s' hr => error s' (he _ s' hr)⟩
  case refine_2 =>
    rw [hj, if_neg Bool.false_ne_true]
    refine .bind (Q := fun exist s => (I s ∧ HasCerts dataDir s.files) ∧
      exist = hasNodeCredentials dataDir s.files) (.reads fun s hp => ⟨hp, rfl⟩) fun exist => ?_
    cases exist
    case true  => exact .pure fun s hp => saved s hp.1.1 hp.1.2 hp.2.symm
    case false => exact enroll.weaken (fun s hp => ⟨hp.1, hp.2.symm⟩) (fun _ _ hs => hs) fun _ hs => hs

variable (broken) in
theorem runAgent_triple (hd : IsDirect cwd dataDir) {start : Start} (hj : start.isBootstrapIssuer = false)
    (h : ∀ attempt seed response, start.request attempt seed = .ok response → P response) :
    Triple (fun s => s.files.cwd = cwd ∧ Unbroken broken s ∧
        (certFile dataDir "ca.crt" s.files = none ∨ Enrolled broken P dataDir s.files))
      (runAgent dataDir start) (fun _ s => Enrolled broken P dataDir s.files)
      (fun s => certFile dataDir "ca.crt" s.files = none ∨ Enrolled broken P dataDir s.files) := by
  refine runAgent_of_joins hj (fun s s' hp hs => ?same) (fun s hp hc hx => ?saved) ?enroll
    fun _ hp => hp.2.2
  case same =>
    obtain ⟨hc, hf⟩ := hs.files (hp.1 ▸ hd)
    exact ⟨hc.trans hp.1, hp.2.1.of_subset hs.faults,
      hp.2.2.imp (hf _ isName_caCrt).trans fun hp => hp.congr hf⟩
  case saved =>
    refine hp.2.2.resolve_left fun hn => ?_
    simp only [CertificateManager.hasNodeCredentials, caCrtPath, pathExists_cert hc isName_caCrt, hn,
      Option.isSome_none, Bool.and_false, Bool.false_eq_true] at hx
  case enroll =>
    refine (enroll_triple hd ?_).weaken (fun s hp => ?_) (fun _ _ hs => hs) fun _ hs => hs
    case refine_1 =>
      intro seed response hm
      obtain ⟨attempt, -, hm⟩ := List.mem_flatMap.mp hm
      obtain ⟨_, -, hr⟩ := List.mem_map.mp hm
      exact h attempt _ response (Prod.ext_iff.mp hr).2
    case refine_2 =>
      obtain ⟨⟨hp, hc⟩, hx⟩ := hp
      refine ⟨hp.1, hp.2.1, hp.2.2.resolve_right fun hs => ?_⟩
      rw [hs.hasNodeCredentials hc] at hx
      cases hx

-- An agent that has been saved a certificate leaves it as it is.
theorem runAgent_same {start : Start} (hj : start.isBootstrapIssuer = false)
    (h : Enrolled broken P dataDir s.files) (hd : IsDirect s.files.cwd dataDir) :
    Triple (SameCerts dataDir s) (runAgent dataDir start) (fun _ => SameCerts dataDir s)
      (SameCerts dataDir s) := by
  refine runAgent_of_joins hj (fun s₁ s₂ => SameCerts.trans s s₁ s₂) (fun s hp _ _ => hp) ?_
    fun _ hp => hp
  rintro s₁ ⟨⟨hs, hc⟩, hx⟩
  rw [(h.congr (hs.files hd).2).hasNodeCredentials hc] at hx
  cases hx

end Enrol

section Issue

variable {Key : Type} {pki : Pki Key} {response : JoinResponse} {boot : Boot} {broken : Prop}
  {P : JoinResponse → Prop}

-- A certificate and its key are those of a node.
def Issued (pki : Pki Key) (id : NodeId) (bundle : JoinResponse) : Prop :=
  ∃ certificate, pki.certificate bundle.nodeCertPem = some certificate ∧
    certificate.subject = [id.uuid.toText] ∧ pki.key bundle.nodeKeyPem = some certificate.publicKey

-- The files on the disk are those of a node.
def Credentials (broken : Prop) (pki : Pki Key) (dataDir : String) (id : NodeId) (files : Files) : Prop :=
  Enrolled broken (Issued pki id) dataDir files

-- An agent that is not the first one of its cluster.
def Boot.Joins (boot : Boot) : Prop :=
  boot.config.node.tier ≠ 0 ∧ boot.seeds ≠ []

-- What comes back from an endpoint is what a node there has made of the request to join.
def Boot.IsServed (pki : Pki Key) (boot : Boot) : Prop :=
  ∀ attempt endpoint payload response, boot.serve attempt endpoint payload = .ok response →
    ∃ env s s', pki.SelfSigns env.selfSigned ∧ (join env payload).run s = (.ok response, s')

theorem Boot.IsServed.issued {attempt : Nat} {seed : String} (h : boot.IsServed pki)
    (hr : boot.requestJoinWithCa id attempt seed = .ok response) : Issued pki id response := by
  rw [Boot.requestJoinWithCa, Prog.except_bind_eq_ok] at hr
  obtain ⟨_, -, hr⟩ := hr
  obtain ⟨env, s, s', hself, hj⟩ := h _ _ _ _ hr
  obtain ⟨nodeId, node, hp, hn, hcert, hkey, -⟩ := join_eq_ok hj
  cases (Uuid.parseStr_toText id.uuid).symm.trans hp
  obtain ⟨key, hk, hc⟩ := hself _ _ hn
  exact ⟨_, hcert ▸ hc, rfl, hkey ▸ hk⟩

-- The file of the id has this one in it.
def IdIs (dataDir : String) (id : NodeId) (files : Files) : Prop :=
  ∃ data, idFile dataDir files = some data ∧ parseNodeId data = .ok id

theorem IdIs.spares (h : IdIs dataDir id files) (hs : Files.Spares (Named ["node-id"]) files files') :
    IdIs dataDir id files' := by
  obtain ⟨data, hf, hp⟩ := h
  exact ⟨data, idFile_of_spares hs (by decide) hf, hp⟩

theorem IdIs.unique {id' : NodeId} (h : IdIs dataDir id files) (h' : IdIs dataDir id' files) :
    id = id' := by
  obtain ⟨data, hf, hp⟩ := h
  obtain ⟨data', hf', hp'⟩ := h'
  cases hf.symm.trans hf'
  exact Except.ok.inj (hp.symm.trans hp')

-- What an agent that joins finds on the disk, and leaves there: nothing, or what has been saved for the
-- id of the machine.
def Sound (broken : Prop) (pki : Pki Key) (dataDir : String) (files : Files) : Prop :=
  certFile dataDir "ca.crt" files = none ∨
    ∃ id, IdIs dataDir id files ∧ Credentials broken pki dataDir id files

theorem Sound.congr (h : Sound broken pki dataDir files)
    (hf : ∀ n : String, IsName n.toList → certFile dataDir n files' = certFile dataDir n files)
    (hi : ∀ id, IdIs dataDir id files → IdIs dataDir id files') : Sound broken pki dataDir files' := by
  rcases h with h | ⟨id, hid, h⟩
  · exact .inl ((hf _ isName_caCrt).trans h)
  · exact .inr ⟨id, hi id hid, h.congr hf⟩

theorem nodeId_triple (hd : IsDirect cwd dataDir) :
    Triple (fun s => s.files.cwd = cwd ∧ Unbroken broken s ∧ Sound broken pki dataDir s.files)
      (Agent.nodeId dataDir fresh)
      (fun id s => (s.files.cwd = cwd ∧ Unbroken broken s ∧
        (certFile dataDir "ca.crt" s.files = none ∨ Credentials broken pki dataDir id s.files)) ∧
          IdIs dataDir id s.files)
      (fun s => Sound broken pki dataDir s.files) := by
  rintro s ⟨rfl, hu, hp⟩
  have same (r : Except NodeIdFailure NodeId) (s' : Issuer)
      (hr : (Agent.nodeId dataDir fresh).run s = (r, s')) :
      s'.files.cwd = s.files.cwd ∧ Unbroken broken s' ∧ Sound broken pki dataDir s'.files := by
    have hs := SameCerts.nodeId.of_eq hr
    obtain ⟨hc, hf⟩ := hs.files hd
    obtain ⟨hi, -⟩ : Spares ["node-id"] s s' ∧ _ := nodeId_keeps hr
    exact ⟨hc, hu.of_subset hs.faults, hp.congr hf fun _ h => h.spares hi⟩
  constructor
  case left =>
    intro id s' hr
    obtain ⟨-, hid⟩ : Spares [] s s' ∧ _ := nodeId_keeps hr
    obtain ⟨hc, hu, hs⟩ := same _ s' hr
    have hi : IdIs dataDir id s'.files := hid id rfl
    refine ⟨⟨hc, hu, hs.imp (fun h => h) ?_⟩, hi⟩
    rintro ⟨id₀, hi₀, hs₀⟩
    exact hi₀.unique hi ▸ hs₀
  case right => exact fun e s' hr => (same _ s' hr).2.2

variable (id) in
theorem isBootstrapIssuer_start (h : boot.Joins) : (boot.start id).isBootstrapIssuer = false := by
  simp [Start.isBootstrapIssuer, Boot.start, h.1, h.2]

theorem Boot.runAgent_triple (hd : IsDirect cwd boot.config.node.dataDir) (hj : boot.Joins)
    (hs : boot.IsServed pki) :
    Triple (fun s => s.files.cwd = cwd ∧ Unbroken broken s ∧
        Sound broken pki boot.config.node.dataDir s.files) boot.runAgent
      (fun id s => Credentials broken pki boot.config.node.dataDir id s.files ∧
        IdIs boot.config.node.dataDir id s.files)
      (fun s => Sound broken pki boot.config.node.dataDir s.files) := by
  refine .bind (.mapErr (nodeId_triple hd)) fun id => ?_
  refine .bind (.mapErr ?_) fun _ => .pure fun _ h => h
  have hk : Keeps (Spares ["node-id"]) (Membership.runAgent boot.config.node.dataDir (boot.start id)) :=
    Spares.runAgent (by decide) (by decide) (by decide) (by decide)
  have ht := Agent.runAgent_triple broken hd (isBootstrapIssuer_start id hj)
    fun _ _ _ hq => hs.issued hq
  have ht := ht.frame hk (I := fun s => IdIs boot.config.node.dataDir id s.files)
    fun _ _ h (hk : Files.Spares _ _ _) => h.spares hk
  exact ht.weaken (fun _ h => h) (fun _ _ h => h) fun s h =>
    h.1.imp (fun h => h) fun hc => ⟨id, h.2, hc⟩

theorem Boot.runAgent_same (hd : IsDirect s.files.cwd boot.config.node.dataDir) (hj : boot.Joins)
    (h : Enrolled broken P boot.config.node.dataDir s.files) :
    Triple (SameCerts boot.config.node.dataDir s) boot.runAgent
      (fun _ => SameCerts boot.config.node.dataDir s) (SameCerts boot.config.node.dataDir s) := by
  refine .bind (Q := fun _ => SameCerts boot.config.node.dataDir s) ?_ fun id => ?_
  case refine_1 => exact .mapErr (.of_keeps SameCerts.nodeId fun s₁ s₂ => SameCerts.trans s s₁ s₂)
  case refine_2 =>
    exact .bind (.mapErr (Agent.runAgent_same (isBootstrapIssuer_start id hj) h hd)) fun _ =>
      .pure fun _ hs => hs

end Issue

end All4One.Agent
