import All4One.Membership.Theorems.Enrolment

open Foundation

namespace All4One.Membership

open CertificateManager

-- The key that is made for a node is neither the one of the CA on the disk nor of one that is made with
-- it.
structure Pki.Fresh {Key : Type} (pki : Pki Key) (env : JoinEnv) (s : Issuer) : Prop where
  made : ∀ (nodeId : Uuid) node ca key, env.selfSigned [nodeId.toText] = .ok node →
    env.selfSigned ["all4one-ca"] = .ok ca → pki.key node.keyPair = some key →
    pki.key ca.keyPair ≠ some key
  disk : ∀ (nodeId : Uuid) node pem certificate key, env.selfSigned [nodeId.toText] = .ok node →
    loadCaPem env.dataDir s.files = .ok pem → pki.certificate pem = some certificate →
    pki.key node.keyPair = some key → certificate.publicKey ≠ key

-- What is returned is a certificate of the requested node, for the key that is returned with it, signed
-- by the CA that is returned, and valid until the time that is returned.
def JoinResponse.Chains {Key : Type} (pki : Pki Key) (payload : JoinRequest) (response : JoinResponse) :
    Prop :=
  ∃ nodeId node ca, Uuid.parseStr payload.nodeId = some nodeId ∧
    pki.certificate response.nodeCertPem = some node ∧ pki.certificate response.caCertPem = some ca ∧
    node.subject = [nodeId.toText] ∧ pki.key response.nodeKeyPem = some node.publicKey ∧
    node.signer = ca.publicKey ∧ node.notAfter = response.expiresAtUnix

variable {Key : Type} {pki : Pki Key} {env : JoinEnv} {payload : JoinRequest} {nodeId : Uuid}
  {s s' : Issuer} {response : JoinResponse} {node : CertifiedKey} {ca : String}

theorem certify_eq_ok (h : (certify env nodeId).run s = (.ok (node, ca), s')) :
    env.selfSigned [nodeId.toText] = .ok node ∧
    loadCaPem env.dataDir ((ensureDirs env.dataDir).run s).2.files = .ok ca := by
  simp only [certify, generateNodeCert, Prog.bind_eq_ok, Prog.mapErr_eq_ok, Prog.ofExcept_run,
    Prog.reads_run, Prog.pure_run, Prod.mk.injEq] at h
  obtain ⟨node', s₁, ⟨_, s₂, hd, hn, rfl⟩, ca', s₃, ⟨hp, rfl⟩, hr, rfl⟩ := h
  cases hr
  cases hs : env.selfSigned [nodeId.toText] <;> rw [hs] at hn
  case error => cases hn
  case ok    =>
    cases hn
    rw [hd]
    exact ⟨rfl, hp⟩

-- The certificate of the CA is the one on the disk, or one that has just been made.
theorem issue_eq_ok (hk : hasCaKey env.dataDir s.files = true)
    (h : (issue env nodeId).run s = (.ok (node, ca), s')) :
    env.selfSigned [nodeId.toText] = .ok node ∧
    (loadCaPem env.dataDir s.files = .ok ca ∨
      ∃ made, env.selfSigned ["all4one-ca"] = .ok made ∧ ca = made.cert) := by
  simp only [issue_eq, Prog.bind_eq_ok, Prog.mapErr_eq_ok] at h
  obtain ⟨_, s₁, hi, hc⟩ := h
  obtain ⟨hn, hl⟩ := certify_eq_ok hc
  have hd := hasCerts_of_hasCaKey hk
  refine ⟨hn, ?_⟩
  cases hcrt : s.files.pathExists (caCrtPath env.dataDir)
  case true =>
    obtain ⟨-, rfl⟩ := (initCa_eq_ok_of_crt hk hcrt).mp hi
    rw [ensureDirs_run (s := s.spend) hd] at hl
    exact .inl hl
  case false =>
    obtain ⟨-, hkey, made, hmade, rfl⟩ := (initCa_eq_ok_of_no_crt hk hcrt).mp hi
    have hd' := hd.of_extends (extends_renewedFiles hd hcrt made hkey)
    rw [ensureDirs_run hd'] at hl
    have hl' := (loadCaPem_renewedFiles hd hcrt hkey).symm.trans hl
    exact .inr ⟨made, selfSigned_of_generateCaCert hmade, (Except.ok.inj hl').symm⟩

theorem join_eq_ok (h : (join env payload).run s = (.ok response, s')) :
    ∃ nodeId node, Uuid.parseStr payload.nodeId = some nodeId ∧
      env.selfSigned [nodeId.toText] = .ok node ∧
      response.nodeCertPem = node.cert ∧ response.nodeKeyPem = node.keyPair ∧
      (loadCaPem env.dataDir s.files = .ok response.caCertPem ∨
        ∃ made, env.selfSigned ["all4one-ca"] = .ok made ∧ response.caCertPem = made.cert) := by
  obtain ⟨nodeId, hp, hg⟩ := exists_join_eq_ok.mp ⟨response, s', h⟩
  rw [join_of_checked hp hg.issuer, hg.secret] at h
  rcases hi : (issue env nodeId).run s with ⟨_ | ⟨node, ca⟩, s₁⟩
  all_goals rw [hi] at h
  case error => cases h
  case ok =>
    cases h
    obtain ⟨hn, hca⟩ := issue_eq_ok hg.issuer hi
    exact ⟨nodeId, node, hp, hn, rfl, rfl, hca⟩

-- The certificate of the node is its own, but it is signed by itself, and never by the CA.
theorem not_chains (hself : pki.SelfSigns env.selfSigned) (hfresh : pki.Fresh env s)
    (h : (join env payload).run s = (.ok response, s')) : ¬ response.Chains pki payload := by
  obtain ⟨nodeId, node, -, hn, hcert, hkey, hca⟩ := join_eq_ok h
  obtain ⟨key, hk, hc⟩ := hself _ _ hn
  rintro ⟨_, certificate, ca, -, hcert', hca', -, -, hsigner, -⟩
  rw [hcert, hc] at hcert'
  cases hcert'
  rcases hca with hdisk | ⟨made, hmade, hpem⟩
  case inl => exact hfresh.disk nodeId node _ _ key hn hdisk hca' hk hsigner.symm
  case inr =>
    obtain ⟨key', hk', hc'⟩ := hself _ _ hmade
    rw [hpem, hc'] at hca'
    cases hca'
    have hsigner : key = key' := hsigner
    exact hfresh.made nodeId node made key hn hmade hk (hsigner ▸ hk')

section Sample

theorem toText_ne_ca (nodeId : Uuid) : nodeId.toText ≠ "all4one-ca" := by
  intro h
  have := congrArg Uuid.parseStr h
  rw [Uuid.parseStr_toText] at this
  have hn : Uuid.parseStr "all4one-ca" = none := by
    decide +kernel
  cases this.trans hn

def signingEnv : JoinEnv :=
  { sampleEnv with selfSigned := Issuer.selfSign }

theorem keyPair_of_selfSign {name : String} {made : CertifiedKey}
    (h : Issuer.selfSign [name] = .ok made) : made.keyPair = name := by
  cases h
  rfl

theorem signingEnv_fresh : Issuer.samplePki.Fresh signingEnv sampleIssuer where
  made nodeId node ca key hn hca hk hk' := by
    have he : node.keyPair = nodeId.toText := keyPair_of_selfSign hn
    have he' : ca.keyPair = "all4one-ca" := keyPair_of_selfSign hca
    have hp : some ca.keyPair = some node.keyPair := hk'.trans hk.symm
    exact toText_ne_ca nodeId (he.symm.trans ((Option.some.inj hp).symm.trans he'))
  disk nodeId node pem certificate key hn hl hc hk := by
    have hl' : loadCaPem signingEnv.dataDir sampleIssuer.files = .ok "all4one-ca" := by
      decide +kernel
    have he : node.keyPair = nodeId.toText := keyPair_of_selfSign hn
    have hkey : node.keyPair = key := Option.some.inj hk
    obtain rfl := Except.ok.inj (hl'.symm.trans hl)
    have hpublic : certificate.publicKey = "all4one-ca" := by rw [← Option.some.inj hc]
    rw [hpublic, ← hkey, he]
    exact (toText_ne_ca nodeId).symm

theorem join_signing : ((join signingEnv (sampleRequest "")).run sampleIssuer).1 =
    .ok ⟨"00000000-0000-0000-0000-000000000007", "00000000-0000-0000-0000-000000000007",
      "all4one-ca", 7776000⟩ := by
  decide +kernel

theorem not_chains_sample : ∃ response s',
    (join signingEnv (sampleRequest "")).run sampleIssuer = (.ok response, s') ∧
    ¬ response.Chains Issuer.samplePki (sampleRequest "") := by
  obtain ⟨s', h⟩ := Prog.exists_of_fst join_signing
  exact ⟨_, s', h, not_chains Issuer.samplePki_selfSigns signingEnv_fresh h⟩

-- The certificate that is returned can not be verified with the one of the CA.
theorem chain_broken : ¬ ∀ (Key : Type) (pki : Pki Key) (env : JoinEnv) (payload : JoinRequest)
    (s s' : Issuer) (response : JoinResponse), pki.SelfSigns env.selfSigned → pki.Fresh env s →
    (join env payload).run s = (.ok response, s') → response.Chains pki payload := by
  intro h
  obtain ⟨s', hr⟩ := Prog.exists_of_fst join_signing
  obtain ⟨_, node, ca, -, hn, hca, -, -, hsigner, -⟩ :=
    h String Issuer.samplePki signingEnv _ _ _ _ Issuer.samplePki_selfSigns signingEnv_fresh hr
  cases hn
  cases hca
  exact absurd hsigner (by decide)

end Sample

end All4One.Membership
