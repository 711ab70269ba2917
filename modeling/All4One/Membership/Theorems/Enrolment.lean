import All4One.Membership.Pki
import All4One.Membership.Theorems.Revocation

open Foundation Transition

namespace All4One.Membership

open CertificateManager
open Prog (Keeps)

namespace Issuer

variable (dataDir : String) (s : Issuer)

-- What is in the two files of the CA.
def caKey : Option Bytes :=
  s.files.content (s.files.resolve (caKeyPath dataDir))

def caCrt : Option Bytes :=
  s.files.content (s.files.resolve (caCrtPath dataDir))

-- If both are there, the certificate is the one of the key.
def Matched {Key : Type} (pki : Pki Key) : Prop :=
  ∀ key crt, s.caKey dataDir = some key → s.caCrt dataDir = some crt → pki.Certifies crt key

-- `init_ca` replaces no certificate that is there.
def KeepsCrt (s' : Issuer) : Prop :=
  ∀ crt, s.caCrt dataDir = some crt → s'.caCrt dataDir = some crt

-- What fails when `init_ca` writes the certificate and the key leaves no key that is not the one of the
-- certificate.
def Whole : Prop :=
  let crt := s.faults.tail.headD .none
  let key := s.faults.tail.tail.headD .none
  crt = .none ∧ key = .none ∨ crt = .before ∨ s.caKey dataDir = none ∧ ∀ n, key ≠ .after n

-- Where `init_ca` gets as far as making a CA, there is no certificate yet.
def InitSafe (selfSigned : List String → Except String CertifiedKey) : Prop :=
  s.faults.headD .none = .none → (∃ ca, generateCaCert selfSigned = .ok ca) →
    ¬ (s.files.pathExists (caKeyPath dataDir) = true ∧ s.files.pathExists (caCrtPath dataDir) = true) →
    s.caCrt dataDir = none ∧ s.Whole dataDir

-- Where `save_node_cert` writes the certificate of another CA, there is no key of an own one.
def SaveSafe {Key : Type} (pki : Pki Key) (caPem : String) : Prop :=
  ∀ key, s.caKey dataDir = some key →
    pki.Certifies (.ofString caPem) key ∧ ∀ n, (s.faults.drop 4).headD .none ≠ .after n

-- The files of the CA stay as they are.
structure SameCa (s s' : Issuer) : Prop where
  cwd : s'.files.cwd = s.files.cwd
  key : s'.caKey dataDir = s.caKey dataDir
  crt : s'.caCrt dataDir = s.caCrt dataDir

variable {dataDir} {s} {s' : Issuer} {Key : Type} {pki : Pki Key}

namespace SameCa

theorem refl (s : Issuer) : SameCa dataDir s s :=
  ⟨rfl, rfl, rfl⟩

theorem trans (s₁ s₂ s₃ : Issuer) (h : SameCa dataDir s₁ s₂) (h' : SameCa dataDir s₂ s₃) :
    SameCa dataDir s₁ s₃ :=
  ⟨h'.cwd.trans h.cwd, h'.key.trans h.key, h'.crt.trans h.crt⟩

theorem matched (h : SameCa dataDir s s') (hm : s.Matched dataDir pki) : s'.Matched dataDir pki := by
  rw [Matched, h.key, h.crt]
  exact hm

theorem keepsCrt (h : SameCa dataDir s s') : s.KeepsCrt dataDir s' :=
  fun _ hc => h.crt.trans hc

end SameCa

theorem KeepsCrt.trans {s'' : Issuer} (h : s.KeepsCrt dataDir s') (h' : s'.KeepsCrt dataDir s'') :
    s.KeepsCrt dataDir s'' :=
  fun crt hc => h' crt (h crt hc)

end Issuer

section Operations

open Issuer

variable {dataDir n : String} {s : Issuer} {Key : Type} {pki : Pki Key} {env : JoinEnv} {nodeId : Uuid}
  {selfSigned : List String → Except String CertifiedKey}

theorem sameCa_of_content {files : Files} {faults : List Fault}
    (hc : files.cwd = s.files.cwd) (h : ∀ m, m = "ca.key" ∨ m = "ca.crt" →
      files.content (s.files.resolve (Path.join (certsDir dataDir) m)) =
        s.files.content (s.files.resolve (Path.join (certsDir dataDir) m))) :
    SameCa dataDir s { s with files, faults } := by
  refine ⟨hc, ?_, ?_⟩
  case refine_1 =>
    rw [caKey, caKey, Files.resolve]
    change files.content (Path.resolve files.cwd _) = _
    rw [hc]
    exact h "ca.key" (.inl rfl)
  case refine_2 =>
    rw [caCrt, caCrt, Files.resolve]
    change files.content (Path.resolve files.cwd _) = _
    rw [hc]
    exact h "ca.crt" (.inr rfl)

theorem sameCa_ensureDirs : Keeps (SameCa dataDir) (ensureDirs dataDir) := fun _ =>
  sameCa_of_content (Files.createDirAll_grows _ _ _).cwd fun _ _ => Files.content_createDirAll

theorem sameCa_write {data : Bytes} (hn : Path.IsName n.toList) (hk : n ≠ "ca.key")
    (hc : n ≠ "ca.crt") : Keeps (SameCa dataDir) (io (Files.write (Path.join (certsDir dataDir) n) data)) := by
  intro s
  refine sameCa_of_content (Files.write_extends _ _ _ _).cwd fun m hm => Files.content_write_of_ne ?_
  rcases hm with rfl | rfl
  · exact resolve_certs_ne isName_caKey hn hk.symm
  · exact resolve_certs_ne isName_caCrt hn hc.symm

theorem sameCa_setPermissions {p : String} : Keeps (SameCa dataDir) (io (setPermissions p)) := by
  intro s
  have hf : ((setPermissions p (s.faults.headD .none)).run s.files).2 = s.files := setPermissions_files
  refine sameCa_of_content (congrArg _ hf) fun m _ => by rw [hf]

theorem sameCa_certify : Keeps (SameCa env.dataDir) (certify env nodeId) := by
  have hg : Keeps (SameCa env.dataDir) (generateNodeCert env.selfSigned env.dataDir nodeId) :=
    .bind SameCa.trans sameCa_ensureDirs fun _ => .ofExcept SameCa.refl _
  exact .bind SameCa.trans hg fun _ => .bind SameCa.trans SameCa.refl fun _ => .pure SameCa.refl

theorem matched_of_no_key (h : s.caKey dataDir = none) : s.Matched dataDir pki :=
  fun _ _ hk _ => by cases h.symm.trans hk

theorem caKey_write_crt (s : Issuer) (dataDir : String) (data : Bytes) :
    ((io (Files.write (caCrtPath dataDir) data)).run s).2.caKey dataDir = s.caKey dataDir := by
  have hc := (Files.write_extends (caCrtPath dataDir) data (s.faults.headD .none) s.files).cwd
  have hne : s.files.resolve (caKeyPath dataDir) ≠ s.files.resolve (caCrtPath dataDir) :=
    resolve_caKeyPath_ne
  simp only [io, caKey, Files.resolve, hc]
  exact Files.content_write_of_ne hne

-- A write that does not break off in the middle changes nothing unless it goes through.
theorem files_of_write_error {p : String} {data : Bytes} {e : CertFailure} {s' : Issuer}
    (hf : ∀ n, s.faults.headD .none ≠ .after n)
    (hr : (io (Files.write p data)).run s = (.error e, s')) : s'.files = s.files := by
  have hs' := congrArg (Issuer.files ∘ Prod.snd) hr
  have hr' := congrArg Prod.fst hr
  simp only [Function.comp, io] at hs' hr'
  rw [← hs']
  cases hfault : s.faults.headD .none
  case after n => exact absurd hfault (hf n)
  case before  =>
    obtain ⟨_, hw⟩ : ∃ e, (Files.write p data .before).run s.files = (.error e, s.files) :=
      Files.write_before
    rw [hw]
  case none    =>
    rw [hfault] at hr'
    rcases hw : (Files.write p data .none).run s.files with ⟨_ | _, fs⟩
    case error => exact Files.write_none_error hw
    case ok    => rw [hw] at hr'; cases hr'

-- A write of the key that fails leaves none, if there was none.
theorem matched_of_write_key {data : Bytes} {e : CertFailure} {s' : Issuer}
    (h : HasCerts dataDir s.files) (hn : s.caKey dataDir = none ∨ s.faults.headD .none = .none)
    (hf : ∀ n, s.faults.headD .none ≠ .after n)
    (hr : (io (Files.write (caKeyPath dataDir) data)).run s = (.error e, s')) :
    s'.Matched dataDir pki := by
  have hkey : s.caKey dataDir = none := by
    rcases hn with hn | hfault
    case inl => exact hn
    case inr =>
      by_contra hk
      obtain ⟨key, hk⟩ := Option.ne_none_iff_exists'.mp hk
      have hw : s.files.IsWritable (caKeyPath dataDir) := by
        refine ⟨Files.leads_join h isName_caKey, fun hd => ?_⟩
        cases (Files.content_eq_some.mp hk).symm.trans hd
      have hok : (io (Files.write (caKeyPath dataDir) data)).run s = (.ok (), _) :=
        write_eq_ok.mpr ⟨hfault, hw, rfl⟩
      cases hr.symm.trans hok
  refine matched_of_no_key ?_
  rw [caKey, files_of_write_error hf hr]
  exact hkey

theorem matched_of_write_crt {data : Bytes} {e : CertFailure} {s' : Issuer}
    (hm : s.Matched dataDir pki)
    (hw : s.faults.headD .none = .none ∨ s.faults.headD .none = .before ∨ s.caKey dataDir = none)
    (hr : (io (Files.write (caCrtPath dataDir) data)).run s = (.error e, s')) :
    s'.Matched dataDir pki := by
  have hsame (hf : ∀ n, s.faults.headD .none ≠ .after n) : s'.Matched dataDir pki := by
    rw [Matched, caKey, caCrt, files_of_write_error hf hr]
    exact hm
  rcases hw with hf | hf | hn
  · exact hsame (by rw [hf]; simp)
  · exact hsame (by rw [hf]; simp)
  · have hkey := caKey_write_crt s dataDir data
    rw [hr] at hkey
    exact matched_of_no_key (hkey.trans hn)

theorem selfSigned_of_generateCaCert {ca : CertifiedKey} (h : generateCaCert selfSigned = .ok ca) :
    selfSigned ["all4one-ca"] = .ok ca := by
  rw [generateCaCert] at h
  cases hs : selfSigned ["all4one-ca"] <;> rw [hs] at h
  case error => cases h
  case ok    => cases h; rfl

theorem matched_renewed {files : Files} {ca : CertifiedKey}
    (hk : files.resolve (caKeyPath dataDir) ≠ []) (hc : files.resolve (caCrtPath dataDir) ≠ [])
    (hp : pki.Certifies (.ofString ca.cert) (.ofString ca.keyPair))
    (hf : s.files = renewedFiles dataDir ca files) : s.Matched dataDir pki := by
  have hkey : (renewedFiles dataDir ca files).content (files.resolve (caKeyPath dataDir)) =
      some (.ofString ca.keyPair) :=
    Files.content_eq_some.mpr (Files.entry_set_self hk)
  have hcrt : (renewedFiles dataDir ca files).content (files.resolve (caCrtPath dataDir)) =
      some (.ofString ca.cert) :=
    Files.content_eq_some.mpr <|
      (Files.entry_set_of_ne resolve_caKeyPath_ne.symm).trans (Files.entry_set_self hc)
  intro key crt hk' hc'
  rw [caKey, hf] at hk'
  rw [caCrt, hf] at hc'
  cases hkey.symm.trans hk'
  cases hcrt.symm.trans hc'
  exact hp

theorem matched_renewCa (hcerts : HasCerts dataDir s.files) (hm : s.Matched dataDir pki)
    (hself : pki.SelfSigns selfSigned)
    (hw : s.faults.headD .none = .none ∧ s.faults.tail.headD .none = .none ∨
      s.faults.headD .none = .before ∨
      s.caKey dataDir = none ∧ ∀ n, s.faults.tail.headD .none ≠ .after n) :
    Matched dataDir ((renewCa selfSigned dataDir).run s).2 pki := by
  rw [renewCa, Prog.ofExcept_bind]
  cases hca : generateCaCert selfSigned
  case error => exact hm
  case ok ca =>
    dsimp only
    rcases hx : (io (Files.write (caCrtPath dataDir) (.ofString ca.cert))).run s with ⟨e | _, s₁⟩
    case error =>
      rw [Prog.bind_of_error hx]
      refine matched_of_write_crt hm ?_ hx
      exact hw.imp And.left (Or.imp_right And.left)
    case ok =>
      rw [Prog.bind_of_ok hx]
      have hkey := caKey_write_crt s dataDir (.ofString ca.cert)
      rw [hx] at hkey
      obtain ⟨hf, hw₁, rfl⟩ := write_eq_ok.mp hx
      have hw : s.faults.tail.headD .none = .none ∨
          s.caKey dataDir = none ∧ ∀ n, s.faults.tail.headD .none ≠ .after n := by
        rcases hw with hw | hw | hw
        · exact .inl hw.2
        · cases hf.symm.trans hw
        · exact .inr hw
      have hcerts₁ : HasCerts dataDir (s.files.set (s.files.resolve (caCrtPath dataDir))
          (.file (.ofString ca.cert))) := hcerts.of_extends (Files.extends_set_file hw₁.2)
      rcases hy : (io (Files.write (caKeyPath dataDir) (.ofString ca.keyPair))).run
        { s.spend with files := s.files.set (s.files.resolve (caCrtPath dataDir)) (.file (.ofString ca.cert)) }
        with ⟨e | _, s₂⟩
      case error =>
        rw [Prog.bind_of_error hy]
        refine matched_of_write_key hcerts₁ ?_ ?_ hy
        · exact hw.symm.imp_left fun h => hkey.trans h.1
        · rcases hw with hw | hw
          · exact fun n hn => by cases hw.symm.trans hn
          · exact hw.2
      case ok =>
        rw [Prog.bind_of_ok hy]
        refine (sameCa_setPermissions s₂).matched ?_
        obtain ⟨-, hw₂, rfl⟩ := write_eq_ok.mp hy
        have hk : s.files.resolve (caKeyPath dataDir) ≠ [] := Files.replace_ne_nil hw₂.2
        have hc : s.files.resolve (caCrtPath dataDir) ≠ [] := Files.replace_ne_nil hw₁.2
        exact matched_renewed hk hc (hself.certifies (selfSigned_of_generateCaCert hca)) rfl

theorem hasCerts_of_ensureDirs {s' : Issuer} (h : (ensureDirs dataDir).run s = (.ok (), s')) :
    HasCerts dataDir s'.files := by
  simp only [ensureDirs, io, Prod.mk.injEq] at h
  obtain ⟨hr, rfl⟩ := h
  rcases hd : (Files.createDirAll (certsDir dataDir) (s.faults.headD .none)).run s.files with ⟨_ | _, fs⟩
  all_goals rw [hd] at hr
  case error => cases hr
  case ok    =>
    have hc := (Files.createDirAll_grows (certsDir dataDir) (s.faults.headD .none) s.files).cwd
    rw [hd] at hc
    intro q hq
    exact Files.createDirAll_ok hd q (hc ▸ hq)

theorem initCa_keeps (hcerts : HasCerts dataDir s.files) (hm : s.Matched dataDir pki)
    (hself : pki.SelfSigns selfSigned) (hsafe : s.InitSafe dataDir selfSigned) :
    Matched dataDir ((initCa selfSigned dataDir).run s).2 pki ∧
    s.KeepsCrt dataDir ((initCa selfSigned dataDir).run s).2 := by
  have same : Matched dataDir s.spend pki ∧ s.KeepsCrt dataDir s.spend := ⟨hm, fun _ hc => hc⟩
  rw [initCa_run selfSigned hcerts]
  split
  case isFalse => exact same
  case isTrue hf =>
    split
    case isTrue => exact same
    case isFalse hboth =>
      by_cases hca : ∃ ca, generateCaCert selfSigned = .ok ca
      case pos =>
        obtain ⟨hcrt, hw⟩ := hsafe hf hca (by simpa using hboth)
        refine ⟨matched_renewCa (s := s.spend) hcerts hm hself hw, fun _ hc => ?_⟩
        cases hcrt.symm.trans hc
      case neg =>
        rw [renewCa, Prog.ofExcept_bind]
        cases hg : generateCaCert selfSigned
        case error => exact same
        case ok ca => exact absurd ⟨ca, hg⟩ hca

theorem matched_bind {x : Prog Issuer CertFailure Unit} {f : Unit → Prog Issuer CertFailure Unit}
    (hx : SameCa dataDir s (x.run s).2) (hf : (x.run s).2.faults = s.faults.tail)
    (hm : s.Matched dataDir pki)
    (h : ∀ s', SameCa dataDir s s' → s'.faults = s.faults.tail → s'.Matched dataDir pki →
      Matched dataDir ((f ()).run s').2 pki) : Matched dataDir ((x >>= f).run s).2 pki := by
  rcases hr : x.run s with ⟨e | _, s'⟩
  all_goals rw [hr] at hx hf
  case error => rw [Prog.bind_of_error hr]; exact hx.matched hm
  case ok    => rw [Prog.bind_of_ok hr]; exact h s' hx hf (hx.matched hm)

theorem saveNodeCert_keeps {certPem keyPem caPem : String} (hm : s.Matched dataDir pki)
    (hsafe : s.SaveSafe dataDir pki caPem) :
    Matched dataDir ((saveNodeCert dataDir certPem keyPem caPem).run s).2 pki := by
  refine matched_bind (sameCa_ensureDirs s) rfl hm fun s₁ h₁ f₁ hm => ?_
  refine matched_bind (sameCa_write isName_nodeCrt (by decide) (by decide) s₁) rfl hm
    fun s₂ h₂ f₂ hm => ?_
  refine matched_bind (sameCa_write isName_nodeKey (by decide) (by decide) s₂) rfl hm
    fun s₃ h₃ f₃ hm => ?_
  refine matched_bind (sameCa_setPermissions s₃) rfl hm fun s₄ h₄ f₄ hm => ?_
  have hkey : s₄.caKey dataDir = s.caKey dataDir := h₄.key.trans (h₃.key.trans (h₂.key.trans h₁.key))
  have hfault : s₄.faults.headD .none = (s.faults.drop 4).headD .none := by
    simp only [f₄, f₃, f₂, f₁, ← List.drop_one, List.drop_drop]
  rcases hx : (io (Files.write (caCrtPath dataDir) (.ofString caPem))).run s₄ with ⟨e | _, s'⟩
  case error =>
    cases hk : s.caKey dataDir
    case none     => exact matched_of_write_crt hm (.inr (.inr (hkey.trans hk))) hx
    case some key =>
      have hf := (hsafe key hk).2
      rw [← hfault] at hf
      have hs := files_of_write_error hf hx
      rw [Matched, caKey, caCrt, hs]
      exact hm
  case ok =>
    have hkey' := caKey_write_crt s₄ dataDir (.ofString caPem)
    rw [hx] at hkey'
    intro key crt hk hc
    obtain ⟨-, hw, rfl⟩ := write_eq_ok.mp hx
    have hc' := (Files.content_eq_some.mp hc).symm.trans
      (Files.entry_set_self (Files.replace_ne_nil hw.2))
    cases hc'
    exact (hsafe key (hkey.symm.trans (hkey'.symm.trans hk))).1

end Operations

namespace Issuer

section Runs

variable (json : Serde (List RevokedNode) String) (dataDir : String) {Key : Type} (pki : Pki Key)

-- What is assumed of `rcgen` at each event.
def Event.SelfSigns : Event → Prop
  | .join env _     => pki.SelfSigns env.selfSigned
  | .start agent    => pki.SelfSigns agent.selfSigned
  | .addToCrl _ _ _ => True

-- Where an event comes to `init_ca`, that replaces no certificate.
def KeepsCa (s : Issuer) : Event → Prop
  | .start start => start.isBootstrapIssuer → s.KeepsCrt dataDir (s.step json dataDir (.start start))
  | e            => s.KeepsCrt dataDir (s.step json dataDir e)

-- Neither does `init_ca` find one without a key, nor does an own key wait for the certificate of
-- another CA.
def Safe (s : Issuer) : Event → Prop
  | .join env payload =>
    (Uuid.parseStr payload.nodeId).isSome → hasCaKey dataDir s.files = true →
      checkSecret env.security payload.joinSecret = .ok () → s.InitSafe dataDir env.selfSigned
  | .start start =>
    let s' := ((ensureDirs dataDir).run s).2
    if start.isBootstrapIssuer then
      s'.InitSafe dataDir start.selfSigned
    else
      hasNodeCredentials dataDir s'.files = false →
        ∀ bundle ∈ start.answers.findSome? (·.2.toOption), s'.SaveSafe dataDir pki bundle.caCertPem
  | .addToCrl _ _ _ => True

variable {json} {dataDir} {pki} {s s' : Issuer} {e : Event} {es : List Event}

theorem join_keeps {env : JoinEnv} {payload : JoinRequest} (hd : env.dataDir = dataDir)
    (hm : s.Matched dataDir pki) (hself : pki.SelfSigns env.selfSigned)
    (hsafe : (Uuid.parseStr payload.nodeId).isSome → hasCaKey dataDir s.files = true →
      checkSecret env.security payload.joinSecret = .ok () → s.InitSafe dataDir env.selfSigned) :
    Matched dataDir ((join env payload).run s).2 pki ∧
    s.KeepsCrt dataDir ((join env payload).run s).2 := by
  subst hd
  have same : Matched env.dataDir s pki ∧ s.KeepsCrt env.dataDir s := ⟨hm, fun _ hc => hc⟩
  cases hp : Uuid.parseStr payload.nodeId
  case none => rw [join_of_not_parsed hp]; exact same
  case some nodeId =>
    cases hk : hasCaKey env.dataDir s.files
    case false => rw [join_of_no_key hp hk]; exact same
    case true =>
      rw [join_of_checked hp hk]
      cases hc : checkSecret env.security payload.joinSecret
      case error => exact same
      case ok =>
        obtain ⟨hm', hkeeps⟩ := initCa_keeps (hasCerts_of_hasCaKey hk) hm hself
          (hsafe (by rw [hp]; rfl) hk hc)
        have hsame : SameCa env.dataDir ((CertificateManager.initCa env.selfSigned env.dataDir).run s).2
            ((issue env nodeId).run s).2 := issue_after SameCa.refl sameCa_certify
        have issued : Matched env.dataDir ((issue env nodeId).run s).2 pki ∧
            s.KeepsCrt env.dataDir ((issue env nodeId).run s).2 :=
          ⟨hsame.matched hm', hkeeps.trans hsame.keepsCrt⟩
        rcases hi : (issue env nodeId).run s with ⟨_ | ⟨node, ca⟩, s'⟩
        all_goals
          rw [hi] at issued
          exact issued

theorem enroll_keeps {answers : List (String × Except String JoinResponse)} {last : StartFailure}
    (hm : s.Matched dataDir pki)
    (hsafe : ∀ bundle ∈ answers.findSome? (·.2.toOption), s.SaveSafe dataDir pki bundle.caCertPem) :
    Matched dataDir ((enrollWithSeedCa dataDir answers last).run s).2 pki := by
  induction answers generalizing last
  case nil => exact hm
  case cons answer answers hi =>
    obtain ⟨seed, _ | bundle⟩ := answer
    case error => exact hi hsafe
    case ok    => exact saveNodeCert_keeps hm (hsafe bundle rfl)

theorem runAgent_keeps {start : Start} (hm : s.Matched dataDir pki)
    (hself : pki.SelfSigns start.selfSigned) (hsafe : s.Safe dataDir pki (.start start)) :
    Matched dataDir ((runAgent dataDir start).run s).2 pki ∧
    (start.isBootstrapIssuer → s.KeepsCrt dataDir ((runAgent dataDir start).run s).2) := by
  let s₀ : Issuer := { s with
    cluster  := ClusterState.default.upsert start.localNode
    lastSeen := Finmap.insert start.localNode.profile.id start.now ∅ }
  change Matched dataDir (Prod.snd (Prog.run (Prog.mapErr _ _ >>= _) s₀)) pki ∧
    (_ → s.KeepsCrt dataDir (Prod.snd (Prog.run (Prog.mapErr _ _ >>= _) s₀)))
  have hsame₀ : SameCa dataDir s₀ ((ensureDirs dataDir).run s₀).2 := sameCa_ensureDirs s₀
  have hsame : SameCa dataDir s ((ensureDirs dataDir).run s₀).2 := ⟨hsame₀.cwd, hsame₀.key, hsame₀.crt⟩
  rcases hr : (ensureDirs dataDir).run s₀ with ⟨e | _, s₁⟩
  all_goals rw [hr] at hsame
  case error =>
    have he : (Prog.mapErr StartFailure.cert (ensureDirs dataDir)).run s₀ = (.error (.cert e), s₁) := by
      rw [Prog.mapErr_run, hr]
      rfl
    rw [Prog.bind_of_error he]
    exact ⟨hsame.matched hm, fun _ => hsame.keepsCrt⟩
  case ok =>
    have hd : (Prog.mapErr StartFailure.cert (ensureDirs dataDir)).run s₀ = (.ok (), s₁) :=
      Prog.mapErr_eq_ok.mpr hr
    rw [Prog.bind_of_ok hd]
    have hcerts : HasCerts dataDir s₁.files := hasCerts_of_ensureDirs hr
    have hs₁ : s₁ = ((ensureDirs dataDir).run s₀).2 := by rw [hr]
    have hfiles : s₁.files = ((ensureDirs dataDir).run s).2.files := by rw [hs₁]; rfl
    have hfaults : s₁.faults = ((ensureDirs dataDir).run s).2.faults := by rw [hs₁]; rfl
    simp only [Safe] at hsafe
    cases hb : start.isBootstrapIssuer
    case true =>
      rw [hb, if_pos rfl, InitSafe, Whole, caCrt, caKey, ← hfiles, ← hfaults] at hsafe
      obtain ⟨hm', hk⟩ := initCa_keeps hcerts (hsame.matched hm) hself hsafe
      exact ⟨hm', fun _ => hsame.keepsCrt.trans hk⟩
    case false =>
      rw [hb, if_neg Bool.false_ne_true, ← hfiles] at hsafe
      refine ⟨?_, fun h => by cases h⟩
      have hreads : (Prog.reads fun s : Issuer => .ok (hasNodeCredentials dataDir s.files) :
          Prog Issuer StartFailure Bool).run s₁ = (.ok (hasNodeCredentials dataDir s₁.files), s₁) :=
        rfl
      simp only [Bool.false_eq_true, if_false]
      rw [Prog.bind_of_ok hreads]
      cases hx : hasNodeCredentials dataDir s₁.files
      case true  => exact hsame.matched hm
      case false =>
        refine enroll_keeps (hsame.matched hm) fun bundle hbundle => ?_
        have := hsafe hx bundle hbundle
        rw [SaveSafe, caKey, ← hfiles, ← hfaults] at this
        exact this

theorem step_keeps (hm : s.Matched dataDir pki) (hself : e.SelfSigns pki) (hsafe : s.Safe dataDir pki e) :
    (s.step json dataDir e).Matched dataDir pki ∧ s.KeepsCa json dataDir e := by
  cases e
  case join env payload => exact join_keeps rfl hm hself hsafe
  case start start      => exact runAgent_keeps hm hself hsafe
  case addToCrl now nodeId revokedBy =>
    have hs : Keeps (SameCa dataDir) (addToCrl json dataDir now nodeId revokedBy) := by
      refine .bind SameCa.trans (.mapErr sameCa_ensureDirs) fun _ => ?_
      refine .bind SameCa.trans (.reads SameCa.refl _) fun crl => .mapErr ?_
      exact sameCa_write isName_crl (by decide) (by decide)
    exact ⟨(hs s).matched hm, (hs s).keepsCrt⟩

-- As long as nothing else is written over it, the certificate of a CA is the one of its key.
theorem ca_matched (hm : s.Matched dataDir pki) (hself : ∀ e ∈ es, e.SelfSigns pki)
    (g : Guarded (fun s e => some (s.step json dataDir e)) (Safe dataDir pki) s es) :
    (∀ s', Visits (fun s e => some (s.step json dataDir e)) s es s' → s'.Matched dataDir pki) ∧
    Guarded (fun s e => some (s.step json dataDir e)) (KeepsCa json dataDir) s es := by
  have g := g.and (.of_forall (fun _ e he => hself e he))
  have kept (s : Issuer) (e : Event) (s' : Issuer) (hm : s.Matched dataDir pki)
      (hg : s.Safe dataDir pki e ∧ e.SelfSigns pki) (hs : some (s.step json dataDir e) = some s') :
      s'.Matched dataDir pki :=
    Option.some.inj hs ▸ (step_keeps hm hg.2 hg.1).1
  constructor
  case left  => exact fun s' hv => g.invariant hv hm kept
  case right => exact g.imp hm kept fun _ _ _ hm hg _ => (step_keeps hm hg.2 hg.1).2

end Runs

section Sample

-- A text is the certificate of the key that has the same text, signed by itself.
def samplePki : Pki String where
  certificate pem := some ⟨[pem], pem, pem, 67090032000⟩
  key pem         := some pem
  validity        := 67090032000

def selfSign : List String → Except String CertifiedKey
  | [name] => .ok ⟨name, name⟩
  | _      => .error "no name"

theorem samplePki_selfSigns : samplePki.SelfSigns selfSign := by
  intro names made h
  rw [selfSign.eq_def] at h
  split at h
  case h_1 name => cases h; exact ⟨name, rfl, rfl⟩
  case h_2      => cases h

-- An agent starts with these seeds, all of which answer with a certificate of another CA.
def sampleStart (tier : UInt8) (seeds : List String) : Start where
  localNode  := joiningNode "0.1.9" 7 (sampleRequest "")
  now        := 0
  tier       := tier
  seeds      := seeds
  selfSigned := selfSign
  request    := fun _ _ => .ok ⟨"node", "node", "other-ca", 7776000⟩

def blank : Issuer where
  files    := { cwd := [], entries := ∅ }
  faults   := []
  cluster  := .default
  lastSeen := ∅

-- A single node makes a CA of its own, and has others join it.
def single : List Event :=
  [.start (sampleStart 1 []), .join { sampleEnv with selfSigned := selfSign } (sampleRequest "")]

theorem ca_matched_single :
    (∀ s', Visits (fun s e => some (s.step RevokedNode.json "/d" e)) blank single s' →
      s'.Matched "/d" samplePki) ∧
    Guarded (fun s e => some (s.step RevokedNode.json "/d" e)) (KeepsCa RevokedNode.json "/d") blank
      single := by
  refine ca_matched ?_ ?_ ?_
  case refine_1 =>
    exact matched_of_no_key (by decide +kernel)
  case refine_2 =>
    intro e he
    simp only [single, List.mem_cons, List.not_mem_nil, or_false] at he
    rcases he with rfl | rfl
    · exact samplePki_selfSigns
    · exact samplePki_selfSigns
  case refine_3 =>
    intro s₁ h₁
    obtain rfl := Option.some.inj h₁
    refine ⟨?_, fun s₂ _ => ⟨?_, trivial⟩⟩
    · exact fun _ _ _ => ⟨by decide +kernel, .inl (by decide +kernel)⟩
    · exact fun _ _ _ _ _ hn => absurd (by decide +kernel) hn

-- A node that has been a CA of its own keeps its key when it enrolls with another one.
theorem ca_mismatched : ¬ ∀ (Key : Type) (pki : Pki Key) (json : Serde (List RevokedNode) String)
    (dataDir : String) (s : Issuer) (es : List Event), s.Matched dataDir pki →
    (∀ e ∈ es, e.SelfSigns pki) →
    (∀ s', Visits (fun s e => some (s.step json dataDir e)) s es s' → s'.Matched dataDir pki) ∧
    Guarded (fun s e => some (s.step json dataDir e)) (KeepsCa json dataDir) s es := by
  intro h
  let es : List Event := [.start (sampleStart 1 []), .start (sampleStart 1 ["b:7947"])]
  have hself : ∀ e ∈ es, e.SelfSigns samplePki := by
    intro e he
    simp only [es, List.mem_cons, List.not_mem_nil, or_false] at he
    rcases he with rfl | rfl
    · exact samplePki_selfSigns
    · exact samplePki_selfSigns
  obtain ⟨hm, -⟩ := h String samplePki RevokedNode.json "/d" blank es
    (matched_of_no_key (by decide +kernel)) hself
  have hm := hm _ (.last rfl)
  have hk : ((blank.step RevokedNode.json "/d" (.start (sampleStart 1 []))).step RevokedNode.json "/d"
      (.start (sampleStart 1 ["b:7947"]))).caKey "/d" = some (.ofString "all4one-ca") := by
    decide +kernel
  have hc : ((blank.step RevokedNode.json "/d" (.start (sampleStart 1 []))).step RevokedNode.json "/d"
      (.start (sampleStart 1 ["b:7947"]))).caCrt "/d" = some (.ofString "other-ca") := by
    decide +kernel
  obtain ⟨crtPem, keyPem, certificate, hcrt, hkey, hcertificate, hpublic⟩ := hm _ _ hk hc
  rw [Bytes.toString?_ofString] at hcrt hkey
  cases hcrt
  cases hkey
  cases hcertificate
  exact absurd (Option.some.inj hpublic) (by decide)

end Sample

end Issuer

end All4One.Membership
