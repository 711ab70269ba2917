import All4One.Membership.Join

open Foundation

namespace All4One.Membership

open CertificateManager

-- The first `n` operations on the files go through.
def Unharmed : Nat → List Fault → Prop
  | 0,     _      => True
  | n + 1, faults => faults.headD .none = .none ∧ Unharmed n faults.tail

-- The certificates can be issued, by the CA that is there or by one that has to be made first.
structure Issues (env : JoinEnv) (nodeId : Uuid) (s : Issuer) : Prop where
  node : ∃ node, env.selfSigned [nodeId.toText] = .ok node
  ca   :
    if s.files.pathExists (caCrtPath env.dataDir) then
      Unharmed 2 s.faults ∧ ∃ pem, loadCaPem env.dataDir s.files = .ok pem
    else
      Unharmed 5 s.faults ∧ s.files.stat (caKeyPath env.dataDir) ≠ some .dir ∧
        ∃ ca, generateCaCert env.selfSigned = .ok ca

-- A certificate of a new CA gets into the files, in whole or in part.
structure Renews (env : JoinEnv) (s : Issuer) : Prop where
  lost : s.files.pathExists (caCrtPath env.dataDir) = false
  dirs : s.faults.headD .none = .none
  ca   : ∃ ca, generateCaCert env.selfSigned = .ok ca
  crt  : s.faults.tail.headD .none ≠ .before

variable {env : JoinEnv} {nodeId : Uuid} {s s' : Issuer} {dataDir : String} {files : Files}
  {selfSigned : List String → Except String CertifiedKey} {pem : String}

section Places

theorem isName_caKey : Path.IsName "ca.key".toList := by
  constructor <;> decide

theorem isName_caCrt : Path.IsName "ca.crt".toList := by
  constructor <;> decide

theorem resolve_caKeyPath_ne : files.resolve (caKeyPath dataDir) ≠ files.resolve (caCrtPath dataDir) := by
  rw [caKeyPath, caCrtPath, Files.resolve, Files.resolve, Path.resolve_join_name isName_caKey,
    Path.resolve_join_name isName_caCrt]
  simp

theorem leads_of_pathExists {p : String} (h : files.pathExists p = true) : files.Leads p := by
  by_contra hn
  rw [Files.pathExists, Files.stat, if_neg hn] at h
  cases h

-- The directory of the certificates is there.
def HasCerts (dataDir : String) (files : Files) : Prop :=
  ∀ q ∈ Path.trail files.cwd (certsDir dataDir), files.entry q = some .dir

theorem hasCerts_of_hasCaKey (h : hasCaKey dataDir files = true) : HasCerts dataDir files :=
  fun q hq => leads_of_pathExists h q (Path.mem_trail_join_name isName_caKey hq)

namespace HasCerts

theorem of_extends {files' : Files} (h : HasCerts dataDir files) (he : files.Extends files') :
    HasCerts dataDir files' := by
  intro q hq
  rw [he.cwd] at hq
  exact he.dir q (h q hq)

theorem stat_caKeyPath (h : HasCerts dataDir files) :
    files.stat (caKeyPath dataDir) = files.entry (files.resolve (caKeyPath dataDir)) :=
  Files.stat_of_leads (Files.leads_join h isName_caKey)

theorem stat_caCrtPath (h : HasCerts dataDir files) :
    files.stat (caCrtPath dataDir) = files.entry (files.resolve (caCrtPath dataDir)) :=
  Files.stat_of_leads (Files.leads_join h isName_caCrt)

end HasCerts

end Places

section Operations

-- What is left once an operation has met its fault.
def Issuer.spend (s : Issuer) : Issuer :=
  { s with faults := s.faults.tail }

theorem io_run {op : Fault → Prog Files IoError Unit} {r : Except IoError Unit}
    (h : (op (s.faults.headD .none)).run s.files = (r, files)) :
    (io op).run s = (r.mapError .io, { s.spend with files }) := by
  simp only [io, h]
  rfl

theorem ensureDirs_run (h : HasCerts dataDir s.files) : (ensureDirs dataDir).run s =
    (if s.faults.headD .none = .none then .ok () else .error (.io .broken), s.spend) := by
  have hf : (Files.createDirAll (certsDir dataDir) (s.faults.headD .none)).run s.files =
      (if s.faults.headD .none = .none then .ok () else .error .broken, s.files) := by
    refine Prod.ext ?_ (Files.createDirAll_of_dirs h)
    cases s.faults.headD .none
    case none => exact congrArg Prod.fst (Files.createDirAll_none_of_dirs h)
    all_goals rfl
  rw [ensureDirs, io_run hf]
  split <;> rfl

theorem ensureDirs_eq_ok {u : Unit} (h : HasCerts dataDir s.files) :
    (ensureDirs dataDir).run s = (.ok u, s') ↔
    s.faults.headD .none = .none ∧ s' = s.spend := by
  rw [ensureDirs_run h]
  generalize s.faults.headD .none = fault
  cases fault <;> simp [eq_comm]

theorem setPermissions_files {p : String} {fault : Fault} :
    ((setPermissions p fault).run files).2 = files := by
  simp only [setPermissions]
  split
  case isTrue  => cases fault <;> rfl
  case isFalse => rfl

theorem setPermissions_eq_ok {p : String} : (io (setPermissions p)).run s = (.ok (), s') ↔
    s.faults.headD .none = .none ∧ s.files.pathExists p = true ∧ s' = s.spend := by
  simp only [io, setPermissions, Issuer.spend]
  generalize s.faults.headD .none = fault
  by_cases hp : s.files.pathExists p
  case neg => simp [hp]
  case pos => cases fault <;> simp [hp, eq_comm]

theorem write_eq_ok {p : String} {data : Bytes} {u : Unit} :
    (io (Files.write p data)).run s = (.ok u, s') ↔
    s.faults.headD .none = .none ∧ s.files.IsWritable p ∧
      s' = { s.spend with files := s.files.set (s.files.resolve p) (.file data) } := by
  simp only [io, Files.write, Issuer.spend]
  generalize s.faults.headD .none = fault
  by_cases hw : s.files.IsWritable p
  case neg => simp [hw]
  case pos => cases fault <;> simp [hw, eq_comm]

end Operations

section Issue

-- What `init_ca` does where a part of the CA is missing.
def renewCa (selfSigned : List String → Except String CertifiedKey) (dataDir : String) :
    Prog Issuer CertFailure Unit := do
  let ca ← .ofExcept (generateCaCert selfSigned)
  io (Files.write (caCrtPath dataDir) (.ofString ca.cert))
  io (Files.write (caKeyPath dataDir) (.ofString ca.keyPair))
  io (setPermissions (caKeyPath dataDir))

theorem initCa_run (selfSigned : List String → Except String CertifiedKey)
    (h : HasCerts dataDir s.files) : (initCa selfSigned dataDir).run s =
    if s.faults.headD .none = .none then
      if s.files.pathExists (caKeyPath dataDir) && s.files.pathExists (caCrtPath dataDir) then
        (.ok (), s.spend)
      else
        (renewCa selfSigned dataDir).run s.spend
    else
      (.error (.io .broken), s.spend) := by
  have he := ensureDirs_run h
  rw [initCa]
  split at he
  case isFalse hf => rw [if_neg hf, Prog.bind_of_error he]
  case isTrue hf =>
    rw [if_pos hf, Prog.bind_of_ok he]
    have hr : (Prog.reads fun s : Issuer => .ok (s.files.pathExists (caKeyPath dataDir) &&
        s.files.pathExists (caCrtPath dataDir)) : Prog Issuer CertFailure Bool).run s.spend =
        (.ok (s.files.pathExists (caKeyPath dataDir) && s.files.pathExists (caCrtPath dataDir)),
          s.spend) :=
      rfl
    rw [Prog.bind_of_ok hr]
    cases s.files.pathExists (caKeyPath dataDir) && s.files.pathExists (caCrtPath dataDir) <;> rfl

theorem initCa_run_of_hasCaKey (selfSigned : List String → Except String CertifiedKey)
    (h : hasCaKey dataDir s.files = true) : (initCa selfSigned dataDir).run s =
    if s.faults.headD .none = .none then
      if s.files.pathExists (caCrtPath dataDir) then
        (.ok (), s.spend)
      else
        (renewCa selfSigned dataDir).run s.spend
    else
      (.error (.io .broken), s.spend) := by
  have hk : s.files.pathExists (caKeyPath dataDir) = true := h
  rw [initCa_run selfSigned (hasCerts_of_hasCaKey h), hk, Bool.true_and]

def renewedFiles (dataDir : String) (ca : CertifiedKey) (files : Files) : Files :=
  (files.set (files.resolve (caCrtPath dataDir)) (.file (.ofString ca.cert))).set
    (files.resolve (caKeyPath dataDir)) (.file (.ofString ca.keyPair))

section

variable (h : HasCerts dataDir files) (hc : files.pathExists (caCrtPath dataDir) = false)
include h hc

theorem entry_caCrtPath : files.entry (files.resolve (caCrtPath dataDir)) = none := by
  rw [← h.stat_caCrtPath]
  exact Option.not_isSome_iff_eq_none.mp (by rw [← Files.pathExists, hc]; simp)

theorem isWritable_caCrtPath : files.IsWritable (caCrtPath dataDir) := by
  refine ⟨Files.leads_join h isName_caCrt, ?_⟩
  rw [entry_caCrtPath h hc]
  simp

theorem extends_caCrt (data : Bytes) :
    files.Extends (files.set (files.resolve (caCrtPath dataDir)) (.file data)) :=
  Files.extends_set_file (isWritable_caCrtPath h hc).2

theorem isWritable_caKeyPath (data : Bytes) :
    (files.set (files.resolve (caCrtPath dataDir)) (.file data)).IsWritable (caKeyPath dataDir) ↔
    files.stat (caKeyPath dataDir) ≠ some .dir := by
  have hl := Files.leads_join (h.of_extends (extends_caCrt h hc data)) isName_caKey
  rw [h.stat_caKeyPath, ← Files.entry_set_of_ne resolve_caKeyPath_ne]
  exact and_iff_right hl

theorem extends_renewedFiles (ca : CertifiedKey) (hd : files.stat (caKeyPath dataDir) ≠ some .dir) :
    files.Extends (renewedFiles dataDir ca files) := by
  refine (extends_caCrt h hc _).trans (Files.extends_set_file ?_)
  exact ((isWritable_caKeyPath h hc _).mpr hd).2

theorem pathExists_renewedFiles {ca : CertifiedKey} (hd : files.stat (caKeyPath dataDir) ≠ some .dir) :
    (renewedFiles dataDir ca files).pathExists (caKeyPath dataDir) = true := by
  have hx := h.of_extends (extends_renewedFiles h hc ca hd)
  have hk : files.resolve (caKeyPath dataDir) ≠ [] := by
    intro hk
    rw [h.stat_caKeyPath, hk] at hd
    exact hd rfl
  rw [Files.pathExists, hx.stat_caKeyPath]
  exact congrArg Option.isSome (Files.entry_set_self hk)

theorem loadCaPem_renewedFiles {ca : CertifiedKey} (hd : files.stat (caKeyPath dataDir) ≠ some .dir) :
    loadCaPem dataDir (renewedFiles dataDir ca files) = .ok ca.cert := by
  have hx := h.of_extends (extends_renewedFiles h hc ca hd)
  have hk : files.resolve (caCrtPath dataDir) ≠ [] := by
    intro hk
    have he := entry_caCrtPath h hc
    rw [hk] at he
    cases he
  have hs : (renewedFiles dataDir ca files).stat (caCrtPath dataDir) =
      some (.file (.ofString ca.cert)) := by
    rw [hx.stat_caCrtPath]
    exact (Files.entry_set_of_ne resolve_caKeyPath_ne.symm).trans (Files.entry_set_self hk)
  rw [loadCaPem, Files.read, hs]
  dsimp only
  rw [Bytes.toString?_ofString]

end

theorem renewCa_eq_ok (h : HasCerts dataDir s.files)
    (hc : s.files.pathExists (caCrtPath dataDir) = false) :
    (renewCa selfSigned dataDir).run s = (.ok (), s') ↔
    Unharmed 3 s.faults ∧ s.files.stat (caKeyPath dataDir) ≠ some .dir ∧
      ∃ ca, generateCaCert selfSigned = .ok ca ∧
        s' = { s.spend.spend.spend with files := renewedFiles dataDir ca s.files } := by
  rw [renewCa, Prog.ofExcept_bind]
  cases generateCaCert selfSigned
  case error => simp
  case ok ca =>
    have hw := isWritable_caKeyPath h hc (.ofString ca.cert)
    simp only [Prog.bind_eq_ok, write_eq_ok, setPermissions_eq_ok, Unharmed]
    constructor
    case mp =>
      rintro ⟨_, _, ⟨hf₁, _, rfl⟩, _, _, ⟨hf₂, hk, rfl⟩, hf₃, _, rfl⟩
      exact ⟨⟨hf₁, hf₂, hf₃, trivial⟩, hw.mp hk, ca, rfl, rfl⟩
    case mpr =>
      rintro ⟨⟨hf₁, hf₂, hf₃, _⟩, hd, _, hca, rfl⟩
      cases hca
      refine ⟨(), _, ⟨hf₁, isWritable_caCrtPath h hc, rfl⟩, (), _, ⟨hf₂, hw.mpr hd, rfl⟩, hf₃,
        pathExists_renewedFiles h hc hd, rfl⟩

theorem initCa_eq_ok_of_crt (h : hasCaKey dataDir s.files = true)
    (hc : s.files.pathExists (caCrtPath dataDir) = true) :
    (initCa selfSigned dataDir).run s = (.ok (), s') ↔
    s.faults.headD .none = .none ∧ s' = s.spend := by
  rw [initCa_run_of_hasCaKey _ h, if_pos hc]
  generalize s.faults.headD .none = fault
  cases fault <;> simp [eq_comm]

theorem initCa_eq_ok_of_no_crt (h : hasCaKey dataDir s.files = true)
    (hc : s.files.pathExists (caCrtPath dataDir) = false) :
    (initCa selfSigned dataDir).run s = (.ok (), s') ↔
    Unharmed 4 s.faults ∧ s.files.stat (caKeyPath dataDir) ≠ some .dir ∧
      ∃ ca, generateCaCert selfSigned = .ok ca ∧
        s' = { s.spend.spend.spend.spend with files := renewedFiles dataDir ca s.files } := by
  rw [initCa_run_of_hasCaKey _ h, hc, if_neg Bool.false_ne_true]
  split
  case isTrue hf  =>
    rw [renewCa_eq_ok (s := s.spend) (hasCerts_of_hasCaKey h) hc]
    simp only [Unharmed, hf, true_and, Issuer.spend]
  case isFalse hf => simp only [Unharmed, hf, false_and, iff_false]; simp

-- What comes after `init_ca`.
def certify (env : JoinEnv) (nodeId : Uuid) : Prog Issuer Grpc.Status (CertifiedKey × String) := do
  let node ← Prog.mapErr (fun e => ⟨.internal, s!"Failed to generate cert: {env.text e}"⟩)
    (generateNodeCert env.selfSigned env.dataDir nodeId)
  let ca ← Prog.mapErr (fun e => ⟨.internal, s!"Failed to load CA cert: {env.text e}"⟩)
    (.reads fun s => loadCaPem env.dataDir s.files)
  return (node, ca)

theorem exists_certify_eq_ok (h : HasCerts env.dataDir s.files) :
    (∃ r s', (certify env nodeId).run s = (.ok r, s')) ↔
    s.faults.headD .none = .none ∧ (∃ node, env.selfSigned [nodeId.toText] = .ok node) ∧
      ∃ pem, loadCaPem env.dataDir s.files = .ok pem := by
  simp only [certify, generateNodeCert, Prog.bind_eq_ok, Prog.mapErr_eq_ok, ensureDirs_eq_ok h,
    Prog.ofExcept_run, Prog.reads_run, Prog.pure_run, Prod.mk.injEq]
  constructor
  case mp =>
    rintro ⟨_, _, node, _, ⟨_, _, ⟨hf, rfl⟩, hn, rfl⟩, pem, _, ⟨hp, rfl⟩, _⟩
    cases hs : env.selfSigned [nodeId.toText] <;> rw [hs] at hn
    case error => cases hn
    case ok    => exact ⟨hf, ⟨_, rfl⟩, pem, hp⟩
  case mpr =>
    rintro ⟨hf, ⟨node, hn⟩, pem, hp⟩
    have hs : (env.selfSigned [nodeId.toText]).mapError CertFailure.rcgen = .ok node := by
      rw [hn, Prog.mapError_ok]
    exact ⟨(node, pem), s.spend, node, s.spend, ⟨(), s.spend, ⟨hf, rfl⟩, hs, rfl⟩, pem, s.spend,
      ⟨hp, rfl⟩, rfl, rfl⟩

theorem issue_eq : issue env nodeId =
    (Prog.mapErr (fun e => ⟨.internal, s!"Failed to initialize CA: {env.text e}"⟩)
      (initCa env.selfSigned env.dataDir) >>= fun _ => certify env nodeId) :=
  rfl

theorem exists_issue_eq_ok (h : hasCaKey env.dataDir s.files = true) :
    (∃ r s', (issue env nodeId).run s = (.ok r, s')) ↔ Issues env nodeId s := by
  have hd := hasCerts_of_hasCaKey h
  have he : (∃ r s', (issue env nodeId).run s = (.ok r, s')) ↔
      ∃ u s₁, (initCa env.selfSigned env.dataDir).run s = (.ok u, s₁) ∧
        ∃ r s', (certify env nodeId).run s₁ = (.ok r, s') := by
    simp only [issue_eq, Prog.bind_eq_ok, Prog.mapErr_eq_ok]
    constructor
    · rintro ⟨r, s', u, s₁, hi, hc⟩
      exact ⟨u, s₁, hi, r, s', hc⟩
    · rintro ⟨u, s₁, hi, r, s', hc⟩
      exact ⟨r, s', u, s₁, hi, hc⟩
  rw [he]
  cases hc : s.files.pathExists (caCrtPath env.dataDir)
  case true =>
    simp only [initCa_eq_ok_of_crt h hc]
    constructor
    case mp =>
      rintro ⟨_, _, ⟨hf, rfl⟩, hr⟩
      have ⟨hf', hn, hp⟩ := (exists_certify_eq_ok (s := s.spend) hd).mp hr
      exact ⟨hn, by rw [hc]; exact ⟨⟨hf, hf', trivial⟩, hp⟩⟩
    case mpr =>
      rintro ⟨hn, hca⟩
      rw [hc] at hca
      have ⟨⟨hf, hf', _⟩, hp⟩ := hca
      exact ⟨(), _, ⟨hf, rfl⟩, (exists_certify_eq_ok (s := s.spend) hd).mpr ⟨hf', hn, hp⟩⟩
  case false =>
    simp only [initCa_eq_ok_of_no_crt h hc]
    constructor
    case mp =>
      rintro ⟨_, _, ⟨⟨hf₁, hf₂, hf₃, hf₄, _⟩, hk, ca, hca, rfl⟩, hr⟩
      have hd' := hd.of_extends (extends_renewedFiles hd hc ca hk)
      have ⟨hf₅, hn, _⟩ := (exists_certify_eq_ok hd').mp hr
      refine ⟨hn, ?_⟩
      rw [hc]
      exact ⟨⟨hf₁, hf₂, hf₃, hf₄, hf₅, trivial⟩, hk, ca, hca⟩
    case mpr =>
      rintro ⟨hn, hca⟩
      rw [hc] at hca
      have ⟨⟨hf₁, hf₂, hf₃, hf₄, hf₅, _⟩, hk, ca, hca⟩ := hca
      have hd' := hd.of_extends (extends_renewedFiles hd hc ca hk)
      refine ⟨(), _, ⟨⟨hf₁, hf₂, hf₃, hf₄, trivial⟩, hk, ca, hca, rfl⟩, ?_⟩
      exact (exists_certify_eq_ok hd').mpr ⟨hf₅, hn, ca.cert, loadCaPem_renewedFiles hd hc hk⟩

end Issue

section Trace

def Grown (s s' : Issuer) : Prop :=
  s.files.Extends s'.files

open Prog (Keeps)

theorem Grown.refl (s : Issuer) : Grown s s :=
  Files.Extends.refl s.files

theorem Grown.trans (s₁ s₂ s₃ : Issuer) (h : Grown s₁ s₂) (h' : Grown s₂ s₃) : Grown s₁ s₃ :=
  Files.Extends.trans h h'

theorem grown_io {op : Fault → Prog Files IoError Unit} (h : ∀ fault, Keeps Files.Extends (op fault)) :
    Keeps Grown (io op) :=
  fun s => h (s.faults.headD .none) s.files

theorem grown_setPermissions {p : String} : Keeps Grown (io (setPermissions p)) := by
  refine grown_io fun fault files => ?_
  rw [setPermissions_files]
  exact .refl files

theorem grown_certify : Keeps Grown (certify env nodeId) := by
  have hd : Keeps Grown (ensureDirs env.dataDir) :=
    grown_io fun fault => fun files => (Files.createDirAll_grows _ fault files).toExtends
  have hg : Keeps Grown (generateNodeCert env.selfSigned env.dataDir nodeId) :=
    .bind Grown.trans hd fun _ => .ofExcept Grown.refl _
  exact .bind Grown.trans hg fun _ => .bind Grown.trans Grown.refl fun _ => .pure Grown.refl

-- The write of the certificate leaves something, and nothing takes it away.
theorem renewCa_entry {ca : CertifiedKey} (h : HasCerts dataDir s.files)
    (hc : s.files.pathExists (caCrtPath dataDir) = false) (hca : generateCaCert selfSigned = .ok ca)
    (hf : s.faults.headD .none ≠ .before) : ((renewCa selfSigned dataDir).run s).2.files.entry
      (s.files.resolve (caCrtPath dataDir)) ≠ none := by
  rw [renewCa, hca, Prog.ofExcept_bind]
  dsimp only
  have hw : ((io (Files.write (caCrtPath dataDir) (.ofString ca.cert))).run s).2.files.entry
      (s.files.resolve (caCrtPath dataDir)) ≠ none := by
    rw [io_run rfl]
    exact Files.write_leaves (isWritable_caCrtPath h hc) hf
  refine Files.Extends.ne_none ?_ hw
  refine Keeps.after (R := Grown) Grown.refl fun _ => ?_
  exact .bind Grown.trans (grown_io (Files.write_extends _ _)) fun _ => grown_setPermissions

def SameFiles (dataDir : String) (s s' : Issuer) : Prop :=
  HasCerts dataDir s.files → s'.files = s.files

theorem SameFiles.refl (s : Issuer) : SameFiles dataDir s s :=
  fun _ => rfl

theorem SameFiles.trans (s₁ s₂ s₃ : Issuer) (h : SameFiles dataDir s₁ s₂)
    (h' : SameFiles dataDir s₂ s₃) : SameFiles dataDir s₁ s₃ := by
  intro hd
  have hf := h hd
  exact (h' (hf ▸ hd)).trans hf

theorem certify_files : Keeps (SameFiles env.dataDir) (certify env nodeId) := by
  have hd : Keeps (SameFiles env.dataDir) (ensureDirs env.dataDir) := by
    intro s h
    rw [ensureDirs_run h]
    rfl
  have hg : Keeps (SameFiles env.dataDir) (generateNodeCert env.selfSigned env.dataDir nodeId) :=
    .bind SameFiles.trans hd fun _ => .ofExcept SameFiles.refl _
  exact .bind SameFiles.trans hg fun _ =>
    .bind SameFiles.trans SameFiles.refl fun _ => .pure SameFiles.refl

-- What `init_ca` has done is only followed by the certificate of the node.
theorem issue_after {R : Issuer → Issuer → Prop} (refl : ∀ s, R s s) (h : Keeps R (certify env nodeId)) :
    R ((initCa env.selfSigned env.dataDir).run s).2 ((issue env nodeId).run s).2 := by
  have ha := Keeps.after (x := Prog.mapErr (fun e => (⟨.internal,
    s!"Failed to initialize CA: {env.text e}"⟩ : Grpc.Status)) (initCa env.selfSigned env.dataDir))
    (s := s) refl fun _ => h
  exact ha

theorem issue_files_of_initCa (h : hasCaKey env.dataDir s.files = true)
    (hi : ((initCa env.selfSigned env.dataDir).run s).2.files = s.files) :
    ((issue env nodeId).run s).2.files = s.files := by
  have hd : HasCerts env.dataDir ((initCa env.selfSigned env.dataDir).run s).2.files :=
    hi ▸ hasCerts_of_hasCaKey h
  exact (issue_after SameFiles.refl certify_files hd).trans hi

-- The files change where, and only where, the CA is made anew.
theorem issue_files_iff (h : hasCaKey env.dataDir s.files = true) :
    ((issue env nodeId).run s).2.files = s.files ↔ ¬ Renews env s := by
  have hd := hasCerts_of_hasCaKey h
  have hi := initCa_run_of_hasCaKey env.selfSigned h
  constructor
  case mp =>
    intro hf hr
    have ⟨ca, hca⟩ := hr.ca
    rw [if_pos hr.dirs, hr.lost, if_neg Bool.false_ne_true] at hi
    have hne := renewCa_entry (s := s.spend) hd hr.lost hca hr.crt
    rw [← hi] at hne
    have he : Grown _ ((issue env nodeId).run s).2 := issue_after Grown.refl grown_certify
    have hne' := he.ne_none hne
    rw [hf] at hne'
    exact hne' (entry_caCrtPath hd hr.lost)
  case mpr =>
    intro hr
    refine issue_files_of_initCa h ?_
    rw [hi]
    by_cases hf : s.faults.headD .none = .none
    case neg => rw [if_neg hf]; rfl
    case pos =>
      rw [if_pos hf]
      cases hc : s.files.pathExists (caCrtPath env.dataDir)
      case true => rfl
      case false =>
        rw [if_neg Bool.false_ne_true, renewCa, Prog.ofExcept_bind]
        cases hca : generateCaCert env.selfSigned
        case error => rfl
        case ok ca =>
          have hb : s.faults.tail.headD .none = .before :=
            not_not.mp fun hb => hr ⟨hc, hf, ⟨ca, hca⟩, hb⟩
          have ⟨e, hw⟩ : ∃ e, (Files.write (caCrtPath env.dataDir) (.ofString ca.cert) .before).run
            s.files = (.error e, s.files) := Files.write_before
          rw [← hb] at hw
          dsimp only
          rw [Prog.bind_of_error (io_run (s := s.spend) hw)]

end Trace

end All4One.Membership
