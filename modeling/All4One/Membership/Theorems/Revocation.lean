import All4One.Foundation.Transition
import All4One.Membership.Enrolment
import All4One.Membership.Theorems.Join

open Foundation Transition

namespace All4One.Membership

open CertificateManager
open Prog (Ignores)

section Places

variable {files : Files} {dataDir n m : String}

theorem resolve_certs_ne (hn : Path.IsName n.toList) (hm : Path.IsName m.toList) (h : n ≠ m) :
    files.resolve (Path.join (certsDir dataDir) n) ≠ files.resolve (Path.join (certsDir dataDir) m) := by
  rw [Files.resolve, Files.resolve, Path.resolve_join_name hn, Path.resolve_join_name hm]
  intro he
  exact h (String.toList_inj.mp (List.singleton_inj.mp (List.append_cancel_left he)))

theorem isName_crl : Path.IsName "crl.json".toList := by
  constructor <;> decide

theorem isName_nodeCrt : Path.IsName "node.crt".toList := by
  constructor <;> decide

theorem isName_nodeKey : Path.IsName "node.key".toList := by
  constructor <;> decide

end Places

-- The place of the list of the revoked.
def crlPlace (dataDir : String) (files : Files) : List Name :=
  files.resolve (crlFile dataDir)

-- A node that has the directory of its certificates, and no other one where the list of the revoked is.
structure Ready (dataDir : String) (s : Issuer) : Prop where
  certs : HasCerts dataDir s.files
  crl   : s.files.entry (crlPlace dataDir s.files) ≠ some .dir

-- The same node with this list of the revoked, or without one.
def Issuer.withCrl (dataDir : String) (o : Option Bytes) (s : Issuer) : Issuer :=
  { s with files := s.files.replace (crlPlace dataDir s.files) o }

section Frame

variable {dataDir n : String} {o : Option Bytes} {s : Issuer} {env : JoinEnv} {payload : JoinRequest}
  {nodeId : Uuid} {selfSigned : List String → Except String CertifiedKey}

theorem HasCerts.replace {files : Files} (h : HasCerts dataDir files)
    (hd : files.entry (crlPlace dataDir files) ≠ some .dir) :
    HasCerts dataDir (files.replace (crlPlace dataDir files) o) := by
  intro q hq
  rw [Files.replace_cwd] at hq
  exact (Files.replace_dir hd).mpr (h q hq)

theorem Ready.withCrl (h : Ready dataDir s) : HasCerts dataDir (s.withCrl dataDir o).files :=
  h.certs.replace h.crl

theorem Ready.pathExists_withCrl (h : Ready dataDir s) (hn : Path.IsName n.toList)
    (hc : n ≠ "crl.json") : (s.withCrl dataDir o).files.pathExists (Path.join (certsDir dataDir) n) =
    s.files.pathExists (Path.join (certsDir dataDir) n) := by
  rw [Files.pathExists, Files.pathExists]
  exact congrArg _ (Files.stat_replace h.crl (resolve_certs_ne hn isName_crl hc))

theorem ignores_ensureDirs : Ignores (Ready dataDir) (Issuer.withCrl dataDir o) (ensureDirs dataDir) := by
  intro s h
  rw [ensureDirs_run h.certs, ensureDirs_run h.withCrl]
  exact ⟨⟨h.certs, h.crl⟩, rfl⟩

theorem ignores_write {data : Bytes} (hn : Path.IsName n.toList) (hc : n ≠ "crl.json") :
    Ignores (Ready dataDir) (Issuer.withCrl dataDir o)
      (io (Files.write (Path.join (certsDir dataDir) n) data)) := by
  intro s h
  have hne : s.files.resolve (Path.join (certsDir dataDir) n) ≠ crlPlace dataDir s.files :=
    resolve_certs_ne hn isName_crl hc
  have hx := Files.write_extends (Path.join (certsDir dataDir) n) data (s.faults.headD .none) s.files
  have hp : crlPlace dataDir ((Files.write (Path.join (certsDir dataDir) n) data
      (s.faults.headD .none)).run s.files).2 = crlPlace dataDir s.files := by
    rw [crlPlace, Files.resolve, hx.cwd]
    rfl
  have hcrl : ((Files.write (Path.join (certsDir dataDir) n) data (s.faults.headD .none)).run
      s.files).2.entry (crlPlace dataDir s.files) ≠ some .dir := by
    rw [Files.write_entry_of_ne hne.symm]
    exact h.crl
  have hcerts := h.certs.of_extends hx
  rw [← hp] at hcrl
  constructor
  case left =>
    simp only [io]
    exact ⟨hcerts, hcrl⟩
  case right =>
    have hw : (Files.write (Path.join (certsDir dataDir) n) data (s.faults.headD .none)).run
        (s.files.replace (crlPlace dataDir s.files) o) = _ := Files.write_replace h.crl hne
    simp only [io, Issuer.withCrl, hw, hp]

theorem ignores_setPermissions (hn : Path.IsName n.toList) (hc : n ≠ "crl.json") :
    Ignores (Ready dataDir) (Issuer.withCrl dataDir o)
      (io (setPermissions (Path.join (certsDir dataDir) n))) := by
  intro s h
  have he : (s.files.replace (crlPlace dataDir s.files) o).pathExists _ = _ :=
    h.pathExists_withCrl hn hc
  have hf : ((setPermissions (Path.join (certsDir dataDir) n) (s.faults.headD .none)).run s.files).2 =
      s.files :=
    setPermissions_files
  constructor
  case left =>
    refine ⟨?_, ?_⟩
    all_goals simp only [io, hf]
    · exact h.certs
    · exact h.crl
  case right =>
    simp only [io, setPermissions, Issuer.withCrl, he]
    split
    · cases s.faults.headD .none <;> rfl
    · rfl

theorem ignores_initCa :
    Ignores (Ready dataDir) (Issuer.withCrl dataDir o) (initCa selfSigned dataDir) := by
  refine ignores_ensureDirs.bind fun _ => .bind (.reads fun s h => ?_) fun exist => ?_
  case refine_1 =>
    have hk := h.pathExists_withCrl (o := o) isName_caKey (by decide)
    have hc := h.pathExists_withCrl (o := o) isName_caCrt (by decide)
    rw [caKeyPath, caCrtPath, hk, hc]
  case refine_2 =>
    cases exist
    case true  => exact .pure
    case false =>
      refine .bind (.ofExcept _) fun ca => .bind (ignores_write isName_caCrt (by decide)) fun _ => ?_
      refine .bind (ignores_write isName_caKey (by decide)) fun _ => ?_
      exact ignores_setPermissions isName_caKey (by decide)

theorem ignores_issue : Ignores (Ready env.dataDir) (Issuer.withCrl env.dataDir o) (issue env nodeId) := by
  refine .bind ignores_initCa.mapErr fun _ => ?_
  refine .bind (.mapErr (ignores_ensureDirs.bind fun _ => .ofExcept _)) fun node => ?_
  refine .bind (.mapErr (.reads fun s h => ?_)) fun ca => .pure
  have hs : (s.withCrl env.dataDir o).files.stat (caCrtPath env.dataDir) =
      s.files.stat (caCrtPath env.dataDir) :=
    Files.stat_replace h.crl (resolve_certs_ne isName_caCrt isName_crl (by decide))
  rw [loadCaPem, loadCaPem, Files.read, Files.read, hs]

-- The list of the revoked has no part in a request to join.
theorem ignores_join (hd : env.dataDir = dataDir) :
    Ignores (Ready dataDir) (Issuer.withCrl dataDir o) (join env payload) := by
  subst hd
  refine .bind (.ofExcept _) fun nodeId => .bind (.reads fun s h => ?_) fun _ => ?_
  case refine_1 =>
    have hk := h.pathExists_withCrl (o := o) isName_caKey (by decide)
    rw [hasCaKey, hasCaKey, caKeyPath, hk]
  case refine_2 =>
    refine .bind (.ofExcept _) fun _ => .bind ignores_issue fun _ => ?_
    exact .bind (.update fun s h => ⟨⟨h.certs, h.crl⟩, rfl⟩) fun _ => .pure

theorem ignores_saveNodeCert {certPem keyPem caPem : String} : Ignores (Ready dataDir)
    (Issuer.withCrl dataDir o) (saveNodeCert dataDir certPem keyPem caPem) := by
  refine ignores_ensureDirs.bind fun _ => .bind (ignores_write isName_nodeCrt (by decide)) fun _ => ?_
  refine .bind (ignores_write isName_nodeKey (by decide)) fun _ => ?_
  refine .bind (ignores_setPermissions isName_nodeKey (by decide)) fun _ => ?_
  exact ignores_write isName_caCrt (by decide)

theorem ignores_enrollWithSeedCa {answers : List (String × Except String JoinResponse)}
    {last : StartFailure} :
    Ignores (Ready dataDir) (Issuer.withCrl dataDir o) (enrollWithSeedCa dataDir answers last) := by
  induction answers generalizing last
  case nil => exact .ofExcept _
  case cons answer answers hi =>
    obtain ⟨seed, _ | bundle⟩ := answer
    case error => exact hi
    case ok    => exact ignores_saveNodeCert.mapErr

theorem ignores_runAgent {start : Start} :
    Ignores (Ready dataDir) (Issuer.withCrl dataDir o) (runAgent dataDir start) := by
  refine .bind (.update fun s h => ⟨⟨h.certs, h.crl⟩, rfl⟩) fun _ => ?_
  refine .bind ignores_ensureDirs.mapErr fun _ => ?_
  split
  case isTrue  => exact ignores_initCa.mapErr
  case isFalse =>
    refine .bind (.reads fun s h => ?_) fun exist => ?_
    case refine_1 =>
      have hn := h.pathExists_withCrl (o := o) isName_nodeCrt (by decide)
      have hk := h.pathExists_withCrl (o := o) isName_nodeKey (by decide)
      have hc := h.pathExists_withCrl (o := o) isName_caCrt (by decide)
      rw [hasNodeCredentials, hasNodeCredentials, nodeCrtPath, nodeKeyPath, caCrtPath, hn, hk, hc]
    case refine_2 =>
      cases exist
      case true  => exact .pure
      case false => exact ignores_enrollWithSeedCa

end Frame

-- A request that is let in, and for which the certificates can be issued.
structure Grants (env : JoinEnv) (payload : JoinRequest) (nodeId : Uuid) (s : Issuer) : Prop where
  issuer : hasCaKey env.dataDir s.files = true
  secret : checkSecret env.security payload.joinSecret = .ok ()
  certs  : Issues env nodeId s

theorem exists_join_eq_ok {env : JoinEnv} {payload : JoinRequest} {s : Issuer} :
    (∃ response s', (join env payload).run s = (.ok response, s')) ↔
    ∃ nodeId, Uuid.parseStr payload.nodeId = some nodeId ∧ Grants env payload nodeId s := by
  cases hp : Uuid.parseStr payload.nodeId
  case none => simp [join_of_not_parsed hp]
  case some nodeId =>
    simp only [Option.some.injEq, exists_eq_left']
    cases hk : hasCaKey env.dataDir s.files
    case false =>
      rw [join_of_no_key hp hk]
      refine iff_of_false (by simp) fun hg => ?_
      cases hk.symm.trans hg.issuer
    case true =>
      rw [join_of_checked hp hk]
      constructor
      case mp =>
        rintro ⟨response, s', hr⟩
        cases hc : checkSecret env.security payload.joinSecret <;> rw [hc] at hr
        case error => cases hr
        case ok =>
          rcases hi : (issue env nodeId).run s with ⟨_ | r, s₁⟩
          case error => rw [hi] at hr; cases hr
          case ok    => exact ⟨hk, hc, (exists_issue_eq_ok hk).mp ⟨r, s₁, hi⟩⟩
      case mpr =>
        intro hg
        obtain ⟨⟨node, ca⟩, s', hi⟩ := (exists_issue_eq_ok hk).mpr hg.certs
        rw [hg.secret, hi]
        exact ⟨_, _, rfl⟩

-- A node, and those that it has said to have revoked.
structure Authority where
  issuer  : Issuer
  revoked : List Uuid

namespace Authority

variable (json : Serde (List RevokedNode) String) (dataDir : String)

-- Whom an event revokes.
def revokes (s : Issuer) : Issuer.Event → List Uuid
  | .addToCrl now nodeId revokedBy =>
    match (addToCrl json dataDir now nodeId revokedBy).run s with
    | (.ok (), _)   => [nodeId]
    | (.error _, _) => []
  | _ => []

def step (r : Authority) (e : Issuer.Event) : Option Authority :=
  some ⟨r.issuer.step json dataDir e, r.revoked ++ revokes json dataDir r.issuer e⟩

-- The list names those that have been revoked, and each of them once.
structure Consistent (r : Authority) : Prop where
  revoked : ∀ id, isRevoked json dataDir id r.issuer.files = .ok true ↔ id ∈ r.revoked
  once    : ∃ crl, loadCrl json dataDir r.issuer.files = .ok crl ∧ (crl.map (·.nodeId)).Nodup

-- Nobody that has been revoked is granted a certificate, and all others are treated as if nobody had.
def Enforces (r : Authority) : Issuer.Event → Prop
  | .join env payload =>
    let x := join { env with dataDir } payload
    (∀ id ∈ r.revoked, Uuid.parseStr payload.nodeId = some id →
      ∀ response s', x.run r.issuer ≠ (.ok response, s')) ∧
    ((∀ id ∈ r.revoked, Uuid.parseStr payload.nodeId ≠ some id) →
      x.run (r.issuer.withCrl dataDir none) =
        ((x.run r.issuer).1, (x.run r.issuer).2.withCrl dataDir none))
  | _ => True

-- Those that have been revoked are kept out for another reason, and the list is not lost halfway through
-- its write.
def Holds (r : Authority) : Issuer.Event → Prop
  | .join env payload =>
    ∀ id ∈ r.revoked, Uuid.parseStr payload.nodeId = some id →
      ¬ Grants { env with dataDir } payload id r.issuer
  | .addToCrl _ _ _ => ∀ n, r.issuer.faults.tail.headD .none ≠ .after n
  | .start _        => True

end Authority

section List

variable {json : Serde (List RevokedNode) String} {dataDir now : String} {s s' : Issuer}
  {crl : List RevokedNode} {nodeId revokedBy : Uuid}

-- The list is in its place, or there is none yet.
def Stored (json : Serde (List RevokedNode) String) (dataDir : String) (crl : List RevokedNode)
    (s : Issuer) : Prop :=
  s.files.entry (crlPlace dataDir s.files) = none ∧ crl = [] ∨
  s.files.entry (crlPlace dataDir s.files) = some (.file (.ofString (json.toVec crl)))

theorem Stored.of_files (h : Stored json dataDir crl s) (hf : s'.files = s.files) :
    Stored json dataDir crl s' := by
  rw [Stored, hf]
  exact h

theorem Ready.spend (h : Ready dataDir s) : Ready dataDir s.spend :=
  ⟨h.certs, h.crl⟩

theorem loadCrl_of_stored (h : Ready dataDir s) (hs : Stored json dataDir crl s) :
    loadCrl json dataDir s.files = .ok crl := by
  have hl : s.files.stat (crlFile dataDir) = s.files.entry (crlPlace dataDir s.files) :=
    Files.stat_of_leads (Files.leads_join h.certs isName_crl)
  rcases hs with ⟨he, rfl⟩ | he
  case inl => rw [loadCrl, Files.pathExists, hl, he]; rfl
  case inr =>
    rw [loadCrl, Files.pathExists, Files.read, hl, he]
    simp only [Option.isSome_some, if_true, Bytes.toString?_ofString, json.fromSlice_toVec]

-- The list with a further entry, unless it has one for the node.
def insertCrl (now : String) (nodeId revokedBy : Uuid) (crl : List RevokedNode) : List RevokedNode :=
  if crl.any (·.nodeId = nodeId) then crl else crl ++ [{ nodeId, revokedAt := now, revokedBy }]

theorem mem_insertCrl {id : Uuid} : id ∈ (insertCrl now nodeId revokedBy crl).map (·.nodeId) ↔
    id ∈ crl.map (·.nodeId) ∨ id = nodeId := by
  rw [insertCrl]
  split
  case isTrue h =>
    obtain ⟨r, hr, he⟩ := List.any_eq_true.mp h
    refine ⟨.inl, fun h => h.elim (fun h => h) ?_⟩
    rintro rfl
    exact List.mem_map.mpr ⟨r, hr, of_decide_eq_true he⟩
  case isFalse => simp

theorem nodup_insertCrl (h : (crl.map (·.nodeId)).Nodup) :
    ((insertCrl now nodeId revokedBy crl).map (·.nodeId)).Nodup := by
  rw [insertCrl]
  split
  case isTrue     => exact h
  case isFalse hn =>
    rw [List.map_append, List.map_singleton, ← List.concat_eq_append]
    refine h.concat fun hm => hn ?_
    obtain ⟨r, hr, he⟩ := List.mem_map.mp hm
    exact List.any_eq_true.mpr ⟨r, hr, decide_eq_true he⟩

theorem writeCrl_run (json : Serde (List RevokedNode) String) (crl : List RevokedNode)
    (h : Ready dataDir s) (hf : ∀ n, s.faults.headD .none ≠ .after n) :
    let r := (io (Files.write (crlFile dataDir) (.ofString (json.toVec crl)))).run s
    Ready dataDir r.2 ∧
      ((∃ e, r.1 = .error e) ∧ r.2.files = s.files ∨ r.1 = .ok () ∧ Stored json dataDir crl r.2) := by
  have hw : s.files.IsWritable (crlFile dataDir) := ⟨Files.leads_join h.certs isName_crl, h.crl⟩
  have hne : crlPlace dataDir s.files ≠ [] := Files.replace_ne_nil h.crl
  simp only [io, Files.write, if_pos hw]
  cases hfault : s.faults.headD .none
  case after n => exact absurd hfault (hf n)
  case before  => exact ⟨⟨h.certs, h.crl⟩, .inl ⟨⟨_, rfl⟩, rfl⟩⟩
  case none    =>
    have he : (s.files.set (crlPlace dataDir s.files) (.file (.ofString (json.toVec crl)))).entry
        (crlPlace dataDir s.files) = some (.file (.ofString (json.toVec crl))) :=
      Files.entry_set_self hne
    refine ⟨⟨h.certs.of_extends (Files.extends_set_file h.crl), ?_⟩, .inr ⟨rfl, .inr he⟩⟩
    exact fun hd => by cases he.symm.trans hd

theorem addToCrl_run (now : String) (nodeId revokedBy : Uuid) (h : Ready dataDir s) (hs : Stored json dataDir crl s)
    (hf : ∀ n, s.faults.tail.headD .none ≠ .after n) :
    let r := (addToCrl json dataDir now nodeId revokedBy).run s
    Ready dataDir r.2 ∧ ((∃ e, r.1 = .error e) ∧ Stored json dataDir crl r.2 ∨
      r.1 = .ok () ∧ Stored json dataDir (insertCrl now nodeId revokedBy crl) r.2) := by
  have hd := ensureDirs_run h.certs
  split at hd
  case isFalse =>
    have he : (Prog.mapErr CrlFailure.cert (ensureDirs dataDir)).run s =
        (.error (.cert (.io .broken)), s.spend) := by
      simp only [Prog.mapErr, hd]; rfl
    rw [addToCrl, Prog.bind_of_error he]
    exact ⟨⟨h.certs, h.crl⟩, .inl ⟨⟨_, rfl⟩, hs⟩⟩
  case isTrue =>
    have he : (Prog.mapErr CrlFailure.cert (ensureDirs dataDir)).run s = (.ok (), s.spend) := by
      simp only [Prog.mapErr, hd]; rfl
    have hl : (Prog.reads fun s : Issuer => loadCrl json dataDir s.files).run s.spend =
        (.ok crl, s.spend) := by
      rw [Prog.reads_run, loadCrl_of_stored h.spend hs]
    have hw := writeCrl_run json (insertCrl now nodeId revokedBy crl) h.spend hf
    rw [addToCrl, Prog.bind_of_ok he, Prog.bind_of_ok hl]
    simp only [Prog.mapErr_run]
    rw [← insertCrl]
    revert hw
    generalize (io (Files.write (crlFile dataDir)
      (.ofString (json.toVec (insertCrl now nodeId revokedBy crl))))).run s.spend = r
    intro hw
    obtain ⟨hr, ⟨⟨e, he⟩, hfiles⟩ | ⟨hok, hst⟩⟩ := hw
    case inl => exact ⟨hr, .inl ⟨⟨.cert e, by rw [he]; rfl⟩, hs.of_files hfiles⟩⟩
    case inr => exact ⟨hr, .inr ⟨by rw [hok]; rfl, hst⟩⟩

end List

-- What does not see the list leaves it as it is.
theorem crl_of_ignores {ε α : Type} {x : Prog Issuer ε α} {dataDir : String} {s : Issuer}
    (hx : ∀ o, Ignores (Ready dataDir) (Issuer.withCrl dataDir o) x) (h : Ready dataDir s) :
    Ready dataDir (x.run s).2 ∧ (x.run s).2.files.entry (crlPlace dataDir (x.run s).2.files) =
      s.files.entry (crlPlace dataDir s.files) := by
  obtain ⟨o, ho⟩ : ∃ o : Option Bytes, s.files.entry (crlPlace dataDir s.files) = o.map .file := by
    cases he : s.files.entry (crlPlace dataDir s.files)
    case none   => exact ⟨none, rfl⟩
    case some e =>
      cases e
      case dir       => exact absurd he h.crl
      case file data => exact ⟨some data, rfl⟩
  have hs : s.withCrl dataDir o = s := by
    rw [Issuer.withCrl, Files.replace_self (Files.replace_ne_nil h.crl) ho]
  obtain ⟨hr, he⟩ := hx o s h
  rw [hs] at he
  refine ⟨hr, ?_⟩
  have hfiles := congrArg Issuer.files (congrArg Prod.snd he)
  have hentry := congrArg (Files.entry · (crlPlace dataDir (x.run s).2.files)) hfiles
  exact hentry.trans ((Files.entry_replace_self (Files.replace_ne_nil hr.crl)).trans ho.symm)

namespace Authority

variable {json : Serde (List RevokedNode) String} {dataDir : String} {r r' : Authority}
  {e : Issuer.Event} {es : List Issuer.Event} {s : Issuer}

structure Good (json : Serde (List RevokedNode) String) (dataDir : String) (r : Authority) : Prop where
  ready : Ready dataDir r.issuer
  crl   : ∃ crl, Stored json dataDir crl r.issuer ∧ (crl.map (·.nodeId)).Nodup ∧
    ∀ id, id ∈ crl.map (·.nodeId) ↔ id ∈ r.revoked

theorem Good.consistent (h : r.Good json dataDir) : r.Consistent json dataDir := by
  obtain ⟨crl, hs, hn, hm⟩ := h.crl
  have hl := loadCrl_of_stored h.ready hs
  refine ⟨fun id => ?_, crl, hl, hn⟩
  rw [isRevoked, hl, ← hm id]
  simp [Except.map]

theorem Good.keeps {ε α : Type} {x : Prog Issuer ε α}
    (hx : ∀ o, Ignores (Ready dataDir) (Issuer.withCrl dataDir o) x) (h : r.Good json dataDir) :
    Good json dataDir ⟨(x.run r.issuer).2, r.revoked⟩ := by
  obtain ⟨hr, he⟩ := crl_of_ignores hx h.ready
  obtain ⟨crl, hs, hn, hm⟩ := h.crl
  refine ⟨hr, crl, ?_, hn, hm⟩
  rw [Stored, he]
  exact hs

theorem Good.step (h : r.Good json dataDir) (hg : r.Holds dataDir e)
    (hs : Authority.step json dataDir r e = some r') : r'.Good json dataDir := by
  obtain rfl := Option.some.inj hs
  cases e
  case join env payload =>
    have hr : revokes json dataDir r.issuer (.join env payload) = [] := rfl
    rw [hr, List.append_nil]
    exact h.keeps fun _ => ignores_join rfl
  case start start =>
    have hr : revokes json dataDir r.issuer (.start start) = [] := rfl
    rw [hr, List.append_nil]
    exact h.keeps fun _ => ignores_runAgent
  case addToCrl now nodeId revokedBy =>
    obtain ⟨crl, hst, hn, hm⟩ := h.crl
    have hrun := addToCrl_run now nodeId revokedBy h.ready hst hg
    simp only [revokes, Issuer.step]
    revert hrun
    generalize (addToCrl json dataDir now nodeId revokedBy).run r.issuer = x
    obtain ⟨res, s'⟩ := x
    rintro ⟨hr, ⟨⟨e, rfl⟩, hst'⟩ | ⟨rfl, hst'⟩⟩
    case inl =>
      rw [List.append_nil]
      exact ⟨hr, crl, hst', hn, hm⟩
    case inr =>
      refine ⟨hr, _, hst', nodup_insertCrl hn, fun id => ?_⟩
      rw [mem_insertCrl, hm, List.mem_append, List.mem_singleton]

theorem Good.enforces (h : r.Good json dataDir) (hg : r.Holds dataDir e) : r.Enforces dataDir e := by
  cases e
  case join env payload =>
    constructor
    case left =>
      intro id hid hp response s' hr
      obtain ⟨nodeId, hp', hgrants⟩ := exists_join_eq_ok.mp ⟨response, s', hr⟩
      cases hp.symm.trans hp'
      exact hg id hid hp hgrants
    case right =>
      intro _
      exact (ignores_join rfl r.issuer h.ready).2
  case addToCrl => trivial
  case start    => trivial

-- Nothing but its other gates keeps those that have been revoked from joining again.
theorem enforced (hk : hasCaKey dataDir s.files = true)
    (hn : s.files.entry (crlPlace dataDir s.files) = none)
    (g : Guarded (step json dataDir) (Holds dataDir) ⟨s, []⟩ es) :
    (∀ r, Visits (step json dataDir) ⟨s, []⟩ es r → r.Consistent json dataDir) ∧
    Guarded (step json dataDir) (Enforces dataDir) ⟨s, []⟩ es := by
  have hgood : Good json dataDir ⟨s, []⟩ := by
    refine ⟨⟨hasCerts_of_hasCaKey hk, by rw [hn]; simp⟩, [], .inl ⟨hn, rfl⟩, .nil, ?_⟩
    simp
  constructor
  case left =>
    intro r hv
    exact (g.invariant hv hgood fun _ _ _ h hg hs => h.step hg hs).consistent
  case right =>
    exact g.imp hgood (fun _ _ _ h hg hs => h.step hg hs) fun _ _ _ h hg _ => h.enforces hg

section Sample

-- The second node is revoked, and the seventh one joins with the secret.
def others : List Issuer.Event :=
  [.addToCrl "2026-01-01T00:00:00Z" 2 1, .join sampleEnv (sampleRequest "s3cret")]

theorem enforced_sample : Guarded (step RevokedNode.json "/d") (Enforces "/d") ⟨sampleIssuer, []⟩ others := by
  refine (enforced (by decide +kernel) (by decide +kernel) ?_).2
  intro r₁ h₁
  refine ⟨by intro n; simp [sampleIssuer], fun r₂ _ => ⟨?_, trivial⟩⟩
  have hr : revokes RevokedNode.json "/d" sampleIssuer (.addToCrl "2026-01-01T00:00:00Z" 2 1) = [2] := by
    decide +kernel
  have hp : Uuid.parseStr (sampleRequest "s3cret").nodeId = some 7 := by
    decide +kernel
  intro id hid hid'
  have hl : r₁.revoked = [2] := by rw [← Option.some.inj h₁, ← hr]; rfl
  rw [hl, List.mem_singleton] at hid
  exact absurd (hid.symm.trans (Option.some.inj (hid'.symm.trans hp))) (by decide)

-- Whoever has been revoked is granted a certificate all the same.
theorem enforced_fails : ¬ ∀ (json : Serde (List RevokedNode) String) (dataDir : String) (s : Issuer)
    (es : List Issuer.Event), hasCaKey dataDir s.files = true →
    s.files.entry (crlPlace dataDir s.files) = none →
    (∀ r, Visits (step json dataDir) ⟨s, []⟩ es r → r.Consistent json dataDir) ∧
    Guarded (step json dataDir) (Enforces dataDir) ⟨s, []⟩ es := by
  intro h
  obtain ⟨-, hg⟩ := h RevokedNode.json "/d" sampleIssuer
    [.addToCrl "2026-01-01T00:00:00Z" 7 1, .join sampleEnv (sampleRequest "")]
    (by decide +kernel) (by decide +kernel)
  obtain ⟨-, hg⟩ := hg _ rfl
  obtain ⟨he, -⟩ := (hg _ rfl).1
  have hr : revokes RevokedNode.json "/d" sampleIssuer (.addToCrl "2026-01-01T00:00:00Z" 7 1) = [7] := by
    decide +kernel
  have hp : Uuid.parseStr (sampleRequest "").nodeId = some 7 := by
    decide +kernel
  have hj : ((join sampleEnv (sampleRequest "")).run
      (sampleIssuer.step RevokedNode.json "/d" (.addToCrl "2026-01-01T00:00:00Z" 7 1))).1 =
      .ok ⟨"00000000-0000-0000-0000-000000000007", "key", "all4one-ca", 7776000⟩ := by
    decide +kernel
  obtain ⟨s', hj⟩ := Prog.exists_of_fst hj
  have hm : (7 : Uuid) ∈ [] ++
      revokes RevokedNode.json "/d" sampleIssuer (.addToCrl "2026-01-01T00:00:00Z" 7 1) := by
    rw [hr]
    exact List.mem_singleton_self 7
  exact he 7 hm hp _ s' hj

end Sample

end Authority

end All4One.Membership
