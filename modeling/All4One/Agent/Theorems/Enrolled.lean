import All4One.Agent.Theorems.Credentials
import All4One.Membership.Theorems.Credentials

open Foundation Path Transition

namespace All4One.Agent

open All4One.Membership CertificateManager

variable {Key : Type} {pki : Pki Key} {broken : Prop} {setting : Setting} {m m' m₀ m₁ m₂ : Machine}
  {e : Event} {es es₁ es₂ : List Event} {a : Running} {dataDir : String} {files files' : Files} {s : Issuer}
  {id : NodeId} {env : JoinEnv} {payload : JoinRequest}

-- The files of an agent's certificates, and all that it is known by in the cluster.
def certNames : List String :=
  ["node.crt", "node.key", "ca.crt"]

def standing : List String :=
  "node-id" :: certNames

theorem certFile_of_spares {n : String} {data : Bytes} (h : Files.Spares (Named standing) files files')
    (hm : n ∈ standing) (hn : IsName n.toList) (hf : certFile dataDir n files = some (.file data)) :
    certFile dataDir n files' = some (.file data) := by
  rw [certFile, Files.resolve, h.grown.cwd]
  exact h.file _ _ ⟨_, n, hm, resolve_join_name hn⟩ hf

-- Where there is a certificate of the CA, a node that joins does not change the files.
theorem join_files_of_crt (h : (certFile env.dataDir "ca.crt" s.files).isSome) :
    ((join env payload).run s).2.files = s.files := by
  cases hp : Uuid.parseStr payload.nodeId
  case none => rw [join_of_not_parsed hp]
  case some nodeId =>
    cases hk : hasCaKey env.dataDir s.files
    case false => rw [join_of_no_key hp hk]
    case true =>
      have hc : s.files.pathExists (caCrtPath env.dataDir) = true :=
        (pathExists_cert (hasCerts_of_hasCaKey hk) isName_caCrt).trans h
      have hi : ((issue env nodeId).run s).2.files = s.files := by
        refine issue_files_of_initCa hk ?_
        rw [initCa_run_of_hasCaKey _ hk, if_pos hc]
        split <;> rfl
      rw [join_of_checked hp hk]
      cases checkSecret env.security payload.joinSecret
      case error => rfl
      case ok =>
        rcases hr : (issue env nodeId).run s with ⟨_ | ⟨node, ca⟩, s'⟩
        all_goals
          rw [hr] at hi
          exact hi

theorem Credentials.spares (h : Credentials broken pki dataDir id files)
    (hs : Files.Spares (Named standing) files files') : Credentials broken pki dataDir id files' := by
  obtain ⟨bundle, hi, hsaved⟩ := h
  obtain ⟨data, hl, hca⟩ := hsaved.ca
  exact ⟨bundle, hi, certFile_of_spares hs (by decide) isName_nodeCrt hsaved.crt,
    certFile_of_spares hs (by decide) isName_nodeKey hsaved.key,
    data, hl, certFile_of_spares hs (by decide) isName_caCrt hca⟩

-- What has been saved is still there.
def SameSaved (dataDir : String) (files files' : Files) : Prop :=
  ∀ n ∈ certNames, certFile dataDir n files' = certFile dataDir n files

theorem isName_of_mem {n : String} (h : n ∈ certNames) : IsName n.toList := by
  simp only [certNames, List.mem_cons, List.not_mem_nil, or_false] at h
  rcases h with rfl | rfl | rfl
  exacts [isName_nodeCrt, isName_nodeKey, isName_caCrt]

theorem Credentials.sameSaved (h : Credentials broken pki dataDir id files)
    (hs : Files.Spares (Named standing) files files') : SameSaved dataDir files files' := by
  obtain ⟨bundle, -, hsaved⟩ := h
  obtain ⟨data, -, hca⟩ := hsaved.ca
  intro n hn
  have keeps {data : Bytes} (hf : certFile dataDir n files = some (.file data)) :
      certFile dataDir n files' = certFile dataDir n files :=
    (certFile_of_spares hs (List.mem_cons_of_mem _ hn) (isName_of_mem hn) hf).trans hf.symm
  simp only [certNames, List.mem_cons, List.not_mem_nil, or_false] at hn
  rcases hn with rfl | rfl | rfl
  exacts [keeps hsaved.crt, keeps hsaved.key, keeps hca]

namespace Machine

-- The disk of a machine whose agents join: nothing has been saved yet, or what has been saved is for
-- the id of the machine, as it is when an agent runs.
structure Enrols (broken : Prop) (pki : Pki Key) (setting : Setting) (m : Machine) : Prop where
  direct  : IsDirect m.disk.files.cwd setting.dataDir
  sound   : Sound broken pki setting.dataDir m.disk.files
  running : ∀ a, m.running = some a → IdIs setting.dataDir a.nodeId m.disk.files ∧
    Credentials broken pki setting.dataDir a.nodeId m.disk.files

-- An agent that starts joins the cluster by a seed. Its writes may break off only if this is said.
def StartsJoin (broken : Prop) (pki : Pki Key) (e : Event) : Prop :=
  ∀ boot faults, e = .start boot faults → boot.Joins ∧ boot.IsServed pki ∧
    (broken ∨ ∀ fault ∈ faults, fault = .none)

-- An agent only starts where none runs.
theorem step_of_not_running (hn : m.running = none) (h : m.step setting e = some m') :
    ∃ boot faults, e = .start boot faults ∧ boot.config.node.dataDir = setting.dataDir ∧
      m' = { m.setIssuer (boot.runAgent.run (m.issuer faults)).2 with
        running := (boot.runAgent.run (m.issuer faults)).1.toOption.map (⟨·, boot⟩) } := by
  cases e
  case start boot faults =>
    simp only [step] at h
    split at h
    case isTrue => cases h
    case isFalse hs =>
      cases h
      rw [not_or, not_not] at hs
      exact ⟨boot, faults, rfl, hs.2, rfl⟩
  all_goals
    simp only [step, hn, Option.map_none] at h
    cases h

-- What an agent that runs is asked for does not touch its standing.
theorem step_spares (he : m.Enrols broken pki setting) (ha : m.running = some a)
    (h : m.step setting e = some m') : Files.Spares (Named standing) m.disk.files m'.disk.files ∧
      ∀ a', m'.running = some a' → a' = a := by
  have hn : ∀ n ∈ standing, ¬ "-shard-".toList <:+: n.toList := by decide
  cases e
  case start boot faults =>
    rw [step, if_pos (.inl (by rw [ha]; rfl))] at h
    cases h
  all_goals
    simp only [step, ha, Option.map_some, Option.some.injEq] at h
    subst h
  case stop => exact ⟨.refl _, fun _ h => by cases h⟩
  all_goals refine ⟨?_, fun a' ha' => Option.some.inj (ha'.symm.trans ha)⟩
  case put         => exact spares_store Storage.Spares.putObjectHandler hn
  case delete      => exact spares_store Storage.Spares.deleteObjectHandler hn
  case transfer    => exact spares_store Storage.Spares.transferChunk hn
  case addToCrl    => exact Spares.addToCrl (by decide) (m.issuer _)
  case join payload now utc faults =>
    obtain ⟨_, -, hs⟩ := (he.running a ha).2
    obtain ⟨_, -, hca⟩ := hs.ca
    have hf : ((join (joinEnv setting a.boot now utc) payload).run (m.issuer faults)).2.files =
        m.disk.files :=
      join_files_of_crt (by rw [joinEnv, issuer, hca]; rfl)
    rw [setIssuer, hf]
    exact .refl _

theorem Enrols.step (he : m.Enrols broken pki setting) (hj : StartsJoin broken pki e)
    (h : m.step setting e = some m') : m'.Enrols broken pki setting := by
  cases ha : m.running
  case some a =>
    obtain ⟨hs, hr⟩ := step_spares he ha h
    obtain ⟨hid, hc⟩ := he.running a ha
    have hid : IdIs setting.dataDir a.nodeId m'.disk.files := by
      obtain ⟨data, hf, hp⟩ := hid
      exact ⟨data, idFile_of_spares hs (by decide) hf, hp⟩
    refine ⟨?_, .inr ⟨a.nodeId, hid, hc.spares hs⟩, fun a' ha' => ?_⟩
    · exact hs.grown.cwd ▸ he.direct
    · exact hr a' ha' ▸ ⟨hid, hc.spares hs⟩
  case none =>
    obtain ⟨boot, faults, rfl, hd, rfl⟩ := step_of_not_running ha h
    obtain ⟨hjoin, hserved, hu⟩ := hj boot faults rfl
    have hdir : IsDirect m.disk.files.cwd boot.config.node.dataDir := hd ▸ he.direct
    obtain ⟨ok, error⟩ := Boot.runAgent_triple hdir hjoin hserved (m.issuer faults)
      ⟨rfl, hu, hd ▸ he.sound⟩
    rcases hr : boot.runAgent.run (m.issuer faults) with ⟨e | id, s'⟩
    all_goals
      obtain ⟨hs, -⟩ := runAgent_keeps hr
      have hc : s'.files.cwd = m.disk.files.cwd := hs.grown.cwd
      rw [hd] at ok error
    case error => exact ⟨hc ▸ he.direct, error e s' hr, fun _ ha => by cases ha⟩
    case ok =>
      obtain ⟨hsaved, hid⟩ := ok id s' hr
      refine ⟨hc ▸ he.direct, .inr ⟨id, hid, hsaved⟩, fun a ha => ?_⟩
      cases ha
      exact ⟨hid, hsaved⟩

-- What has been saved for an agent stays.
theorem step_credentials (he : m.Enrols broken pki setting) (hj : StartsJoin broken pki e)
    (hc : Credentials broken pki setting.dataDir id m.disk.files) (h : m.step setting e = some m') :
    Credentials broken pki setting.dataDir id m'.disk.files ∧
      SameSaved setting.dataDir m.disk.files m'.disk.files := by
  cases ha : m.running
  case some a =>
    obtain ⟨hs, -⟩ := step_spares he ha h
    exact ⟨hc.spares hs, hc.sameSaved hs⟩
  case none =>
    obtain ⟨boot, faults, rfl, hd, rfl⟩ := step_of_not_running ha h
    obtain ⟨hjoin, -⟩ := hj boot faults rfl
    have hdir : IsDirect m.disk.files.cwd boot.config.node.dataDir := hd ▸ he.direct
    obtain ⟨ok, error⟩ := Boot.runAgent_same (s := m.issuer faults) hdir hjoin (hd ▸ hc) _ (.refl _)
    rcases hr : boot.runAgent.run (m.issuer faults) with ⟨e | id, s'⟩
    all_goals rw [hd] at ok error
    case error =>
      obtain ⟨-, hf⟩ := (error e s' hr).files he.direct
      exact ⟨hc.congr hf, fun n hn => hf n (isName_of_mem hn)⟩
    case ok =>
      obtain ⟨-, hf⟩ := (ok id s' hr).files he.direct
      exact ⟨hc.congr hf, fun n hn => hf n (isName_of_mem hn)⟩

theorem enrols_of_run (he : m.Enrols broken pki setting) (hj : ∀ e ∈ es, StartsJoin broken pki e)
    (h : run (step setting) m es = some m') : m'.Enrols broken pki setting :=
  (Guarded.of_forall fun _ => hj).invariant (.last h) he fun _ _ _ he hj => he.step hj

theorem sameSaved_of_run (he : m.Enrols broken pki setting) (hj : ∀ e ∈ es, StartsJoin broken pki e)
    (hc : Credentials broken pki setting.dataDir id m.disk.files)
    (h : run (step setting) m es = some m') :
    SameSaved setting.dataDir m.disk.files m'.disk.files := by
  have hi := (Guarded.of_forall fun _ => hj).invariant (.last h) (I := fun m' =>
    (m'.Enrols broken pki setting ∧ Credentials broken pki setting.dataDir id m'.disk.files) ∧
      SameSaved setting.dataDir m.disk.files m'.disk.files) ⟨⟨he, hc⟩, fun _ _ => rfl⟩ ?kept
  case kept =>
    rintro m₁ e m₂ ⟨⟨he, hc⟩, hs⟩ hj h
    obtain ⟨hc₂, hs₂⟩ := step_credentials he hj hc h
    exact ⟨⟨he.step hj h, hc₂⟩, fun n hn => (hs₂ n hn).trans (hs n hn)⟩
  exact hi.2

-- On a machine whose agents join, an agent that runs has a certificate for its own id, with its key, and
-- the one of the CA, which is whole if no start has met with a fault. They stay on the disk as they are,
-- whatever the machine is asked to store, however its agents come and go, and wherever its writes break
-- off.
theorem credentials_kept (hd : IsDirect m₀.disk.files.cwd setting.dataDir) (h₀ : m₀.running = none)
    (hn : m₀.disk.files.entry (m₀.disk.files.resolve (caCrtPath setting.dataDir)) = none)
    (hj : ∀ e ∈ es₁ ++ es₂, StartsJoin broken pki e) (h₁ : run (step setting) m₀ es₁ = some m₁)
    (h₂ : run (step setting) m₁ es₂ = some m₂) (ha : m₁.running = some a) :
    Credentials broken pki setting.dataDir a.nodeId m₁.disk.files ∧
      SameSaved setting.dataDir m₁.disk.files m₂.disk.files := by
  have he₀ : m₀.Enrols broken pki setting := ⟨hd, .inl hn, fun _ ha => by rw [h₀] at ha; cases ha⟩
  have he₁ := enrols_of_run he₀ (fun e he => hj e (List.mem_append_left _ he)) h₁
  obtain ⟨-, hc⟩ := he₁.running a ha
  exact ⟨hc, sameSaved_of_run he₁ (fun e he => hj e (List.mem_append_right _ he)) hc h₂⟩

section Sample

-- The issuer of a cluster answers whatever it is sent.
def sampleServe (_ : Nat) (_ : String) (payload : JoinRequest) : Except String JoinResponse :=
  ((Membership.join signingEnv payload).run sampleIssuer).1.mapError (·.message)

theorem isServed_sample {fresh : NodeId} {tier : UInt8} {seeds : List String} :
    (sampleBoot fresh tier seeds sampleServe).IsServed Issuer.samplePki := by
  intro attempt endpoint payload response h
  rcases hr : (Membership.join signingEnv payload).run sampleIssuer with ⟨e | r, s'⟩
  all_goals
    have h : Except.mapError _ ((Membership.join signingEnv payload).run sampleIssuer).1 = _ := h
    rw [hr] at h
    cases h
  exact ⟨signingEnv, sampleIssuer, s', Issuer.samplePki_selfSigns, hr⟩

-- An agent enrols, stores an object that leads to its certificates, and is started anew.
theorem credentials_kept_sample : ∃ m₁ m₂ a,
    run (step sampleSetting) sampleMachine
      [.start (sampleBoot ⟨7⟩ 1 ["b:7947"] sampleServe) []] = some m₁ ∧
    run (step sampleSetting) m₁ [.put "../../d/certs" "node.crt" (some "hot") [1] (fun _ => "now") [],
      .stop, .start (sampleBoot ⟨8⟩ 1 ["b:7947"] sampleServe) []] = some m₂ ∧ m₁.running = some a ∧
    Credentials False Issuer.samplePki "/d" a.nodeId m₁.disk.files ∧
    SameSaved "/d" m₁.disk.files m₂.disk.files := by
  let es₁ : List Event := [.start (sampleBoot ⟨7⟩ 1 ["b:7947"] sampleServe) []]
  let es₂ : List Event := [.put "../../d/certs" "node.crt" (some "hot") [1] (fun _ => "now") [],
    .stop, .start (sampleBoot ⟨8⟩ 1 ["b:7947"] sampleServe) []]
  have hr : ((run (step sampleSetting) sampleMachine es₁).bind fun m₁ =>
      (run (step sampleSetting) m₁ es₂).map fun _ => m₁.running.isSome) = some true := by
    decide +kernel
  obtain ⟨m₁, h₁, hr⟩ := Option.bind_eq_some_iff.mp hr
  obtain ⟨m₂, h₂, hr⟩ := Option.map_eq_some_iff.mp hr
  obtain ⟨a, ha⟩ := Option.isSome_iff_exists.mp hr
  have hj : ∀ e ∈ es₁ ++ es₂, StartsJoin False Issuer.samplePki e := by
    intro e he boot faults hb
    subst hb
    simp only [es₁, es₂, List.cons_append, List.nil_append, List.mem_cons, List.not_mem_nil, or_false,
      reduceCtorEq, false_or, Event.start.injEq] at he
    rcases he with ⟨rfl, rfl⟩ | ⟨rfl, rfl⟩
    all_goals exact ⟨⟨by decide, by decide⟩, isServed_sample, .inr fun _ h => absurd h List.not_mem_nil⟩
  have hd : IsDirect sampleMachine.disk.files.cwd sampleSetting.dataDir := by
    unfold IsDirect
    decide +kernel
  exact ⟨m₁, m₂, a, h₁, h₂, ha, credentials_kept hd rfl rfl hj h₁ h₂ ha⟩

end Sample

end Machine

end All4One.Agent
