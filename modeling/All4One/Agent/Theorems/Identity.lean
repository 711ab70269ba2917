import All4One.Agent.Theorems.Spared

open Foundation Path Transition

namespace All4One.Agent

open All4One.Membership CertificateManager
open Prog (Keeps)

section Parse

theorem mem_hexDigits {count n : Nat} {c : Char} (h : c ∈ Uuid.hexDigits count n) :
    ∃ d : Fin 16, c = Nat.digitChar d := by
  induction count generalizing n
  case zero => cases h
  case succ count hi =>
    rw [Uuid.hexDigits, List.mem_append, List.mem_singleton] at h
    rcases h with h | rfl
    · exact hi h
    · exact ⟨⟨n % 16, Nat.mod_lt _ (by decide)⟩, rfl⟩

theorem not_isWhitespace_of_mem_toText {u : Uuid} {c : Char} (h : c ∈ u.toText.toList) :
    ¬ Text.isWhitespace c := by
  have hd (d : Fin 16) : ¬ Text.isWhitespace (Nat.digitChar d) := by
    revert d
    decide
  have hm : c ∈ Uuid.hexDigits 32 u.toNat ∨ c = '-' := by
    rw [Uuid.toText, String.toList_ofList, Uuid.hyphenate] at h
    simp only [List.mem_append, List.mem_cons] at h
    have drop {n : Nat} (h : c ∈ (Uuid.hexDigits 32 u.toNat).drop n) := List.mem_of_mem_drop h
    have take {n : Nat} (h : c ∈ ((Uuid.hexDigits 32 u.toNat).drop n).take 4) :=
      drop (List.mem_of_mem_take h)
    rcases h with ((((h | h | h) | h | h) | h | h) | h | h)
    exacts [.inl (List.mem_of_mem_take h), .inr h, .inl (take h), .inr h, .inl (take h), .inr h,
      .inl (take h), .inr h, .inl (drop h)]
  rcases hm with h | rfl
  · obtain ⟨d, rfl⟩ := mem_hexDigits h
    exact hd d
  · decide

theorem trim_toText (u : Uuid) : Text.trim u.toText = u.toText := by
  have hd : u.toText.toList.dropWhile Text.isWhitespace = u.toText.toList :=
    List.dropWhile_eq_self_iff.mpr fun hl => not_isWhitespace_of_mem_toText (List.getElem_mem hl)
  have hr : u.toText.toList.rdropWhile Text.isWhitespace = u.toText.toList :=
    List.rdropWhile_eq_self_iff.mpr fun hl => not_isWhitespace_of_mem_toText (List.getLast_mem hl)
  rw [Text.trim, hd, hr, String.ofList_toList]

theorem parseNodeId_toText (id : NodeId) : parseNodeId (.ofString id.uuid.toText) = .ok id := by
  simp only [parseNodeId, Bytes.toString?_ofString, trim_toText, Uuid.parseStr_toText]

end Parse

variable {setting : Setting} {m m' m₀ m₁ m₂ : Machine} {e : Event} {es es₁ es₂ : List Event}
  {a a₁ a₂ : Running} {dataDir : String} {s s' : Issuer} {fresh id : NodeId} {boot : Boot}

theorem isName_nodeId : IsName "node-id".toList := by
  constructor <;> decide

theorem resolve_nodeIdPath {files : Files} :
    files.resolve (nodeIdPath dataDir) = files.resolve dataDir ++ ["node-id".toList] :=
  resolve_join_name isName_nodeId

-- What is in the file of the id.
def idFile (dataDir : String) (files : Files) : Option Bytes :=
  files.content (files.resolve (nodeIdPath dataDir))

theorem idFile_of_spares {names : List String} {files files' : Files} {data : Bytes}
    (h : Files.Spares (Named names) files files') (hn : "node-id" ∈ names)
    (hf : idFile dataDir files = some data) : idFile dataDir files' = some data := by
  rw [Agent.idFile, Files.content_eq_some, resolve_nodeIdPath] at hf ⊢
  rw [Files.resolve, h.grown.cwd]
  exact h.file _ _ ⟨_, _, hn, rfl⟩ hf

-- Where a directory has been created, a name in it can be reached.
theorem leads_of_createDir {p n : String} {u : Unit}
    (h : (io (Files.createDirAll p)).run s = (.ok u, s')) (hn : IsName n.toList) :
    s'.files.Leads (join p n) := by
  simp only [io, Prod.mk.injEq] at h
  obtain ⟨hr, rfl⟩ := h
  rcases hd : (Files.createDirAll p (s.faults.headD .none)).run s.files with ⟨_ | _, files⟩
  all_goals rw [hd] at hr
  case error => cases hr
  case ok =>
    refine Files.leads_join (fun q hq => Files.createDirAll_ok hd q ?_) hn
    have hg := Files.createDirAll_grows p (s.faults.headD .none) s.files
    rw [hd] at hg
    exact hg.cwd ▸ hq

-- Where there is no file of the id yet, one is made.
theorem entry_of_not_exists {files : Files} (hl : files.Leads (nodeIdPath dataDir))
    (h : files.pathExists (nodeIdPath dataDir) = false) :
    files.entry (files.resolve (nodeIdPath dataDir)) = none := by
  rwa [Files.pathExists, Files.stat_of_leads hl, Option.isSome_eq_false_iff,
    Option.isNone_iff_eq_none] at h

-- The id of an agent is the one that its file has then. A file that is there stays as it is.
theorem nodeId_keeps {names : List String} {r : Except NodeIdFailure NodeId}
    (h : (nodeId dataDir fresh).run s = (r, s')) :
    Spares names s s' ∧ ∀ id, r = .ok id →
      ∃ data, idFile dataDir s'.files = some data ∧ parseNodeId data = .ok id := by
  rcases hd : (io (Files.createDirAll dataDir)).run s with ⟨e | _, s₁⟩
  all_goals
    have hs : Spares names s s₁ := Spares.createDir.of_eq hd
    rw [nodeId] at h
  case error =>
    rw [Prog.bind_of_error (Prog.mapErr_of_error hd)] at h
    cases h
    exact ⟨hs, fun _ h => by cases h⟩
  case ok =>
    rw [Prog.bind_of_ok (Prog.mapErr_eq_ok.mpr hd), Prog.reads_ok_bind] at h
    have hl : s₁.files.Leads (nodeIdPath dataDir) := leads_of_createDir hd isName_nodeId
    cases hp : s₁.files.pathExists (nodeIdPath dataDir)
    case true =>
      simp only [hp, if_true, Prog.reads_run, Prod.mk.injEq] at h
      obtain ⟨hr, rfl⟩ := h
      refine ⟨hs, fun id hid => ?_⟩
      rw [hid, Files.read, Files.stat_of_leads hl] at hr
      split at hr
      case h_1 => cases hr
      case h_2 data hread =>
        split at hread
        case h_2 => cases hread
        case h_1 data' he =>
          cases hread
          exact ⟨data, Files.content_eq_some.mpr he, hr⟩
    case false =>
      simp only [hp, Bool.false_eq_true, if_false] at h
      have he := entry_of_not_exists hl hp
      have hc : Spares names s₁
          ((io (Files.write (nodeIdPath dataDir) (.ofString fresh.uuid.toText))).run s₁).2 :=
        .create he
      rcases hi : (io (Files.write (nodeIdPath dataDir) (.ofString fresh.uuid.toText))).run s₁
        with ⟨e | _, s₂⟩
      all_goals rw [hi] at hc
      case error =>
        rw [Prog.bind_of_error (Prog.mapErr_of_error hi)] at h
        cases h
        exact ⟨.trans _ _ _ hs hc, fun _ h => by cases h⟩
      case ok =>
        rw [Prog.bind_of_ok (Prog.mapErr_eq_ok.mpr hi)] at h
        cases h
        refine ⟨.trans _ _ _ hs hc, fun id hid => ?_⟩
        cases hid
        refine ⟨_, ?_, parseNodeId_toText fresh⟩
        obtain ⟨-, hw, rfl⟩ := write_eq_ok.mp hi
        exact Files.content_eq_some.mpr (Files.entry_set_self (Files.replace_ne_nil hw.2))

theorem runAgent_keeps {r : Except BootFailure NodeId} (h : boot.runAgent.run s = (r, s')) :
    Spares ["node-id"] s s' ∧ ∀ id, r = .ok id →
      ∃ data, idFile boot.config.node.dataDir s'.files = some data ∧ parseNodeId data = .ok id := by
  have hr (start : Start) : Keeps (Spares ["node-id"])
      (Membership.runAgent boot.config.node.dataDir start) :=
    Spares.runAgent (by decide) (by decide) (by decide) (by decide)
  rcases hi : (nodeId boot.config.node.dataDir boot.fresh).run s with ⟨e | id, s₁⟩
  all_goals
    obtain ⟨hs, hid⟩ : Spares ["node-id"] s s₁ ∧ _ := nodeId_keeps hi
    rw [Boot.runAgent] at h
  case error =>
    rw [Prog.bind_of_error (Prog.mapErr_of_error hi)] at h
    cases h
    exact ⟨hs, fun _ h => by cases h⟩
  case ok =>
    rw [Prog.bind_of_ok (Prog.mapErr_eq_ok.mpr hi)] at h
    have hs' : Spares ["node-id"] s₁ s' :=
      (Keeps.bind Spares.trans (.mapErr (hr _)) fun _ => .pure Spares.refl).of_eq h
    refine ⟨.trans _ _ _ hs hs', fun id' hid' => ?_⟩
    subst hid'
    obtain ⟨_, _, -, hp⟩ := Prog.bind_eq_ok.mp h
    cases hp
    obtain ⟨data, hf, hparse⟩ := hid id rfl
    exact ⟨data, idFile_of_spares hs' (by decide) hf, hparse⟩

namespace Machine

-- The agent that runs has the id in the file.
def HasId (setting : Setting) (m : Machine) : Prop :=
  ∀ a, m.running = some a →
    ∃ data, idFile setting.dataDir m.disk.files = some data ∧ parseNodeId data = .ok a.nodeId

-- Requests to the storage leave alone what is not named like a shard.
theorem spares_store {α : Type} {x : Storage.Io α} {names : List String} {faults : List Fault}
    (hx : x.Keeps Storage.Spares) (hn : ∀ n ∈ names, ¬ "-shard-".toList <:+: n.toList) :
    Files.Spares (Named names) m.disk.files (m.store x faults).disk.files := by
  have h := hx ⟨m.disk, faults⟩
  exact ⟨h.grown, fun q data hq => h.file q data (noShard_of_named hn hq)⟩

-- The file of the id stays as it is, and an agent that is started has the id in it.
theorem step_id (h : m.step setting e = some m') :
    Files.Spares (Named ["node-id"]) m.disk.files m'.disk.files ∧
      ∀ a, m'.running = some a → m.running = some a ∨
        ∃ data, idFile setting.dataDir m'.disk.files = some data ∧ parseNodeId data = .ok a.nodeId := by
  have hn : ∀ n ∈ ["node-id"], ¬ "-shard-".toList <:+: n.toList := by decide
  have serves {f : Running → Machine} (hf : m.running.map f = some m')
      (hm : ∀ a, (f a).running = m.running ∧
        Files.Spares (Named ["node-id"]) m.disk.files (f a).disk.files) :
      Files.Spares (Named ["node-id"]) m.disk.files m'.disk.files ∧
        ∀ a, m'.running = some a → m.running = some a ∨
          ∃ data, idFile setting.dataDir m'.disk.files = some data ∧ parseNodeId data = .ok a.nodeId := by
    obtain ⟨a, -, rfl⟩ := Option.map_eq_some_iff.mp hf
    exact ⟨(hm a).2, fun a' ha' => .inl ((hm a).1 ▸ ha')⟩
  cases e
  case start boot faults =>
    simp only [step] at h
    split at h
    case isTrue => cases h
    case isFalse hno =>
      cases h
      simp only [not_or, not_not] at hno
      rcases hr : boot.runAgent.run (m.issuer faults) with ⟨r, s⟩
      obtain ⟨hs, hid⟩ := runAgent_keeps hr
      refine ⟨hs, fun a ha => .inr ?_⟩
      obtain ⟨id, hok, rfl⟩ := Option.map_eq_some_iff.mp ha
      cases r
      case error => cases hok
      case ok =>
        cases hok
        exact hno.2 ▸ hid _ rfl
  case stop =>
    obtain ⟨_, -, rfl⟩ := Option.map_eq_some_iff.mp h
    exact ⟨.refl _, fun _ ha => by cases ha⟩
  case put =>
    exact serves h fun _ => ⟨rfl, spares_store Storage.Spares.putObjectHandler hn⟩
  case delete =>
    exact serves h fun _ => ⟨rfl, spares_store Storage.Spares.deleteObjectHandler hn⟩
  case transfer =>
    exact serves h fun _ => ⟨rfl, spares_store Storage.Spares.transferChunk hn⟩
  case join payload now utc faults =>
    exact serves h fun _ => ⟨rfl, Spares.join (by decide) (by decide) (m.issuer faults)⟩
  case addToCrl now id id' faults =>
    exact serves h fun _ => ⟨rfl, Spares.addToCrl (by decide) (m.issuer faults)⟩

theorem HasId.step (hi : m.HasId setting) (h : m.step setting e = some m') : m'.HasId setting := by
  obtain ⟨hs, ha⟩ := step_id h
  intro a hr
  rcases ha a hr with hr | hid
  · obtain ⟨data, hf, hp⟩ := hi a hr
    exact ⟨data, idFile_of_spares hs (by decide) hf, hp⟩
  · exact hid

theorem idFile_of_run {data : Bytes} (h : run (step setting) m es = some m')
    (hf : idFile setting.dataDir m.disk.files = some data) :
    idFile setting.dataDir m'.disk.files = some data := by
  induction es generalizing m
  case nil => cases h; exact hf
  case cons e es hi =>
    obtain ⟨m₁, h₁, h⟩ := run_cons_some.mp h
    exact hi h (idFile_of_spares (step_id h₁).1 (by decide) hf)

-- A machine has one id, whatever it is asked to store, however its agents come and go, and wherever its
-- writes break off. What is in the file of the id at any time is the id of all agents after that, so
-- that there are none if it is not a whole one.
theorem identity_kept (h₀ : m₀.running = none) (h₁ : run (step setting) m₀ es₁ = some m₁)
    (h₂ : run (step setting) m₁ es₂ = some m₂) (ha₂ : m₂.running = some a₂) :
    (∀ a₁, m₁.running = some a₁ → a₂.nodeId = a₁.nodeId) ∧
      ∀ data, m₁.disk.files.content (m₁.disk.files.resolve (nodeIdPath setting.dataDir)) = some data →
        parseNodeId data = .ok a₂.nodeId := by
  have hi₁ : m₁.HasId setting :=
    Reachable.invariant ⟨es₁, h₁⟩ (fun _ ha => by rw [h₀] at ha; cases ha) fun _ _ _ hi hs => hi.step hs
  have hi₂ : m₂.HasId setting :=
    Reachable.invariant ⟨es₂, h₂⟩ hi₁ fun _ _ _ hi hs => hi.step hs
  obtain ⟨data₂, hf₂, hp₂⟩ := hi₂ a₂ ha₂
  have same {data} (hf : idFile setting.dataDir m₁.disk.files = some data) :
      parseNodeId data = .ok a₂.nodeId := by
    have := (idFile_of_run h₂ hf).symm.trans hf₂
    cases this
    exact hp₂
  refine ⟨fun a₁ ha₁ => ?_, fun data => same⟩
  obtain ⟨data₁, hf₁, hp₁⟩ := hi₁ a₁ ha₁
  exact Except.ok.inj ((same hf₁).symm.trans hp₁)

section Sample

def sampleSetting : Setting where
  dataDir     := "/d"
  crates      := .reference
  failureText := fun _ => "error"
  certText    := fun _ => "error"
  crlJson     := RevokedNode.json

-- An agent boots that would have this id if it were the first one.
def sampleBoot (fresh : NodeId) (tier : UInt8) (seeds : List String)
    (serve : Nat → String → JoinRequest → Except String JoinResponse) : Boot where
  config     := {
    node         := ⟨tier, "always", false, "/d"⟩
    roles        := ⟨true, true⟩
    security     := ⟨"shared-secret", "s3cret"⟩
    capabilities := ⟨false, none, none, false, false⟩
  }
  seeds      := seeds
  caCert     := none
  address    := ⟨"0.0.0.0", 7946, 7947, none, none, none, some "a"⟩
  version    := "0.1.9"
  cpuCores   := 1
  memoryMb   := 1
  now        := 0
  fresh      := fresh
  selfSigned := Issuer.selfSign
  serve      := serve

def sampleMachine : Machine where
  disk     := ⟨{ cwd := [], entries := ∅ }, ⟨∅⟩⟩
  cluster  := .default
  lastSeen := ∅
  running  := none

-- An agent stores an object in a bucket that leads out of its directory, and is started anew.
theorem identity_kept_sample : ∃ m₁ m₂ a₁ a₂,
    run (step sampleSetting) sampleMachine [.start (sampleBoot ⟨7⟩ 0 [] fun _ _ _ => .error "") []] =
      some m₁ ∧
    run (step sampleSetting) m₁ [.put "../../d" "node-id" (some "hot") [1] (fun _ => "now") [], .stop,
      .start (sampleBoot ⟨8⟩ 0 [] fun _ _ _ => .error "") []] = some m₂ ∧
    m₁.running = some a₁ ∧ m₂.running = some a₂ ∧ a₂.nodeId = a₁.nodeId := by
  let es₁ : List Event := [.start (sampleBoot ⟨7⟩ 0 [] fun _ _ _ => .error "") []]
  let es₂ : List Event := [.put "../../d" "node-id" (some "hot") [1] (fun _ => "now") [], .stop,
    .start (sampleBoot ⟨8⟩ 0 [] fun _ _ _ => .error "") []]
  have hr : ((run (step sampleSetting) sampleMachine es₁).bind fun m₁ =>
      (run (step sampleSetting) m₁ es₂).map fun m₂ => m₁.running.isSome && m₂.running.isSome) =
      some true := by
    decide +kernel
  obtain ⟨m₁, h₁, hr⟩ := Option.bind_eq_some_iff.mp hr
  obtain ⟨m₂, h₂, hr⟩ := Option.map_eq_some_iff.mp hr
  rw [Bool.and_eq_true, Option.isSome_iff_exists, Option.isSome_iff_exists] at hr
  obtain ⟨⟨a₁, ha₁⟩, a₂, ha₂⟩ := hr
  exact ⟨m₁, m₂, a₁, a₂, h₁, h₂, ha₁, ha₂, (identity_kept rfl h₁ h₂ ha₂).1 a₁ ha₁⟩

end Sample

end Machine

end All4One.Agent
