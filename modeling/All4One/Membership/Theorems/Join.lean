import All4One.Membership.Theorems.Certificates

open Foundation

namespace All4One.Membership

open Grpc (Status)
open CertificateManager (hasCaKey)

variable {env : JoinEnv} {payload : JoinRequest} {nodeId : Uuid} {s s' : Issuer} {status : Status}
  {response : JoinResponse} {security : SecurityConfig} {secret : String}

-- A request is let in only with the secret, and one that is not let in leaves no trace.
structure Gated (env : JoinEnv) (payload : JoinRequest) (s : Issuer) : Prop where
  granted : ∀ response s', (join env payload).run s = (.ok response, s') →
    Text.trim payload.joinSecret = Text.trim env.security.sharedSecret
  refused : ∀ status s', (join env payload).run s = (.error status, s') →
    s'.cluster = s.cluster ∧ s'.lastSeen = s.lastSeen ∧ s'.files = s.files

-- Where a request without a secret gets as far as the certificates, they can not be issued. Where the
-- CA is made anew for a request that gets so far, they can.
structure IsShut (env : JoinEnv) (payload : JoinRequest) (s : Issuer) : Prop where
  blank : ∀ nodeId, Uuid.parseStr payload.nodeId = some nodeId → hasCaKey env.dataDir s.files = true →
    Text.trim payload.joinSecret = "" → ¬ Issues env nodeId s
  whole : ∀ nodeId, Uuid.parseStr payload.nodeId = some nodeId → hasCaKey env.dataDir s.files = true →
    (Text.trim payload.joinSecret = "" ∨
      Text.trim payload.joinSecret = Text.trim env.security.sharedSecret) →
    Renews env s → Issues env nodeId s

section Secret

-- In this mode the gate is open to a blank secret and to the right one.
theorem checkSecret_ok_iff (hm : security.mode = "shared-secret")
    (hs : Text.trim security.sharedSecret ≠ "") : checkSecret security secret = .ok () ↔
    Text.trim secret = "" ∨ Text.trim secret = Text.trim security.sharedSecret := by
  by_cases hb : Text.trim secret = ""
  case pos => simp [checkSecret, hb]
  case neg =>
    by_cases he : Text.trim secret = Text.trim security.sharedSecret
    · simp [checkSecret, hm, hs, he]
    · simp [checkSecret, hm, hs, hb, he]

end Secret

section Frame

-- What the certificates have to do with is the files only.
structure SameCluster (s s' : Issuer) : Prop where
  cluster  : s'.cluster = s.cluster
  lastSeen : s'.lastSeen = s.lastSeen

theorem SameCluster.refl (s : Issuer) : SameCluster s s := ⟨rfl, rfl⟩

theorem SameCluster.trans (s₁ s₂ s₃ : Issuer) (h : SameCluster s₁ s₂) (h' : SameCluster s₂ s₃) :
    SameCluster s₁ s₃ :=
  ⟨h'.cluster.trans h.cluster, h'.lastSeen.trans h.lastSeen⟩

open Prog (Keeps)

variable {α : Type} {ε ε' : Type}

theorem keeps_io {op : Fault → Prog Files IoError Unit} :
    Keeps SameCluster (CertificateManager.io op) :=
  fun _ => ⟨rfl, rfl⟩

theorem keeps_initCa {selfSigned : List String → Except String CertifiedKey} {dataDir : String} :
    Keeps SameCluster (CertificateManager.initCa selfSigned dataDir) := by
  refine .bind .trans keeps_io fun _ => .bind .trans (.reads .refl _) fun exist => ?_
  cases exist
  case true  => exact .pure .refl
  case false =>
    refine .bind .trans (.ofExcept .refl _) fun ca => .bind .trans keeps_io fun _ => ?_
    exact .bind .trans keeps_io fun _ => keeps_io

theorem keeps_issue : Keeps SameCluster (issue env nodeId) := by
  refine .bind .trans (.mapErr keeps_initCa) fun _ => ?_
  refine .bind .trans (.mapErr (.bind .trans keeps_io fun _ => .ofExcept .refl _)) fun node => ?_
  exact .bind .trans (.mapErr (.reads .refl _)) fun ca => .pure .refl

end Frame

section Run

theorem join_of_not_parsed (hp : Uuid.parseStr payload.nodeId = none) : (join env payload).run s =
    (.error ⟨.invalidArgument, "invalid node_id in join request"⟩, s) := by
  rw [join, hp]
  rfl

theorem join_of_no_key (hp : Uuid.parseStr payload.nodeId = some nodeId)
    (hk : hasCaKey env.dataDir s.files = false) : (join env payload).run s = (.error
      ⟨.failedPrecondition, "This node is not a certificate issuer (missing CA key)"⟩, s) := by
  rw [join, hp, Prog.ofExcept_bind]
  refine Prog.bind_of_error ?_
  simp only [Prog.reads_run, hk]
  rfl

theorem join_of_checked (hp : Uuid.parseStr payload.nodeId = some nodeId)
    (hk : hasCaKey env.dataDir s.files = true) : (join env payload).run s =
    match checkSecret env.security payload.joinSecret with
    | .error status => (.error status, s)
    | .ok ()        =>
      match (issue env nodeId).run s with
      | (.error status, s')    => (.error status, s')
      | (.ok (node, ca), s') =>
        (.ok ⟨node.cert, node.keyPair, ca, env.utc + 90 * 24 * 3600⟩,
          grant env (joiningNode env.version nodeId payload) s') := by
  rw [join, hp, Prog.ofExcept_bind]
  have hr : (Prog.reads fun s : Issuer => if hasCaKey env.dataDir s.files then .ok () else
      .error (⟨.failedPrecondition,
        "This node is not a certificate issuer (missing CA key)"⟩ : Status)).run s = (.ok (), s) := by
    simp only [Prog.reads_run, hk, if_true]
  dsimp only
  rw [Prog.bind_of_ok hr, Prog.ofExcept_bind]
  cases checkSecret env.security payload.joinSecret
  case error => rfl
  case ok =>
    rcases hi : (issue env nodeId).run s with ⟨_ | ⟨node, ca⟩, s'⟩
    case error => exact Prog.bind_of_error hi
    case ok    => exact Prog.bind_of_ok hi

end Run

theorem gated_of_refused (hr : (join env payload).run s = (.error status, s'))
    (hf : s'.cluster = s.cluster ∧ s'.lastSeen = s.lastSeen ∧ s'.files = s.files) :
    Gated env payload s where
  granted _ _ hr'   := nomatch hr.symm.trans hr'
  refused status' s₁ hr' := by
    cases hr.symm.trans hr'
    exact hf

-- The gate keeps out those that do not have the secret exactly where it is shut to those that give
-- none.
theorem gated_iff (hm : env.security.mode = "shared-secret")
    (hs : Text.trim env.security.sharedSecret ≠ "") : Gated env payload s ↔ IsShut env payload s := by
  constructor
  case mp =>
    intro h
    constructor
    case blank =>
      intro nodeId hp hk hb hi
      have ⟨⟨node, ca⟩, s', hi⟩ := (exists_issue_eq_ok hk).mpr hi
      have hc := (checkSecret_ok_iff hm hs).mpr (.inl hb)
      have hr := join_of_checked hp hk
      rw [hc, hi] at hr
      exact hs (h.granted _ _ hr ▸ hb)
    case whole =>
      intro nodeId hp hk hsec hn
      rcases hi : (issue env nodeId).run s with ⟨_ | r, s'⟩
      case ok => exact (exists_issue_eq_ok hk).mp ⟨r, s', hi⟩
      case error =>
        have hc := (checkSecret_ok_iff hm hs).mpr hsec
        have hr := join_of_checked hp hk
        rw [hc, hi] at hr
        have hf := (h.refused _ _ hr).2.2
        have hf' : ((issue env nodeId).run s).2.files = s.files := by rw [hi, hf]
        exact absurd hn ((issue_files_iff hk).mp hf')
  case mpr =>
    intro h
    cases hp : Uuid.parseStr payload.nodeId
    case none => exact gated_of_refused (join_of_not_parsed hp) ⟨rfl, rfl, rfl⟩
    case some nodeId =>
      cases hk : hasCaKey env.dataDir s.files
      case false => exact gated_of_refused (join_of_no_key hp hk) ⟨rfl, rfl, rfl⟩
      case true =>
        have hr := join_of_checked hp hk
        cases hc : checkSecret env.security payload.joinSecret
        case error => rw [hc] at hr; exact gated_of_refused hr ⟨rfl, rfl, rfl⟩
        case ok =>
          have hsec := (checkSecret_ok_iff hm hs).mp hc
          have hframe : SameCluster s ((issue env nodeId).run s).2 := keeps_issue s
          rcases hi : (issue env nodeId).run s with ⟨_ | ⟨node, ca⟩, s'⟩
          case error =>
            rw [hc, hi] at hr
            rw [hi] at hframe
            have hf : ((issue env nodeId).run s).2.files = s.files := by
              refine (issue_files_iff hk).mpr fun hn => ?_
              have ⟨_, _, hi'⟩ := (exists_issue_eq_ok hk).mpr (h.whole nodeId hp hk hsec hn)
              cases hi.symm.trans hi'
            rw [hi] at hf
            exact gated_of_refused hr ⟨hframe.cluster, hframe.lastSeen, hf⟩
          case ok =>
            rw [hc, hi] at hr
            have hne := fun hb => h.blank nodeId hp hk hb ((exists_issue_eq_ok hk).mp ⟨_, _, hi⟩)
            constructor
            · exact fun _ _ _ => hsec.resolve_left hne
            · exact fun _ _ hr' => nomatch hr.symm.trans hr'

section Sample

def sampleEnv : JoinEnv where
  dataDir    := "/d"
  security   := ⟨"shared-secret", "s3cret"⟩
  selfSigned := fun names => .ok ⟨String.join names, "key"⟩
  text       := fun _ => "error"
  version    := "0.1.9"
  now        := 0
  utc        := 0

def sampleRequest (joinSecret : String) : JoinRequest where
  nodeId       := "00000000-0000-0000-0000-000000000007"
  joinSecret   := joinSecret
  tier         := 1
  grpcEndpoint := "b:7947"
  restEndpoint := "b:7946"

def sampleIssuer : Issuer where
  files.cwd     := []
  files.entries := (((Finmap.singleton ["d".toList] Entry.dir).insert
    ["d".toList, "certs".toList] .dir).insert
    ["d".toList, "certs".toList, "ca.key".toList] (.file (.ofString "key"))).insert
    ["d".toList, "certs".toList, "ca.crt".toList] (.file (.ofString "all4one-ca"))
  faults        := []
  cluster       := .default
  lastSeen      := ∅

theorem gated_sample : Gated sampleEnv (sampleRequest " s3cret ") sampleIssuer := by
  have hs : Text.trim sampleEnv.security.sharedSecret ≠ "" := by decide +kernel
  refine (gated_iff rfl hs).mpr ⟨?_, ?_⟩
  case refine_1 =>
    intro nodeId _ _ hb
    exact absurd hb (by decide +kernel)
  case refine_2 =>
    intro nodeId _ _ _ hr
    have hc : sampleIssuer.files.pathExists (CertificateManager.caCrtPath sampleEnv.dataDir) = true := by
      decide +kernel
    exact nomatch hc.symm.trans hr.lost

theorem join_blank_sample : ((join sampleEnv (sampleRequest "")).run sampleIssuer).1 =
    .ok ⟨"00000000-0000-0000-0000-000000000007", "key", "all4one-ca", 7776000⟩ := by
  decide +kernel

-- A request that gives no secret is let in.
theorem gated_fails : sampleEnv.security.mode = "shared-secret" ∧
    Text.trim sampleEnv.security.sharedSecret ≠ "" ∧
    ¬ Gated sampleEnv (sampleRequest "") sampleIssuer := by
  refine ⟨rfl, by decide +kernel, fun h => ?_⟩
  have ⟨s', hr⟩ := Prog.exists_of_fst join_blank_sample
  have he := h.granted _ _ hr
  revert he
  decide +kernel

end Sample

end All4One.Membership
