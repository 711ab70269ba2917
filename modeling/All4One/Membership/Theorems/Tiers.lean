import All4One.Membership.Config
import All4One.Membership.Theorems.Agent

open Foundation Transition

namespace All4One

-- The profile of a node is the one of a configuration that `load` accepts.
def NodeInfo.IsConfigured (toml : Toml.Reader) (localNode : NodeInfo) : Prop :=
  ∃ path text config cpuCores memoryMb, Config.load toml path text = .ok config ∧
    localNode.profile = config.profile localNode.profile.id cpuCores memoryMb

theorem NodeInfo.IsConfigured.tier_le {toml : Toml.Reader} {localNode : NodeInfo}
    (h : localNode.IsConfigured toml) : localNode.profile.tier ≤ 2 := by
  obtain ⟨_, _, config, _, _, hl, hp⟩ := h
  rw [hp]
  exact Config.tier_le_of_load hl

namespace Membership

def Tiered : ClusterState → Prop :=
  Entered fun _ p => p.tier ≤ 2

section Requests

variable {payload : JoinRequest} {nodeId : Uuid} {version : String}

-- Below 256, nothing is lost of a tier.
theorem toNat_tier_joiningNode (h : payload.tier ≤ 2) :
    (joiningNode version nodeId payload).profile.tier.toNat = payload.tier.toNat := by
  have h : payload.tier.toNat ≤ 2 := UInt32.le_iff_toNat_le.mp h
  change payload.tier.toUInt8.toNat = payload.tier.toNat
  rw [UInt32.toNat_toUInt8]
  omega

theorem tier_joiningNode_le (h : payload.tier ≤ 2) :
    (joiningNode version nodeId payload).profile.tier ≤ 2 := by
  rw [UInt8.le_iff_toNat_le, toNat_tier_joiningNode h]
  exact UInt32.le_iff_toNat_le.mp h

end Requests

namespace Member

-- All tiers that a node has, or has been told, are in range.
structure Tiered (m : Member) : Prop where
  localNode : m.localNode.profile.tier ≤ 2
  view      : Membership.Tiered m.view.cluster
  peers     : ∀ peers ∈ m.discovery.peers?, ∀ peer ∈ peers, peer.tier ≤ 2
  node      : ∀ node ∈ m.discovery.node?, node.profile.tier ≤ 2

-- What it is told in this step is so as well.
def TellsTiers : Event → Prop
  | .hearNodes peers => ∀ peer ∈ peers, peer.tier ≤ 2
  | .hearNode node   => node.profile.tier ≤ 2
  | .grant _ payload => payload.tier ≤ 2
  | _                => True

variable {version : String} {m m' : Member} {e : Event}

theorem Tiered.boot {time : Nat} {localNode : NodeInfo} {seeds : List String}
    (h : localNode.profile.tier ≤ 2) : Tiered (.boot time localNode seeds) where
  localNode := h
  view      := Entered.default.upsert h
  peers     := by simp [Member.boot, DiscoveryTask.peers?]
  node      := by simp [Member.boot, DiscoveryTask.node?]

theorem Step.tiered (hs : Step version m e m') (h : m.Tiered) (he : TellsTiers e) : m'.Tiered := by
  constructor
  case localNode => exact hs.localNode_eq ▸ h.localNode
  case view =>
    cases hs
    case merged hd =>
      exact h.view.mergePeers fun peer hp _ => h.peers _ (by rw [hd]; rfl) peer hp
    case upserted node _ _ hd =>
      have hn : node.profile.tier ≤ 2 := h.node node (by rw [hd]; rfl)
      exact h.view.upsert hn
    case judged      => exact h.view.judge
    case granted     => exact h.view.upsert (tier_joiningNode_le he)
    all_goals exact h.view
  case peers =>
    cases hs
    case moved hp _    => exact fun peers hm => h.peers peers (hp ▸ hm)
    case heardNodes    => rintro _ ⟨⟩; exact he
    case failed hp _ _ => simp [hp]
    case watched       => exact h.peers
    case judged        => exact h.peers
    case granted       => exact h.peers
    case markedJoined  => exact h.peers
    all_goals simp [DiscoveryTask.peers?]
  case node =>
    cases hs
    case moved hn     => exact fun node hm => h.node node ((hn node).mp hm).1
    case heardNode    => rintro _ ⟨⟩; exact he
    case failed hn _  => simp [hn]
    case watched      => exact h.node
    case judged       => exact h.node
    case granted      => exact h.node
    case markedJoined => exact h.node
    all_goals simp [DiscoveryTask.node?]

end Member

namespace Network

-- Every entry of every cluster has one of the three tiers.
def Tiered (s : Network) : Prop :=
  ∀ a m, s.members.lookup a = some m → Membership.Tiered m.view.cluster

-- The tier under which a node has entered another one.
def tier (s : Network) (a c : NodeId) : Option UInt8 := do
  let m ← s.members.lookup a
  let n ← m.view.cluster.lookup c
  return n.profile.tier

-- A request has its node entered with the tier that it announces, and one that announces none of the
-- three changes nothing.
def EntersAnnounced (net : Setting) (s : Network) : Event → Prop
  | .grant a nodeId payload => ∀ s', step net s (.grant a nodeId payload) = some s' →
    if payload.tier ≤ 2 then
      (s'.tier a ⟨nodeId⟩).map UInt8.toNat = some payload.tier.toNat
    else
      s' = s
  | _ => True

namespace Event

-- A request that is granted announces one of the three tiers.
def AnnouncesTier : Event → Prop
  | .grant _ _ payload => payload.tier ≤ 2
  | _                  => True

instance : DecidablePred AnnouncesTier
  | .grant _ _ payload => inferInstanceAs (Decidable (payload.tier ≤ 2))
  | .boot _ _ | .tick _ | .discover _ _ | .answer _ _ | .fail _ | .detect _ | .markJoined _ _ =>
    .isTrue trivial

-- A node starts with a configuration that `load` accepts.
def IsConfigured (toml : Toml.Reader) : Event → Prop
  | .boot localNode _ => localNode.IsConfigured toml
  | _                 => True

end Event

variable {net : Setting} {toml : Toml.Reader} {s s' : Network} {a : NodeId} {m m' : Member}
  {e : Event} {nodeId : Uuid} {payload : JoinRequest}

theorem Tiered.tier_le {c : NodeId} {t : UInt8} (h : s.Tiered) (ht : s.tier a c = some t) : t ≤ 2 := by
  simp only [tier, Option.bind_eq_bind, Option.bind_eq_some_iff, Option.pure_def,
    Option.some.injEq] at ht
  obtain ⟨m, hm, n, hn, rfl⟩ := ht
  exact h a m hm c n hn

-- All nodes have tiers in range only, and have been told no others.
def Bounded (s : Network) : Prop :=
  ∀ a m, s.members.lookup a = some m → m.nodeId = a ∧ m.Tiered

-- What the others answer is in range where what they know is.
theorem Means.tellsTiers {ev : Member.Event} (h : Means s a m e ev) (hs : s.Bounded)
    (he : e.AnnouncesTier) : Member.TellsTiers ev := by
  cases h
  case hearNodes b peer _ _ hb _ =>
    intro p hp
    obtain ⟨n, hn, rfl⟩ := mem_getInternalNodes.mp hp
    obtain ⟨id, hl⟩ := mem_values.mp hn
    exact (hs b peer hb).2.view id n hl
  case hearNode b peer hb => exact (hs b peer hb).2.localNode
  case grant              => exact he
  all_goals trivial

theorem Bounded.step (h : s.Bounded) (hc : e.IsConfigured toml) (he : e.AnnouncesTier)
    (hs : Network.step net s e = some s') : s'.Bounded := by
  intro a m' hm'
  rcases member_cases hs hm' with hm' | ⟨localNode, seeds, rfl, ha, rfl⟩ | ⟨m, hm, hmoves⟩
  · exact h a m' hm'
  · exact ⟨ha, .boot hc.tier_le⟩
  · obtain ⟨ha, ht⟩ := h a m hm
    obtain ⟨ev, hmeans, hst⟩ := hmoves.means ha
    exact ⟨(congrArg (·.profile.id) hst.localNode_eq).trans ha, hst.tiered ht (hmeans.tellsTiers h he)⟩

theorem Bounded.tiered (h : s.Bounded) : s.Tiered :=
  fun a m hm => (h a m hm).2.view

theorem exists_of_grant (hs : step net s (.grant a nodeId payload) = some s') :
    ∃ m, s.members.lookup a = some m ∧ s' = s.setMember a (m.grant net.version nodeId payload) := by
  rcases step_cases hs with ⟨_, he, -⟩ | ⟨_, _, he, -⟩ | ⟨b, m, m', hm, hmoves, rfl⟩
  · cases he
  · cases he
  · cases hmoves
    exact ⟨m, hm, rfl⟩

theorem tier_of_grant (hs : step net s (.grant a nodeId payload) = some s') :
    s'.tier a ⟨nodeId⟩ = some (joiningNode net.version nodeId payload).profile.tier := by
  obtain ⟨m, -, rfl⟩ := exists_of_grant hs
  simp [tier, Member.grant, ClusterState.lookup_upsert, joiningNode]

-- A request that is granted is put down as one to be marked.
theorem ne_of_grant (hs : step net s (.grant a nodeId payload) = some s') : s' ≠ s := by
  obtain ⟨m, hm, rfl⟩ := exists_of_grant hs
  intro h
  have hl := congrArg (·.members.lookup a) h
  rw [lookup_setMember, if_pos rfl, hm] at hl
  have := congrArg (·.joined.length) (Option.some.inj hl)
  simp [Member.grant] at this

theorem entersAnnounced_iff (hs : step net s e = some s') :
    EntersAnnounced net s e ↔ e.AnnouncesTier := by
  cases e
  case grant a nodeId payload =>
    simp only [EntersAnnounced, Event.AnnouncesTier, hs, Option.some.injEq, forall_eq']
    by_cases ht : payload.tier ≤ 2
    case pos =>
      rw [if_pos ht, tier_of_grant hs, Option.map_some, toNat_tier_joiningNode ht]
      exact iff_of_true rfl ht
    case neg =>
      rw [if_neg ht]
      exact iff_of_false (ne_of_grant hs) ht
  all_goals exact Iff.rfl

-- Tiers stay in range, and are entered as they are announced, in exactly the runs in which every
-- request that is granted announces one of the three.
theorem tiered_iff (net : Setting) (toml : Toml.Reader) (es : List Event)
    (hc : ∀ e ∈ es, e.IsConfigured toml) :
    ((∀ s, Visits (step net) start es s → s.Tiered) ∧
      Guarded (step net) (EntersAnnounced net) start es) ↔
    Guarded (step net) (fun _ e => e.AnnouncesTier) start es := by
  have init : start.Bounded := by simp [Bounded, start]
  constructor
  case mp =>
    rintro ⟨-, g⟩
    exact g.imp (I := fun _ => True) trivial (fun _ _ _ _ _ _ => trivial)
      fun _ _ _ _ hg hs => (entersAnnounced_iff hs).mp hg
  case mpr =>
    intro g
    have hc : Guarded (step net) (fun _ e => e.IsConfigured toml) start es :=
      .of_forall fun _ e he => hc e he
    constructor
    case left =>
      intro s hv
      exact ((g.and hc).invariant hv init fun _ _ _ h hg hs => h.step hg.2 hg.1 hs).tiered
    case right =>
      exact g.imp (I := fun _ => True) trivial (fun _ _ _ _ _ _ => trivial)
        fun _ _ _ _ hg hs => (entersAnnounced_iff hs).mpr hg

section Sample

def sampleConfig : Config where
  node         := { tier := 1, availability := "always", quorumParticipant := false, dataDir := "/d" }
  roles        := { executor := true, storage := false }
  security     := { mode := "ca", sharedSecret := "" }
  capabilities := { docker := false, java := none, python := none, wasm := false, gpuEnabled := false }

def sampleText : String :=
  "[node]\ntier = 1\navailability = \"always\"\ndata_dir = \"/d\"\n[roles]\n[network]\n[discovery]\n" ++
    "[security]\nmode = \"ca\"\n[executor]\n[capabilities]\n[logging]\n"

-- A document with the tables and the strings that `load` looks for.
def sampleReader : Toml.Reader where
  parse raw :=
    if raw = sampleText then
      .ok <| .table [
        ("node", .table [
          ("tier", .other), ("availability", .string "always"), ("data_dir", .string "/d")]),
        ("roles", .table []), ("network", .table []), ("discovery", .table []),
        ("security", .table [("mode", .string "ca")]), ("executor", .table []),
        ("capabilities", .table []), ("logging", .table [])]
    else
      .error ""
  fromStr raw := if raw = sampleText then .ok sampleConfig else .error ""

def configuredNode : NodeInfo where
  profile      := sampleConfig.profile ⟨1⟩ 4 1024
  status       := .online
  version      := "0.1.9"
  grpcEndpoint := "a:7947"
  restEndpoint := "a:7946"

theorem isConfigured_configuredNode : configuredNode.IsConfigured sampleReader := by
  refine ⟨"agent.toml", some sampleText, sampleConfig, 4, 1024, ?_, rfl⟩
  decide +kernel

def alone : Setting where
  host _   := none
  silent _ := none
  version  := "0.1.9"

def request (tier : UInt32) : JoinRequest where
  nodeId       := (2 : Uuid).toText
  joinSecret   := ""
  tier         := tier
  grpcEndpoint := "b:7947"
  restEndpoint := "b:7946"

-- A node that starts, and that another one joins.
def joins (tier : UInt32) : List Event :=
  [.boot configuredNode [], .grant ⟨1⟩ 2 (request tier), .markJoined ⟨1⟩ 0]

theorem isConfigured_joins {tier : UInt32} : ∀ e ∈ joins tier, e.IsConfigured sampleReader := by
  simp only [joins, List.forall_mem_cons]
  exact ⟨isConfigured_configuredNode, trivial, trivial, by simp⟩

theorem tiered_iff_sample : (run (step alone) start (joins 2)).isSome ∧
    (∀ s, Visits (step alone) start (joins 2) s → s.Tiered) ∧
    Guarded (step alone) (EntersAnnounced alone) start (joins 2) := by
  refine ⟨by decide +kernel, ?_⟩
  exact (tiered_iff alone sampleReader (joins 2) isConfigured_joins).mpr (by decide +kernel)

-- A tier of 258 is taken for one of 2.
example : (run (step alone) start (joins 258)).bind (·.tier ⟨1⟩ ⟨2⟩) = some 2 := by
  decide +kernel

-- One of 3 is entered as it is.
theorem tiered_fails : ¬ ∀ (net : Setting) (toml : Toml.Reader) (es : List Event),
    (∀ e ∈ es, e.IsConfigured toml) →
    (∀ s, Visits (step net) start es s → s.Tiered) ∧
    Guarded (step net) (EntersAnnounced net) start es := by
  intro h
  obtain ⟨ht, -⟩ := h alone sampleReader (joins 3) isConfigured_joins
  have htier : (run (step alone) start (joins 3)).bind (·.tier ⟨1⟩ ⟨2⟩) = some 3 := by
    decide +kernel
  obtain ⟨s, hr, htier⟩ := Option.bind_eq_some_iff.mp htier
  exact absurd ((ht s (.last hr)).tier_le htier) (by decide)

end Sample

end Network

end Membership

end All4One
