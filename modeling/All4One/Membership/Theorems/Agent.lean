import All4One.Membership.Agent
import All4One.Membership.Theorems.Network
import All4One.Membership.Theorems.View

open Foundation Transition

namespace All4One.Membership

namespace DiscoveryTask

-- The list of peers that a task has been answered, and not yet merged.
def peers? : DiscoveryTask → Option (List Discovery.PeerInfo)
  | hasNodes peers _ | merges peers .. => some peers
  | _                                  => none

-- The node that a task has been answered, and not yet entered.
def node? : DiscoveryTask → Option NodeInfo
  | hasNode node _ | upserts node .. => some node
  | _                                => none

-- The next step of a task writes what it has heard.
def IsWriting : DiscoveryTask → Prop
  | merges .. | upserts .. => True
  | _                      => False

-- It has nothing of its own node to write.
def SparesSelf (selfId : NodeId) : DiscoveryTask → Prop
  | upserts node .. => node.profile.id ≠ selfId
  | _               => True

end DiscoveryTask

namespace Member

-- What a step of a node does to it.
inductive Step (version : String) (m : Member) : Event → Member → Prop
  | moved {time order task} :
    ¬ m.discovery.IsWriting → task.peers? = m.discovery.peers? →
    (∀ node, task.node? = some node ↔
      m.discovery.node? = some node ∧ node.profile.id ≠ m.nodeId) →
    Step version m (.discover time order) { m with discovery := task }
  | merged {time order peers now phase} :
    m.discovery = .merges peers now phase →
    Step version m (.discover time order) { m with
      view := Discovery.mergePeers m.nodeId now peers m.view, discovery := .next phase }
  | upserted {time order node now phase} :
    m.discovery = .upserts node now phase →
    Step version m (.discover time order) { m with
      view := Discovery.upsertPeer node m.view, discovery := .marks node.profile.id now phase }
  | marked {time order id now phase} :
    m.discovery = .marks id now phase →
    Step version m (.discover time order) { m with
      view := Discovery.markHeartbeat id now m.view, discovery := .next phase }
  | heardNodes {peers address phase} :
    m.discovery = .asksNodes address phase →
    Step version m (.hearNodes peers) { m with discovery := .hasNodes peers phase }
  | heardNode {node address phase} :
    m.discovery = .asksNode address phase →
    Step version m (.hearNode node) { m with discovery := .hasNode node phase }
  | failed {task} :
    ¬ m.discovery.IsWriting → task.peers? = none → task.node? = none → task.SparesSelf m.nodeId →
    Step version m .fail { m with discovery := task }
  | watched {time task} :
    Step version m (.detect time) { m with detector := task }
  | judged {time now seen} :
    m.detector = .judges now seen →
    Step version m (.detect time) { m with
      view.cluster := Gossip.judge m.nodeId now seen m.view.cluster
      detector     := .sleeps (time + seconds 5) }
  | granted {nodeId payload} :
    Step version m (.grant nodeId payload) (m.grant version nodeId payload)
  | markedJoined {time k id} :
    Step version m (.markJoined time k) { m with
      view := Discovery.markHeartbeat id time m.view, joined := m.joined.eraseIdx k }

namespace Step

variable {version : String} {m m' : Member} {e : Event}

theorem of_discover {time order} (h : m.discover m.nodeId time order = some m') :
    Step version m (.discover time order) m' := by
  have idle {task task' : DiscoveryTask} (hd : m.discovery = task) (hw : ¬ task.IsWriting)
      (hp : task'.peers? = task.peers?) (hn : task'.node? = none)
      (hs : ∀ node, task.node? = some node → node.profile.id = m.nodeId) :
      Step version m (.discover time order) { m with discovery := task' } := by
    subst hd
    refine moved hw hp fun node => ?_
    rw [hn]
    exact iff_of_false (by simp) fun ⟨h, hne⟩ => hne (hs node h)
  have none (node : NodeInfo) (h : Option.none = some node) : node.profile.id = m.nodeId := nomatch h
  simp only [discover] at h
  split at h
  case h_1 hd => cases h; exact idle hd not_false rfl rfl none
  case h_2 hd =>
    split at h
    case isTrue  => cases h; exact idle hd not_false rfl rfl none
    case isFalse => cases h
  case h_3 hd =>
    split at h
    case isTrue  => cases h; exact idle hd not_false rfl rfl none
    case isFalse => cases h; exact idle hd not_false rfl rfl none
  case h_4 hd => cases h; exact idle hd not_false rfl rfl none
  case h_5 hd => cases h; exact idle hd not_false rfl rfl none
  case h_6 hd => cases h; exact merged hd
  case h_7 node phase hd =>
    split at h
    case isTrue hne =>
      cases h
      refine moved (by simp [hd, DiscoveryTask.IsWriting]) (by rw [hd]; rfl) fun node' => ?_
      rw [hd]
      exact ⟨fun hn => ⟨hn, Option.some.inj hn ▸ hne⟩, And.left⟩
    case isFalse hself =>
      cases h
      exact idle hd not_false rfl rfl fun node' hn => Option.some.inj hn ▸ not_not.mp hself
  case h_8 hd => cases h; exact upserted hd
  case h_9 hd => cases h; exact marked hd
  case h_10 hd =>
    split at h
    case isTrue  => cases h; exact idle hd not_false rfl rfl none
    case isFalse => cases h
  case h_11 => cases h
  case h_12 => cases h

theorem of_fail (h : m.fail = some m') : Step version m .fail m' := by
  simp only [fail] at h
  split at h
  case h_6 => cases h
  all_goals
    rename_i hd
    cases h
    exact failed (by simp [hd, DiscoveryTask.IsWriting]) rfl rfl trivial

theorem of_detect {time} (h : m.detect m.nodeId time = some m') : Step version m (.detect time) m' := by
  simp only [detect] at h
  split at h
  case h_1 =>
    split at h
    case isTrue  => cases h; exact watched
    case isFalse => cases h
  case h_2    => cases h; exact watched
  case h_3 hj => cases h; exact judged hj

theorem of_step (h : m.step version e = some m') : Step version m e m' := by
  cases e
  case discover  => exact of_discover h
  case fail      => exact of_fail h
  case detect    => exact of_detect h
  case hearNodes =>
    simp only [Member.step, hearNodes] at h
    split at h
    case h_1 hd => cases h; exact heardNodes hd
    case h_2    => cases h
  case hearNode =>
    simp only [Member.step, hearNode] at h
    split at h
    case h_1 hd => cases h; exact heardNode hd
    case h_2    => cases h
  case grant =>
    simp only [Member.step] at h
    split at h
    case isTrue  => cases h; exact granted
    case isFalse => cases h
  case markJoined =>
    obtain ⟨id, _, rfl⟩ := Option.map_eq_some_iff.mp h
    exact markedJoined

theorem keyed (h : Step version m e m') (hk : Keyed m.view.cluster) : Keyed m'.view.cluster := by
  cases h
  case merged   => exact hk.mergePeers _
  case upserted => exact hk.upsert _
  case judged   => exact hk.judge
  case granted  => exact hk.upsert _
  all_goals exact hk

theorem localNode_eq (h : Step version m e m') : m'.localNode = m.localNode := by
  cases h <;> rfl

end Step

end Member

namespace Network

variable {net : Setting} {s s' : Network} {a : NodeId} {m m' : Member} {e : Event}

-- What an event of the network is to the node that it changes: the answers of the others are what they
-- know, and what they are.
inductive Means (s : Network) (a : NodeId) (m : Member) : Event → Member.Event → Prop
  | discover {order : List (NodeId × String)} :
    Means s a m (.discover a order) (.discover s.time order)
  | hearNodes {b : NodeId} {peer : Member} {address : String} {phase : Phase} :
    s.members.lookup b = some peer → m.discovery = .asksNodes address phase →
    Means s a m (.answer a b)
      (.hearNodes ((ApiRest.getInternalNodes peer.view.cluster).map Discovery.PeerInfo.ofJson))
  | hearNode {b : NodeId} {peer : Member} : s.members.lookup b = some peer →
    Means s a m (.answer a b) (.hearNode peer.localNode)
  | fail : Means s a m (.fail a) .fail
  | detect : Means s a m (.detect a) (.detect s.time)
  | grant {nodeId : Uuid} {payload : JoinRequest} :
    Means s a m (.grant a nodeId payload) (.grant nodeId payload)
  | markJoined {k : Nat} : Means s a m (.markJoined a k) (.markJoined s.time k)

theorem Moves.means (h : Moves net s a m e m') (ha : m.nodeId = a) :
    ∃ ev, Means s a m e ev ∧ Member.Step net.version m ev m' := by
  subst ha
  cases h
  case discover hd => exact ⟨_, .discover, .of_discover hd⟩
  case fail hf     => exact ⟨_, .fail, .of_fail hf⟩
  case detect hd   => exact ⟨_, .detect, .of_detect hd⟩
  case grant       => exact ⟨_, .grant, .granted⟩
  case markJoined k hk =>
    obtain ⟨id, _, rfl⟩ := Option.map_eq_some_iff.mp hk
    exact ⟨_, .markJoined, .markedJoined⟩
  case answer b peer hb _ _ hh =>
    simp only [Member.hear] at hh
    split at hh
    case h_1 hd => cases hh; exact ⟨_, .hearNodes hb hd, .heardNodes hd⟩
    case h_2 hd => cases hh; exact ⟨_, .hearNode hb, .heardNode hd⟩
    case h_3    => cases hh

-- What holds of a node when it starts, and is kept by its steps whatever it is answered, is kept in a
-- network.
theorem invariant_of_step {I : Member → Prop}
    (boot : ∀ time localNode seeds, I (.boot time localNode seeds))
    (kept : ∀ m ev m', I m → Member.Step net.version m ev m' → I m') (h : step net s e = some s')
    (hi : ∀ a m, s.members.lookup a = some m → m.nodeId = a ∧ I m) :
    ∀ a m, s'.members.lookup a = some m → m.nodeId = a ∧ I m := by
  intro a
  refine member_of_step (P := fun _ m => m.nodeId = a ∧ I m) h (hi a) (fun _ _ _ _ h => h)
    (fun _ _ hl => ⟨hl, boot _ _ _⟩) fun m m' hm ⟨ha, hp⟩ hmoves => ?_
  obtain ⟨ev, -, hs⟩ := hmoves.means ha
  exact ⟨(congrArg (·.profile.id) hs.localNode_eq).trans ha, kept _ _ _ hp hs⟩

theorem keyed_of_step (h : step net s e = some s')
    (hk : ∀ a m, s.members.lookup a = some m → m.nodeId = a ∧ Keyed m.view.cluster) :
    ∀ a m, s'.members.lookup a = some m → m.nodeId = a ∧ Keyed m.view.cluster :=
  invariant_of_step (I := fun m => Keyed m.view.cluster)
    (fun _ localNode _ => Keyed.default.upsert localNode) (fun _ _ _ hk hs => hs.keyed hk) h hk

theorem keyed_of_reachable (h : Reachable (step net) start s) :
    ∀ a m, s.members.lookup a = some m → m.nodeId = a ∧ Keyed m.view.cluster :=
  h.invariant (by simp [start]) fun _ _ _ hk hs => keyed_of_step hs hk

end Network

namespace Member

-- What a node knows of itself is what it is, and it takes itself for online.
structure Intact (m : Member) : Prop where
  self   : m.view.cluster.lookup m.nodeId = some m.localNode
  online : m.localNode.status = .online
  keyed  : Keyed m.view.cluster

-- No other node joins under the id of this one.
def JoinsOther (version : String) (m : Member) : Event → Prop
  | .grant nodeId payload => ⟨nodeId⟩ = m.nodeId → joiningNode version nodeId payload = m.localNode
  | _                     => True

instance (version : String) (m : Member) : DecidablePred (JoinsOther version m)
  | .grant _ _ => inferInstanceAs (Decidable (_ → _ = m.localNode))
  | .discover _ _ | .hearNodes _ | .hearNode _ | .fail | .detect _ | .markJoined _ _ => .isTrue trivial

variable {version : String} {m m' : Member} {e : Event}

-- What a node takes for granted when it writes into its cluster.
structure Sound (m : Member) : Prop where
  online    : m.localNode.status = .online
  keyed     : Keyed m.view.cluster
  discovery : m.discovery.SparesSelf m.nodeId

theorem Sound.boot (time : Nat) {localNode : NodeInfo} (seeds : List String)
    (h : localNode.status = .online) : Sound (.boot time localNode seeds) where
  online    := h
  keyed     := Keyed.default.upsert localNode
  discovery := trivial

theorem Intact.boot (time : Nat) {localNode : NodeInfo} (seeds : List String)
    (h : localNode.status = .online) : Intact (.boot time localNode seeds) where
  self   := ClusterState.lookup_upsert.trans (if_pos rfl)
  online := h
  keyed  := Keyed.default.upsert localNode

theorem Sound.step (h : Sound m) (hs : Step version m e m') : Sound m' where
  online    := hs.localNode_eq ▸ h.online
  keyed     := hs.keyed h.keyed
  discovery := by
    cases hs
    case moved task _ _ hn =>
      cases task
      case upserts => exact ((hn _).mp rfl).2
      all_goals trivial
    case failed hd   => exact hd
    case watched     => exact h.discovery
    case judged      => exact h.discovery
    case granted     => exact h.discovery
    case markedJoined => exact h.discovery
    all_goals trivial

theorem Intact.iff_joinsOther (h : Intact m) (hs : Sound m) (hst : Step version m e m') :
    Intact m' ↔ JoinsOther version m e := by
  have hs' := hs.step hst
  have intact (hl : m'.view.cluster.lookup m'.nodeId = some m'.localNode) : Intact m' :=
    ⟨hl, hs'.online, hs'.keyed⟩
  cases hst
  case merged =>
    exact iff_of_true (intact (lookup_mergePeers_self.trans h.self)) trivial
  case upserted node now phase hd =>
    have hne : node.profile.id ≠ m.nodeId := by
      have := hs.discovery
      rwa [hd] at this
    refine iff_of_true (intact ?_) trivial
    exact ClusterState.lookup_upsert.trans ((if_neg (Ne.symm hne)).trans h.self)
  case judged now seen hd =>
    refine iff_of_true (intact ?_) trivial
    refine lookup_judge_self.trans ?_
    rw [h.self, Option.map_some, ← h.online]
  case granted nodeId payload =>
    have hl : (m.view.cluster.upsert (joiningNode version nodeId payload)).lookup m.nodeId = _ :=
      ClusterState.lookup_upsert
    constructor
    case mp =>
      intro h' hid
      have hl := hl.trans (if_pos hid.symm)
      exact Option.some.inj (hl.symm.trans h'.self)
    case mpr =>
      intro hj
      refine intact (hl.trans ?_)
      split
      case isTrue hid  => rw [hj hid.symm]; rfl
      case isFalse     => exact h.self
  all_goals exact iff_of_true (intact h.self) trivial

-- Whatever it hears of others, a node knows itself for what it is until another one joins under its
-- id.
theorem intact_iff (version : String) (time : Nat) (localNode : NodeInfo) (seeds : List String)
    (h : localNode.status = .online) (es : List Event) :
    (∀ m, Visits (Member.step · version) (.boot time localNode seeds) es m → m.Intact) ↔
    Guarded (Member.step · version) (JoinsOther version) (.boot time localNode seeds) es :=
  visits_iff_guarded (A := fun _ => True) (Sound.boot time seeds h) (Intact.boot time seeds h)
    (fun _ _ => trivial) (fun _ _ _ hs _ hst => hs.step (Step.of_step hst))
    fun _ _ _ hs hi _ hst => hi.iff_joinsOther hs (Step.of_step hst)

section Sample

def samplePayload (endpoint : String) : JoinRequest where
  nodeId       := (1 : Uuid).toText
  joinSecret   := ""
  tier         := 0
  grpcEndpoint := endpoint
  restEndpoint := endpoint

def sampleNode : NodeInfo :=
  joiningNode "0.1.9" 1 (samplePayload "a:7946")

-- Neither a list that names the node itself does it harm, nor a node that joins under another id, nor
-- one that joins as what the node is.
theorem intact_sample :
    let es : List Event :=
      [.discover 0 [], .hearNodes [⟨(1 : Uuid).toText, 9, "x", "x"⟩], .discover 0 [], .discover 0 [],
       .grant 2 { samplePayload "b:7946" with nodeId := (2 : Uuid).toText }, .markJoined 1 0,
       .grant 1 (samplePayload "a:7946"), .markJoined 2 0]
    ∃ m, run (Member.step · "0.1.9") (.boot 0 sampleNode ["b:7947"]) es = some m ∧
      (m.view.cluster.lookup ⟨2⟩).isSome ∧ m.Intact := by
  intro es
  have hr : ∃ m ∈ run (Member.step · "0.1.9") (.boot 0 sampleNode ["b:7947"]) es,
      (m.view.cluster.lookup ⟨2⟩).isSome := by
    decide +kernel
  obtain ⟨m, hr, hl⟩ := hr
  have g : Guarded (Member.step · "0.1.9") (JoinsOther "0.1.9") (.boot 0 sampleNode ["b:7947"]) es := by
    decide +kernel
  exact ⟨m, hr, hl, (intact_iff "0.1.9" 0 sampleNode ["b:7947"] rfl es).mpr g m (.last hr)⟩

-- Any request to join under the id of the issuer replaces what it knows of itself.
theorem intact_fails : ¬ ∀ (version : String) (time : Nat) (localNode : NodeInfo) (seeds : List String),
    localNode.status = .online → ∀ (es : List Event) (m : Member),
      Visits (Member.step · version) (.boot time localNode seeds) es m → m.Intact := by
  intro h
  let m : Member := .boot 0 sampleNode []
  have hs : m.step "0.1.9" (.grant 1 (samplePayload "b:7946")) =
      some (m.grant "0.1.9" 1 (samplePayload "b:7946")) := by
    simp only [Member.step, samplePayload, Uuid.parseStr_toText, if_true]
  have hi := h "0.1.9" 0 sampleNode [] rfl [.grant 1 (samplePayload "b:7946")] _ (.inr ⟨_, hs, rfl⟩)
  have hj := (Intact.iff_joinsOther (.boot 0 [] rfl) (.boot 0 [] rfl) (Step.of_step hs)).mp hi rfl
  exact absurd (congrArg NodeInfo.grpcEndpoint hj) (by decide)

end Sample

end Member

end All4One.Membership
