import All4One.Membership.Theorems.Dissemination

open Foundation Transition

namespace All4One

-- What `PeerInfo` and `JoinRequest` leave of a profile.
def NodeProfile.bare (id : NodeId) (tier : UInt8) : NodeProfile where
  id                := id
  tier              := tier
  availability      := ""
  quorumParticipant := false
  resources         := { cpuCores := 0, memoryMb := 0, diskMb := none }
  capabilities      := .unknown

namespace Membership

-- Of which endpoints and profiles it is said that they are those of a node.
structure Source where
  Endpoints : NodeId → String × String → Prop
  Profile   : NodeId → NodeProfile → Prop
  bare      : ∀ id p, Profile id p → Profile id (.bare id p.tier)

namespace Source

variable {src : Source} {n node : NodeInfo} {id c selfId : NodeId} {view : View}
  {peer : Discovery.PeerInfo} {peers : List Discovery.PeerInfo} {now : Nat}

structure OfNode (src : Source) (id : NodeId) (n : NodeInfo) : Prop where
  endpoints : src.Endpoints id n.endpoints
  profile   : src.Profile id n.profile

-- What a peer says of the node that it names.
structure OfPeer (src : Source) (peer : Discovery.PeerInfo) (id : NodeId) : Prop where
  endpoints : src.Endpoints id peer.endpoints
  profile   : src.Profile id (.bare id peer.tier)

def OfPeers (src : Source) (peers : List Discovery.PeerInfo) : Prop :=
  ∀ peer ∈ peers, ∀ id, peer.nodeId? = some id → src.OfPeer peer id

def OfView (src : Source) (view : View) : Prop :=
  ∀ id n, view.cluster.lookup id = some n → src.OfNode id n

theorem OfView.mergePeer (h : src.OfView view) (hp : ∀ id, peer.nodeId? = some id → src.OfPeer peer id) :
    src.OfView (Discovery.mergePeer selfId now view peer) := by
  intro c n hl
  by_cases hid : peer.nodeId? = some c
  case neg => exact h c n ((lookup_mergePeer_of_ne hid).symm.trans hl)
  case pos =>
    by_cases hc : c = selfId
    case pos => subst hc; exact h c n (lookup_mergePeer_self.symm.trans hl)
    case neg =>
      rw [lookup_mergePeer_of_eq hc hid, Option.some.injEq] at hl
      subst hl
      cases hv : view.cluster.lookup c
      case none   => exact ⟨(hp c hid).endpoints, (hp c hid).profile⟩
      case some n => exact ⟨(hp c hid).endpoints, (h c n hv).profile⟩

theorem OfView.mergePeers (h : src.OfView view) (hp : src.OfPeers peers) :
    src.OfView (Discovery.mergePeers selfId now peers view) := by
  change src.OfView (peers.foldl (Discovery.mergePeer selfId now) view)
  induction peers generalizing view
  case nil => exact h
  case cons peer peers hi =>
    rw [OfPeers, List.forall_mem_cons] at hp
    exact hi (h.mergePeer hp.1) hp.2

theorem OfView.upsert {node : NodeInfo} {lastSeen : HashMap NodeId Nat} (h : src.OfView view)
    (hn : src.OfNode node.profile.id node) : src.OfView ⟨view.cluster.upsert node, lastSeen⟩ := by
  intro c n hl
  rw [ClusterState.lookup_upsert] at hl
  split at hl
  case isTrue hc => cases hl; exact hc ▸ hn
  case isFalse   => exact h c n hl

theorem OfView.judge {seen lastSeen : HashMap NodeId Nat} (h : src.OfView view) :
    src.OfView ⟨Gossip.judge selfId now seen view.cluster, lastSeen⟩ := by
  intro c n hl
  rw [Gossip.judge, ClusterState.lookup_mk, ClusterState.lookup_mapNodes] at hl
  obtain ⟨n', hl', rfl⟩ := Option.map_eq_some_iff.mp hl
  have := h c n' hl'
  split <;> exact ⟨this.endpoints, this.profile⟩

-- A list of peers says no more than its sender knows.
theorem OfPeers.of_view (h : src.OfView view) (hk : Keyed view.cluster) :
    src.OfPeers ((ApiRest.getInternalNodes view.cluster).map Discovery.PeerInfo.ofJson) := by
  intro peer hp id hid
  obtain ⟨n, hl, rfl⟩ := hk.lookup_of_mem hp hid
  have := h id n hl
  exact ⟨this.endpoints, src.bare id _ this.profile⟩

end Source

namespace Member

variable {version : String} {m m' : Member} {e : Event} {src src' : Source}

-- All that a node knows, or has been told, comes from a source.
structure Sourced (src : Source) (m : Member) : Prop where
  localNode : src.OfNode m.nodeId m.localNode
  view      : src.OfView m.view
  peers     : ∀ peers ∈ m.discovery.peers?, src.OfPeers peers
  node      : ∀ node ∈ m.discovery.node?, src.OfNode node.profile.id node

-- So does what it is told in a step.
def Tells (version : String) (src : Source) : Event → Prop
  | .hearNodes peers      => src.OfPeers peers
  | .hearNode node        => src.OfNode node.profile.id node
  | .grant nodeId payload => src.OfNode ⟨nodeId⟩ (joiningNode version nodeId payload)
  | _                     => True

theorem Sourced.boot {time : Nat} {localNode : NodeInfo} {seeds : List String}
    (h : src.OfNode localNode.profile.id localNode) : Sourced src (.boot time localNode seeds) where
  localNode := h
  view      := by
    have hv : src.OfView ⟨.default, ∅⟩ := fun _ _ hl => by cases hl
    exact hv.upsert h
  peers     := by simp [Member.boot, DiscoveryTask.peers?]
  node      := by simp [Member.boot, DiscoveryTask.node?]

theorem Sourced.mono (h : Sourced src m) (he : ∀ id ends, src.Endpoints id ends → src'.Endpoints id ends)
    (hp : ∀ id p, src.Profile id p → src'.Profile id p) : Sourced src' m := by
  have node {id n} (h : src.OfNode id n) : src'.OfNode id n := ⟨he _ _ h.endpoints, hp _ _ h.profile⟩
  have peer {peer id} (h : src.OfPeer peer id) : src'.OfPeer peer id := ⟨he _ _ h.endpoints, hp _ _ h.profile⟩
  exact ⟨node h.localNode, fun id n hl => node (h.view id n hl),
    fun peers hm p hmem id hid => peer (h.peers peers hm p hmem id hid), fun n hm => node (h.node n hm)⟩

theorem Step.sourced (hs : Step version m e m') (h : m.Sourced src) (he : Tells version src e) :
    m'.Sourced src := by
  constructor
  case localNode =>
    have : m'.nodeId = m.nodeId := congrArg (·.profile.id) hs.localNode_eq
    rw [this, hs.localNode_eq]
    exact h.localNode
  case view =>
    cases hs
    case merged hd => exact h.view.mergePeers (h.peers _ (by rw [hd]; rfl))
    case upserted node _ _ hd =>
      have hn := h.node node (by rw [hd]; rfl)
      have hn' : src.OfNode node.profile.id { node with status := .online } :=
        ⟨hn.endpoints, hn.profile⟩
      exact h.view.upsert hn'
    case judged    => exact h.view.judge
    case granted   => exact h.view.upsert he
    all_goals exact h.view
  case peers =>
    cases hs
    case moved hp _    => exact fun peers hm => h.peers peers (hp ▸ hm)
    case heardNodes    => rintro _ ⟨⟩; exact he
    case failed hp _ _ => simp [hp]
    case watched       => exact h.peers
    case judged        => exact h.peers
    case granted       => exact h.peers
    case markedJoined  => exact h.peers
    all_goals simp [DiscoveryTask.peers?]
  case node =>
    cases hs
    case moved hn     => exact fun node hm => h.node node ((hn node).mp hm).1
    case heardNode    => rintro _ ⟨⟩; exact he
    case failed hn _  => simp [hn]
    case watched      => exact h.node
    case judged       => exact h.node
    case granted      => exact h.node
    case markedJoined => exact h.node
    all_goals simp [DiscoveryTask.node?]

end Member

namespace Network

-- Under which endpoints a node starts, or asks to join.
def Event.EndpointsOf (c : NodeId) (ends : String × String) : Event → Prop
  | .boot localNode _         => localNode.profile.id = c ∧ localNode.endpoints = ends
  | .grant _ nodeId payload   => ⟨nodeId⟩ = c ∧ payload.endpoints = ends
  | _                         => False

-- With which profile a node starts, and what others are told of it.
def Event.ProfileOf (c : NodeId) (p : NodeProfile) : Event → Prop
  | .boot localNode _ =>
    localNode.profile.id = c ∧ (p = localNode.profile ∨ p = .bare c localNode.profile.tier)
  | .grant _ nodeId payload => ⟨nodeId⟩ = c ∧ p = .bare c payload.tier.toUInt8
  | _                       => False

-- All that has been announced so far.
def announced (es : List Event) : Source where
  Endpoints c ends := ∃ e ∈ es, e.EndpointsOf c ends
  Profile c p      := ∃ e ∈ es, e.ProfileOf c p
  bare c p := by
    rintro ⟨e, he, hp⟩
    refine ⟨e, he, ?_⟩
    cases e
    case boot  => exact ⟨hp.1, .inr (by rcases hp.2 with rfl | rfl <;> rfl)⟩
    case grant => exact ⟨hp.1, by rw [hp.2]; rfl⟩
    all_goals exact hp

variable {net : Setting} {s s' : Network} {a c : NodeId} {m : Member} {n : NodeInfo} {e : Event}
  {es : List Event}

-- Every node that runs has its own id, and knows no more than has been announced.
structure Sourced (es : List Event) (s : Network) : Prop where
  keyed : ∀ a m, s.members.lookup a = some m → m.nodeId = a ∧ Keyed m.view.cluster
  known : ∀ a m, s.members.lookup a = some m → m.Sourced (announced es)

-- What has been announced stays announced.
theorem Sourced.later (h : s.Sourced es) (hm : s.members.lookup a = some m) :
    m.Sourced (announced (es ++ [e])) :=
  (h.known a m hm).mono (fun _ _ ⟨e, he, h⟩ => ⟨e, List.mem_append_left _ he, h⟩)
    fun _ _ ⟨e, he, h⟩ => ⟨e, List.mem_append_left _ he, h⟩

theorem Means.tells {ev : Member.Event} (h : Means s a m e ev) (hs : s.Sourced es) :
    Member.Tells net.version (announced (es ++ [e])) ev := by
  cases h
  case hearNodes b peer _ _ hb _ =>
    exact Source.OfPeers.of_view (hs.later hb).view (hs.keyed b peer hb).2
  case hearNode b peer hb =>
    have := (hs.later (e := .answer a b) hb).localNode
    exact this
  case grant nodeId payload =>
    have he : Event.grant a nodeId payload ∈ es ++ [.grant a nodeId payload] := by simp
    exact ⟨⟨_, he, rfl, rfl⟩, ⟨_, he, rfl, rfl⟩⟩
  all_goals trivial

theorem Sourced.step (h : s.Sourced es) (hs : step net s e = some s') : s'.Sourced (es ++ [e]) where
  keyed := keyed_of_step hs h.keyed
  known a m' hm' := by
    rcases member_cases hs hm' with hm | ⟨localNode, seeds, rfl, ha, rfl⟩ | ⟨m, hm, hmoves⟩
    · exact h.later hm
    · have he : Event.boot localNode seeds ∈ es ++ [.boot localNode seeds] := by simp
      exact .boot ⟨⟨_, he, rfl, rfl⟩, ⟨_, he, rfl, .inl rfl⟩⟩
    · have ⟨ev, hmeans, hst⟩ := hmoves.means (h.keyed a m hm).1
      exact hst.sourced (h.later hm) (hmeans.tells h)

-- There are no ghosts: whatever is known of a node, or has been answered and not yet read, and however
-- often it has been passed on, its endpoints are such as it has announced itself, and its profile is one
-- with which it has started, or says nothing of it but a tier that it has announced.
theorem all_announced (h : run (step net) start es = some s) (hm : s.members.lookup a = some m) :
    (announced es).OfView m.view ∧
    (∀ peers ∈ m.discovery.peers?, (announced es).OfPeers peers) ∧
    ∀ node ∈ m.discovery.node?, (announced es).OfNode node.profile.id node := by
  have hs : s.Sourced es := run_history (I := fun es s => s.Sourced es) h
    ⟨by simp [start], by simp [start]⟩ fun _ _ _ _ h hs => h.step hs
  have hm := hs.known a m hm
  exact ⟨hm.view, hm.peers, hm.node⟩

-- The first node hears of the third one from the second one. It has a placeholder for it once it has
-- read the list, and the list names the endpoints of the third one already while it is on its way.
theorem all_announced_sample :
    let es : List Event := [.boot (sampleNode 3 "c") [], .boot (sampleNode 2 "b") ["c:7947"],
      .boot (sampleNode 1 "a") ["b:7947"]] ++ poll ⟨2⟩ ⟨3⟩ ++ [.discover ⟨1⟩ [], .answer ⟨1⟩ ⟨2⟩]
    (∃ s m peers peer, run (step sampleSetting) start es = some s ∧ s.members.lookup ⟨1⟩ = some m ∧
      m.discovery.peers? = some peers ∧ peer ∈ peers ∧ peer.nodeId? = some ⟨3⟩ ∧
      (announced es).OfPeer peer ⟨3⟩) ∧
    ∃ s m n, run (step sampleSetting) start (es ++ [.discover ⟨1⟩ [], .discover ⟨1⟩ []]) = some s ∧
      s.members.lookup ⟨1⟩ = some m ∧ m.view.cluster.lookup ⟨3⟩ = some n ∧
      n.profile = .bare ⟨3⟩ 1 ∧
      (announced (es ++ [.discover ⟨1⟩ [], .discover ⟨1⟩ []])).OfNode ⟨3⟩ n := by
  intro es
  constructor
  case left =>
    have hr : ∃ s ∈ run (step sampleSetting) start es, ∃ m ∈ s.members.lookup ⟨1⟩,
        ∃ peers ∈ m.discovery.peers?, ∃ peer ∈ peers, peer.nodeId? = some ⟨3⟩ := by
      decide +kernel
    obtain ⟨s, hr, m, hm, peers, hp, peer, hmem, hid⟩ := hr
    exact ⟨s, m, peers, peer, hr, hm, hp, hmem, hid, (all_announced hr hm).2.1 peers hp peer hmem _ hid⟩
  case right =>
    have hr : ∃ s ∈ run (step sampleSetting) start (es ++ [.discover ⟨1⟩ [], .discover ⟨1⟩ []]),
        ∃ m ∈ s.members.lookup ⟨1⟩, ∃ n ∈ m.view.cluster.lookup ⟨3⟩, n.profile = .bare ⟨3⟩ 1 := by
      decide +kernel
    obtain ⟨s, hr, m, hm, n, hn, hp⟩ := hr
    exact ⟨s, m, n, hr, hm, hn, hp, (all_announced hr hm).1 _ n hn⟩

end Network

end Membership

end All4One
