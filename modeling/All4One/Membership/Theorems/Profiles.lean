import All4One.Membership.Theorems.Endpoints

open Foundation Transition

namespace All4One

-- What `PeerInfo` and `JoinRequest` leave of the capabilities of a node.
def NodeCapabilities.unknown : NodeCapabilities where
  docker := false
  python := none
  java   := none
  wasm   := false
  gpuEnabled  := false
  storageNode := false

namespace Membership

-- A cluster has a node with its own tier and capabilities.
def View.Knows (view : View) (p : NodeProfile) : Prop :=
  ∃ n ∈ view.cluster.lookup p.id, n.profile.tier = p.tier ∧ n.profile.capabilities = p.capabilities

instance (view : View) (p : NodeProfile) : Decidable (view.Knows p) :=
  inferInstanceAs (Decidable (∃ n ∈ _, _ ∧ _))

section Views

open Discovery

variable {view : View} {peer : PeerInfo} {peers : List PeerInfo} {node : NodeInfo} {selfId : NodeId}
  {now : Nat} {p : NodeProfile}

theorem View.Knows.of_lookup {view' : View} (h : view.Knows p)
    (hl : ∀ n, view.cluster.lookup p.id = some n →
      ∃ n', view'.cluster.lookup p.id = some n' ∧ n'.profile = n.profile) : view'.Knows p := by
  obtain ⟨n, hn, hp⟩ := h
  obtain ⟨n', hn', he⟩ := hl n hn
  exact ⟨n', hn', he ▸ hp⟩

theorem View.Knows.mergePeer (h : view.Knows p) : (mergePeer selfId now view peer).Knows p := by
  refine h.of_lookup fun n hn => ?_
  by_cases hid : peer.nodeId? = some p.id
  case neg => exact ⟨n, (lookup_mergePeer_of_ne hid).trans hn, rfl⟩
  case pos =>
    by_cases hs : p.id = selfId
    case pos => exact ⟨n, by rw [← hs, lookup_mergePeer_self, hs] at *; exact hn, rfl⟩
    case neg => exact ⟨peer.refresh n, (lookup_mergePeer_of_eq hs hid).trans (by rw [hn]; rfl), rfl⟩

-- What is known of a node is refreshed by a list, and not replaced.
theorem View.Knows.mergePeers (h : view.Knows p) : (mergePeers selfId now peers view).Knows p := by
  change (peers.foldl (Discovery.mergePeer selfId now) view).Knows p
  induction peers generalizing view
  case nil                => exact h
  case cons peer peers hi => exact hi h.mergePeer

theorem View.Knows.upsertPeer (h : view.Knows p) (hn : node.profile.id = p.id → node.profile = p) :
    (upsertPeer node view).Knows p := by
  by_cases hid : p.id = node.profile.id
  case pos =>
    refine ⟨_, ClusterState.lookup_upsert.trans (if_pos hid), ?_⟩
    exact ⟨congrArg (·.tier) (hn hid.symm), congrArg (·.capabilities) (hn hid.symm)⟩
  case neg =>
    exact h.of_lookup fun n hl => ⟨n, ClusterState.lookup_upsert.trans ((if_neg hid).trans hl), rfl⟩

-- Of a node that was not known, a list tells the tier only.
theorem View.knows_mergePeers (hs : p.id ≠ selfId) (hl : view.cluster.lookup p.id = none)
    (hc : p.capabilities = .unknown) (hm : ∃ peer ∈ peers, peer.nodeId? = some p.id)
    (ht : ∀ peer ∈ peers, peer.nodeId? = some p.id → peer.tier = p.tier) :
    (Discovery.mergePeers selfId now peers view).Knows p := by
  change (peers.foldl (Discovery.mergePeer selfId now) view).Knows p
  induction peers generalizing view
  case nil => simp at hm
  case cons peer peers hi =>
    rw [List.forall_mem_cons] at ht
    by_cases hid : peer.nodeId? = some p.id
    case pos =>
      have hp : (Discovery.mergePeer selfId now view peer).Knows p := by
        refine ⟨peer.newNode p.id, ?_, ht.1 hid, hc.symm⟩
        exact (lookup_mergePeer_of_eq hs hid).trans (by rw [hl]; rfl)
      exact hp.mergePeers
    case neg =>
      refine hi ((lookup_mergePeer_of_ne hid).trans hl) ?_ ht.2
      exact (List.exists_mem_cons_iff ..).mp hm |>.resolve_left hid

theorem View.knows_judge {seen : HashMap NodeId Nat} (h : view.Knows p) :
    View.Knows { view with cluster := Gossip.judge selfId now seen view.cluster } p := by
  obtain ⟨n, hn, hp⟩ := h
  simp only [Knows, Gossip.judge, ClusterState.lookup_mk, ClusterState.lookup_mapNodes,
    Option.mem_def, Option.map_eq_some_iff]
  refine ⟨_, ⟨n, hn, rfl⟩, ?_⟩
  split <;> exact hp

end Views

-- An answer that has been read, or is being read.
def DiscoveryTask.HasAnswer : DiscoveryTask → Prop
  | hasNodes .. | hasNode .. => True
  | _                        => False

-- What a task has heard from a node itself is what that node is.
def DiscoveryTask.Told (p : NodeProfile) (task : DiscoveryTask) : Prop :=
  ∀ node ∈ task.node?, node.profile.id = p.id → node.profile = p

namespace Member

-- A node knows another one, or is about to know it from a list.
def Expects (p : NodeProfile) (m : Member) : Prop :=
  m.view.Knows p ∨ m.view.cluster.lookup p.id = none ∧
    ∃ peers ∈ m.discovery.peers?, ∃ peer ∈ peers, peer.nodeId? = some p.id

instance (p : NodeProfile) (m : Member) : Decidable (m.Expects p) :=
  inferInstanceAs (Decidable (_ ∨ _ ∧ ∃ peers ∈ _, _))

-- A node knows another one, or has an answer from it from which it will know it.
def Learns (p : NodeProfile) (m : Member) : Prop :=
  m.view.Knows p ∨ (∃ node ∈ m.discovery.node?, node.profile = p) ∨
    m.view.cluster.lookup p.id = none ∧ p.capabilities = .unknown ∧
      ∃ peers ∈ m.discovery.peers?, (∃ peer ∈ peers, peer.nodeId? = some p.id) ∧
        ∀ peer ∈ peers, peer.nodeId? = some p.id → peer.tier = p.tier

-- What a node hears of another one in this step does not make it forget what that one is.
structure Respects (p : NodeProfile) (m : Member) (e : Event) : Prop where
  node  : ∀ node, e = .hearNode node → node.profile.id = p.id → node.profile = p
  grant : ∀ nodeId payload, e = .grant nodeId payload → ⟨nodeId⟩ = p.id → m.Expects p →
    payload.tier.toUInt8 = p.tier ∧ p.capabilities = .unknown

variable {version : String} {m m' : Member} {e : Event} {p : NodeProfile}

theorem knows_of_learns (h : m.Learns p) (hp : m.discovery.peers? = none)
    (hn : m.discovery.node? = none) : m.view.Knows p := by
  rcases h with h | ⟨node, hnode, _⟩ | ⟨_, _, peers, hpeers, _⟩
  · exact h
  · rw [hn] at hnode; cases hnode
  · rw [hp] at hpeers; cases hpeers

theorem Step.told (h : Step version m e m') (ht : m.discovery.Told p) (hr : Respects p m e) :
    m'.discovery.Told p := by
  cases h
  case moved hn           => exact fun node h => ht node ((hn node).mp h).1
  case heardNode node _ _ _ =>
    intro _ h
    obtain rfl := Option.some.inj h
    exact hr.node node rfl
  case failed hn _        => exact fun node h => absurd (hn.symm.trans h) (by simp)
  case watched            => exact ht
  case judged             => exact ht
  case granted            => exact ht
  case markedJoined       => exact ht
  all_goals exact fun node h => absurd h (by simp [DiscoveryTask.node?])

theorem knows_grant {nodeId : Uuid} {payload : JoinRequest}
    (hr : Respects p m (.grant nodeId payload)) (he : m.Expects p)
    (h : m.view.Knows p ∨ ⟨nodeId⟩ = p.id) : (m.grant version nodeId payload).view.Knows p := by
  by_cases hid : p.id = ⟨nodeId⟩
  case pos =>
    obtain ⟨ht, hc⟩ := hr.grant nodeId payload rfl hid.symm he
    exact ⟨_, ClusterState.lookup_upsert.trans (if_pos hid), ht, hc.symm⟩
  case neg =>
    have h := h.resolve_right (Ne.symm hid)
    exact h.of_lookup fun n hl => ⟨n, ClusterState.lookup_upsert.trans ((if_neg hid).trans hl), rfl⟩

-- Once a node knows another one, it keeps to it.
theorem Step.knows (h : Step version m e m') (ht : m.discovery.Told p) (hr : Respects p m e)
    (hk : m.view.Knows p) : m'.view.Knows p := by
  cases h
  case merged      => exact hk.mergePeers
  case upserted hd => exact hk.upsertPeer (ht _ (by rw [hd]; rfl))
  case judged      => exact View.knows_judge hk
  case granted     => exact knows_grant hr (.inl hk) (.inl hk)
  all_goals exact hk

-- Until then, an answer is not lost but where it can not be read.
theorem Step.learns (h : Step version m e m') (hp : p.id ≠ m.nodeId) (ht : m.discovery.Told p)
    (hr : Respects p m e) (he : e ≠ .fail) (hl : m.Learns p) : m'.Learns p := by
  rcases hl with hk | ⟨node, hnode, rfl⟩ | ⟨hn, hc, peers, hpeers, hm, htier⟩
  case inl => exact .inl (h.knows ht hr hk)
  case inr.inl =>
    cases h
    case moved hn    => exact .inr (.inl ⟨node, (hn node).mpr ⟨hnode, hp⟩, rfl⟩)
    case upserted hd =>
      rw [hd] at hnode
      obtain rfl := Option.some.inj hnode
      exact .inl ⟨_, ClusterState.lookup_upsert.trans (if_pos rfl), rfl, rfl⟩
    case failed       => exact absurd rfl he
    case watched      => exact .inr (.inl ⟨node, hnode, rfl⟩)
    case judged       => exact .inr (.inl ⟨node, hnode, rfl⟩)
    case granted      => exact .inr (.inl ⟨node, hnode, rfl⟩)
    case markedJoined => exact .inr (.inl ⟨node, hnode, rfl⟩)
    all_goals simp [*, DiscoveryTask.node?] at hnode
  case inr.inr =>
    cases h
    case moved hq _ => exact .inr (.inr ⟨hn, hc, peers, hq.trans hpeers, hm, htier⟩)
    case merged hd    =>
      rw [hd] at hpeers
      obtain rfl := Option.some.inj hpeers
      exact .inl (View.knows_mergePeers hp hn hc hm htier)
    case failed       => exact absurd rfl he
    case watched      => exact .inr (.inr ⟨hn, hc, peers, hpeers, hm, htier⟩)
    case judged       =>
      refine .inr (.inr ⟨?_, hc, peers, hpeers, hm, htier⟩)
      exact (ClusterState.lookup_mk.trans ClusterState.lookup_mapNodes).trans (by rw [hn]; rfl)
    case granted nodeId payload =>
      by_cases hid : (⟨nodeId⟩ : NodeId) = p.id
      case pos => exact .inl (knows_grant hr (.inr ⟨hn, peers, hpeers, hm⟩) (.inr hid))
      case neg =>
        refine .inr (.inr ⟨?_, hc, peers, hpeers, hm, htier⟩)
        exact ClusterState.lookup_upsert.trans ((if_neg (Ne.symm hid)).trans hn)
    case markedJoined => exact .inr (.inr ⟨hn, hc, peers, hpeers, hm, htier⟩)
    all_goals simp [*, DiscoveryTask.peers?] at hpeers

-- A list from another node itself is one from which this node will know it.
def Introduces (peer m : Member) : Prop :=
  m.view.Knows peer.localNode.profile ∨
    m.view.cluster.lookup peer.nodeId = none ∧ peer.localNode.profile.capabilities = .unknown ∧
      ∃ n ∈ peer.view.cluster.lookup peer.nodeId, n.profile.tier = peer.localNode.profile.tier

instance (peer m : Member) : Decidable (peer.Introduces m) :=
  inferInstanceAs (Decidable (_ ∨ _ ∧ _ ∧ ∃ n ∈ _, _))

variable {peer : Member}

theorem learns_of_hear (hk : Keyed peer.view.cluster) (hi : m.discovery.AsksNodes → peer.Introduces m)
    (h : m.hear peer = some m') : m'.Learns peer.localNode.profile := by
  simp only [hear] at h
  split at h
  case h_1 hd =>
    cases h
    rcases hi (by rw [hd]; trivial) with h | ⟨hn, hc, n, hl, ht⟩
    · exact .inl h
    · refine .inr (.inr ⟨hn, hc, _, rfl, ⟨.ofNode n, ?_, ?_⟩, fun p hp hid => ?_⟩)
      · exact mem_getInternalNodes.mpr ⟨n, mem_values.mpr ⟨_, hl⟩, rfl⟩
      · exact nodeId?_ofNode.trans (congrArg _ (hk _ n hl))
      · obtain ⟨n', hl', rfl⟩ := hk.lookup_of_mem hp hid
        cases Option.some.inj (hl.symm.trans hl')
        exact ht
  case h_2 => cases h; exact .inr (.inl ⟨_, rfl, rfl⟩)
  case h_3 => cases h

theorem hasAnswer_of_hear (h : m.hear peer = some m') : m'.discovery.HasAnswer := by
  simp only [hear] at h
  split at h
  case h_1 => cases h; trivial
  case h_2 => cases h; trivial
  case h_3 => cases h

-- With an answer that it can read, a node is about to write, or has nothing to learn from it.
theorem writing_of_discover {selfId : NodeId} {time : Nat} {order : List (NodeId × String)}
    (hd : m.discovery.HasAnswer) (h : m.discover selfId time order = some m') :
    m'.discovery.IsWriting ∨ m'.discovery.peers? = none ∧ m'.discovery.node? = none := by
  cases hm : m.discovery
  case hasNodes =>
    simp only [discover, hm] at h
    cases h
    exact .inl trivial
  case hasNode =>
    simp only [discover, hm] at h
    split at h
    case isTrue  => cases h; exact .inl trivial
    case isFalse => cases h; exact .inr ⟨rfl, rfl⟩
  all_goals simp [hm, DiscoveryTask.HasAnswer] at hd

-- What has been read is written before anything else can happen to it.
theorem Step.knows_or_writing (h : Step version m e m') (ht : m.discovery.Told p)
    (hr : Respects p m e) (hp : p.id ≠ m.nodeId) (hl : m.Learns p)
    (hw : m.view.Knows p ∨ m.discovery.IsWriting) :
    m'.Learns p ∧ (m'.view.Knows p ∨ m'.discovery.IsWriting) := by
  rcases hw with hk | hw
  case inl =>
    have hk := h.knows ht hr hk
    exact ⟨.inl hk, .inl hk⟩
  case inr =>
    have written (hp : m'.discovery.peers? = none) (hn : m'.discovery.node? = none)
        (hl : m'.Learns p) : m'.Learns p ∧ (m'.view.Knows p ∨ m'.discovery.IsWriting) :=
      ⟨hl, .inl (knows_of_learns hl hp hn)⟩
    have hfail : e ≠ .fail := by
      rintro rfl
      cases h
      case failed hw' _ _ _ => exact hw' hw
    have hl := h.learns hp ht hr hfail hl
    cases h
    case moved hw' _ _  => exact absurd hw hw'
    case merged         => exact written rfl rfl hl
    case upserted       => exact written rfl rfl hl
    case marked         => exact written rfl rfl hl
    case heardNodes hd  => rw [hd] at hw; cases hw
    case heardNode hd   => rw [hd] at hw; cases hw
    case failed         => exact absurd rfl hfail
    all_goals exact ⟨hl, .inr hw⟩

end Member

namespace Network

-- A step of the discovery task of a node.
def Event.IsTask (a : NodeId) : Event → Prop
  | .discover b _ | .answer b _ | .fail b => b = a
  | _                                     => False

def Event.Boots (a : NodeId) : Event → Prop
  | .boot localNode _ => localNode.profile.id = a
  | _                 => False

-- The next step of the discovery task of a node ends its round.
def EndsRound (s : Network) (a : NodeId) : Prop :=
  ∃ m ∈ s.members.lookup a, m.discovery = .next (.known [])

instance (s : Network) (a : NodeId) : Decidable (s.EndsRound a) :=
  inferInstanceAs (Decidable (∃ m ∈ _, _))

-- A node has the tier and the capabilities of another one, and sends it shards if it stores some.
structure Learnt (a b : NodeId) (s : Network) : Prop where
  profile : ∀ m peer, s.members.lookup a = some m → s.members.lookup b = some peer →
    m.view.Knows peer.localNode.profile
  fanOut  : ∀ m peer n, s.members.lookup a = some m → s.members.lookup b = some peer →
    peer.localNode.profile.capabilities.storageNode → m.view.cluster.lookup b = some n →
    n.status = .online → n.grpcEndpoint ∈ ApiRest.fanOutPeers a m.view.cluster

-- A node is answered by another one, reads the answer, and ends the round: from then on it has the
-- profile of that one.
def LearnsProfile (net : Setting) (a b : NodeId) (es : List Event) : Prop :=
  ∀ pre wait order rest order' post s₁ s₂,
    pre ++ .answer a b :: wait ++ .discover a order :: rest ++ .discover a order' :: post <+: es →
    (∀ e ∈ wait, ¬ e.IsTask a) → (∀ e ∈ wait ++ rest ++ post, ¬ e.Boots a ∧ ¬ e.Boots b) →
    run (step net) start (pre ++ .answer a b :: wait ++ .discover a order :: rest) = some s₁ →
    s₁.EndsRound a → run (step net) s₁ (.discover a order' :: post) = some s₂ → s₂.Learnt a b

-- A node asks another one for its nodes only where it has its profile already, or can have it from a
-- list: where that one has no capabilities. A request to join in the name of one that it knows tells
-- of it what it is.
def Firsthand (a b : NodeId) (s : Network) : Event → Prop
  | .answer a' b' =>
    a' = a → b' = b → ∀ m ∈ s.members.lookup a, ∀ peer ∈ s.members.lookup b,
      m.discovery.AsksNodes → peer.Introduces m
  | .grant a' nodeId payload =>
    a' = a → ⟨nodeId⟩ = b → ∀ m ∈ s.members.lookup a, ∀ peer ∈ s.members.lookup b,
      m.Expects peer.localNode.profile →
        payload.tier.toUInt8 = peer.localNode.profile.tier ∧
        peer.localNode.profile.capabilities = .unknown
  | _ => True

instance (a b : NodeId) (s : Network) : DecidablePred (Firsthand a b s)
  | .answer _ _ => inferInstanceAs (Decidable (_ → _ → ∀ m ∈ _, ∀ peer ∈ _, _ → _))
  | .grant _ _ _ => inferInstanceAs (Decidable (_ → _ → ∀ m ∈ _, ∀ peer ∈ _, _ → _ ∧ _))
  | .boot _ _ | .tick _ | .discover _ _ | .fail _ | .detect _ | .markJoined _ _ => .isTrue trivial

section Runs

variable {net : Setting} {s s' : Network} {a b : NodeId} {m m' : Member} {e : Event}
  {p : NodeProfile} {es : List Event}

-- A node goes on to be what it was when another one was answered by it.
structure Introduced (a b : NodeId) (p : NodeProfile) (s : Network) : Prop where
  id    : p.id = b
  peer  : ∃ peer, s.members.lookup b = some peer ∧ peer.localNode.profile = p
  keyed : ∀ a m, s.members.lookup a = some m → m.nodeId = a ∧ Keyed m.view.cluster
  told  : ∀ m, s.members.lookup a = some m → m.discovery.Told p

theorem Moves.respects (h : Moves net s a m e m') (hi : s.Introduced a b p)
    (hm : s.members.lookup a = some m) (hg : Firsthand a b s e) :
    ∃ ev, Member.Step net.version m ev m' ∧ m.Respects p ev ∧ (ev = .fail → e = .fail a) := by
  obtain ⟨ev, hmeans, hst⟩ := h.means (hi.keyed a m hm).1
  refine ⟨ev, hst, ?_⟩
  cases hmeans
  case grant nodeId payload =>
    refine ⟨⟨by simp, fun _ _ he hid hx => ?_⟩, by simp⟩
    cases he
    obtain ⟨peer, hb, rfl⟩ := hi.peer
    exact hg rfl (hid.trans hi.id) m hm peer hb hx
  case hearNode b' peer hb =>
    refine ⟨⟨fun _ he hc => ?_, by simp⟩, by simp⟩
    cases he
    obtain ⟨peer', hb', rfl⟩ := hi.peer
    have hid : b' = b := ((hi.keyed b' peer hb).1.symm.trans hc).trans hi.id
    rw [hid, hb'] at hb
    cases hb
    rfl
  all_goals exact ⟨by constructor <;> simp, by simp⟩

theorem Introduced.step (h : s.Introduced a b p) (hg : Firsthand a b s e)
    (hb : ¬ e.Boots a ∧ ¬ e.Boots b) (hs : Network.step net s e = some s') : s'.Introduced a b p where
  id    := h.id
  keyed := keyed_of_step hs h.keyed
  peer := by
    obtain ⟨peer, hp, he⟩ := h.peer
    obtain ⟨peer', hp'⟩ := isSome_of_step hs hp
    refine ⟨peer', hp', ?_⟩
    rcases member_cases hs hp' with hp' | ⟨localNode, seeds, rfl, hid, -⟩ | ⟨peer₀, hp₀, hmoves⟩
    · cases hp.symm.trans hp'
      exact he
    · exact absurd hid hb.2
    · cases hp.symm.trans hp₀
      obtain ⟨ev, -, hst⟩ := hmoves.means (h.keyed b peer hp).1
      rw [hst.localNode_eq]
      exact he
  told := by
    intro m' hm'
    rcases member_cases hs hm' with hm | ⟨localNode, seeds, rfl, hid, -⟩ | ⟨m, hm, hmoves⟩
    · exact h.told m' hm
    · exact absurd hid hb.1
    · obtain ⟨ev, hst, hr, -⟩ := hmoves.respects h hm hg
      exact hst.told (h.told m hm) hr

-- What the steps of a node keep, as long as it hears nothing else of the other one, is kept as long
-- as neither restarts.
theorem Introduced.member {Q : Member → Prop} {A : Event → Prop} (h : s.Introduced a b p)
    (g : Guarded (Network.step net) (Firsthand a b) s es) (hb : ∀ e ∈ es, ¬ e.Boots a ∧ ¬ e.Boots b)
    (ha : ∀ e ∈ es, A e) (hr : run (Network.step net) s es = some s')
    (hq : ∀ m, s.members.lookup a = some m → Q m)
    (kept : ∀ s m e m' ev, s.Introduced a b p → s.members.lookup a = some m → A e → Q m →
      Moves net s a m e m' → Member.Step net.version m ev m' → m.Respects p ev →
      (ev = .fail → e = .fail a) → Q m') :
    s'.Introduced a b p ∧ ∀ m, s'.members.lookup a = some m → Q m := by
  induction es generalizing s
  case nil => cases hr; exact ⟨h, hq⟩
  case cons e es hi =>
    obtain ⟨s₁, hs, hr⟩ := run_cons_some.mp hr
    obtain ⟨hg, g⟩ := g s₁ hs
    rw [List.forall_mem_cons] at hb ha
    refine hi (h.step hg hb.1 hs) g hb.2 ha.2 hr fun m' hm' => ?_
    rcases member_cases hs hm' with hm | ⟨localNode, seeds, rfl, hid, -⟩ | ⟨m, hm, hmoves⟩
    · exact hq m' hm
    · exact absurd hid hb.1.1
    · obtain ⟨ev, hst, hr, hf⟩ := hmoves.respects h hm hg
      exact kept s m e m' ev h hm ha.1 (hq m hm) hmoves hst hr hf

theorem Introduced.learnt (h : s.Introduced a b p) (hab : a ≠ b)
    (hk : ∀ m, s.members.lookup a = some m → m.view.Knows p) : s.Learnt a b := by
  obtain ⟨peer, hb, rfl⟩ := h.peer
  constructor
  case profile =>
    intro m peer' hm hp
    cases hb.symm.trans hp
    exact hk m hm
  case fanOut =>
    intro m peer' n hm hp hs hl ho
    cases hb.symm.trans hp
    obtain ⟨n', hl', -, hc⟩ := hk m hm
    rw [h.id] at hl'
    cases hl.symm.trans hl'
    have hid : n.profile.id = b := (h.keyed a m hm).2 b n hl
    refine List.mem_map_of_mem (List.mem_filter.mpr ⟨mem_values.mpr ⟨b, hl⟩, ?_⟩)
    exact decide_eq_true ⟨by rw [hc]; exact hs, ho, hid ▸ hab.symm⟩

theorem introduced_of_answer (hab : a ≠ b) (hr : Reachable (Network.step net) start s)
    (hg : Firsthand a b s (.answer a b)) (hs : Network.step net s (.answer a b) = some s') :
    ∃ p, s'.Introduced a b p ∧
      ∀ m, s'.members.lookup a = some m → m.discovery.HasAnswer ∧ m.Learns p := by
  have hkeyed := keyed_of_reachable hr
  rcases step_cases hs with ⟨_, he, -⟩ | ⟨_, _, he, -⟩ | ⟨_, m, m', hm, hmoves, he⟩
  · cases he
  · cases he
  · cases hmoves
    case answer peer hb _ _ hh =>
      obtain ⟨hid, hk⟩ := hkeyed b peer hb
      have hm' : s'.members.lookup a = some m' := by rw [he, lookup_setMember, if_pos rfl]
      refine ⟨peer.localNode.profile, ⟨hid, ?_, keyed_of_step hs hkeyed, ?_⟩, ?_⟩
      case refine_1 => exact ⟨peer, by rw [he, lookup_setMember, if_neg hab.symm, hb], rfl⟩
      all_goals
        intro m₁ hm₁
        cases hm'.symm.trans hm₁
      case refine_2 =>
        simp only [Member.hear] at hh
        split at hh
        case h_1 => cases hh; simp [DiscoveryTask.Told, DiscoveryTask.node?]
        case h_2 => cases hh; simp [DiscoveryTask.Told, DiscoveryTask.node?]
        case h_3 => cases hh
      case refine_3 =>
        exact ⟨Member.hasAnswer_of_hear hh, Member.learns_of_hear hk (hg rfl rfl m hm peer hb) hh⟩

theorem Introduced.ne (h : s.Introduced a b p) (hab : a ≠ b) (hm : s.members.lookup a = some m) :
    p.id ≠ m.nodeId := by
  rw [h.id, (h.keyed a m hm).1]
  exact hab.symm

theorem Moves.discovery_eq (h : Moves net s a m e m') (he : ¬ e.IsTask a) :
    m'.discovery = m.discovery := by
  cases h
  case discover => exact absurd rfl he
  case answer   => exact absurd rfl he
  case fail     => exact absurd rfl he
  case grant    => rfl
  case markJoined hk =>
    obtain ⟨id, _, rfl⟩ := Option.map_eq_some_iff.mp hk
    rfl
  case detect hd =>
    simp only [Member.detect] at hd
    split at hd
    case h_1 => split at hd <;> cases hd; rfl
    case h_2 => cases hd; rfl
    case h_3 => cases hd; rfl

-- An answer is kept until the node reads it.
theorem Introduced.waits (h : s.Introduced a b p) (hab : a ≠ b)
    (g : Guarded (Network.step net) (Firsthand a b) s es) (hb : ∀ e ∈ es, ¬ e.Boots a ∧ ¬ e.Boots b)
    (he : ∀ e ∈ es, ¬ e.IsTask a) (hr : run (Network.step net) s es = some s')
    (hq : ∀ m, s.members.lookup a = some m → m.discovery.HasAnswer ∧ m.Learns p) :
    s'.Introduced a b p ∧
      ∀ m, s'.members.lookup a = some m → m.discovery.HasAnswer ∧ m.Learns p := by
  refine h.member g hb he hr hq fun s m e m' ev h hm he ⟨ha, hl⟩ hmoves hst hr hf => ⟨?_, ?_⟩
  case refine_1 => rw [hmoves.discovery_eq he]; exact ha
  case refine_2 =>
    refine hst.learns (h.ne hab hm) (h.told m hm) hr (fun hev => he ?_) hl
    rw [hf hev]
    rfl

theorem Introduced.reads {order : List (NodeId × String)} (h : s.Introduced a b p) (hab : a ≠ b)
    (hg : Firsthand a b s (.discover a order))
    (hq : ∀ m, s.members.lookup a = some m → m.discovery.HasAnswer ∧ m.Learns p)
    (hs : Network.step net s (.discover a order) = some s') :
    s'.Introduced a b p ∧ ∀ m, s'.members.lookup a = some m →
      m.Learns p ∧ (m.view.Knows p ∨ m.discovery.IsWriting) := by
  refine ⟨h.step hg ⟨not_false, not_false⟩ hs, fun m' hm' => ?_⟩
  rcases step_cases hs with ⟨_, he, -⟩ | ⟨_, _, he, -⟩ | ⟨_, m, m₁, hm, hmoves, rfl⟩
  · cases he
  · cases he
  · have hd := hmoves
    cases hmoves
    case discover hd' =>
      obtain ⟨ev, hst, hr, hf⟩ := hd.respects h hm hg
      rw [lookup_setMember, if_pos rfl] at hm'
      cases hm'
      obtain ⟨ha, hl⟩ := hq m hm
      have hl := hst.learns (h.ne hab hm) (h.told m hm) hr (fun hev => nomatch hf hev) hl
      rcases Member.writing_of_discover ha hd' with hw | ⟨hp, hn⟩
      · exact ⟨hl, .inr hw⟩
      · exact ⟨hl, .inl (Member.knows_of_learns hl hp hn)⟩

theorem Introduced.writes (h : s.Introduced a b p) (hab : a ≠ b)
    (g : Guarded (Network.step net) (Firsthand a b) s es) (hb : ∀ e ∈ es, ¬ e.Boots a ∧ ¬ e.Boots b)
    (hr : run (Network.step net) s es = some s')
    (hq : ∀ m, s.members.lookup a = some m →
      m.Learns p ∧ (m.view.Knows p ∨ m.discovery.IsWriting)) :
    s'.Introduced a b p ∧ ∀ m, s'.members.lookup a = some m →
      m.Learns p ∧ (m.view.Knows p ∨ m.discovery.IsWriting) :=
  h.member (A := fun _ => True) g hb (fun _ _ => trivial) hr hq
    fun _ m _ _ _ h hm _ ⟨hl, hw⟩ _ hst hr _ =>
      hst.knows_or_writing (h.told m hm) hr (h.ne hab hm) hl hw

theorem Introduced.knows (h : s.Introduced a b p)
    (g : Guarded (Network.step net) (Firsthand a b) s es) (hb : ∀ e ∈ es, ¬ e.Boots a ∧ ¬ e.Boots b)
    (hr : run (Network.step net) s es = some s')
    (hq : ∀ m, s.members.lookup a = some m → m.view.Knows p) :
    s'.Introduced a b p ∧ ∀ m, s'.members.lookup a = some m → m.view.Knows p :=
  h.member (A := fun _ => True) g hb (fun _ _ => trivial) hr hq
    fun _ m _ _ _ h hm _ hk _ hst hr _ => hst.knows (h.told m hm) hr hk

-- Where the first that a node hears of another one is what that one tells of itself, it learns the
-- profile of that one for good.
theorem learnsProfile (hab : a ≠ b) (g : Guarded (Network.step net) (Firsthand a b) start es) :
    LearnsProfile net a b es := by
  intro pre wait order rest order' post s₁ s₂ ⟨tail, hes⟩ hwait hboots hr hend hr'
  subst hes
  simp only [List.forall_mem_append] at hboots
  obtain ⟨⟨hbw, hbr⟩, hbp⟩ := hboots
  obtain ⟨g, -⟩ := guarded_append.mp g
  obtain ⟨g, gp⟩ := guarded_append.mp g
  have gp := gp s₁ hr
  obtain ⟨g, gr⟩ := guarded_append.mp g
  obtain ⟨-, gw⟩ := guarded_append.mp g
  obtain ⟨sc, hr₀, hr⟩ := Option.bind_eq_some_iff.mp (run_append.symm.trans hr)
  have gr := gr sc hr₀
  obtain ⟨sp, hrp, hr₀⟩ := Option.bind_eq_some_iff.mp (run_append.symm.trans hr₀)
  -- The answer of `b`, and what happens until `a` reads it.
  obtain ⟨sa, hsa, hr₀⟩ := run_cons_some.mp hr₀
  obtain ⟨hg, gw⟩ := gw sp hrp sa hsa
  obtain ⟨p, hi, hq⟩ := introduced_of_answer hab ⟨pre, hrp⟩ hg hsa
  obtain ⟨hi, hq⟩ := hi.waits hab gw hbw hwait hr₀ hq
  -- The rest of the round.
  obtain ⟨sd, hsd, hr⟩ := run_cons_some.mp hr
  obtain ⟨hg, gr⟩ := gr sd hsd
  obtain ⟨hi, hq⟩ := hi.reads hab hg hq hsd
  obtain ⟨hi, hq⟩ := hi.writes hab gr hbr hr hq
  -- It ends with nothing left to write.
  obtain ⟨m, hm, hd⟩ := hend
  have hk : ∀ m, s₁.members.lookup a = some m → m.view.Knows p := by
    intro m' hm'
    cases hm.symm.trans hm'
    exact Member.knows_of_learns (hq m hm).1 (by rw [hd]; rfl) (by rw [hd]; rfl)
  have hbp : ∀ e ∈ Event.discover a order' :: post, ¬ e.Boots a ∧ ¬ e.Boots b :=
    List.forall_mem_cons.mpr ⟨⟨not_false, not_false⟩, hbp⟩
  obtain ⟨hi, hk⟩ := hi.knows gp hbp hr' hk
  exact hi.learnt hab hk

end Runs

section Sample

def storageNode : NodeInfo :=
  let n := sampleNode 2 "b"
  { n with profile.capabilities.storageNode := true }

def knows (s : Network) (a b : NodeId) : Option Bool := do
  let m ← s.members.lookup a
  let peer ← s.members.lookup b
  return decide (m.view.Knows peer.localNode.profile)

theorem Learnt.knows {s : Network} {a b : NodeId} (h : s.Learnt a b) {known : Bool}
    (hk : s.knows a b = some known) : known = true := by
  simp only [Network.knows, Option.bind_eq_bind, Option.bind_eq_some_iff, Option.pure_def,
    Option.some.injEq] at hk
  obtain ⟨m, hm, peer, hp, rfl⟩ := hk
  exact decide_eq_true (h.profile m peer hm hp)

-- The second node does not answer the first one with a list at once, and is asked for itself.
theorem learnsProfile_fallback : ∃ s, run (step sampleSetting) start
      ([.boot storageNode [], .boot (sampleNode 1 "a") ["b:7947"], .discover ⟨1⟩ [], .fail ⟨1⟩,
        .answer ⟨1⟩ ⟨2⟩, .discover ⟨1⟩ [], .discover ⟨1⟩ [], .discover ⟨1⟩ [],
        .discover ⟨1⟩ [(⟨2⟩, "b:7946")]] ++ poll ⟨1⟩ ⟨2⟩ ++ [.discover ⟨1⟩ []]) = some s ∧
      s.Learnt ⟨1⟩ ⟨2⟩ := by
  let pre : List Event :=
    [.boot storageNode [], .boot (sampleNode 1 "a") ["b:7947"], .discover ⟨1⟩ [], .fail ⟨1⟩]
  let rest : List Event :=
    [.discover ⟨1⟩ [], .discover ⟨1⟩ [], .discover ⟨1⟩ [(⟨2⟩, "b:7946")]] ++ poll ⟨1⟩ ⟨2⟩
  have hg : Guarded (step sampleSetting) (Firsthand ⟨1⟩ ⟨2⟩) start
      (pre ++ .answer ⟨1⟩ ⟨2⟩ :: [] ++ .discover ⟨1⟩ [] :: rest ++ [.discover ⟨1⟩ []]) := by
    decide +kernel
  have hr : (run (step sampleSetting) start
      (pre ++ .answer ⟨1⟩ ⟨2⟩ :: [] ++ .discover ⟨1⟩ [] :: rest)).map
        (fun s => (decide (s.EndsRound ⟨1⟩), (step sampleSetting s (.discover ⟨1⟩ [])).isSome)) =
      some (true, true) := by
    decide +kernel
  obtain ⟨s₁, hr, he⟩ := Option.map_eq_some_iff.mp hr
  obtain ⟨hend, hs⟩ := Prod.mk.inj he
  obtain ⟨s₂, hs⟩ := Option.isSome_iff_exists.mp hs
  have hs : run (step sampleSetting) s₁ [.discover ⟨1⟩ []] = some s₂ := run_of_step hs rfl
  refine ⟨s₂, run_append_of_some hr hs, ?_⟩
  refine learnsProfile (by decide) hg pre [] [] rest [] [] s₁ s₂ (List.prefix_refl _) (by simp) ?_ hr
    (of_decide_eq_true hend) hs
  simp [rest, poll, Event.Boots]

-- A list does not tell what a node is capable of, and no node is asked for itself when its list has
-- been read: a node that stores shards is never sent any.
theorem learnsProfile_fails : ¬ ∀ (net : Setting) (a b : NodeId) (es : List Event), a ≠ b →
    LearnsProfile net a b es := by
  intro h
  let pre : List Event :=
    [.boot storageNode [], .boot (sampleNode 1 "a") ["b:7947"], .discover ⟨1⟩ []]
  let rest : List Event :=
    [.discover ⟨1⟩ [], .discover ⟨1⟩ [(⟨2⟩, "b:7946")]] ++ poll ⟨1⟩ ⟨2⟩
  have hr : (run (step sampleSetting) start
      (pre ++ .answer ⟨1⟩ ⟨2⟩ :: [] ++ .discover ⟨1⟩ [] :: rest)).bind
        (fun s => (step sampleSetting s (.discover ⟨1⟩ [])).map fun s' =>
          (decide (s.EndsRound ⟨1⟩), s'.knows ⟨1⟩ ⟨2⟩)) =
      some (true, some false) := by
    decide +kernel
  obtain ⟨s₁, hr, he⟩ := Option.bind_eq_some_iff.mp hr
  obtain ⟨s₂, hs, he⟩ := Option.map_eq_some_iff.mp he
  obtain ⟨hend, hk⟩ := Prod.mk.inj he
  have hs : run (step sampleSetting) s₁ [.discover ⟨1⟩ []] = some s₂ := run_of_step hs rfl
  have hl := h sampleSetting ⟨1⟩ ⟨2⟩ _ (by decide) pre [] [] rest [] [] s₁ s₂ (List.prefix_refl _)
    (by simp) (by simp [rest, poll, Event.Boots]) hr (of_decide_eq_true hend) hs
  cases hl.knows hk

end Sample

end Network

end Membership

end All4One
