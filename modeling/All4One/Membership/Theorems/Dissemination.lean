import All4One.Membership.Theorems.Profiles

open Foundation Transition

namespace All4One.Membership

section Views

open Discovery Gossip

variable {view : View} {peer : PeerInfo} {peers : List PeerInfo} {c selfId : NodeId} {now : Nat}

-- A view lists a node.
def View.Lists (view : View) (c : NodeId) : Prop :=
  (view.cluster.lookup c).isSome

theorem View.Lists.mergePeer (h : view.Lists c) : (mergePeer selfId now view peer).Lists c := by
  by_cases hp : peer.nodeId? = some c
  case neg => exact (congrArg Option.isSome (lookup_mergePeer_of_ne hp)).trans h
  case pos =>
    by_cases hc : c = selfId
    case pos => subst hc; exact (congrArg Option.isSome lookup_mergePeer_self).trans h
    case neg => exact congrArg Option.isSome (lookup_mergePeer_of_eq hc hp)

theorem View.Lists.mergePeers (h : view.Lists c) : (mergePeers selfId now peers view).Lists c := by
  change (peers.foldl (Discovery.mergePeer selfId now) view).Lists c
  induction peers generalizing view
  case nil             => exact h
  case cons peer _ hi  => exact hi h.mergePeer

-- A list that names a node has it listed, unless it is the node that merges the list.
theorem View.lists_mergePeers (hc : c ≠ selfId) (h : ∃ peer ∈ peers, peer.nodeId? = some c) :
    (Discovery.mergePeers selfId now peers view).Lists c := by
  change (peers.foldl (Discovery.mergePeer selfId now) view).Lists c
  obtain ⟨peer, hp, hid⟩ := h
  induction peers generalizing view
  case nil => cases hp
  case cons peer' peers hi =>
    rcases List.mem_cons.mp hp with rfl | hp
    · have : (mergePeer selfId now view peer).Lists c :=
        congrArg Option.isSome (lookup_mergePeer_of_eq hc hid)
      change (Discovery.mergePeers selfId now peers _).Lists c
      exact this.mergePeers
    · exact hi hp

theorem View.Lists.upsertPeer {node : NodeInfo} (h : view.Lists c) : (upsertPeer node view).Lists c := by
  simp only [View.Lists, Discovery.upsertPeer, ClusterState.lookup_upsert]
  split
  case isTrue  => rfl
  case isFalse => exact h

theorem View.Lists.judge {seen : HashMap NodeId Nat} (h : view.Lists c) :
    View.Lists { view with cluster := judge selfId now seen view.cluster } c := by
  simpa [View.Lists, Gossip.judge] using h

end Views

namespace Member

variable {version : String} {m m' : Member} {e : Event} {c : NodeId} {known : NodeId → Prop}

-- No step of a node drops another one from its view.
theorem Step.lists (h : Step version m e m') (hl : m.view.Lists c) : m'.view.Lists c := by
  cases h
  case merged   => exact hl.mergePeers
  case upserted => exact hl.upsertPeer
  case judged   => exact hl.judge
  case granted nodeId payload =>
    simp only [View.Lists, grant, ClusterState.lookup_upsert]
    split
    case isTrue  => rfl
    case isFalse => exact hl
  all_goals exact hl

-- A node lists others, or has read a list of them that it is about to merge.
def Informed (known : NodeId → Prop) (m : Member) : Prop :=
  (∀ c, known c → m.view.Lists c) ∨
  ∃ peers, m.discovery.peers? = some peers ∧ ∀ c, known c → ∃ peer ∈ peers, peer.nodeId? = some c

theorem Step.informed (h : Step version m e m') (hi : m.Informed known) (hs : m.view.Lists m.nodeId)
    (hf : e ≠ .fail) : m'.Informed known := by
  rcases hi with hi | ⟨peers, hp, hi⟩
  · exact .inl fun c hc => h.lists (hi c hc)
  · cases h
    case moved task _ ht _ => exact .inr ⟨peers, ht.trans hp, hi⟩
    case merged hd =>
      rw [hd] at hp
      cases hp
      refine .inl fun c hc => ?_
      by_cases hself : c = m.nodeId
      case pos => subst hself; exact hs.mergePeers
      case neg => exact View.lists_mergePeers hself (hi c hc)
    case upserted hd   => rw [hd] at hp; cases hp
    case marked hd     => rw [hd] at hp; cases hp
    case heardNodes hd => rw [hd] at hp; cases hp
    case heardNode hd  => rw [hd] at hp; cases hp
    case failed        => exact absurd rfl hf
    all_goals exact .inr ⟨peers, hp, hi⟩

-- What it has read is of no use any more once the task has gone on.
theorem Informed.lists (h : m.Informed known) (hp : m.discovery.peers? = none) (hc : known c) :
    m.view.Lists c := by
  rcases h with h | ⟨_, hp', _⟩
  · exact h c hc
  · cases hp.symm.trans hp'

end Member

namespace Network

variable {net : Setting} {s s' s₁ s₂ : Network} {a b c : NodeId} {m : Member} {e : Event}
  {es : List Event} {known : NodeId → Prop}

-- A node has another one in its view.
def Lists (s : Network) (a c : NodeId) : Prop :=
  ∃ m, s.members.lookup a = some m ∧ m.view.Lists c

-- The discovery task of a node has no list of peers in its hands.
def HasRead (s : Network) (a : NodeId) : Prop :=
  ∀ m ∈ s.members.lookup a, m.discovery.peers? = none

instance (s : Network) (a : NodeId) : Decidable (s.HasRead a) :=
  inferInstanceAs (Decidable (∀ m ∈ _, _))

-- Every node that runs has its own id, and itself in its view under that.
def SelfListed (s : Network) : Prop :=
  ∀ a m, s.members.lookup a = some m → m.nodeId = a ∧ m.view.Lists m.nodeId

theorem selfListed_of_step (h : step net s e = some s') (hs : s.SelfListed) : s'.SelfListed :=
  invariant_of_step (I := fun m => m.view.Lists m.nodeId)
    (fun _ _ _ => congrArg Option.isSome (ClusterState.lookup_upsert.trans (if_pos rfl)))
    (fun m _ m' hl hs => by
      have : m'.nodeId = m.nodeId := congrArg (·.profile.id) hs.localNode_eq
      exact this ▸ hs.lists hl) h hs

theorem selfListed_of_reachable (h : Reachable (step net) start s) : s.SelfListed :=
  h.invariant (by simp [SelfListed, start]) fun _ _ _ hs h => selfListed_of_step h hs

theorem lists_of_step (h : step net s e = some s') (hs : s.SelfListed) (hb : ¬ e.Boots a)
    (hl : s.Lists a c) : s'.Lists a c := by
  obtain ⟨m, hm, hl⟩ := hl
  obtain ⟨m', hm'⟩ := isSome_of_step h hm
  refine ⟨m', hm', ?_⟩
  rcases member_cases h hm' with hm'' | ⟨_, _, rfl, ha, _⟩ | ⟨m₁, hm₁, hmoves⟩
  · cases hm.symm.trans hm''; exact hl
  · exact absurd ha hb
  · cases hm.symm.trans hm₁
    obtain ⟨_, _, hst⟩ := hmoves.means (hs a m hm).1
    exact hst.lists hl

-- Nothing that a node has in its view ever leaves it while the node runs.
theorem lists_of_run (h : run (step net) s es = some s') (hs : s.SelfListed)
    (hb : ∀ e ∈ es, ¬ e.Boots a) (hl : s.Lists a c) : s'.Lists a c := by
  induction es generalizing s
  case nil => cases h; exact hl
  case cons e es hi =>
    obtain ⟨s₁, h₁, h⟩ := run_cons_some.mp h
    rw [List.forall_mem_cons] at hb
    exact hi h (selfListed_of_step h₁ hs) hb.2 (lists_of_step h₁ hs hb.1 hl)

theorem selfListed_of_run (h : run (step net) s es = some s') (hs : s.SelfListed) : s'.SelfListed :=
  Reachable.invariant ⟨es, h⟩ hs fun _ _ _ hs h => selfListed_of_step h hs

theorem informed_of_step (h : step net s e = some s') (hs : s.SelfListed) (hb : ¬ e.Boots a)
    (hf : e ≠ .fail a) (hi : ∀ m, s.members.lookup a = some m → m.Informed known) :
    ∀ m, s'.members.lookup a = some m → m.Informed known := by
  intro m' hm'
  rcases member_cases h hm' with hm | ⟨_, _, rfl, ha, _⟩ | ⟨m, hm, hmoves⟩
  · exact hi m' hm
  · exact absurd ha hb
  · obtain ⟨_, hmeans, hst⟩ := hmoves.means (hs a m hm).1
    refine hst.informed (hi m hm) (hs a m hm).2 ?_
    rintro rfl
    cases hmeans
    exact hf rfl

theorem informed_of_run (h : run (step net) s es = some s') (hs : s.SelfListed)
    (hb : ∀ e ∈ es, ¬ e.Boots a ∧ e ≠ .fail a)
    (hi : ∀ m, s.members.lookup a = some m → m.Informed known) :
    ∀ m, s'.members.lookup a = some m → m.Informed known := by
  induction es generalizing s
  case nil => cases h; exact hi
  case cons e es hes =>
    obtain ⟨s₁, h₁, h⟩ := run_cons_some.mp h
    rw [List.forall_mem_cons] at hb
    exact hes h (selfListed_of_step h₁ hs) hb.2 (informed_of_step h₁ hs hb.1.1 hb.1.2 hi)

-- The next answer to a node is a list of peers.
def AsksNodes (s : Network) (a : NodeId) : Prop :=
  ∀ m ∈ s.members.lookup a, m.discovery.AsksNodes

instance (s : Network) (a : NodeId) : Decidable (s.AsksNodes a) :=
  inferInstanceAs (Decidable (∀ m ∈ _, _))

-- A list of peers names all that its sender has in its view.
theorem informed_of_answer (h : step net s (.answer a b) = some s')
    (hk : ∀ a m, s.members.lookup a = some m → m.nodeId = a ∧ Keyed m.view.cluster)
    (ha : s.AsksNodes a) : ∀ m, s'.members.lookup a = some m → m.Informed (s.Lists b) := by
  intro m' hm'
  rcases step_cases h with ⟨_, he, _⟩ | ⟨_, _, he, _⟩ | ⟨_, m, m₁, hm, hmoves, rfl⟩
  · cases he
  · cases he
  · cases hmoves with
    | @answer _ peer _ hb _ _ hh =>
      rw [lookup_setMember, if_pos rfl] at hm'
      cases hm'
      simp only [Member.hear] at hh
      split at hh
      case h_2 hd => exact absurd (ha m hm) (by simp [hd, DiscoveryTask.AsksNodes])
      case h_3    => cases hh
      case h_1 =>
        cases hh
        refine .inr ⟨_, rfl, fun c hc => ?_⟩
        obtain ⟨_, hp, hl⟩ := hc
        cases hb.symm.trans hp
        obtain ⟨n, hn⟩ := Option.isSome_iff_exists.mp hl
        refine ⟨.ofNode n, mem_getInternalNodes.mpr ⟨n, mem_values.mpr ⟨c, hn⟩, rfl⟩, ?_⟩
        rw [nodeId?_ofNode, (hk b peer hp).2 c n hn]

-- What a node has in its view can get to another one: the node keeps running for a while, or another
-- node asks it for its nodes and gets to read the answer.
inductive Relay (net : Setting) (a : NodeId) (s : Network) : NodeId → Network → Prop
  | start : Relay net a s a s
  | wait {b : NodeId} {es : List Event} {s₁ s₂ : Network} :
    Relay net a s b s₁ → run (step net) s₁ es = some s₂ → (∀ e ∈ es, ¬ e.Boots b) →
    Relay net a s b s₂
  | ask {b c : NodeId} {es : List Event} {s₁ s₂ : Network} :
    Relay net a s b s₁ → s₁.AsksNodes c → run (step net) s₁ (.answer c b :: es) = some s₂ →
    (∀ e ∈ es, ¬ e.Boots c ∧ e ≠ .fail c) → s₂.HasRead c →
    Relay net a s c s₂

-- Along any chain of nodes that ask one another, whatever else happens in between, all that the first
-- one has in its view gets into the view of the last one.
theorem relayed (hr : Reachable (step net) start s) (h : Relay net a s b s') :
    Reachable (step net) start s' ∧ ∀ c, s.Lists a c → s'.Lists b c := by
  induction h with
  | start => exact ⟨hr, fun _ hl => hl⟩
  | wait _ hes hb hi =>
    exact ⟨hi.1.append hes, fun c hl => lists_of_run hes (selfListed_of_reachable hi.1) hb (hi.2 c hl)⟩
  | @ask b c es s₁ s₂ _ ha hes hb hread hi =>
    obtain ⟨s₃, h₃, hes'⟩ := run_cons_some.mp hes
    have hs := selfListed_of_step h₃ (selfListed_of_reachable hi.1)
    have hinf := informed_of_run hes' hs hb (informed_of_answer h₃ (keyed_of_reachable hi.1) ha)
    have hc : s₃.Lists c c := by
      rcases step_cases h₃ with ⟨_, he, _⟩ | ⟨_, _, he, _⟩ | ⟨_, m, m', hm, hmoves, rfl⟩
      · cases he
      · cases he
      · cases hmoves
        have hm : (s₁.setMember c m').members.lookup c = some m' := by rw [lookup_setMember, if_pos rfl]
        exact ⟨m', hm, (hs c m' hm).1 ▸ (hs c m' hm).2⟩
    obtain ⟨m, hm, _⟩ := lists_of_run hes' hs (fun e he => (hb e he).1) hc
    exact ⟨hi.1.append hes, fun i hl => ⟨m, hm, (hinf m hm).lists (hread m hm) (hi.2 i hl)⟩⟩

-- The first node never asks the third one.
theorem relayed_sample :
    ∃ s s', run (step sampleSetting) start
        [.boot (sampleNode 3 "c") [], .boot (sampleNode 2 "b") ["c:7947"],
          .boot (sampleNode 1 "a") ["b:7947"], .discover ⟨2⟩ [], .discover ⟨1⟩ []] = some s ∧
      run (step sampleSetting) s
        [.answer ⟨2⟩ ⟨3⟩, .discover ⟨2⟩ [], .discover ⟨2⟩ [],
          .answer ⟨1⟩ ⟨2⟩, .discover ⟨1⟩ [], .discover ⟨1⟩ []] = some s' ∧
      s'.Lists ⟨1⟩ ⟨3⟩ := by
  let boots : List Event := [.boot (sampleNode 3 "c") [], .boot (sampleNode 2 "b") ["c:7947"],
    .boot (sampleNode 1 "a") ["b:7947"], .discover ⟨2⟩ [], .discover ⟨1⟩ []]
  let asks (a b : NodeId) : List Event := [.answer a b, .discover a [], .discover a []]
  have h₀ : (run (step sampleSetting) start boots).map (fun s => (decide (s.AsksNodes ⟨2⟩),
      ((s.members.lookup ⟨3⟩).bind fun m => m.view.cluster.lookup ⟨3⟩).isSome)) = some (true, true) := by
    decide +kernel
  have h₁ : (run (step sampleSetting) start (boots ++ asks ⟨2⟩ ⟨3⟩)).map
      (fun s => (decide (s.HasRead ⟨2⟩), decide (s.AsksNodes ⟨1⟩))) = some (true, true) := by
    decide +kernel
  have h₂ : (run (step sampleSetting) start (boots ++ asks ⟨2⟩ ⟨3⟩ ++ asks ⟨1⟩ ⟨2⟩)).map
      (fun s => decide (s.HasRead ⟨1⟩)) = some true := by
    decide +kernel
  obtain ⟨s₂, hr₂, hread₁⟩ := Option.map_eq_some_iff.mp h₂
  rw [run_append] at hr₂
  obtain ⟨s₁, hr₁, hr₂⟩ := Option.bind_eq_some_iff.mp hr₂
  rw [hr₁, Option.map_some, Option.some.injEq, Prod.mk.injEq] at h₁
  rw [run_append] at hr₁
  obtain ⟨s₀, hr₀, hr₁⟩ := Option.bind_eq_some_iff.mp hr₁
  rw [hr₀, Option.map_some, Option.some.injEq, Prod.mk.injEq] at h₀
  obtain ⟨m, hn⟩ := Option.isSome_iff_exists.mp h₀.2
  obtain ⟨m, hm, hn⟩ := Option.bind_eq_some_iff.mp hn
  have hask : Relay sampleSetting ⟨3⟩ s₀ ⟨2⟩ s₁ :=
    .ask .start (of_decide_eq_true h₀.1) hr₁ (by simp [Event.Boots]) (of_decide_eq_true h₁.1)
  have hrelay : Relay sampleSetting ⟨3⟩ s₀ ⟨1⟩ s₂ :=
    .ask hask (of_decide_eq_true h₁.2) hr₂ (by simp [Event.Boots]) (of_decide_eq_true hread₁)
  exact ⟨s₀, s₂, hr₀, run_append_of_some hr₁ hr₂,
    (relayed ⟨boots, hr₀⟩ hrelay).2 ⟨3⟩ ⟨m, hm, Option.isSome_of_eq_some hn⟩⟩

end Network

end All4One.Membership
