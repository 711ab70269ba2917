import All4One.Membership.Discovery

open Foundation

namespace All4One.Membership

section Views

open Discovery Gossip

variable {cluster : ClusterState} {view : View} {peer : PeerInfo} {peers : List PeerInfo}
  {n : NodeInfo} {id c selfId : NodeId} {now t : Nat} {seen : HashMap NodeId Nat}

theorem lookup_enter_of_ne (h : c ≠ id) : (peer.enter id cluster).lookup c = cluster.lookup c := by
  rw [PeerInfo.enter]
  split
  · simp [h]
  · exact AList.lookup_insert_ne h

theorem lookup_enter_self :
    (peer.enter id cluster).lookup id = some ((cluster.lookup id).elim (peer.newNode id) peer.refresh) := by
  rw [PeerInfo.enter]
  cases hl : cluster.lookup id
  case none =>
    rw [if_neg (AList.lookup_eq_none.mp hl)]
    exact AList.lookup_insert _
  case some n =>
    have hid : id ∈ cluster.nodes := AList.lookup_isSome.mp (Option.isSome_of_eq_some hl)
    rw [if_pos hid, ClusterState.lookup_mapNodes, hl]
    simp

theorem lookup_mergePeer_of_ne (h : peer.nodeId? ≠ some c) :
    (mergePeer selfId now view peer).cluster.lookup c = view.cluster.lookup c := by
  rw [mergePeer]
  split
  case h_1 => rfl
  case h_2 id hid =>
    split
    · rfl
    · exact lookup_enter_of_ne (by rintro rfl; exact h hid)

-- A node does not merge what others say of it.
theorem lookup_mergePeer_self :
    (mergePeer selfId now view peer).cluster.lookup selfId = view.cluster.lookup selfId := by
  rw [mergePeer]
  split
  case h_1 => rfl
  case h_2 =>
    split
    case isTrue     => rfl
    case isFalse hs => exact lookup_enter_of_ne (Ne.symm hs)

theorem lookup_mergePeers_self :
    (mergePeers selfId now peers view).cluster.lookup selfId = view.cluster.lookup selfId := by
  change (peers.foldl (mergePeer selfId now) view).cluster.lookup selfId = _
  induction peers generalizing view
  case nil                => rfl
  case cons peer peers hi => exact hi.trans lookup_mergePeer_self

theorem lookup_mergePeer_of_eq (hc : c ≠ selfId) (h : peer.nodeId? = some c) :
    (mergePeer selfId now view peer).cluster.lookup c =
    some ((view.cluster.lookup c).elim (peer.newNode c) peer.refresh) := by
  simp only [mergePeer, h, if_neg hc]
  exact lookup_enter_self

-- A list that does not name a node leaves what is known of it as it is.
theorem lookup_mergePeers_of_forall_ne (h : ∀ peer ∈ peers, peer.nodeId? ≠ some c) :
    (mergePeers selfId now peers view).cluster.lookup c = view.cluster.lookup c := by
  change (peers.foldl (mergePeer selfId now) view).cluster.lookup c = _
  induction peers generalizing view
  case nil => rfl
  case cons peer peers hi =>
    rw [List.forall_mem_cons] at h
    exact (hi h.2).trans (lookup_mergePeer_of_ne h.1)

theorem lastSeen_mergePeer (h : (mergePeer selfId now view peer).lastSeen.lookup c = some t) :
    view.lastSeen.lookup c = some t ∨ t = now ∧ peer.nodeId? = some c := by
  rw [mergePeer] at h
  split at h
  case h_1 => exact .inl h
  case h_2 id hid =>
    split at h
    case isTrue  => exact .inl h
    case isFalse =>
      rw [HashMap.lookup_insert'] at h
      split at h
      case isTrue hc  => cases h; exact .inr ⟨rfl, hc ▸ hid⟩
      case isFalse hc => exact .inl h

-- One that does has it seen at the time of the merge.
theorem lastSeen_mergePeers (h : (mergePeers selfId now peers view).lastSeen.lookup c = some t) :
    view.lastSeen.lookup c = some t ∨ t = now ∧ ∃ peer ∈ peers, peer.nodeId? = some c := by
  change (peers.foldl (mergePeer selfId now) view).lastSeen.lookup c = some t at h
  induction peers generalizing view
  case nil => exact .inl h
  case cons peer peers hi =>
    rcases hi h with h | ⟨ht, p, hp, hc⟩
    · rcases lastSeen_mergePeer h with h | ⟨ht, hc⟩
      · exact .inl h
      · exact .inr ⟨ht, peer, List.mem_cons_self, hc⟩
    · exact .inr ⟨ht, p, List.mem_cons_of_mem _ hp, hc⟩

theorem lastSeen_markHeartbeat (h : (markHeartbeat id now view).lastSeen.lookup c = some t) :
    view.lastSeen.lookup c = some t ∨ t = now ∧ id = c := by
  rw [markHeartbeat, HashMap.lookup_insert'] at h
  split at h
  case isTrue hc => cases h; exact .inr ⟨rfl, hc.symm⟩
  case isFalse   => exact .inl h

-- A node is found online if it has been seen within 35 s.
theorem statusAt_eq_online {last : Option Nat} :
    statusAt now last = .online ↔ ∃ t ∈ last, now < t + seconds 35 := by
  cases last
  case none => simp [statusAt]
  case some t =>
    have h35 : 0 < seconds 35 := by decide
    have h100 : seconds 35 < seconds 100 := by decide
    simp only [statusAt, ge_iff_le, Option.mem_def, Option.some.injEq, exists_eq_left']
    split
    case isTrue h  => exact iff_of_false (by simp) (by omega)
    case isFalse =>
      split
      case isTrue h  => exact iff_of_false (by simp) (by omega)
      case isFalse h => exact iff_of_true rfl (by omega)

theorem status_judge (hc : c ≠ selfId) (h : (judge selfId now seen cluster).lookup c = some n) :
    n.status = statusAt now (seen.lookup c) := by
  rw [judge, ClusterState.lookup_mk, ClusterState.lookup_mapNodes, Option.map_eq_some_iff] at h
  have ⟨n', _, h⟩ := h
  rw [if_neg hc] at h
  exact h ▸ rfl

theorem lookup_judge_self : (judge selfId now seen cluster).lookup selfId =
    (cluster.lookup selfId).map ({ · with status := .online }) := by
  rw [judge, ClusterState.lookup_mk, ClusterState.lookup_mapNodes]
  simp only [if_true]

end Views

-- What is entered under an id has a property.
def Entered (P : NodeId → NodeProfile → Prop) (cluster : ClusterState) : Prop :=
  ∀ id n, cluster.lookup id = some n → P id n.profile

namespace Entered

open Discovery Gossip

variable {P : NodeId → NodeProfile → Prop} {cluster : ClusterState} {view : View} {peer : PeerInfo}
  {peers : List PeerInfo} {node : NodeInfo} {selfId : NodeId} {now : Nat}

theorem default : Entered P .default := by
  intro id n h
  cases h

theorem upsert (h : Entered P cluster) (hn : P node.profile.id node.profile) :
    Entered P (cluster.upsert node) := by
  intro id n hl
  rw [ClusterState.lookup_upsert] at hl
  split at hl
  case isTrue hid => cases hl; exact hid ▸ hn
  case isFalse    => exact h id n hl

theorem mapNodes {f : NodeId → NodeInfo → NodeInfo} (h : Entered P cluster)
    (hf : ∀ id n, (f id n).profile = n.profile) : Entered P (cluster.mapNodes f) := by
  intro id n hl
  rw [ClusterState.lookup_mapNodes] at hl
  obtain ⟨n', hl', rfl⟩ := Option.map_eq_some_iff.mp hl
  rw [hf]
  exact h id n' hl'

theorem enter {id : NodeId} (h : Entered P cluster) (hp : P id (peer.newNode id).profile) :
    Entered P (peer.enter id cluster) := by
  rw [PeerInfo.enter]
  split
  case isTrue =>
    refine h.mapNodes fun id' n => ?_
    split <;> rfl
  case isFalse =>
    intro c n hl
    by_cases hc : c = id
    case pos =>
      subst hc
      cases (AList.lookup_insert _).symm.trans hl
      exact hp
    case neg => exact h c n ((AList.lookup_insert_ne hc).symm.trans hl)

theorem mergePeer (h : Entered P view.cluster) (hp : ∀ id, P id (peer.newNode id).profile) :
    Entered P (mergePeer selfId now view peer).cluster := by
  rw [Discovery.mergePeer]
  split
  case h_1 => exact h
  case h_2 =>
    split
    case isTrue  => exact h
    case isFalse => exact h.enter (hp _)

theorem mergePeers (h : Entered P view.cluster)
    (hp : ∀ peer ∈ peers, ∀ id, P id (peer.newNode id).profile) :
    Entered P (mergePeers selfId now peers view).cluster := by
  change Entered P (peers.foldl (Discovery.mergePeer selfId now) view).cluster
  induction peers generalizing view
  case nil => exact h
  case cons peer peers hi =>
    rw [List.forall_mem_cons] at hp
    exact hi (h.mergePeer hp.1) hp.2

theorem judge {seen : HashMap NodeId Nat} (h : Entered P cluster) :
    Entered P (judge selfId now seen cluster) := by
  refine mapNodes (f := fun id n => if id = selfId then { n with status := .online }
    else { n with status := statusAt now (seen.lookup id) }) h fun id n => ?_
  split <;> rfl

end Entered

-- Every node is entered under its own id.
def Keyed (cluster : ClusterState) : Prop :=
  ∀ id n, cluster.lookup id = some n → n.profile.id = id

namespace Keyed

open Discovery Gossip

variable {cluster : ClusterState} {view : View} {selfId : NodeId} {now : Nat}

theorem default : Keyed .default :=
  Entered.default (P := fun id p => p.id = id)

theorem upsert (h : Keyed cluster) (node : NodeInfo) : Keyed (cluster.upsert node) :=
  Entered.upsert (P := fun id p => p.id = id) h rfl

theorem mergePeers (h : Keyed view.cluster) (peers : List PeerInfo) :
    Keyed (mergePeers selfId now peers view).cluster :=
  Entered.mergePeers (P := fun id p => p.id = id) h fun _ _ _ => rfl

theorem judge {seen : HashMap NodeId Nat} (h : Keyed cluster) :
    Keyed (judge selfId now seen cluster) :=
  Entered.judge (P := fun id p => p.id = id) h

end Keyed

section Peers

open Discovery

variable {cluster : ClusterState} {n : NodeInfo} {peer : PeerInfo} {c : NodeId}

-- What a node that asks another one reads of a node that it lists.
def Discovery.PeerInfo.ofNode (n : NodeInfo) : PeerInfo where
  id           := n.profile.id.uuid.toText
  tier         := n.profile.tier
  grpcEndpoint := n.grpcEndpoint
  restEndpoint := n.restEndpoint

@[simp]
theorem nodeId?_ofNode : (PeerInfo.ofNode n).nodeId? = some n.profile.id := by
  simp [PeerInfo.nodeId?, PeerInfo.ofNode]

theorem mem_getInternalNodes :
    peer ∈ (ApiRest.getInternalNodes cluster).map PeerInfo.ofJson ↔
    ∃ n ∈ cluster.values, PeerInfo.ofNode n = peer := by
  simp only [ApiRest.getInternalNodes, List.mem_map, List.mem_insertionSort]
  constructor
  case mp  => rintro ⟨_, ⟨n, hn, rfl⟩, rfl⟩; exact ⟨n, hn, rfl⟩
  case mpr => rintro ⟨n, hn, rfl⟩; exact ⟨_, ⟨n, hn, rfl⟩, rfl⟩

theorem mem_values : n ∈ cluster.values ↔ ∃ id, cluster.lookup id = some n := by
  simp only [ClusterState.values, List.mem_map, ClusterState.lookup]
  constructor
  case mp =>
    rintro ⟨⟨id, _⟩, he, rfl⟩
    exact ⟨id, AList.mem_lookup_iff.mpr he⟩
  case mpr =>
    rintro ⟨id, hl⟩
    exact ⟨⟨id, n⟩, AList.mem_lookup_iff.mp hl, rfl⟩

-- A list names a node that its sender knows, and says of it what its sender knows.
theorem Keyed.lookup_of_mem (hk : Keyed cluster)
    (h : peer ∈ (ApiRest.getInternalNodes cluster).map PeerInfo.ofJson)
    (hc : peer.nodeId? = some c) :
    ∃ n, cluster.lookup c = some n ∧ peer = PeerInfo.ofNode n := by
  obtain ⟨n, hn, rfl⟩ := mem_getInternalNodes.mp h
  obtain ⟨id, hl⟩ := mem_values.mp hn
  rw [nodeId?_ofNode, hk id n hl, Option.some.injEq] at hc
  exact ⟨n, hc ▸ hl, rfl⟩

end Peers

end All4One.Membership
