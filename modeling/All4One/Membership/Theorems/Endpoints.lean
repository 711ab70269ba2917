import All4One.Membership.Theorems.Agent
import All4One.Membership.Theorems.Detection

open Foundation Transition

namespace All4One

-- The addresses at which a node is reached.
def NodeInfo.endpoints (n : NodeInfo) : String × String :=
  (n.grpcEndpoint, n.restEndpoint)

namespace Membership

def Discovery.PeerInfo.endpoints (peer : Discovery.PeerInfo) : String × String :=
  (peer.grpcEndpoint, peer.restEndpoint)

def JoinRequest.endpoints (payload : JoinRequest) : String × String :=
  (payload.grpcEndpoint, payload.restEndpoint)

namespace DiscoveryTask

def AsksNodes : DiscoveryTask → Prop
  | asksNodes .. => True
  | _            => False

instance : DecidablePred AsksNodes
  | .asksNodes .. => .isTrue trivial
  | .next _ | .hasNodes .. | .merges .. | .asksNode .. | .hasNode .. | .upserts .. | .marks .. |
    .sleeps _ => .isFalse not_false

-- What a task has heard of a node, from that one or from any other, are these endpoints.
structure Says (c : NodeId) (ends : String × String) (task : DiscoveryTask) : Prop where
  peers : ∀ peers ∈ task.peers?, ∀ peer ∈ peers, peer.nodeId? = some c → peer.endpoints = ends
  node  : ∀ node ∈ task.node?, node.profile.id = c → node.endpoints = ends

instance (c : NodeId) (ends : String × String) (task : DiscoveryTask) : Decidable (task.Says c ends) :=
  decidable_of_iff (_ ∧ _) ⟨fun h => ⟨h.1, h.2⟩, fun h => ⟨h.1, h.2⟩⟩

variable {c : NodeId} {ends : String × String} {task : DiscoveryTask}

theorem Says.of_none (hp : task.peers? = none) (hn : task.node? = none) : task.Says c ends where
  peers := by simp [hp]
  node  := by simp [hn]

end DiscoveryTask

namespace Network

-- The endpoints under which a node knows another one.
def endpoints (s : Network) (a c : NodeId) : Option (String × String) := do
  let m ← s.members.lookup a
  let n ← m.view.cluster.lookup c
  return n.endpoints

-- Other nodes that know a node under its new endpoints go on to do so, and there is one as long as
-- there was one.
structure KeepsEndpoints (c : NodeId) (ends : String × String) (s s' : Network) : Prop where
  each : ∀ a ≠ c, s.endpoints a c = some ends → s'.endpoints a c = some ends
  some : (∃ a ≠ c, s.endpoints a c = some ends) → ∃ a ≠ c, s'.endpoints a c = some ends

-- A node that knows another one under its new endpoints asks only nodes that do so as well, or do not
-- know it. It is not told them anew while it still has older ones to merge, and it is not restarted.
-- The node itself sticks to them.
def Current (c : NodeId) (ends : String × String) (s : Network) : Event → Prop
  | .boot localNode _ =>
    if localNode.profile.id = c then
      localNode.endpoints = ends
    else
      s.endpoints localNode.profile.id c ≠ some ends
  | .answer a b =>
    a ≠ c → s.endpoints a c = some ends → ∀ m ∈ s.members.lookup a, m.discovery.AsksNodes →
      ∀ known ∈ s.endpoints b c, known = ends
  | .grant a nodeId payload =>
    a ≠ c → ⟨nodeId⟩ = c → payload.endpoints = ends ∧
      ∀ m ∈ s.members.lookup a, m.discovery.Says c ends
  | _ => True

instance (c : NodeId) (ends : String × String) (s : Network) : DecidablePred (Current c ends s)
  | .boot _ _ => inferInstanceAs (Decidable (ite _ _ _))
  | .answer _ _ => inferInstanceAs (Decidable (_ → _ → ∀ m ∈ _, _ → ∀ known ∈ _, _))
  | .grant _ _ _ => inferInstanceAs (Decidable (_ → _ → _ ∧ ∀ m ∈ _, _))
  | .tick _ | .discover _ _ | .fail _ | .detect _ | .markJoined _ _ => .isTrue trivial

end Network

section Views

open Discovery

variable {view : View} {peers : List PeerInfo} {selfId c : NodeId} {now : Nat}
  {ends : String × String}

-- A cluster has a node under these endpoints.
def View.Has (view : View) (c : NodeId) (ends : String × String) : Prop :=
  ∃ n, view.cluster.lookup c = some n ∧ n.endpoints = ends

theorem View.Has.mergePeers (h : view.Has c ends)
    (hp : ∀ peer ∈ peers, peer.nodeId? = some c → peer.endpoints = ends) :
    (mergePeers selfId now peers view).Has c ends := by
  change (peers.foldl (mergePeer selfId now) view).Has c ends
  induction peers generalizing view
  case nil => exact h
  case cons peer peers hi =>
    rw [List.forall_mem_cons] at hp
    refine hi ?_ hp.2
    obtain ⟨n, hn, he⟩ := h
    by_cases hid : peer.nodeId? = some c
    case neg => exact ⟨n, (lookup_mergePeer_of_ne hid).trans hn, he⟩
    case pos =>
      by_cases hs : c = selfId
      case pos => subst hs; exact ⟨n, lookup_mergePeer_self.trans hn, he⟩
      case neg =>
        refine ⟨_, (lookup_mergePeer_of_eq hs hid).trans (by rw [hn]), ?_⟩
        exact hp.1 hid

theorem View.Has.upsertPeer {node : NodeInfo} (h : view.Has c ends)
    (hn : node.profile.id = c → node.endpoints = ends) : (upsertPeer node view).Has c ends := by
  obtain ⟨n, hl, he⟩ := h
  by_cases hid : c = node.profile.id
  case pos => exact ⟨_, ClusterState.lookup_upsert.trans (if_pos hid), hn hid.symm⟩
  case neg => exact ⟨n, ClusterState.lookup_upsert.trans ((if_neg hid).trans hl), he⟩

theorem View.has_judge {seen : HashMap NodeId Nat} :
    ({ view with cluster := Gossip.judge selfId now seen view.cluster } : View).Has c ends ↔
    view.Has c ends := by
  simp only [Has, Gossip.judge, ClusterState.lookup_mk, ClusterState.lookup_mapNodes,
    Option.map_eq_some_iff]
  constructor
  case mp =>
    rintro ⟨_, ⟨n, hl, rfl⟩, he⟩
    refine ⟨n, hl, ?_⟩
    split at he <;> exact he
  case mpr =>
    rintro ⟨n, hl, he⟩
    refine ⟨_, ⟨n, hl, rfl⟩, ?_⟩
    split <;> exact he

end Views

namespace Member

variable {version : String} {m m' : Member} {e : Event} {c : NodeId} {ends : String × String}

-- What a node hears of another one in this step are these endpoints.
structure Hears (c : NodeId) (ends : String × String) (m : Member) (e : Event) : Prop where
  nodes : ∀ peers, e = .hearNodes peers → m.view.Has c ends →
    ∀ peer ∈ peers, peer.nodeId? = some c → peer.endpoints = ends
  node  : ∀ node, e = .hearNode node → node.profile.id = c → node.endpoints = ends
  grant : ∀ nodeId payload, e = .grant nodeId payload → ⟨nodeId⟩ = c →
    payload.endpoints = ends ∧ m.discovery.Says c ends

-- As long as a node hears nothing else once it has the new endpoints, it keeps them, and has nothing
-- else to write.
theorem Step.has (h : Step version m e m') (hm : m.view.Has c ends → m.discovery.Says c ends)
    (he : Hears c ends m e) (hv : m.view.Has c ends) : m'.view.Has c ends := by
  have htold := hm hv
  cases h
  case merged hd   => exact hv.mergePeers (htold.peers _ (by rw [hd]; rfl))
  case upserted hd => exact hv.upsertPeer (htold.node _ (by rw [hd]; rfl))
  case judged      => exact View.has_judge.mpr hv
  case granted nodeId payload =>
    by_cases hid : c = ⟨nodeId⟩
    case pos =>
      exact ⟨_, ClusterState.lookup_upsert.trans (if_pos hid), (he.grant _ _ rfl hid.symm).1⟩
    case neg =>
      obtain ⟨n, hl, hn⟩ := hv
      exact ⟨n, ClusterState.lookup_upsert.trans ((if_neg hid).trans hl), hn⟩
  all_goals exact hv

theorem Step.saysOnly (h : Step version m e m') (hm : m.view.Has c ends → m.discovery.Says c ends)
    (he : Hears c ends m e) (hv : m'.view.Has c ends) : m'.discovery.Says c ends := by
  cases h
  case moved hp hn =>
    have htold := hm hv
    exact ⟨fun peers h => htold.peers peers (hp ▸ h), fun node h => htold.node node ((hn node).mp h).1⟩
  case heardNodes peers _ _ _ =>
    refine ⟨fun _ h => ?_, by simp [DiscoveryTask.node?]⟩
    obtain rfl := Option.some.inj h
    exact he.nodes peers rfl hv
  case heardNode node _ _ _ =>
    refine ⟨by simp [DiscoveryTask.peers?], fun _ h => ?_⟩
    obtain rfl := Option.some.inj h
    exact he.node node rfl
  case failed hp hn _   => exact .of_none hp hn
  case watched          => exact hm hv
  case judged           => exact hm (View.has_judge.mp hv)
  case markedJoined     => exact hm hv
  case granted nodeId payload =>
    by_cases hid : c = ⟨nodeId⟩
    case pos => exact (he.grant _ _ rfl hid.symm).2
    case neg =>
      obtain ⟨n, hl, hn⟩ := hv
      exact hm ⟨n, (ClusterState.lookup_upsert.trans (if_neg hid)).symm.trans hl, hn⟩
  all_goals exact .of_none rfl rfl

end Member

namespace Network

variable {net : Setting} {s s' : Network} {a b c : NodeId} {m m' : Member} {e : Event}
  {ends : String × String}

theorem endpoints_eq_some : s.endpoints a c = some ends ↔
    ∃ m, s.members.lookup a = some m ∧ m.view.Has c ends := by
  simp only [endpoints, View.Has, Option.bind_eq_bind, Option.bind_eq_some_iff, Option.pure_def,
    Option.some.injEq]

-- The node advertises the new endpoints, and no other one that knows them has older ones to merge.
structure Steady (c : NodeId) (ends : String × String) (s : Network) : Prop where
  node   : ∀ m, s.members.lookup c = some m → m.localNode.endpoints = ends
  keyed  : ∀ a m, s.members.lookup a = some m → m.nodeId = a ∧ Keyed m.view.cluster
  others : ∀ a m, s.members.lookup a = some m → a ≠ c → m.view.Has c ends →
    m.discovery.Says c ends

-- To the node itself, an event is one that has it hear of the other one what is current.
theorem Moves.hears (h : Moves net s a m e m') (hs : s.Steady c ends)
    (hm : s.members.lookup a = some m) (hac : a ≠ c) (hg : Current c ends s e) :
    ∃ ev, Member.Step net.version m ev m' ∧ Member.Hears c ends m ev := by
  obtain ⟨ev, hmeans, hst⟩ := h.means (hs.keyed a m hm).1
  refine ⟨ev, hst, ?_⟩
  cases hmeans
  case grant nodeId payload =>
    refine ⟨by simp, by simp, ?_⟩
    intro _ _ he hid
    cases he
    exact ⟨(hg hac hid).1, (hg hac hid).2 m hm⟩
  case hearNodes b peer _ _ hb hd =>
    refine ⟨fun _ he hv p hp hc => ?_, by simp, by simp⟩
    cases he
    obtain ⟨n, hl, rfl⟩ := (hs.keyed b peer hb).2.lookup_of_mem hp hc
    refine hg hac (endpoints_eq_some.mpr ⟨m, hm, hv⟩) m hm (by rw [hd]; trivial) _ ?_
    exact endpoints_eq_some.mpr ⟨peer, hb, n, hl, rfl⟩
  case hearNode b peer hb =>
    refine ⟨by simp, fun _ he hc => ?_, by simp⟩
    cases he
    have hbc : b = c := (hs.keyed b peer hb).1.symm.trans hc
    exact hs.node peer (hbc ▸ hb)
  all_goals constructor <;> simp

-- A node that starts knows nobody else.
theorem not_has_boot {time : Nat} {localNode : NodeInfo} {seeds : List String}
    (h : localNode.profile.id ≠ c) : ¬ (Member.boot time localNode seeds).view.Has c ends := by
  rintro ⟨n, hl, _⟩
  cases (ClusterState.lookup_upsert.trans (if_neg h.symm)).symm.trans hl

theorem Steady.step (h : s.Steady c ends) (hg : Current c ends s e)
    (hs : Network.step net s e = some s') : s'.Steady c ends := by
  refine ⟨?_, keyed_of_step hs h.keyed, ?_⟩
  case refine_1 =>
    intro m hm
    rcases member_cases hs hm with hm | ⟨localNode, seeds, rfl, hc, rfl⟩ | ⟨m₀, hm₀, hmoves⟩
    · exact h.node m hm
    · rw [Current, if_pos hc] at hg
      exact hg
    · obtain ⟨ev, -, hst⟩ := hmoves.means (h.keyed c m₀ hm₀).1
      rw [hst.localNode_eq]
      exact h.node m₀ hm₀
  case refine_2 =>
    intro a m hm hac
    rcases member_cases hs hm with hm | ⟨localNode, seeds, rfl, ha, rfl⟩ | ⟨m₀, hm₀, hmoves⟩
    · exact h.others a m hm hac
    · exact fun hv => absurd hv (not_has_boot (ha ▸ hac))
    · obtain ⟨ev, hst, hh⟩ := hmoves.hears h hm₀ hac hg
      exact hst.saysOnly (h.others a m₀ hm₀ hac) hh

theorem Steady.keepsEndpoints (h : s.Steady c ends) (hg : Current c ends s e)
    (hs : Network.step net s e = some s') : KeepsEndpoints c ends s s' := by
  have each (a : NodeId) (hac : a ≠ c) (ha : s.endpoints a c = some ends) :
      s'.endpoints a c = some ends := by
    obtain ⟨m, hm, hv⟩ := endpoints_eq_some.mp ha
    refine endpoints_eq_some.mpr ?_
    rcases step_cases hs with ⟨_, -, rfl⟩ | ⟨localNode, seeds, rfl, rfl⟩ | ⟨b, m₀, m₁, hm₀, hmoves, rfl⟩
    · exact ⟨m, hm, hv⟩
    · by_cases hb : a = localNode.profile.id
      case neg => exact ⟨m, by rw [lookup_setMember, if_neg hb, hm], hv⟩
      case pos =>
        subst hb
        rw [Current, if_neg hac] at hg
        exact absurd ha hg
    · by_cases hb : a = b
      case neg => exact ⟨m, by rw [lookup_setMember, if_neg hb, hm], hv⟩
      case pos =>
        subst hb
        cases hm.symm.trans hm₀
        obtain ⟨ev, hst, hh⟩ := hmoves.hears h hm hac hg
        exact ⟨m₁, by rw [lookup_setMember, if_pos rfl], hst.has (h.others a m hm hac) hh hv⟩
  exact ⟨each, fun ⟨a, hac, ha⟩ => ⟨a, hac, each a hac ha⟩⟩

theorem KeepsEndpoints.refl (s : Network) : KeepsEndpoints c ends s s :=
  ⟨fun _ _ h => h, fun h => h⟩

theorem KeepsEndpoints.trans {s₁ s₂ s₃ : Network} (h₁ : KeepsEndpoints c ends s₁ s₂)
    (h₂ : KeepsEndpoints c ends s₂ s₃) : KeepsEndpoints c ends s₁ s₃ :=
  ⟨fun a hac h => h₂.each a hac (h₁.each a hac h), fun h => h₂.some (h₁.some h)⟩

-- A node that restarts with endpoints that nobody has yet advertises them.
theorem steady_of_boot {localNode : NodeInfo} {seeds : List String} (hr : Reachable (step net) start s)
    (hn : ∀ a ≠ localNode.profile.id,
      s.endpoints a localNode.profile.id ≠ some localNode.endpoints) :
    Steady localNode.profile.id localNode.endpoints
      (s.setMember localNode.profile.id (.boot s.time localNode seeds)) := by
  constructor
  case node =>
    intro m hm
    rw [lookup_setMember, if_pos rfl] at hm
    cases hm
    rfl
  case keyed =>
    intro a m hm
    rw [lookup_setMember] at hm
    split at hm
    case isTrue ha => cases hm; exact ⟨ha.symm, Keyed.default.upsert localNode⟩
    case isFalse   => exact keyed_of_reachable hr a m hm
  case others =>
    intro a m hm hac hv
    rw [lookup_setMember, if_neg hac] at hm
    exact absurd (endpoints_eq_some.mpr ⟨m, hm, hv⟩) (hn a hac)

-- Where a node that has the new endpoints never asks one that still has others, they are not lost
-- again.
theorem endpoints_kept (hr : Reachable (step net) start s) (localNode : NodeInfo)
    (seeds : List String)
    (hn : ∀ a ≠ localNode.profile.id,
      s.endpoints a localNode.profile.id ≠ some localNode.endpoints)
    (hs : step net s (.boot localNode seeds) = some s') (es : List Event)
    (g : Guarded (step net) (Current localNode.profile.id localNode.endpoints) s' es) :
    Along (step net) (KeepsEndpoints localNode.profile.id localNode.endpoints) s' es := by
  obtain rfl := Option.some.inj hs
  intro pre mid s₁ s₂ ⟨post, hes⟩ h₁ h₂
  subst hes
  obtain ⟨g, -⟩ := guarded_append.mp g
  obtain ⟨g, gm⟩ := guarded_append.mp g
  have h := g.invariant (.last h₁) (steady_of_boot hr hn) fun _ _ _ h hg hs => h.step hg hs
  have h := (gm s₁ h₁).invariant (.last h₂) (I := fun s =>
      s.Steady localNode.profile.id localNode.endpoints ∧
      KeepsEndpoints localNode.profile.id localNode.endpoints s₁ s) ⟨h, .refl s₁⟩
    fun _ _ _ ⟨h, hk⟩ hg hs => ⟨h.step hg hs, hk.trans (h.keepsEndpoints hg hs)⟩
  exact h.2

section Sample

-- The third node moves from one host to another one.
def movingSetting : Setting where
  host address :=
    if address = "b:7946" then some ⟨2⟩
    else if address = "c:7946" ∨ address = "d:7946" then some ⟨3⟩
    else none
  silent _ := none
  version  := "0.1.9"

def moved : NodeInfo :=
  sampleNode 3 "d"

theorem mem_keys_of_endpoints (h : s.endpoints a c = some ends) : a ∈ s.members.keys := by
  obtain ⟨m, hm, _⟩ := endpoints_eq_some.mp h
  exact Finmap.mem_keys.mpr (Finmap.mem_of_lookup_eq_some hm)

-- The second node knows the third one from before it moves.
def beforeMove : List Event :=
  [.boot (sampleNode 3 "c") [], .boot (sampleNode 2 "b") ["c:7947"]] ++ poll ⟨2⟩ ⟨3⟩

-- The second node asks the third one again, and only then is it asked by the first one, which has the new
-- endpoints from the third one itself.
theorem endpoints_kept_sample :
    let es : List Event := .discover ⟨2⟩ [(⟨3⟩, "c:7946")] :: poll ⟨2⟩ ⟨3⟩ ++
      .boot (sampleNode 1 "a") ["d:7947", "b:7947"] :: poll ⟨1⟩ ⟨3⟩ ++ poll ⟨1⟩ ⟨2⟩
    ∃ s₀ s, run (step movingSetting) start beforeMove = some s₀ ∧
      s₀.endpoints ⟨2⟩ ⟨3⟩ = some (sampleNode 3 "c").endpoints ∧
      step movingSetting s₀ (.boot moved []) = some s ∧
      (∃ s' ∈ run (step movingSetting) s es, ∀ a ∈ [⟨1⟩, ⟨2⟩], s'.endpoints a ⟨3⟩ = some moved.endpoints) ∧
      Along (step movingSetting) (KeepsEndpoints ⟨3⟩ moved.endpoints) s es := by
  intro es
  have h : ∃ s₀ ∈ run (step movingSetting) start beforeMove,
      s₀.endpoints ⟨2⟩ ⟨3⟩ = some (sampleNode 3 "c").endpoints ∧
      (∀ a ∈ s₀.members.keys, s₀.endpoints a ⟨3⟩ ≠ some moved.endpoints) ∧
      ∃ s ∈ step movingSetting s₀ (.boot moved []),
        Guarded (step movingSetting) (Current ⟨3⟩ moved.endpoints) s es ∧
        ∃ s' ∈ run (step movingSetting) s es,
          ∀ a ∈ [⟨1⟩, ⟨2⟩], s'.endpoints a ⟨3⟩ = some moved.endpoints := by
    decide +kernel
  obtain ⟨s₀, hr, hold, hn, s, hs, g, hnew⟩ := h
  exact ⟨s₀, s, hr, hold, hs, hnew, endpoints_kept ⟨beforeMove, hr⟩ moved []
    (fun a _ ha => hn a (mem_keys_of_endpoints ha) ha) hs es g⟩

-- The second node knows the third one from before it moved, and the first one asks both.
theorem endpoints_lost : ¬ ∀ (net : Setting) (s s' : Network) (localNode : NodeInfo)
    (seeds : List String) (es : List Event), Reachable (step net) start s →
    (∀ a ≠ localNode.profile.id,
      s.endpoints a localNode.profile.id ≠ some localNode.endpoints) →
    step net s (.boot localNode seeds) = some s' →
    Along (step net) (KeepsEndpoints localNode.profile.id localNode.endpoints) s' es := by
  intro h
  let pre : List Event := .boot (sampleNode 1 "a") ["d:7947", "b:7947"] :: poll ⟨1⟩ ⟨3⟩
  have h₀ : (run (step movingSetting) start beforeMove).map
      (fun s => decide (∀ a ∈ s.members.keys, s.endpoints a ⟨3⟩ ≠ some moved.endpoints)) =
      some true := by
    decide +kernel
  have h₁ : (run (step movingSetting) start (beforeMove ++ .boot moved [] :: pre)).bind
      (·.endpoints ⟨1⟩ ⟨3⟩) = some moved.endpoints := by
    decide +kernel
  have h₂ : (run (step movingSetting) start (beforeMove ++ .boot moved [] :: pre ++ poll ⟨1⟩ ⟨2⟩)).bind
      (·.endpoints ⟨1⟩ ⟨3⟩) = some (sampleNode 3 "c").endpoints := by
    decide +kernel
  obtain ⟨s₀, hr₀, hn⟩ := Option.map_eq_some_iff.mp h₀
  obtain ⟨s₁, hr₁, he₁⟩ := Option.bind_eq_some_iff.mp h₁
  obtain ⟨s₂, hr₂, he₂⟩ := Option.bind_eq_some_iff.mp h₂
  rw [run_append, hr₁] at hr₂
  rw [run_append, hr₀] at hr₁
  have hk := h movingSetting s₀ _ moved [] (pre ++ poll ⟨1⟩ ⟨2⟩) ⟨beforeMove, hr₀⟩
    (fun a _ ha => of_decide_eq_true hn a (mem_keys_of_endpoints ha) ha) rfl pre (poll ⟨1⟩ ⟨2⟩) s₁ s₂
    (List.prefix_refl _) hr₁ hr₂
  have := (hk.each ⟨1⟩ (by decide) he₁).symm.trans he₂
  revert this
  decide

end Sample

end Network

end Membership

end All4One
