import All4One.Membership.Theorems.Dissemination

open Foundation Transition

namespace All4One.Membership

section Views

open Discovery

variable {view : View} {peer : PeerInfo} {peers : List PeerInfo} {c selfId : NodeId} {now : Nat}

theorem lookup_lastSeen_mergePeer (hc : c ≠ selfId) :
    (mergePeer selfId now view peer).lastSeen.lookup c =
    if peer.nodeId? = some c then some now else view.lastSeen.lookup c := by
  rw [mergePeer]
  split
  case h_1 hid => simp [hid]
  case h_2 id hid =>
    by_cases hs : id = selfId
    case pos =>
      subst hs
      simp [hid, hc.symm]
    case neg => simp [hid, hs, HashMap.lookup_insert', eq_comm]

-- A list that names a node has it seen at the time of the merge, and one that does not has no effect.
theorem lookup_lastSeen_mergePeers (hc : c ≠ selfId) :
    (mergePeers selfId now peers view).lastSeen.lookup c =
    if ∃ peer ∈ peers, peer.nodeId? = some c then some now else view.lastSeen.lookup c := by
  change (peers.foldl (mergePeer selfId now) view).lastSeen.lookup c = _
  induction peers generalizing view
  case nil => simp
  case cons peer peers hi =>
    rw [List.foldl_cons, hi, lookup_lastSeen_mergePeer hc]
    by_cases hp : peer.nodeId? = some c <;> simp [hp]

theorem status_mergePeers {n : NodeInfo} (h : view.cluster.lookup c = some n) (hn : n.status = .online) :
    ∃ n', (mergePeers selfId now peers view).cluster.lookup c = some n' ∧ n'.status = .online := by
  change ∃ n', (peers.foldl (mergePeer selfId now) view).cluster.lookup c = some n' ∧ n'.status = .online
  induction peers generalizing view n
  case nil => exact ⟨n, h, hn⟩
  case cons peer peers hi =>
    by_cases hid : peer.nodeId? = some c
    case neg => exact hi ((lookup_mergePeer_of_ne hid).trans h) hn
    case pos =>
      by_cases hs : c = selfId
      case pos => subst hs; exact hi (lookup_mergePeer_self.trans h) hn
      case neg => exact hi ((lookup_mergePeer_of_eq hs hid).trans (by rw [h])) rfl

end Views

namespace Network

variable {net : Setting} {s s' s₀ : Network} {a c : NodeId} {m m' : Member} {e : Event}
  {es : List Event} {time w H δ : Nat}

-- When a node has heard of another one, if an event has it take note of that.
def hears (s : Network) (a c : NodeId) : Event → Option Nat
  | .discover b _ => do
    let m ← s.members.lookup a
    match m.discovery with
    | .merges peers now _ => if b = a ∧ ∃ peer ∈ peers, peer.nodeId? = some c then some now else none
    | .marks id now _     => if b = a ∧ id = c then some now else none
    | _                   => none
  | .markJoined b k => do
    let m ← s.members.lookup a
    if b = a ∧ m.joined[k]? = some c then some s.time else none
  | _ => none

-- A node takes another one for online, and has heard of it of late. So has its failure detector.
structure Fresh (c : NodeId) (w time : Nat) (m : Member) : Prop where
  online : ∃ n, m.view.cluster.lookup c = some n ∧ n.status = .online
  seen   : ∃ t, m.view.lastSeen.lookup c = some t ∧ time ≤ t + w
  reads  : ∀ now, m.detector = .reads now → now ≤ time
  judges : ∀ now seen, m.detector = .judges now seen → ∃ t, seen.lookup c = some t ∧ now ≤ t + w

-- What a node has noted of another one is what it has noted last.
theorem lastSeen_of_moves (h : Moves net s a m e m') (hm : s.members.lookup a = some m) (hc : c ≠ a) :
    m'.view.lastSeen.lookup c = (s.hears a c e).or (m.view.lastSeen.lookup c) := by
  cases h
  case discover order hd =>
    simp only [Member.discover] at hd
    split at hd
    case h_1 hd'  => cases hd; simp [hears, hm, hd']
    case h_2 hd'  => split at hd <;> cases hd; simp [hears, hm, hd']
    case h_3 hd'  => split at hd <;> cases hd <;> simp [hears, hm, hd']
    case h_4 hd'  => cases hd; simp [hears, hm, hd']
    case h_5 hd'  => cases hd; simp [hears, hm, hd']
    case h_6 hd'  =>
      cases hd
      simp only [lookup_lastSeen_mergePeers hc, hears, hm, hd', Option.bind_eq_bind, Option.bind_some,
        true_and]
      split <;> rfl
    case h_7 hd'  => split at hd <;> cases hd <;> simp [hears, hm, hd']
    case h_8 hd'  => cases hd; simp [hears, hm, hd', Discovery.upsertPeer]
    case h_9 hd'  =>
      cases hd
      simp only [Discovery.markHeartbeat, HashMap.lookup_insert', hears, hm, hd', Option.bind_eq_bind,
        Option.bind_some, true_and, eq_comm]
      split <;> rfl
    case h_10 hd' => split at hd <;> cases hd; simp [hears, hm, hd']
    case h_11     => cases hd
    case h_12     => cases hd
  case answer b peer hp ha hs hh =>
    simp only [Member.hear] at hh
    split at hh <;> cases hh <;> rfl
  case fail hf =>
    simp only [Member.fail] at hf
    split at hf <;> cases hf <;> rfl
  case detect hd =>
    simp only [Member.detect] at hd
    split at hd
    case h_1 => split at hd <;> cases hd; rfl
    case h_2 => cases hd; rfl
    case h_3 => cases hd; rfl
  case grant => rfl
  case markJoined k hk =>
    obtain ⟨id, hid, rfl⟩ := Option.map_eq_some_iff.mp hk
    simp only [Discovery.markHeartbeat, HashMap.lookup_insert', hears, hm, hid, Option.bind_eq_bind,
      Option.bind_some, true_and, Option.some.injEq, eq_comm]
    split <;> rfl

theorem detector_of_moves (h : Moves net s a m e m') :
    m'.detector = m.detector ∨ m'.detector = .reads s.time ∨
    (∃ now, m.detector = .reads now ∧ m'.detector = .judges now m.view.lastSeen) ∨
    ∃ wake, m'.detector = .sleeps wake := by
  cases h
  case discover order hd =>
    left
    simp only [Member.discover] at hd
    split at hd
    case h_2  => split at hd <;> cases hd; rfl
    case h_3  => split at hd <;> cases hd <;> rfl
    case h_7  => split at hd <;> cases hd <;> rfl
    case h_10 => split at hd <;> cases hd; rfl
    all_goals cases hd
    all_goals rfl
  case answer b peer hp ha hs hh =>
    left
    simp only [Member.hear] at hh
    split at hh <;> cases hh <;> rfl
  case fail hf =>
    left
    simp only [Member.fail] at hf
    split at hf <;> cases hf <;> rfl
  case detect hd =>
    simp only [Member.detect] at hd
    split at hd
    case h_1     => split at hd <;> cases hd; exact .inr (.inl rfl)
    case h_2 hd' => cases hd; exact .inr (.inr (.inl ⟨_, hd', rfl⟩))
    case h_3     => cases hd; exact .inr (.inr (.inr ⟨_, rfl⟩))
  case grant => exact .inl rfl
  case markJoined k hk =>
    obtain ⟨id, hid, rfl⟩ := Option.map_eq_some_iff.mp hk
    exact .inl rfl

-- A node that is heard of is online, and stays so as long as the failure detector has heard of it.
theorem Fresh.online_of_moves (h : Fresh c w time m) (hw : w < seconds 35) (ha : m.nodeId = a)
    (hc : c ≠ a) (hmoves : Moves net s a m e m') :
    ∃ n, m'.view.cluster.lookup c = some n ∧ n.status = .online := by
  subst ha
  obtain ⟨ev, -, hst⟩ := hmoves.means rfl
  obtain ⟨n, hl, hn⟩ := h.online
  cases hst
  case merged => exact status_mergePeers hl hn
  case upserted node _ _ _ =>
    simp only [Discovery.upsertPeer, ClusterState.lookup_upsert]
    split
    case isTrue  => exact ⟨_, rfl, rfl⟩
    case isFalse => exact ⟨n, hl, hn⟩
  case judged now seen hj =>
    obtain ⟨t, ht, hle⟩ := h.judges now seen hj
    have hs : Gossip.statusAt now (seen.lookup c) = .online :=
      statusAt_eq_online.mpr ⟨t, ht, by omega⟩
    simp only [Gossip.judge, ClusterState.lookup_mk, ClusterState.lookup_mapNodes, hl, Option.map_some,
      if_neg hc, hs, Option.some.injEq, exists_eq_left']
  case granted nodeId payload =>
    simp only [Member.grant, ClusterState.lookup_upsert]
    split
    case isTrue  => exact ⟨_, rfl, rfl⟩
    case isFalse => exact ⟨n, hl, hn⟩
  all_goals exact ⟨n, hl, hn⟩

theorem Fresh.moves (h : Fresh c w s.time m) (hw : w < seconds 35) (ha : m.nodeId = a) (hc : c ≠ a)
    (hm : s.members.lookup a = some m) (hmoves : Moves net s a m e m')
    (he : ∀ t ∈ s.hears a c e, s.time ≤ t + w) : Fresh c w s.time m' where
  online := h.online_of_moves hw ha hc hmoves
  seen := by
    rw [lastSeen_of_moves hmoves hm hc]
    cases ht : s.hears a c e
    case none   => exact h.seen
    case some t => exact ⟨t, rfl, he t ht⟩
  reads now hr := by
    rcases detector_of_moves hmoves with hd | hd | ⟨_, _, hd⟩ | ⟨_, hd⟩ <;> rw [hr] at hd
    · exact h.reads now hd.symm
    · cases hd; exact le_refl _
    · cases hd
    · cases hd
  judges now seen hj := by
    rcases detector_of_moves hmoves with hd | hd | ⟨now', hr, hd⟩ | ⟨_, hd⟩ <;> rw [hj] at hd
    · exact h.judges now seen hd.symm
    · cases hd
    · cases hd
      obtain ⟨t, ht, hle⟩ := h.seen
      exact ⟨t, ht, (h.reads _ hr).trans hle⟩
    · cases hd

theorem Fresh.later {time' : Nat} (h : Fresh c w time m) (hle : time ≤ time')
    (ht : ∀ t, m.view.lastSeen.lookup c = some t → time' ≤ t + w) : Fresh c w time' m where
  online := h.online
  seen   := by obtain ⟨t, hl, _⟩ := h.seen; exact ⟨t, hl, ht t hl⟩
  reads  := fun now hr => (h.reads now hr).trans hle
  judges := h.judges

-- What a node hears of another one it takes note of within this time.
def Prompt (net : Setting) (a c : NodeId) (δ : Nat) (s : Network) (es : List Event) : Prop :=
  Guarded (step net) (fun s e => ∀ t ∈ s.hears a c e, s.time ≤ t + δ) s es

instance : Decidable (Prompt net a c δ s es) :=
  inferInstanceAs (Decidable (Guarded _ _ _ _))

-- It never takes longer than this from when a node has heard of another one until it does so again.
def Often (net : Setting) (a c : NodeId) (H : Nat) : Nat → Network → List Event → Prop
  | _, _, []          => True
  | since, s, e :: es => ∀ s', step net s e = some s' →
    let since' := if (s.hears a c e).isSome then s'.time else since
    s'.time ≤ since' + H ∧ Often net a c H since' s' es

instance : (since : Nat) → (s : Network) → (es : List Event) → Decidable (Often net a c H since s es)
  | _, _, []          => .isTrue trivial
  | since, s, e :: es =>
    match h : step net s e with
    | none    => .isTrue fun _ hs => nomatch h.symm.trans hs
    | some s' =>
      let since' := if (s.hears a c e).isSome then s'.time else since
      have : Decidable (Often net a c H since' s' es) := instDecidableOften since' s' es
      decidable_of_iff (s'.time ≤ since' + H ∧ Often net a c H since' s' es) <| by simp [Often, h, since']

theorem hears_of_ne {b : NodeId} {m₀ : Member} (hne : b ≠ a) (h : Moves net s b m₀ e m') :
    s.hears a c e = none := by
  cases h
  case discover =>
    cases hm : s.members.lookup a
    case none => simp [hears, hm]
    case some => simp only [hears, hm, hne, Option.bind_eq_bind, Option.bind_some, false_and, if_false]; split <;> rfl
  case markJoined => simp [hears, hne]
  all_goals rfl

-- A node has heard of another one, not much later than it has noted, and takes it for online.
structure Hearing (a c : NodeId) (δ H since : Nat) (s : Network) (m : Member) : Prop where
  member : s.members.lookup a = some m
  seen   : ∃ t, m.view.lastSeen.lookup c = some t ∧ since ≤ t + δ
  fresh  : Fresh c (δ + H) s.time m

theorem Hearing.stays {since : Nat} (h : Hearing a c δ H since s m) (hs : step net s e = some s')
    (hm : s'.members.lookup a = some m) (ht : s'.time ≤ since + H) : Hearing a c δ H since s' m where
  member := hm
  seen   := h.seen
  fresh  := h.fresh.later (time_le_of_step hs) fun t hl => by
    obtain ⟨t', hl', hle⟩ := h.seen
    cases hl.symm.trans hl'
    omega

theorem Hearing.step {since : Nat} (h : Hearing a c δ H since s m) (hw : δ + H < seconds 35)
    (ha : m.nodeId = a) (hc : c ≠ a) (hs : step net s e = some s') (hb : ¬ e.Boots a)
    (he : ∀ t ∈ s.hears a c e, s.time ≤ t + δ)
    (ht : s'.time ≤ (if (s.hears a c e).isSome then s'.time else since) + H) :
    ∃ m', Hearing a c δ H (if (s.hears a c e).isSome then s'.time else since) s' m' := by
  have hm := h.member
  rcases step_cases hs with ⟨d, rfl, rfl⟩ | ⟨localNode, seeds, rfl, rfl⟩ | ⟨b, m₀, m', hm₀, hmoves, rfl⟩
  · exact ⟨m, h.stays hs hm ht⟩
  · exact ⟨m, h.stays hs (lookup_setMember.trans ((if_neg (Ne.symm hb)).trans hm)) ht⟩
  · by_cases hne : b = a
    case neg =>
      rw [hears_of_ne hne hmoves] at ht ⊢
      exact ⟨m, h.stays hs (lookup_setMember.trans ((if_neg (Ne.symm hne)).trans hm)) ht⟩
    case pos =>
      subst hne
      cases hm.symm.trans hm₀
      refine ⟨m', lookup_setMember.trans (if_pos rfl), ?_, ?_⟩
      case refine_1 =>
        rw [lastSeen_of_moves hmoves hm hc]
        cases hh : s.hears b c e
        case none   => exact h.seen
        case some t => exact ⟨t, rfl, he t hh⟩
      case refine_2 =>
        exact h.fresh.moves hw ha hc hm hmoves fun t hh => by have := he t hh; omega

theorem Hearing.visits {since : Nat} (h : Hearing a c δ H since s₀ m) (hw : δ + H < seconds 35)
    (hself : s₀.SelfListed) (hc : c ≠ a) (hb : ∀ e ∈ es, ¬ e.Boots a) (hp : Prompt net a c δ s₀ es)
    (ho : Often net a c H since s₀ es) (hv : Visits (Network.step net) s₀ es s) :
    ∃ since m, Hearing a c δ H since s m := by
  induction es generalizing s₀ since m
  case nil => cases hv; exact ⟨since, m, h⟩
  case cons e es hi =>
    rcases hv with rfl | ⟨s₁, hs, hv⟩
    · exact ⟨since, m, h⟩
    · obtain ⟨ht, ho⟩ := ho s₁ hs
      obtain ⟨hpe, hp⟩ := hp s₁ hs
      obtain ⟨hbe, hb⟩ := List.forall_mem_cons.mp hb
      obtain ⟨m', h⟩ := h.step hw (hself a m h.member).1 hc hs hbe hpe ht
      exact hi h (selfListed_of_step hs hself) hb hp ho hv

-- A node that keeps hearing of another one, and takes note of it in time, never suspects it.
theorem never_suspected (hr : Reachable (step net) start s₀) (hc : c ≠ a) (hw : δ + H < seconds 35)
    (hm : s₀.members.lookup a = some m) (hwake : ∃ wake, m.detector = .sleeps wake)
    (hon : s₀.status a c = some .online)
    (ht : ∃ t, m.view.lastSeen.lookup c = some t ∧ s₀.time ≤ t + δ) (hb : ∀ e ∈ es, ¬ e.Boots a)
    (hp : Prompt net a c δ s₀ es) (ho : Often net a c H s₀.time s₀ es) :
    ∀ s, Visits (step net) s₀ es s → s.status a c = some .online := by
  intro s hv
  have hfresh : Fresh c (δ + H) s₀.time m := {
    online := by simpa [status, hm, Option.bind_eq_some_iff] using hon
    seen   := by obtain ⟨t, hl, hle⟩ := ht; exact ⟨t, hl, by omega⟩
    reads  := by obtain ⟨_, hw⟩ := hwake; simp [hw]
    judges := by obtain ⟨_, hw⟩ := hwake; simp [hw]
  }
  obtain ⟨_, _, h⟩ := Hearing.visits ⟨hm, ht, hfresh⟩ hw (selfListed_of_reachable hr) hc hb hp ho hv
  obtain ⟨n, hl, hn⟩ := h.fresh.online
  simp [status, h.member, hl, hn]

section Sample

def met : List Event :=
  [.boot (sampleNode 2 "b") [], .boot (sampleNode 1 "a") ["b:7947"]] ++ poll ⟨1⟩ ⟨2⟩

-- The first node asks the second one once more before 35 s are over, and its failure detector runs.
def kept : List Event :=
  [.tick (seconds 20), .discover ⟨1⟩ [(⟨2⟩, "b:7946")]] ++ poll ⟨1⟩ ⟨2⟩ ++
    [.tick (seconds 20), .detect ⟨1⟩, .detect ⟨1⟩, .detect ⟨1⟩]

theorem never_suspected_sample : ∃ s₀ s, run (step sampleSetting) start met = some s₀ ∧
    run (step sampleSetting) s₀ kept = some s ∧ s.time = seconds 40 ∧
    s.status ⟨1⟩ ⟨2⟩ = some .online := by
  have h : ∃ s₀ ∈ run (step sampleSetting) start met, (∃ m ∈ s₀.members.lookup ⟨1⟩,
      m.detector = .sleeps 0 ∧ m.view.lastSeen.lookup ⟨2⟩ = some 0) ∧
      s₀.time = 0 ∧ s₀.status ⟨1⟩ ⟨2⟩ = some .online ∧ Prompt sampleSetting ⟨1⟩ ⟨2⟩ 0 s₀ kept ∧
      Often sampleSetting ⟨1⟩ ⟨2⟩ (seconds 20) 0 s₀ kept ∧
      ∃ s ∈ run (step sampleSetting) s₀ kept, s.time = seconds 40 := by
    decide +kernel
  obtain ⟨s₀, hr, ⟨m, hm, hd, hl⟩, ht, hon, hp, ho, s, hs, htime⟩ := h
  refine ⟨s₀, s, hr, hs, htime, never_suspected (δ := 0) (H := seconds 20) ⟨met, hr⟩ (by decide) (by decide) hm ⟨0, hd⟩ hon
    ⟨0, hl, by omega⟩ (by simp [kept, poll, Event.Boots]) hp (by rwa [ht]) s (.last hs)⟩

end Sample

end Network

end All4One.Membership
