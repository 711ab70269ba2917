import All4One.Membership.Theorems.Network
import All4One.Membership.Theorems.View

open Foundation Transition

namespace All4One.Membership

-- The next step of a discovery task enters a node into the cluster, or refreshes it there.
def DiscoveryTask.Names (c : NodeId) : DiscoveryTask → Prop
  | merges peers .. => ∃ peer ∈ peers, peer.nodeId? = some c
  | upserts node .. => node.profile.id = c
  | _               => False

instance (c : NodeId) : (task : DiscoveryTask) → Decidable (task.Names c)
  | .merges peers .. => inferInstanceAs (Decidable (∃ peer ∈ peers, peer.nodeId? = some c))
  | .upserts node .. => inferInstanceAs (Decidable (node.profile.id = c))
  | .next _ | .asksNodes .. | .hasNodes .. | .asksNode .. | .hasNode .. | .marks .. | .sleeps _ =>
    .isFalse not_false

-- All that the task has of a node is from before a point in time.
def DiscoveryTask.Old (c : NodeId) (limit time : Nat) : DiscoveryTask → Prop
  | merges _ now _ | upserts _ now _ => now ≤ time
  | marks id now _                   => id = c → now ≤ limit
  | _                                => True

theorem DiscoveryTask.Old.later {c : NodeId} {limit time time' : Nat} {task : DiscoveryTask}
    (h : task.Old c limit time) (ht : time ≤ time') : task.Old c limit time' := by
  cases task
  case merges  => exact Nat.le_trans h ht
  case upserts => exact Nat.le_trans h ht
  all_goals exact h

def DetectorTask.Old (c : NodeId) (limit : Nat) : DetectorTask → Prop
  | judges _ seen => ∀ t, seen.lookup c = some t → t ≤ limit
  | _             => True

namespace Network

-- An event has a node hear of another one, from that one or from any other.
def HearsOf (s : Network) (a c : NodeId) : Event → Prop
  | .discover b _     => b = a ∧ ∀ m ∈ s.members.lookup a, m.discovery.Names c
  | .grant b nodeId _ => b = a ∧ ⟨nodeId⟩ = c
  | .markJoined b k   => b = a ∧ ∀ m ∈ s.members.lookup a, m.joined[k]? = some c
  | _                 => False

instance (s : Network) (a c : NodeId) : (e : Event) → Decidable (s.HearsOf a c e)
  | .discover _ _ | .grant _ _ _ | .markJoined _ _ => inferInstanceAs (Decidable (_ ∧ _))
  | .boot _ _ | .tick _ | .answer _ _ | .fail _ | .detect _ => .isFalse not_false

-- When the pass of the failure detector of a node began that its next step ends.
def passBegan (s : Network) (a : NodeId) : Option Nat := do
  let m ← s.members.lookup a
  match m.detector with
  | .judges now _ => some now
  | _             => none

-- What a node takes another one for.
def status (s : Network) (a c : NodeId) : Option NodeStatus := do
  let m ← s.members.lookup a
  let n ← m.view.cluster.lookup c
  return n.status

-- Once a node has run a pass of its failure detector more than 200 s after another one fell silent, it
-- does not take that one for online.
def Detected (net : Setting) (a c : NodeId) (es : List Event) : Prop :=
  ∀ t, net.silent c = some t → ∀ pre mid s₁ s₂, pre ++ .detect a :: mid <+: es →
    run (step net) start pre = some s₁ → s₁.passBegan a ≠ none → t + seconds 200 < s₁.time →
    run (step net) s₁ (.detect a :: mid) = some s₂ → s₂.status a c ≠ some .online

-- A node does not hear of another one more than 165 s after that one fell silent, and a pass that ends
-- more than 200 s after it has not begun before.
structure Quiet (net : Setting) (a c : NodeId) (s : Network) (e : Event) : Prop where
  unheard : ∀ t ∈ net.silent c, t + seconds 165 < s.time → ¬ s.HearsOf a c e
  prompt  : ∀ t ∈ net.silent c, e = .detect a → t + seconds 200 < s.time →
    ∀ now ∈ s.passBegan a, t + seconds 200 < now

instance (net : Setting) (a c : NodeId) (s : Network) (e : Event) : Decidable (Quiet net a c s e) :=
  decidable_of_iff (_ ∧ _) ⟨fun h => ⟨h.1, h.2⟩, fun h => ⟨h.1, h.2⟩⟩

end Network

namespace Network

variable {net : Setting} {s s' : Network} {a c : NodeId} {m m' : Member} {e : Event} {limit time : Nat}

-- All that a node has of another one is from before a point in time.
structure Old (c : NodeId) (limit time : Nat) (m : Member) : Prop where
  seen      : ∀ t, m.view.lastSeen.lookup c = some t → t ≤ limit
  discovery : m.discovery.Old c limit time
  detector  : m.detector.Old c limit

namespace Old

theorem later {time' : Nat} (h : Old c limit time m) (ht : time ≤ time') : Old c limit time' m where
  seen      := h.seen
  discovery := h.discovery.later ht
  detector  := h.detector

theorem boot {localNode : NodeInfo} {seeds : List String} (ha : localNode.profile.id ≠ c) :
    Old c limit time (.boot time localNode seeds) where
  seen t ht := by
    rcases lastSeen_markHeartbeat ht with ht | ⟨-, hc⟩
    · cases ht
    · exact absurd hc ha
  discovery := trivial
  detector  := trivial

theorem discover {order : List (NodeId × String)} (h : Old c limit time m)
    (hd : m.discover a time order = some m') (hq : m.discovery.Names c → time ≤ limit) :
    Old c limit time m' := by
  have ht := h.discovery
  simp only [Member.discover] at hd
  split at hd
  case h_2 =>
    split at hd <;> cases hd
    exact ⟨h.seen, trivial, h.detector⟩
  case h_3 =>
    split at hd <;> cases hd
    · exact ⟨h.seen, trivial, h.detector⟩
    · exact ⟨h.seen, trivial, h.detector⟩
  case h_5 => cases hd; exact ⟨h.seen, le_refl time, h.detector⟩
  case h_6 peers now phase hm =>
    cases hd
    rw [hm] at ht hq
    refine ⟨fun t hs => ?_, trivial, h.detector⟩
    rcases lastSeen_mergePeers hs with hs | ⟨rfl, hn⟩
    · exact h.seen t hs
    · exact ht.trans (hq hn)
  case h_7 =>
    split at hd <;> cases hd
    · exact ⟨h.seen, le_refl time, h.detector⟩
    · exact ⟨h.seen, trivial, h.detector⟩
  case h_8 node now phase hm =>
    cases hd
    rw [hm] at ht hq
    exact ⟨h.seen, fun hc => ht.trans (hq hc), h.detector⟩
  case h_9 id now phase hm =>
    cases hd
    rw [hm] at ht
    refine ⟨fun t hs => ?_, trivial, h.detector⟩
    rcases lastSeen_markHeartbeat hs with hs | ⟨rfl, hc⟩
    · exact h.seen t hs
    · exact ht hc
  case h_10 =>
    split at hd <;> cases hd
    exact ⟨h.seen, trivial, h.detector⟩
  case h_11 => cases hd
  case h_12 => cases hd
  all_goals cases hd; exact ⟨h.seen, trivial, h.detector⟩

theorem moves (h : Old c limit s.time m) (hm : s.members.lookup a = some m)
    (hmoves : Moves net s a m e m') (hq : limit < s.time → ¬ s.HearsOf a c e) :
    Old c limit s.time m' := by
  have hq' {P : Member → Prop} (he : (∀ m ∈ s.members.lookup a, P m) → s.HearsOf a c e) (hp : P m) :
      s.time ≤ limit := by
    refine not_lt.mp fun hl => hq hl (he fun m₁ hm₁ => ?_)
    cases hm.symm.trans hm₁
    exact hp
  cases hmoves
  case discover order hd => exact h.discover hd fun hn => hq' (fun h => ⟨rfl, h⟩) hn
  case answer b peer hp ha hs hh =>
    simp only [Member.hear] at hh
    split at hh <;> cases hh
    · exact ⟨h.seen, trivial, h.detector⟩
    · exact ⟨h.seen, trivial, h.detector⟩
  case fail hf =>
    simp only [Member.fail] at hf
    split at hf <;> cases hf
    all_goals exact ⟨h.seen, trivial, h.detector⟩
  case detect hd =>
    simp only [Member.detect] at hd
    split at hd
    case h_1 =>
      split at hd <;> cases hd
      exact ⟨h.seen, h.discovery, trivial⟩
    case h_2 => cases hd; exact ⟨h.seen, h.discovery, h.seen⟩
    case h_3 => cases hd; exact ⟨h.seen, h.discovery, trivial⟩
  case grant nodeId payload hp => exact ⟨h.seen, h.discovery, h.detector⟩
  case markJoined k hk =>
    have ⟨id, hid, hk⟩ := Option.map_eq_some_iff.mp hk
    subst hk
    refine ⟨fun t hs => ?_, h.discovery, h.detector⟩
    rcases lastSeen_markHeartbeat hs with hs | ⟨rfl, rfl⟩
    · exact h.seen t hs
    · exact hq' (fun h => ⟨rfl, h⟩) hid

theorem step (h : Network.step net s e = some s') (hac : a ≠ c)
    (hq : limit < s.time → ¬ s.HearsOf a c e)
    (ho : ∀ m, s.members.lookup a = some m → Old c limit s.time m) :
    ∀ m, s'.members.lookup a = some m → Old c limit s'.time m := by
  refine member_of_step h ho ?_ ?_ ?_
  case refine_1 => exact fun _ _ _ ht ho => ho.later ht
  case refine_2 => exact fun _ _ he => boot (he ▸ hac)
  case refine_3 => exact fun _ _ hm ho hmoves => ho.moves hm hmoves hq

end Old

theorem passBegan_eq {now : Nat} {seen : HashMap NodeId Nat} (hm : s.members.lookup a = some m)
    (hj : m.detector = .judges now seen) : s.passBegan a = some now := by
  simp [passBegan, hm, hj]

theorem detector_of_passBegan {now : Nat} (hm : s.members.lookup a = some m)
    (h : s.passBegan a = some now) : ∃ seen, m.detector = .judges now seen := by
  simp only [passBegan, hm, Option.bind_eq_bind, Option.bind_some] at h
  split at h
  case h_1 now' seen hj => cases h; exact ⟨seen, hj⟩
  case h_2              => cases h

-- A node does not take another one for online.
def Down (c : NodeId) (m : Member) : Prop :=
  ∀ n, m.view.cluster.lookup c = some n → n.status ≠ .online

namespace Down

theorem detect {now : Nat} {seen : HashMap NodeId Nat} (hac : a ≠ c) (ho : Old c limit time m)
    (hm : m.detector = .judges now seen) (hn : limit + seconds 35 ≤ now)
    (hd : m.detect a time = some m') : Down c m' := by
  simp only [Member.detect, hm] at hd
  cases hd
  intro n hl
  rw [status_judge hac.symm hl]
  intro hon
  obtain ⟨t, ht, hlt⟩ := statusAt_eq_online.mp hon
  have hj := ho.detector
  rw [hm] at hj
  exact absurd ((Nat.add_le_add_right (hj t ht) _).trans hn) (Nat.not_le.mpr hlt)

theorem discover {order : List (NodeId × String)} (h : Down c m)
    (hd : m.discover a time order = some m') (hq : ¬ m.discovery.Names c) : Down c m' := by
  simp only [Member.discover] at hd
  split at hd
  case h_2 => split at hd <;> cases hd; exact h
  case h_3 => split at hd <;> cases hd <;> exact h
  case h_6 peers now phase hm =>
    cases hd
    rw [hm] at hq
    intro n hl
    rw [lookup_mergePeers_of_forall_ne fun p hp hc => hq ⟨p, hp, hc⟩] at hl
    exact h n hl
  case h_7  => split at hd <;> cases hd <;> exact h
  case h_8 node now phase hm =>
    cases hd
    rw [hm] at hq
    intro n hl
    rw [Discovery.upsertPeer, ClusterState.lookup_upsert, if_neg (Ne.symm hq)] at hl
    exact h n hl
  case h_10 => split at hd <;> cases hd; exact h
  case h_11 => cases hd
  case h_12 => cases hd
  all_goals cases hd; exact h

theorem moves (h : Down c m) (ho : Old c limit s.time m) (hac : a ≠ c)
    (hm : s.members.lookup a = some m) (hmoves : Moves net s a m e m') (hq : ¬ s.HearsOf a c e)
    (hp : e = .detect a → ∀ now ∈ s.passBegan a, limit + seconds 35 ≤ now) : Down c m' := by
  cases hmoves
  case discover order hd =>
    refine h.discover hd fun hn => hq ⟨rfl, fun m₁ hm₁ => ?_⟩
    cases hm.symm.trans hm₁
    exact hn
  case answer b peer hpeer ha hs hh =>
    simp only [Member.hear] at hh
    split at hh <;> cases hh <;> exact h
  case fail hf =>
    simp only [Member.fail] at hf
    split at hf <;> cases hf <;> exact h
  case detect hd =>
    cases hj : m.detector
    case judges now seen => exact detect hac ho hj (hp rfl now (passBegan_eq hm hj)) hd
    case sleeps =>
      simp only [Member.detect, hj] at hd
      split at hd <;> cases hd
      exact h
    case reads => simp only [Member.detect, hj] at hd; cases hd; exact h
  case grant nodeId payload hpayload =>
    intro n hl
    have hne : c ≠ (joiningNode net.version nodeId payload).profile.id := fun hc => hq ⟨rfl, hc.symm⟩
    rw [Member.grant, ClusterState.lookup_upsert, if_neg hne] at hl
    exact h n hl
  case markJoined k hk =>
    have ⟨id, _, hk⟩ := Option.map_eq_some_iff.mp hk
    subst hk
    exact h

theorem step (h : Network.step net s e = some s') (hac : a ≠ c) (hq : ¬ s.HearsOf a c e)
    (hp : e = .detect a → ∀ now ∈ s.passBegan a, limit + seconds 35 ≤ now)
    (ho : ∀ m, s.members.lookup a = some m → Old c limit s.time m)
    (hd : ∀ m, s.members.lookup a = some m → Down c m) :
    ∀ m, s'.members.lookup a = some m → Down c m := by
  refine member_of_step (P := fun _ => Down c) h hd (fun _ _ _ _ hd => hd) ?_ ?_
  case refine_1 =>
    intro localNode seeds he n hl
    change (ClusterState.upsert .default localNode).lookup c = some n at hl
    rw [ClusterState.lookup_upsert, if_neg (he ▸ hac.symm)] at hl
    cases hl
  case refine_2 => exact fun m _ hm hd hmoves => hd.moves (ho m hm) hac hm hmoves hq hp

end Down

variable {t : Nat} {es : List Event}

-- Up to 165 s after it fell silent, a node may be heard of.
theorem old_of_guarded (hac : a ≠ c) (ht : net.silent c = some t)
    (h : Guarded (step net) (Quiet net a c) start es) (hr : run (step net) start es = some s) :
    ∀ m, s.members.lookup a = some m → Old c (t + seconds 165) s.time m := by
  refine h.invariant (I := fun s => ∀ m, s.members.lookup a = some m → Old c (t + seconds 165) s.time m)
    (.last hr) ?_ fun s e s' ho hq hs => Old.step hs hac (hq.unheard t ht) ho
  intro m hm
  rw [start, Finmap.lookup_empty] at hm
  cases hm

-- A node does not take another one for online, and has heard nothing of it for long.
structure Lost (a c : NodeId) (t : Nat) (s : Network) : Prop where
  late : t + seconds 200 < s.time
  old  : ∀ m, s.members.lookup a = some m → Old c (t + seconds 165) s.time m
  down : ∀ m, s.members.lookup a = some m → Down c m

theorem Lost.step (h : Lost a c t s) (hac : a ≠ c) (ht : net.silent c = some t)
    (hq : Quiet net a c s e) (hs : Network.step net s e = some s') : Lost a c t s' where
  late := h.late.trans_le (time_le_of_step hs)
  old  := Old.step hs hac (hq.unheard t ht) h.old
  down := by
    have hu := hq.unheard t ht (by have := h.late; simp only [seconds] at *; omega)
    refine Down.step hs hac hu (fun he now hn => ?_) h.old h.down
    have := hq.prompt t ht he h.late now hn
    simp only [seconds] at *
    omega

theorem lost_of_detect (hac : a ≠ c) (ht : net.silent c = some t)
    (ho : ∀ m, s.members.lookup a = some m → Old c (t + seconds 165) s.time m)
    (he : s.passBegan a ≠ none) (hl : t + seconds 200 < s.time) (hq : Quiet net a c s (.detect a))
    (hs : Network.step net s (.detect a) = some s') : Lost a c t s' where
  late := hl.trans_le (time_le_of_step hs)
  old  := Old.step hs hac (hq.unheard t ht) ho
  down := by
    intro m' hm'
    rcases step_cases hs with ⟨_, hd, -⟩ | ⟨_, _, hd, -⟩ | ⟨b, m, m₂, hm, hmoves, rfl⟩
    · cases hd
    · cases hd
    · cases hmoves
      case detect hd =>
        rw [lookup_setMember, if_pos rfl] at hm'
        cases hm'
        have ⟨now, hnow⟩ := Option.ne_none_iff_exists'.mp he
        have hn := hq.prompt t ht rfl hl now hnow
        have ⟨seen, hj⟩ := detector_of_passBegan hm hnow
        refine Down.detect hac (ho m hm) hj ?_ hd
        simp only [seconds] at *
        omega

-- A node that hears nothing of a dead one, neither from it nor from others, detects that it is dead.
theorem detected (hac : a ≠ c) (h : Guarded (step net) (Quiet net a c) start es) :
    Detected net a c es := by
  intro t ht pre mid s₁ s₂ hpre hr he hl hr'
  have ⟨rest, hes⟩ := hpre
  rw [← hes, guarded_append, guarded_append] at h
  have ho := old_of_guarded hac ht h.1.1 hr
  have hg := h.1.2 s₁ hr
  have ⟨s', hs, hr'⟩ := run_cons_some.mp hr'
  have ⟨hq, hg⟩ := hg s' hs
  have hlost := hg.invariant (.last hr') (lost_of_detect hac ht ho he hl hq hs)
    fun s e s' h hq hs => h.step hac ht hq hs
  intro hs
  simp only [status, Option.bind_eq_bind, Option.bind_eq_some_iff, Option.pure_def,
    Option.some.injEq] at hs
  have ⟨m, hm, n, hn, honline⟩ := hs
  exact hlost.down m hm n hn honline

section Sample

def sampleNode (n : BitVec 128) (host : String) : NodeInfo where
  profile := {
    id                := ⟨n⟩
    tier              := 1
    availability      := "always"
    quorumParticipant := false
    resources         := { cpuCores := 4, memoryMb := 1024, diskMb := none }
    capabilities      := {
      docker := false, python := none, java := none, wasm := false, gpuEnabled := false
      storageNode := false
    }
  }
  status       := .online
  version      := "0.1.9"
  grpcEndpoint := host ++ ":7947"
  restEndpoint := host ++ ":7946"

-- The third of three nodes falls silent at once.
def sampleSetting : Setting where
  host address :=
    if address = "b:7946" then some ⟨2⟩ else if address = "c:7946" then some ⟨3⟩ else none
  silent n := if n = ⟨3⟩ then some 0 else none
  version  := "0.1.9"

-- A node asks another one for its nodes.
def poll (a b : NodeId) : List Event :=
  [.discover a [], .answer a b, .discover a [], .discover a []]

-- The first node hears of the third one from that one only.
def firsthand : List Event :=
  [.boot (sampleNode 3 "c") [], .boot (sampleNode 1 "a") ["c:7947"]] ++ poll ⟨1⟩ ⟨3⟩ ++
    [.tick (seconds 201), .detect ⟨1⟩, .detect ⟨1⟩, .detect ⟨1⟩]

theorem detected_sample : Detected sampleSetting ⟨1⟩ ⟨3⟩ firsthand :=
  detected (by decide) (by decide +kernel)

-- The second node hears of the third one before that falls silent, and tells the first one later.
def hearsay : List Event :=
  [.boot (sampleNode 3 "c") [], .boot (sampleNode 2 "b") ["c:7947"]] ++ poll ⟨2⟩ ⟨3⟩ ++
    [.tick (seconds 199), .boot (sampleNode 1 "a") ["b:7947"]] ++ poll ⟨1⟩ ⟨2⟩ ++
    [.tick (seconds 2), .detect ⟨1⟩, .detect ⟨1⟩]

theorem hearsay_sample : ((run (step sampleSetting) start hearsay).bind fun s =>
    (step sampleSetting s (.detect ⟨1⟩)).map fun s' =>
      (s.time, s.passBegan ⟨1⟩, s'.status ⟨1⟩ ⟨3⟩)) =
    some (seconds 201, some (seconds 201), some .online) := by
  decide +kernel

-- A node takes a dead one for online because another one still lists it.
theorem detected_fails : ¬ ∀ (net : Setting) (a c : NodeId) (es : List Event), a ≠ c →
    Detected net a c es := by
  intro h
  have ⟨s₁, hr, hs⟩ := Option.bind_eq_some_iff.mp hearsay_sample
  have ⟨s₂, hs, he⟩ := Option.map_eq_some_iff.mp hs
  have ⟨htime, he⟩ := Prod.mk.inj he
  have ⟨hpass, hstatus⟩ := Prod.mk.inj he
  refine h sampleSetting ⟨1⟩ ⟨3⟩ (hearsay ++ [.detect ⟨1⟩]) (by decide) 0 rfl hearsay [] s₁ s₂
    (List.prefix_refl _) hr ?_ ?_ ?_ hstatus
  case refine_1 => rw [hpass]; exact Option.some_ne_none _
  case refine_2 => rw [htime]; decide
  case refine_3 => exact run_of_step hs rfl

end Sample

end Network

end All4One.Membership
