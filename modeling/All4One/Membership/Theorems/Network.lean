import All4One.Membership.Network

open Foundation

namespace All4One.Membership

namespace Network

-- How an event changes a node that runs.
inductive Moves (net : Setting) (s : Network) (a : NodeId) (m : Member) : Event → Member → Prop
  | discover {order : List (NodeId × String)} {m' : Member} :
    m.discover a s.time order = some m' → Moves net s a m (.discover a order) m'
  | answer {b : NodeId} {peer m' : Member} :
    s.members.lookup b = some peer → m.asks.bind net.host = some b → Speaks net b s.time →
    m.hear peer = some m' → Moves net s a m (.answer a b) m'
  | fail {m' : Member} : m.fail = some m' → Moves net s a m (.fail a) m'
  | detect {m' : Member} : m.detect a s.time = some m' → Moves net s a m (.detect a) m'
  | grant {nodeId : Uuid} {payload : JoinRequest} : Uuid.parseStr payload.nodeId = some nodeId →
    Moves net s a m (.grant a nodeId payload) (m.grant net.version nodeId payload)
  | markJoined {k : Nat} {m' : Member} :
    m.markJoined s.time k = some m' → Moves net s a m (.markJoined a k) m'

variable {net : Setting} {s s' : Network} {a b : NodeId} {m m' : Member} {e : Event}

@[simp] theorem setMember_time : (s.setMember a m).time = s.time := rfl

@[simp]
theorem lookup_setMember : (s.setMember a m).members.lookup b =
    if b = a then some m else s.members.lookup b :=
  HashMap.lookup_insert'

-- An event lets time pass, starts a node, or changes one.
theorem step_cases (h : step net s e = some s') :
    (∃ d, e = .tick d ∧ s' = { s with time := s.time + d }) ∨
    (∃ localNode seeds, e = .boot localNode seeds ∧
      s' = s.setMember localNode.profile.id (.boot s.time localNode seeds)) ∨
    ∃ b m m', s.members.lookup b = some m ∧ Moves net s b m e m' ∧ s' = s.setMember b m' := by
  cases e
  case boot localNode seeds => cases h; exact .inr (.inl ⟨_, _, rfl, rfl⟩)
  case tick d               => cases h; exact .inl ⟨d, rfl, rfl⟩
  all_goals
    simp only [step, Option.bind_eq_bind, Option.bind_eq_some_iff, Option.pure_def] at h
    refine .inr (.inr ?_)
  case discover b order =>
    have ⟨m, hm, m', hd, h⟩ := h
    cases h
    exact ⟨b, m, m', hm, .discover hd, rfl⟩
  case answer b b' =>
    have ⟨m, hm, peer, hp, h⟩ := h
    split at h
    case isFalse => cases h
    case isTrue hc =>
      have ⟨m', hh, h⟩ := Option.bind_eq_some_iff.mp h
      cases h
      exact ⟨b, m, m', hm, .answer hp (Option.bind_eq_some_iff.mpr hc.1) hc.2 hh, rfl⟩
  case fail b =>
    have ⟨m, hm, m', hf, h⟩ := h
    cases h
    exact ⟨b, m, m', hm, .fail hf, rfl⟩
  case detect b =>
    have ⟨m, hm, m', hd, h⟩ := h
    cases h
    exact ⟨b, m, m', hm, .detect hd, rfl⟩
  case grant b nodeId payload =>
    have ⟨m, hm, h⟩ := h
    split at h
    case isFalse => cases h
    case isTrue hp => cases h; exact ⟨b, m, _, hm, .grant hp, rfl⟩
  case markJoined b k =>
    have ⟨m, hm, m', hk, h⟩ := h
    cases h
    exact ⟨b, m, m', hm, .markJoined hk, rfl⟩

theorem time_le_of_step (h : step net s e = some s') : s.time ≤ s'.time := by
  rcases step_cases h with ⟨d, -, rfl⟩ | ⟨_, _, -, rfl⟩ | ⟨_, _, _, -, -, rfl⟩
  · exact Nat.le_add_right _ _
  · exact le_refl _
  · exact le_refl _

-- A node is left as it is, starts, or is changed.
theorem member_cases (h : step net s e = some s') (hm : s'.members.lookup a = some m') :
    s.members.lookup a = some m' ∨
    (∃ localNode seeds, e = .boot localNode seeds ∧ localNode.profile.id = a ∧
      m' = .boot s.time localNode seeds) ∨
    ∃ m, s.members.lookup a = some m ∧ Moves net s a m e m' := by
  rcases step_cases h with ⟨d, -, rfl⟩ | ⟨localNode, seeds, he, rfl⟩ | ⟨b, m, m₁, hb, hmoves, rfl⟩
  · exact .inl hm
  all_goals
    rw [lookup_setMember] at hm
    split at hm
  case inr.inl.isTrue ha => cases hm; exact .inr (.inl ⟨localNode, seeds, he, ha.symm, rfl⟩)
  case inr.inl.isFalse   => exact .inl hm
  case inr.inr.isTrue ha => cases hm; subst ha; exact .inr (.inr ⟨m, hb, hmoves⟩)
  case inr.inr.isFalse   => exact .inl hm

-- No node is ever gone.
theorem isSome_of_step (h : step net s e = some s') (hm : s.members.lookup a = some m) :
    ∃ m', s'.members.lookup a = some m' := by
  rcases step_cases h with ⟨d, -, rfl⟩ | ⟨localNode, seeds, -, rfl⟩ | ⟨b, m₀, m₁, -, -, rfl⟩
  · exact ⟨m, hm⟩
  all_goals
    rw [lookup_setMember]
    split
  case inr.inl.isTrue  => exact ⟨_, rfl⟩
  case inr.inl.isFalse => exact ⟨m, hm⟩
  case inr.inr.isTrue  => exact ⟨_, rfl⟩
  case inr.inr.isFalse => exact ⟨m, hm⟩

-- What holds of a node when it starts, and is kept by what changes it and by time, is kept by every
-- event.
theorem member_of_step {P : Nat → Member → Prop} (h : step net s e = some s')
    (hp : ∀ m, s.members.lookup a = some m → P s.time m)
    (later : ∀ t t' m, t ≤ t' → P t m → P t' m)
    (boot : ∀ localNode seeds, localNode.profile.id = a → P s.time (.boot s.time localNode seeds))
    (moves : ∀ m m', s.members.lookup a = some m → P s.time m → Moves net s a m e m' → P s.time m') :
    ∀ m, s'.members.lookup a = some m → P s'.time m := by
  intro m' hm'
  refine later _ _ _ (time_le_of_step h) ?_
  rcases member_cases h hm' with hm | ⟨localNode, seeds, -, ha, rfl⟩ | ⟨m, hm, hmoves⟩
  · exact hp m' hm
  · exact boot _ _ ha
  · exact moves m m' hm (hp m hm) hmoves

end Network

end All4One.Membership
