import All4One.Raft.Theorems.Registry

open Foundation

namespace All4One.Raft

namespace RaftCommand

-- The token that a command stores.
def storedToken : RaftCommand → Option String
  | storeEnrollToken token .. => some token
  | _                         => none

end RaftCommand

namespace SledStateMachine

def IsUsed (token : String) (s : RaftState) : Prop :=
  ∃ t, s.enrollTokens.lookup token = some t ∧ t.used = true

-- A token has been consumed.
def Consumed (token : String) (cmds : List TimedCommand) : Prop :=
  ∃ before now rest, cmds = before ++ (.consumeEnrollToken token, now) :: rest ∧
    (respond before (.consumeEnrollToken token) now).success = true

-- A token is stored once more after it has been stored and then asked for.
def Restored (token : String) (cmds : List TimedCommand) : Prop :=
  ∃ before now rest, cmds = before ++ (.consumeEnrollToken token, now) :: rest ∧
    (∃ c ∈ before, c.1.storedToken = some token) ∧ ∃ c ∈ rest, c.1.storedToken = some token

structure SingleUse (token : String) (cmds : List TimedCommand) : Prop where
  consume : ∀ pre now, pre ++ [(.consumeEnrollToken token, now)] <+: cmds →
    ((respond pre (.consumeEnrollToken token) now).success = true ↔
      (∃ c ∈ pre, c.1.storedToken = some token) ∧ ¬ Consumed token pre)
  once    : ∀ pre now mid now', pre ++ (.consumeEnrollToken token, now) :: mid ++
      [(.consumeEnrollToken token, now')] <+: cmds →
    (respond pre (.consumeEnrollToken token) now).success = true →
    (respond (pre ++ (.consumeEnrollToken token, now) :: mid) (.consumeEnrollToken token) now').success =
      false
  used    : ∀ pre cmd now, pre ++ [(cmd, now)] <+: cmds → IsUsed token (after pre) →
    IsUsed token (after (pre ++ [(cmd, now)]))

variable {s : RaftState} {cmd : RaftCommand} {now : String} {cmds pre rest : List TimedCommand}
  {token expiresAt issuedBy : String}

section Command

-- A command leaves a token alone unless it stores or consumes it.
theorem applyCommand_token (hs : cmd.storedToken ≠ some token)
    (hc : cmd ≠ .consumeEnrollToken token) :
    (applyCommand s now cmd).2.enrollTokens.lookup token = s.enrollTokens.lookup token := by
  cases cmd
  case registerJob id _ _ _ => cases h : s.jobRegistry.lookup id <;> simp [applyCommand, h]
  case updateJobStatus id _ _ => cases h : s.jobRegistry.lookup id <;> simp [applyCommand, h]
  case addMember => rfl
  case removeMember => rfl
  case storeEnrollToken t _ _ =>
    have ht : token ≠ t := by rintro rfl; exact hs rfl
    simp [applyCommand, Finmap.lookup_insert_of_ne _ ht]
  case consumeEnrollToken t =>
    have ht : token ≠ t := by rintro rfl; exact hc rfl
    simp only [applyCommand]
    split
    · split
      · rfl
      · simp [Finmap.lookup_insert_of_ne _ ht]
    · rfl

theorem consume_success :
    (applyCommand s now (.consumeEnrollToken token)).1.success = true ↔
    ∃ t, s.enrollTokens.lookup token = some t ∧ t.used = false := by
  cases h : s.enrollTokens.lookup token
  case none => simp [applyCommand, h, RaftCommandResponse.rejected]
  case some t =>
    cases hu : t.used <;>
      simp [applyCommand, h, hu, RaftCommandResponse.accepted, RaftCommandResponse.rejected]

-- Whether it goes through or not, a token that is there is used once it has been asked for.
theorem consume_isUsed (h : token ∈ s.enrollTokens) :
    IsUsed token (applyCommand s now (.consumeEnrollToken token)).2 := by
  have ⟨t, ht⟩ := Finmap.mem_iff.mp h
  cases hu : t.used
  case true  => exact ⟨t, by simp [applyCommand, ht, hu], hu⟩
  case false => exact ⟨{ t with used := true }, by simp [applyCommand, ht, hu], rfl⟩

theorem consume_token_of_none (h : s.enrollTokens.lookup token = none) :
    (applyCommand s now (.consumeEnrollToken token)).2.enrollTokens.lookup token = none := by
  simp [applyCommand, h]

theorem store_not_isUsed :
    ¬ IsUsed token (applyCommand s now (.storeEnrollToken token expiresAt issuedBy)).2 := by
  rintro ⟨t, ht, hu⟩
  simp only [applyCommand, Finmap.lookup_insert, Option.some.injEq] at ht
  rw [← ht] at hu
  cases hu

end Command

section Commands

theorem storedToken_cases (h : cmd.storedToken = some token) :
    ∃ expiresAt issuedBy, cmd = .storeEnrollToken token expiresAt issuedBy := by
  cases cmd <;> cases h
  exact ⟨_, _, rfl⟩

theorem mem_enrollTokens_iff :
    token ∈ (after cmds).enrollTokens ↔ ∃ c ∈ cmds, c.1.storedToken = some token := by
  induction cmds using List.reverseRecOn
  case nil =>
    have hn : token ∉ (after []).enrollTokens := Finmap.notMem_empty
    simp [hn]
  case append_singleton cmds c hi =>
    obtain ⟨cmd, now⟩ := c
    simp only [List.mem_append, List.mem_singleton, or_and_right, exists_or, exists_eq_left, ← hi,
      after_append]
    by_cases hs : cmd.storedToken = some token
    case pos =>
      obtain ⟨_, _, hc⟩ := storedToken_cases hs
      subst hc
      simp [applyCommand, hs]
    case neg =>
      simp only [hs, or_false]
      by_cases hc : cmd = .consumeEnrollToken token
      case neg => rw [← Finmap.lookup_isSome, ← Finmap.lookup_isSome, applyCommand_token hs hc]
      case pos =>
        subst hc
        constructor
        case mpr =>
          intro h
          obtain ⟨t, ht, _⟩ : IsUsed token (applyCommand (after cmds) now (.consumeEnrollToken token)).2 :=
            consume_isUsed h
          exact Finmap.mem_of_lookup_eq_some ht
        case mp =>
          intro h
          by_contra hn
          rw [← Finmap.lookup_eq_none] at hn
          rw [← Finmap.lookup_isSome, consume_token_of_none hn] at h
          cases h

theorem Restored.append (h : Restored token pre) : Restored token (pre ++ rest) := by
  have ⟨before, now, mid, hc, hs, c, hm, ht⟩ := h
  exact ⟨before, now, mid ++ rest, by simp [hc], hs, c, List.mem_append_left _ hm, ht⟩

theorem Consumed.append (h : Consumed token pre) : Consumed token (pre ++ rest) := by
  have ⟨before, now, mid, hc, hs⟩ := h
  exact ⟨before, now, mid ++ rest, by simp [hc], hs⟩

-- What has been consumed had been stored.
theorem Consumed.restored (h : Consumed token pre) (hs : cmd.storedToken = some token) :
    Restored token (pre ++ [(cmd, now)]) := by
  have ⟨before, now', mid, hc, hr⟩ := h
  have ⟨t, ht, _⟩ := consume_success.mp hr
  refine ⟨before, now', mid ++ [(cmd, now)], by simp [hc], ?_, (cmd, now), by simp, hs⟩
  exact mem_enrollTokens_iff.mp (Finmap.mem_of_lookup_eq_some ht)

theorem consumed_append_iff : Consumed token (pre ++ [(cmd, now)]) ↔ Consumed token pre ∨
    cmd = .consumeEnrollToken token ∧
      (respond pre (.consumeEnrollToken token) now).success = true := by
  constructor
  case mpr =>
    rintro (h | ⟨rfl, h⟩)
    · exact h.append
    · exact ⟨pre, now, [], rfl, h⟩
  case mp =>
    rintro ⟨before, now', mid, hc, hr⟩
    induction mid using List.reverseRecOn
    case nil =>
      have ⟨hp, hl⟩ := List.append_inj' hc rfl
      simp only [List.cons.injEq, Prod.mk.injEq, and_true] at hl
      have ⟨hcmd, hn⟩ := hl
      subst hp hcmd hn
      exact .inr ⟨rfl, hr⟩
    case append_singleton mid' c _ =>
      rw [← List.cons_append, ← List.append_assoc] at hc
      have ⟨hp, _⟩ := List.append_inj' hc rfl
      exact .inl ⟨before, now', mid', hp, hr⟩

-- Where no token comes back, those that have been consumed are those that are used.
theorem isUsed_iff (h : ¬ Restored token cmds) : IsUsed token (after cmds) ↔ Consumed token cmds := by
  induction cmds using List.reverseRecOn
  case nil =>
    constructor
    · rintro ⟨t, ht, _⟩
      cases ht
    · rintro ⟨before, now, rest, hc, _⟩
      simp at hc
  case append_singleton cmds c hi =>
    obtain ⟨cmd, now⟩ := c
    have hi := hi fun hr => h hr.append
    rw [after_append, consumed_append_iff, ← hi, respond, consume_success]
    by_cases hs : cmd.storedToken = some token
    case pos =>
      have hn : ¬ IsUsed token (after cmds) := fun hu => h ((hi.mp hu).restored hs)
      obtain ⟨_, _, hc⟩ := storedToken_cases hs
      subst hc
      simp [store_not_isUsed, hn]
    case neg =>
      by_cases hc : cmd = .consumeEnrollToken token
      case neg => simp [IsUsed, applyCommand_token hs hc, hc]
      case pos =>
        subst hc
        simp only [true_and]
        cases ht : (after cmds).enrollTokens.lookup token
        case none => simp [IsUsed, consume_token_of_none ht, ht]
        case some t =>
          have hu : IsUsed token (applyCommand (after cmds) now (.consumeEnrollToken token)).2 :=
            consume_isUsed (Finmap.mem_of_lookup_eq_some ht)
          refine iff_of_true hu ?_
          cases hut : t.used
          case true  => exact .inl ⟨t, ht, hut⟩
          case false => exact .inr ⟨t, rfl, hut⟩

theorem respond_consume_iff (h : ¬ Restored token pre) :
    (respond pre (.consumeEnrollToken token) now).success = true ↔
    (∃ c ∈ pre, c.1.storedToken = some token) ∧ ¬ Consumed token pre := by
  rw [respond, consume_success, ← mem_enrollTokens_iff, ← isUsed_iff h, Finmap.mem_iff]
  cases ht : (after pre).enrollTokens.lookup token
  case none   => simp
  case some t => cases hu : t.used <;> simp [IsUsed, ht, hu]

-- A token is good for one use exactly as long as it is not stored once more after it was asked for.
theorem singleUse_iff (token : String) (cmds : List TimedCommand) :
    SingleUse token cmds ↔ ¬ Restored token cmds := by
  constructor
  case mp =>
    rintro h ⟨before, now, rest, rfl, hb, c, hc, hs⟩
    have ⟨mid, post, hr⟩ := List.append_of_mem hc
    subst hr
    -- Once asked for, the token stays used until it is stored again.
    have hused (mid' : List TimedCommand) (hm : mid' <+: mid) :
        IsUsed token (after (before ++ (.consumeEnrollToken token, now) :: mid')) := by
      induction mid' using List.reverseRecOn
      case nil =>
        rw [after_append]
        exact consume_isUsed (mem_enrollTokens_iff.mpr hb)
      case append_singleton mid' c' hi =>
        have hi := hi ((List.prefix_append _ _).trans hm)
        have hp : before ++ (.consumeEnrollToken token, now) :: mid' ++ [c'] <+:
            before ++ (.consumeEnrollToken token, now) :: (mid ++ c :: post) := by
          rw [List.append_assoc, List.prefix_append_right_inj, List.cons_append,
            List.prefix_cons_inj]
          exact hm.trans (List.prefix_append _ _)
        have := h.used _ c'.1 c'.2 hp hi
        simpa using this
    have ⟨cmd, now'⟩ := c
    have ⟨expiresAt, issuedBy, hcmd⟩ := storedToken_cases hs
    simp only at hcmd
    subst hcmd
    let store : RaftCommand := .storeEnrollToken token expiresAt issuedBy
    have hp : before ++ (.consumeEnrollToken token, now) :: mid ++ [(store, now')] <+:
        before ++ (.consumeEnrollToken token, now) :: (mid ++ (store, now') :: post) := by
      rw [List.append_assoc, List.prefix_append_right_inj, List.cons_append, List.prefix_cons_inj,
        List.prefix_append_right_inj, List.cons_prefix_cons]
      exact ⟨rfl, List.nil_prefix⟩
    have hu := h.used _ _ _ hp (hused mid (List.prefix_refl _))
    rw [after_append] at hu
    exact store_not_isUsed hu
  case mpr =>
    intro h
    have hpre {pre} (hp : pre <+: cmds) : ¬ Restored token pre := fun hr => by
      have ⟨rest, hc⟩ := hp
      exact h (hc ▸ hr.append)
    constructor
    case consume =>
      intro pre now hp
      exact respond_consume_iff (hpre ((List.prefix_append _ _).trans hp))
    case once =>
      intro pre now mid now' hp hs
      have hc : Consumed token (pre ++ (.consumeEnrollToken token, now) :: mid) :=
        ⟨pre, now, mid, rfl, hs⟩
      rw [Bool.eq_false_iff]
      exact fun hs' => ((respond_consume_iff (hpre ((List.prefix_append _ _).trans hp))).mp hs').2 hc
    case used =>
      intro pre cmd now hp hu
      rw [isUsed_iff (hpre hp)]
      rw [isUsed_iff (hpre ((List.prefix_append _ _).trans hp))] at hu
      exact hu.append

-- A token that is stored again can be used again.
theorem singleUse_fails : ¬ SingleUse "token" [
    (.storeEnrollToken "token" "2026-04-09T10:00:00+00:00" "node", "10:00"),
    (.consumeEnrollToken "token", "10:01"),
    (.storeEnrollToken "token" "2026-04-09T10:00:00+00:00" "node", "10:02"),
    (.consumeEnrollToken "token", "10:03")] := by
  intro h
  have := h.once [(.storeEnrollToken "token" "2026-04-09T10:00:00+00:00" "node", "10:00")] "10:01"
    [(.storeEnrollToken "token" "2026-04-09T10:00:00+00:00" "node", "10:02")] "10:03"
    (List.prefix_refl _) (by decide)
  revert this
  decide

end Commands

end SledStateMachine

end All4One.Raft
