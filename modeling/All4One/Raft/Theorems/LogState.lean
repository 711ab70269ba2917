import All4One.Raft.Theorems.LogStore

open Foundation

namespace All4One.Raft

namespace Log

open SledLogStore

variable {log : Log} {e : Entry} {es : List Entry} {c : Call} {last : Option LogId} {id : LogId}

structure Ordered (log : Log) : Prop where
  indexed : ∀ i e, log.entries i = some e → e.logId.index = i
  mono    : ∀ i j e e', log.entries i = some e → log.entries j = some e' → i < j → e.logId < e'.logId
  above   : ∀ p i e, log.lastPurged = some p → log.entries i = some e → p < e.logId

-- The log has an entry, or nothing was purged from it.
def Live (log : Log) : Prop :=
  log.lastPurged = none ∨ ∃ i e, log.entries i = some e

theorem empty_ordered : Ordered empty where
  indexed _ _ h     := nomatch h
  mono _ _ _ _ h    := nomatch h
  above _ _ _ h     := nomatch h

namespace Ordered

theorem lt_next (h : log.Ordered) (hl : log.Latest last)
    (hn : ∀ l, last = some l → l < e.logId ∧ e.logId.index = l.index + 1) :
    (∀ i e', log.entries i = some e' → i < e.logId.index ∧ e'.logId < e.logId) ∧
    ∀ p, log.lastPurged = some p → p < e.logId := by
  rcases hl with ⟨i, t, ht, rfl, hmax⟩ | ⟨hnone, rfl⟩
  case inl =>
    have ⟨hid, hidx⟩ := hn t.logId rfl
    rw [h.indexed i t ht] at hidx
    constructor
    case left =>
      intro j e' he'
      have hj := hmax j e' he'
      rcases Nat.lt_or_eq_of_le hj with hlt | rfl
      case inl => exact ⟨by omega, (h.mono j i e' t he' ht hlt).trans hid⟩
      case inr =>
        obtain rfl := Option.some.inj (he'.symm.trans ht)
        exact ⟨by omega, hid⟩
    case right => exact fun p hp => (h.above p i t hp ht).trans hid
  case inr =>
    constructor
    case left  => exact fun i e' he' => nomatch (hnone i).symm.trans he'
    case right => exact fun p hp => (hn p hp).1

theorem append_one (h : log.Ordered) (hl : log.Latest last)
    (hn : ∀ l, last = some l → l < e.logId ∧ e.logId.index = l.index + 1) :
    (log.append [e]).Ordered ∧ (log.append [e]).Latest (some e.logId) := by
  have ⟨hlt, hp⟩ := h.lt_next hl hn
  have hself : (log.append [e]).entries e.logId.index = some e := by simp [append]
  have hcases (i e') (he' : (log.append [e]).entries i = some e') :
      i = e.logId.index ∧ e' = e ∨ log.entries i = some e' := by
    by_cases hi : i = e.logId.index
    case pos =>
      subst hi
      rw [hself] at he'
      exact .inl ⟨rfl, (Option.some.inj he').symm⟩
    case neg => exact .inr (by simpa [append, hi] using he')
  constructor
  case right =>
    refine .inl ⟨_, e, hself, rfl, fun j e' he' => ?_⟩
    rcases hcases j e' he' with ⟨rfl, _⟩ | he'
    · exact Nat.le_refl _
    · exact Nat.le_of_lt (hlt j e' he').1
  case left =>
    constructor
    case indexed =>
      intro i e' he'
      rcases hcases i e' he' with ⟨rfl, rfl⟩ | he'
      · rfl
      · exact h.indexed i e' he'
    case mono =>
      intro i j a b ha hb hij
      rcases hcases i a ha with ⟨hi, ha'⟩ | ha' <;> rcases hcases j b hb with ⟨hj, hb'⟩ | hb'
      · exact absurd (hi.trans hj.symm) (Nat.ne_of_lt hij)
      · exact absurd (hi ▸ (hlt j b hb').1) (Nat.lt_asymm hij)
      · exact hb' ▸ (hlt i a ha').2
      · exact h.mono i j a b ha' hb' hij
    case above =>
      intro p i e' hp' he'
      rcases hcases i e' he' with ⟨rfl, rfl⟩ | he'
      · exact hp p hp'
      · exact h.above p i e' hp' he'

theorem append (h : log.Ordered) (hl : log.Latest last) (hc : Continues last es) :
    (log.append es).Ordered := by
  induction es generalizing log last
  case nil => exact h
  case cons e es hi =>
    have ⟨h, hl⟩ := h.append_one hl hc.1
    exact hi h hl hc.2

-- Entries that are left out leave the others in order.
theorem filter {m : Nat → Option Entry} {purged : Option LogId} (h : log.Ordered)
    (hm : ∀ i e, m i = some e → log.entries i = some e)
    (hp : ∀ p i e, purged = some p → m i = some e → p < e.logId) :
    Ordered { log with entries := m, lastPurged := purged } where
  indexed i e he          := h.indexed i e (hm i e he)
  mono i j a b ha hb hij  := h.mono i j a b (hm i a ha) (hm j b hb) hij
  above                   := hp

theorem call (h : log.Ordered) (ha : log.Admits c) : (log.call c).Ordered := by
  cases ha
  case append hl hc _         => exact h.append hl hc
  case saveVote               => exact ⟨h.indexed, h.mono, h.above⟩
  case saveCommitted          => exact ⟨h.indexed, h.mono, h.above⟩
  case reopen                 => exact h
  case truncate id _ =>
    have hm (i e) (he : (if id.index ≤ i then none else log.entries i) = some e) :
        log.entries i = some e := by
      split at he
      · cases he
      · exact he
    exact h.filter hm fun p i e hp he => h.above p i e hp (hm i e he)
  case purge id _ hid =>
    have hm (i e) (he : (if i ≤ id.index then none else log.entries i) = some e) :
        log.entries i = some e ∧ id.index < i := by
      split at he
      case isTrue  => cases he
      case isFalse hi => exact ⟨he, Nat.lt_of_not_le hi⟩
    refine h.filter (fun i e he => (hm i e he).1) fun p i e hp he => ?_
    obtain rfl := Option.some.inj hp
    have ⟨he, hi⟩ := hm i e he
    rcases hid with ⟨t, ht, hid⟩ | hid
    · exact hid ▸ h.mono _ _ t e ht he hi
    · exact absurd (hid i e he).2 (Nat.lt_asymm hi)

end Ordered

-- Appending does not take an entry away.
theorem append_entries_isSome {i : Nat} (h : (log.entries i).isSome) :
    ((log.append es).entries i).isSome := by
  induction es generalizing log
  case nil => exact h
  case cons e es hi =>
    have hone : ((log.append [e]).entries i).isSome := by
      by_cases hx : i = e.logId.index
      · subst hx
        simp [append]
      · simpa [append, hx] using h
    exact hi hone

theorem live_iff : log.Live ↔ log.lastPurged = none ∨ ∃ i, (log.entries i).isSome := by
  simp only [Live, Option.isSome_iff_exists]

theorem Live.append (h : log.Live) : (log.append es).Live := by
  rw [live_iff] at h ⊢
  exact h.imp id fun ⟨i, hi⟩ => ⟨i, append_entries_isSome hi⟩

-- The calls that keep a log alive.
theorem live_call (h : log.Live) : (log.call c).Live ↔ log.Keeps c := by
  cases c
  case append es     => exact iff_of_true h.append trivial
  case saveVote      => exact iff_of_true h trivial
  case saveCommitted => exact iff_of_true h trivial
  case reopen        => exact iff_of_true h trivial
  case truncate id =>
    simp only [call, truncate, Live, Keeps]
    refine or_congr_right ?_
    refine exists₂_congr fun i e => ?_
    by_cases hi : id.index ≤ i
    · simp [hi]
    · simp [hi, Nat.lt_of_not_le hi]
  case purge id =>
    simp only [call, purge, Live, Keeps, reduceCtorEq, false_or]
    refine exists₂_congr fun i e => ?_
    by_cases hi : i ≤ id.index
    · simp [hi]
    · simp [hi, Nat.lt_of_not_le hi]

end Log

namespace SledLogStore

variable {serde : LogSerde} {s : SledLogStore} {log : Log} {c : Call} {calls : List Call}

-- The id that a call purges.
def Call.purgedId : Call → Option LogId
  | purge id => some id
  | _        => none

def lastPurge (calls : List Call) : Option LogId :=
  (calls.filterMap Call.purgedId).getLast?

-- What the state of a log is meant to be.
structure IsLogState (calls : List Call) (state : LogState) : Prop where
  purged : state.lastPurgedLogId = lastPurge calls
  latest : (Log.after calls).Latest state.lastLogId
  le     : ∀ p, state.lastPurgedLogId = some p → ∃ l, state.lastLogId = some l ∧ p ≤ l

def ShowsState (serde : LogSerde) (calls : List Call) : Prop :=
  ∃ s state, Transition.run (call serde) (openDb ⟨∅⟩) calls = some s ∧
    s.getLogState serde = some state ∧ IsLogState calls state

theorem lastPurged_after : (Log.after calls).lastPurged = lastPurge calls := by
  induction calls using List.reverseRecOn
  case nil => rfl
  case append_singleton cs c hi =>
    have ha : Log.after (cs ++ [c]) = (Log.after cs).call c := by simp [Log.after]
    have hp : lastPurge (cs ++ [c]) = c.purgedId.or (lastPurge cs) := by
      cases h : c.purgedId <;> simp [lastPurge, h]
    rw [ha, hp, ← hi]
    cases c <;> rfl

-- The state that is shown is right where the log is alive.
theorem isLogState_iff (h : s.Holds serde (Log.after calls)) (ho : (Log.after calls).Ordered) :
    (∃ state, s.getLogState serde = some state ∧ IsLogState calls state) ↔
    (Log.after calls).Live := by
  have ⟨es, hl⟩ := h.stores.lists
  rw [hl.getLogState h]
  simp only [Option.some.injEq, exists_eq_left']
  have hmem (i e) (he : (Log.after calls).entries i = some e) : e ∈ es ∧ e.logId.index = i := by
    have hi := ho.indexed i e he
    exact ⟨(hl.lists.mem e).mpr (hi ▸ he), hi⟩
  cases he : es.getLast?
  case none =>
    rw [List.getLast?_eq_none_iff] at he
    have hn (i) : (Log.after calls).entries i = none := by
      rw [Option.eq_none_iff_forall_ne_some]
      intro e hi
      have ⟨hm, _⟩ := hmem i e hi
      rw [he] at hm
      cases hm
    constructor
    case mp =>
      intro h
      refine .inl ?_
      by_contra hp
      have ⟨p, hp⟩ := Option.ne_none_iff_exists'.mp hp
      have ⟨l, hl, _⟩ := h.le p hp
      cases hl
    case mpr =>
      rintro (hp | ⟨i, e, hi⟩)
      · exact ⟨lastPurged_after, .inr ⟨hn, hp.symm⟩, fun p hp' => nomatch hp.symm.trans hp'⟩
      · exact nomatch (hn i).symm.trans hi
  case some e =>
    have hm := List.mem_of_getLast? he
    have hi := (hl.lists.mem e).mp hm
    refine iff_of_true ⟨lastPurged_after, .inl ⟨_, e, hi, rfl, ?_⟩, ?_⟩ (.inr ⟨_, e, hi⟩)
    case refine_1 =>
      intro j e' he'
      have ⟨hm', hj⟩ := hmem j e' he'
      have ⟨init, hes⟩ := List.getLast?_eq_some_iff.mp he
      have hs := hl.lists.sorted
      rw [hes, List.mem_append, List.mem_singleton] at hm'
      rw [hes, List.pairwise_append] at hs
      rcases hm' with hm' | rfl
      · exact hj ▸ Nat.le_of_lt (hs.2.2 e' hm' e (List.mem_singleton_self e))
      · exact hj ▸ Nat.le_refl _
    case refine_2 =>
      intro p hp
      exact ⟨_, rfl, le_of_lt (ho.above p _ e hp hi)⟩

open Foundation.Transition

-- Logs on the way of a run that openraft can make.
theorem admitted_run (serde : LogSerde) (h : Guarded Log.step Log.Admits .empty calls) :
    run Log.step .empty calls = some (Log.after calls) ∧ (Log.after calls).Ordered ∧
    ∃ s, run (call serde) (openDb ⟨∅⟩) calls = some s ∧ s.Holds serde (Log.after calls) := by
  induction calls using List.reverseRecOn
  case nil => exact ⟨rfl, Log.empty_ordered, _, rfl, .openDb⟩
  case append_singleton cs c hi =>
    have ⟨hg, hc⟩ := guarded_append.mp h
    have ⟨hr, ho, s, hs, hh⟩ := hi hg
    have ha : Log.after (cs ++ [c]) = (Log.after cs).call c := by simp [Log.after]
    have hadm : (Log.after cs).Admits c := (hc _ hr _ rfl).1
    have hw : c.IsWide := by
      cases hadm
      case append hw => exact hw
      all_goals trivial
    have ⟨s', hs', hh'⟩ := hh.call hw
    rw [ha]
    refine ⟨run_append_of_some hr rfl, ho.call hadm, s', ?_, hh'⟩
    exact run_append_of_some hs (run_of_step hs' rfl)

theorem showsState_iff (h : Guarded Log.step Log.Admits .empty calls) :
    ShowsState serde calls ↔ (Log.after calls).Live := by
  have ⟨_, ho, s, hs, hh⟩ := admitted_run serde h
  rw [← isLogState_iff hh ho]
  constructor
  case mp =>
    rintro ⟨s', state, hs', hst⟩
    obtain rfl := Option.some.inj (hs.symm.trans hs')
    exact ⟨state, hst⟩
  case mpr => exact fun ⟨state, hst⟩ => ⟨s, state, hs, hst⟩

-- The state that is shown stays right for as long as every call leaves an entry.
theorem showsState_run_iff (serde : LogSerde) {calls : List Call}
    (h : Guarded Log.step Log.Admits .empty calls) :
    (∀ pre, pre <+: calls → ShowsState serde pre) ↔ Guarded Log.step Log.Keeps .empty calls := by
  induction calls using List.reverseRecOn
  case nil =>
    refine iff_of_true (fun pre hp => ?_) trivial
    rw [List.prefix_nil.mp hp, showsState_iff h]
    exact .inl rfl
  case append_singleton cs c hi =>
    have hg := (guarded_append.mp h).1
    have hi := hi hg
    have hr := (admitted_run serde hg).1
    have ha : Log.after (cs ++ [c]) = (Log.after cs).call c := by simp [Log.after]
    rw [guarded_append]
    constructor
    case mp =>
      intro hs
      have hcs := hi.mp fun pre hp => hs pre (hp.trans (List.prefix_append _ _))
      refine ⟨hcs, fun s' hr' s'' _ => ⟨?_, trivial⟩⟩
      obtain rfl := Option.some.inj (hr.symm.trans hr')
      have hlive := (showsState_iff hg).mp (hs cs (List.prefix_append _ _))
      rw [← Log.live_call hlive, ← ha]
      exact (showsState_iff h).mp (hs _ (List.prefix_refl _))
    case mpr =>
      rintro ⟨hcs, hc⟩ pre hp
      rcases List.prefix_concat_iff.mp hp with rfl | hp
      case inr => exact hi.mpr hcs pre hp
      case inl =>
        have hlive := (showsState_iff hg).mp (hi.mpr hcs cs (List.prefix_refl _))
        rw [showsState_iff h, ha, Log.live_call hlive]
        exact (hc _ hr _ rfl).1

section Sample

theorem guarded_cons {guard : Log → Call → Prop} : Guarded Log.step guard log (c :: calls) ↔
    guard log c ∧ Guarded Log.step guard (log.call c) calls := by
  simp [Guarded, Log.step]

def nextId : LogId := { sampleId with index := 1 }

theorem admits_two : Guarded Log.step Log.Admits .empty
    [.append [⟨sampleId, .blank⟩, ⟨nextId, .blank⟩], .purge sampleId] := by
  have hc : Log.Continues none [⟨sampleId, .blank⟩, ⟨nextId, .blank⟩] :=
    ⟨nofun, fun l hl => Option.some.inj hl ▸ ⟨by decide, rfl⟩, trivial⟩
  rw [guarded_cons, guarded_cons]
  refine ⟨.append (.inr ⟨fun _ => rfl, rfl⟩) hc (by decide), ?_, trivial⟩
  exact .purge nofun (.inl ⟨_, rfl, rfl⟩)

theorem showsState_two :
    Guarded Log.step Log.Admits .empty
      [.append [⟨sampleId, .blank⟩, ⟨nextId, .blank⟩], .purge sampleId] ∧
    ∀ pre, pre <+: [.append [⟨sampleId, .blank⟩, ⟨nextId, .blank⟩], .purge sampleId] →
      ShowsState sampleSerde pre := by
  refine ⟨admits_two, (showsState_run_iff sampleSerde admits_two).mpr ?_⟩
  rw [guarded_cons, guarded_cons]
  exact ⟨trivial, ⟨1, _, rfl, by decide⟩, trivial⟩

-- Once everything is purged, the log has no last id.
theorem showsState_fails :
    Guarded Log.step Log.Admits .empty [.append [⟨sampleId, .blank⟩], .purge sampleId] ∧
    ¬ ShowsState sampleSerde [.append [⟨sampleId, .blank⟩], .purge sampleId] := by
  have h : Guarded Log.step Log.Admits .empty
      [.append [⟨sampleId, .blank⟩], .purge sampleId] := by
    rw [guarded_cons, guarded_cons]
    refine ⟨.append (.inr ⟨fun _ => rfl, rfl⟩) ⟨nofun, trivial⟩ (by decide), ?_, trivial⟩
    exact .purge nofun (.inl ⟨_, rfl, rfl⟩)
  refine ⟨h, ?_⟩
  rw [showsState_iff h]
  rintro (hp | ⟨i, e, he⟩)
  · cases hp
  · have he : (if i ≤ 0 then none
        else Function.update (fun _ => none) 0 (some ⟨sampleId, .blank⟩) i) = some e := he
    split at he
    case isTrue  => cases he
    case isFalse hi =>
      rw [Function.update_of_ne (by omega)] at he
      cases he

end Sample

end SledLogStore

end All4One.Raft
