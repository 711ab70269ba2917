import All4One.Raft.Theorems.LogState

open Foundation

namespace All4One.Raft

namespace Log

variable {m : Nat → Option Entry} {es : List Entry} {first i : Nat}

-- The indices of a list of entries that follow one another.
def Consecutive (first : Nat) (es : List Entry) : Prop :=
  es.map (·.logId.index) = List.range' first es.length

theorem sorted_ext {l l' : List Nat} (h : l.Pairwise (· < ·)) (h' : l'.Pairwise (· < ·))
    (hm : ∀ i, i ∈ l ↔ i ∈ l') : l = l' :=
  h.eq_of_mem_iff h' hm

theorem Lists.mem_indices (h : Lists m es) (hi : ∀ i e, m i = some e → e.logId.index = i) :
    i ∈ es.map (·.logId.index) ↔ (m i).isSome := by
  rw [List.mem_map, Option.isSome_iff_exists]
  constructor
  case mp =>
    rintro ⟨e, he, rfl⟩
    exact ⟨e, (h.mem e).mp he⟩
  case mpr =>
    rintro ⟨e, he⟩
    have hx := hi i e he
    exact ⟨e, (h.mem e).mpr (hx ▸ he), hx⟩

theorem Lists.consecutive_iff (h : Lists m es) (hi : ∀ i e, m i = some e → e.logId.index = i) :
    Consecutive first es ↔ ∃ n, ∀ i, (m i).isSome ↔ first ≤ i ∧ i < first + n := by
  have hs : (es.map (·.logId.index)).Pairwise (· < ·) := List.pairwise_map.mpr h.sorted
  constructor
  case mp =>
    intro hc
    refine ⟨es.length, fun i => ?_⟩
    rw [← h.mem_indices hi, hc, List.mem_range'_1]
  case mpr =>
    rintro ⟨n, hn⟩
    have he : es.map (·.logId.index) = List.range' first n := by
      refine sorted_ext hs List.pairwise_lt_range' fun i => ?_
      rw [h.mem_indices hi, hn, List.mem_range'_1]
    have hl := congrArg List.length he
    rw [List.length_map, List.length_range'] at hl
    rw [Consecutive, he, hl]

theorem append_isSome_iff {log : Log} :
    ((log.append es).entries i).isSome ↔ (log.entries i).isSome ∨ ∃ e ∈ es, e.logId.index = i := by
  induction es generalizing log
  case nil => simp [append]
  case cons e es hi =>
    have ha : log.append (e :: es) = (log.append [e]).append es := rfl
    have hone : ((log.append [e]).entries i).isSome ↔ (log.entries i).isSome ∨ e.logId.index = i := by
      by_cases hx : i = e.logId.index
      · simp [append, hx]
      · simp [append, hx, Ne.symm hx]
    rw [ha, hi, hone]
    simp [or_assoc]

end Log

namespace SledLogStore

variable {serde : LogSerde} {s s' : SledLogStore} {log : Log} {es : List Entry}
  {purged : Option LogId} {c : Call} {n : Nat}

def firstIndex : Option LogId → Nat
  | some p => p.index + 1
  | none   => 0

-- The entries of a log store follow one another, from the one after the last that was purged.
structure Contiguous (serde : LogSerde) (s : SledLogStore) (es : List Entry) (purged : Option LogId) :
    Prop where
  entries    : s.tryGetLogEntries serde .all = some es
  lastPurged : (s.getLogState serde).map (·.lastPurgedLogId) = some purged
  indices    : Log.Consecutive (firstIndex purged) es

-- What can be called where a log store has some entries.
def Follows (es : List Entry) (purged : Option LogId) : Call → Prop
  | .append entries =>
    Log.Consecutive (firstIndex purged + es.length) entries ∧ ∀ e ∈ entries, e.logId.index < 2 ^ 64
  | .purge id => ∀ p, purged = some p → p.index ≤ id.index
  | _         => True

-- A crash leaves none or all of the writes of a call, or nothing of the log.
def Intact (es : List Entry) (n : Nat) : Call → Prop
  | .truncate id => n = 0 ∨ (es.filter fun e => id.index ≤ e.logId.index).length ≤ n
  | .purge id    =>
    n = 0 ∨ (es.filter fun e => e.logId.index ≤ id.index).length < n ∨ es.length ≤ n
  | _            => True

theorem contiguous_iff (h : s.Holds serde log) (hl : Lists serde s.db log.entries es)
    {es' : List Entry} : s.Contiguous serde es' purged ↔
    es' = es ∧ purged = log.lastPurged ∧ Log.Consecutive (firstIndex log.lastPurged) es := by
  have he : s.tryGetLogEntries serde .all = some es := by
    have ha : (es.filter fun e => IndexRange.all.contains e.logId.index) = es :=
      List.filter_eq_self.mpr fun _ _ => rfl
    rw [hl.tryGetLogEntries, ha]
  have hp : (s.getLogState serde).map (·.lastPurgedLogId) = some log.lastPurged := by
    rw [hl.getLogState h, Option.map_some]
  constructor
  case mp =>
    intro hc
    have he' := Option.some.inj (hc.entries.symm.trans he)
    have hp' := Option.some.inj (hc.lastPurged.symm.trans hp)
    exact ⟨he', hp', he' ▸ hp' ▸ hc.indices⟩
  case mpr =>
    rintro ⟨rfl, rfl, hc⟩
    exact ⟨he, hp, hc⟩

theorem exists_contiguous_iff (h : s.Holds serde log) :
    (∃ es purged, s.Contiguous serde es purged) ↔
    ∃ n, ∀ i, (log.entries i).isSome ↔
      firstIndex log.lastPurged ≤ i ∧ i < firstIndex log.lastPurged + n := by
  have ⟨es, hl⟩ := h.stores.lists
  simp only [contiguous_iff h hl, exists_and_left, exists_eq_left]
  rw [← hl.lists.consecutive_iff fun i e he => (h.stores.indexed i e he).1]

-- A log store that has lost the first of the entries that a condition on the index selects.
theorem mem_take_filter {first lo len k : Nat} {p : Nat → Bool} (h : Log.Consecutive first es)
    (hp : ∀ i, first ≤ i → i < first + es.length → (p i = true ↔ lo ≤ i ∧ i < lo + len))
    (hlo : first ≤ lo) (hlen : lo + len ≤ first + es.length) (i : Nat) :
    ((es.filter fun e => p e.logId.index).length = len) ∧
    ((∃ e ∈ (es.filter fun e => p e.logId.index).take k, e.logId.index = i) ↔
      lo ≤ i ∧ i < lo + min k len) := by
  have hf : (es.filter fun e => p e.logId.index).map (·.logId.index) = List.range' lo len := by
    have hm : (es.filter fun e => p e.logId.index).map (·.logId.index) =
        (es.map (·.logId.index)).filter p := List.filter_map.symm
    rw [hm, h]
    refine Log.sorted_ext (.filter _ List.pairwise_lt_range') List.pairwise_lt_range' fun i => ?_
    rw [List.mem_filter, List.mem_range'_1, List.mem_range'_1]
    constructor
    case mp  => exact fun ⟨⟨h₁, h₂⟩, hi⟩ => (hp i h₁ h₂).mp hi
    case mpr => exact fun hi => ⟨by omega, (hp i (by omega) (by omega)).mpr hi⟩
  constructor
  case left =>
    have := congrArg List.length hf
    simpa using this
  case right =>
    have ht : ((es.filter fun e => p e.logId.index).take k).map (·.logId.index) =
        List.range' lo (min k len) := by
      rw [List.map_take, hf]
      rcases Nat.le_total k len with hk | hk
      · rw [List.take_range'_of_length_ge hk, Nat.min_eq_left hk]
      · rw [List.take_range'_of_length_le hk, Nat.min_eq_right hk]
    rw [← List.mem_map, ht, List.mem_range'_1]

-- The entries that a store is left with.
theorem isSome_removes {m : Nat → Option Entry} {i : Nat} :
    (if ∃ e ∈ es, e.logId.index = i then none else m i).isSome ↔
    (m i).isSome ∧ ¬ ∃ e ∈ es, e.logId.index = i := by
  split
  case isTrue h  => simp [h]
  case isFalse h => simp [h]

theorem crash_removals (h : s.Holds serde log) (hl : Lists serde s.db log.entries es)
    {ws : List Sled.Write} {p : Entry → Bool}
    (hw : s.writes serde c = some (removals (es.filter p) ++ ws)) (hn : n ≤ (es.filter p).length) :
    ∃ s', s.crash serde c n = some s' ∧ s'.Holds serde { log with
      entries := fun i =>
        if ∃ e ∈ (es.filter p).take n, e.logId.index = i then none else log.entries i } := by
  have ht : (removals (es.filter p) ++ ws).take n = removals ((es.filter p).take n) := by
    rw [List.take_append_of_le_length (by simpa [removals] using hn)]
    simp [removals, List.map_take]
  refine ⟨_, by simp only [SledLogStore.crash, hw]; rfl, ?_⟩
  rw [ht]
  refine h.removes (h.stores.removes fun e he => hl.wide e ?_)
  exact List.mem_of_mem_filter (List.mem_of_mem_take he)

theorem crash_of_length_le {ws : List Sled.Write} (hw : s.writes serde c = some ws)
    (hn : ws.length ≤ n) : s.crash serde c n = s.call serde c := by
  simp [SledLogStore.crash, SledLogStore.call, hw, List.take_of_length_le hn]

theorem crash_zero {ws : List Sled.Write} (hw : s.writes serde c = some ws) :
    s.crash serde c 0 = some s := by
  simp only [SledLogStore.crash, hw]
  rfl

-- A segment stays one after it has lost a smaller one exactly where nothing is left behind that.
theorem segment_iff {first len lo k : Nat} (hlo : first ≤ lo) (hk : lo + k ≤ first + len) :
    (∃ m, ∀ i, (first ≤ i ∧ i < first + len) ∧ ¬ (lo ≤ i ∧ i < lo + k) ↔
      first ≤ i ∧ i < first + m) ↔ k = 0 ∨ lo + k = first + len := by
  constructor
  case mp =>
    rintro ⟨m, hm⟩
    by_contra hn
    have hfirst := hm lo
    have hlast := hm (lo + k)
    omega
  case mpr =>
    rintro (hz | he)
    · exact ⟨len, fun i => by omega⟩
    · exact ⟨lo - first, fun i => by omega⟩

section

variable (h : s.Holds serde log) (hl : Lists serde s.db log.entries es)
  (hi : Log.Consecutive (firstIndex log.lastPurged) es)

include h hl hi

theorem isSome_iff (i : Nat) : (log.entries i).isSome ↔
    firstIndex log.lastPurged ≤ i ∧ i < firstIndex log.lastPurged + es.length := by
  rw [← hl.lists.mem_indices fun i e he => (h.stores.indexed i e he).1, hi, List.mem_range'_1]

theorem removals_crash_iff {p : Nat → Bool} {ws : List Sled.Write} {lo len : Nat}
    (hw : s.writes serde c = some (removals (es.filter fun e => p e.logId.index) ++ ws))
    (hp : ∀ i, firstIndex log.lastPurged ≤ i → i < firstIndex log.lastPurged + es.length →
      (p i = true ↔ lo ≤ i ∧ i < lo + len))
    (hlo : firstIndex log.lastPurged ≤ lo)
    (hlen : lo + len ≤ firstIndex log.lastPurged + es.length) (hn : n ≤ len) :
    ∃ s', s.crash serde c n = some s' ∧ ((∃ es purged, s'.Contiguous serde es purged) ↔
      n = 0 ∨ lo + n = firstIndex log.lastPurged + es.length) := by
  have hrem := mem_take_filter (k := n) hi hp hlo hlen
  have ⟨s', hs', h'⟩ := crash_removals h hl hw ((hrem 0).1 ▸ hn)
  refine ⟨s', hs', ?_⟩
  rw [exists_contiguous_iff h']
  simp only [isSome_removes, isSome_iff h hl hi]
  simp only [(hrem _).2, Nat.min_eq_left hn]
  exact segment_iff hlo (by omega)

theorem truncate_crash_iff (id : LogId) : ∃ s', s.crash serde (.truncate id) n = some s' ∧
    ((∃ es purged, s'.Contiguous serde es purged) ↔ Intact es n (.truncate id)) := by
  let first := firstIndex log.lastPurged
  let lo := min (max first id.index) (first + es.length)
  have hp (i) (h₁ : first ≤ i) (h₂ : i < first + es.length) : decide (id.index ≤ i) = true ↔
      lo ≤ i ∧ i < lo + (first + es.length - lo) := by
    rw [decide_eq_true_eq]
    omega
  have hcount := (mem_take_filter (k := n) hi hp (by omega) (by omega) 0).1
  have hw : s.writes serde (.truncate id) =
      some (removals (es.filter fun e => id.index ≤ e.logId.index) ++ []) := by
    rw [writes, hl.truncate, List.append_nil]
  rw [Intact, hcount]
  rcases Nat.le_total n (first + es.length - lo) with hn | hn
  case inl =>
    obtain ⟨s', hs', hc⟩ := removals_crash_iff h hl hi hw hp (by omega) (by omega) hn
    refine ⟨s', hs', hc.trans ?_⟩
    omega
  case inr =>
    obtain ⟨s', hs', h'⟩ := h.call (c := .truncate id) trivial
    rw [crash_of_length_le hw (by simpa [removals, hcount] using hn)]
    refine ⟨s', hs', iff_of_true ?_ (.inr hn)⟩
    rw [exists_contiguous_iff h']
    refine ⟨lo - first, fun i => ?_⟩
    have ht : ((log.call (.truncate id)).entries i).isSome ↔
        (log.entries i).isSome ∧ ¬ id.index ≤ i := by
      by_cases hx : id.index ≤ i <;> simp [Log.call, Log.truncate, hx]
    have hf : firstIndex (log.call (.truncate id)).lastPurged = first := rfl
    rw [ht, isSome_iff h hl hi, hf]
    omega

theorem purge_crash_iff (id : LogId) (hid : ∀ p, log.lastPurged = some p → p.index ≤ id.index) :
    ∃ s', s.crash serde (.purge id) n = some s' ∧
    ((∃ es purged, s'.Contiguous serde es purged) ↔ Intact es n (.purge id)) := by
  let first := firstIndex log.lastPurged
  have hfirst : first ≤ id.index + 1 := by
    cases hp : log.lastPurged
    case none   => simp [first, hp, firstIndex]
    case some p => simpa [first, hp, firstIndex] using hid p hp
  let count := min (id.index + 1) (first + es.length) - first
  have hp (i) (h₁ : first ≤ i) (h₂ : i < first + es.length) : decide (i ≤ id.index) = true ↔
      first ≤ i ∧ i < first + count := by
    rw [decide_eq_true_eq]
    omega
  have hcount := (mem_take_filter (k := n) hi hp (by omega) (by omega) 0).1
  have hw : s.writes serde (.purge id) =
      some (removals (es.filter fun e => e.logId.index ≤ id.index) ++
        [.insert metaTree lastPurgedKey (serde.logId.toVec id)]) := by
    rw [writes, hl.purge]
  rw [Intact, hcount]
  rcases Nat.lt_or_ge count n with hn | hn
  case inr =>
    obtain ⟨s', hs', hc⟩ := removals_crash_iff h hl hi hw hp (by omega) (by omega) hn
    refine ⟨s', hs', hc.trans ?_⟩
    omega
  case inl =>
    obtain ⟨s', hs', h'⟩ := h.call (c := .purge id) trivial
    rw [crash_of_length_le hw (by simpa [removals, hcount] using Nat.succ_le_of_lt hn)]
    refine ⟨s', hs', iff_of_true ?_ (.inr (.inl hn))⟩
    rw [exists_contiguous_iff h']
    refine ⟨first + es.length - (id.index + 1), fun i => ?_⟩
    have ht : ((log.call (.purge id)).entries i).isSome ↔
        (log.entries i).isSome ∧ ¬ i ≤ id.index := by
      by_cases hx : i ≤ id.index <;> simp [Log.call, Log.purge, hx]
    have hf : firstIndex (log.call (.purge id)).lastPurged = id.index + 1 := rfl
    rw [ht, isSome_iff h hl hi, hf]
    omega

end

-- A crash leaves no hole exactly where it leaves all or nothing.
theorem contiguous_crash_iff (serde : LogSerde) (n : Nat) (h : s.Holds serde log)
    (hc : s.Contiguous serde es purged) (hf : Follows es purged c) :
    ∃ s', s.crash serde c n = some s' ∧
      ((∃ es purged, s'.Contiguous serde es purged) ↔ Intact es n c) := by
  have ⟨es', hl⟩ := h.stores.lists
  obtain ⟨rfl, rfl, hi⟩ := (contiguous_iff h hl).mp hc
  -- A call that makes one write is made in full or not at all.
  have hone (ws) (hw : s.writes serde c = some ws) (hlen : ws.length ≤ 1) (hwide : c.IsWide)
      (hin : Intact es n c) (hk : ∃ k, ∀ i, ((log.call c).entries i).isSome ↔
        firstIndex (log.call c).lastPurged ≤ i ∧ i < firstIndex (log.call c).lastPurged + k) :
      ∃ s', s.crash serde c n = some s' ∧
        ((∃ es purged, s'.Contiguous serde es purged) ↔ Intact es n c) := by
    rcases Nat.eq_zero_or_pos n with rfl | hn
    case inl => exact ⟨s, crash_zero hw, iff_of_true ⟨es, _, hc⟩ hin⟩
    case inr =>
      have ⟨s', hs', h'⟩ := h.call hwide
      rw [crash_of_length_le hw (by omega)]
      exact ⟨s', hs', iff_of_true ((exists_contiguous_iff h').mpr hk) hin⟩
  have hsome := isSome_iff h hl hi
  cases c
  case truncate id => exact truncate_crash_iff h hl hi id
  case purge id    => exact purge_crash_iff h hl hi id hf
  case saveVote    => exact hone _ rfl (Nat.le_refl _) trivial trivial ⟨es.length, hsome⟩
  case reopen      => exact hone _ rfl (Nat.zero_le _) trivial trivial ⟨es.length, hsome⟩
  case saveCommitted id =>
    cases id <;> exact hone _ rfl (Nat.le_refl _) trivial trivial ⟨es.length, hsome⟩
  case append entries =>
    refine hone _ rfl (Nat.le_refl _) hf.2 trivial ⟨es.length + entries.length, fun i => ?_⟩
    have hnew : (∃ e ∈ entries, e.logId.index = i) ↔ firstIndex log.lastPurged + es.length ≤ i ∧
        i < firstIndex log.lastPurged + es.length + entries.length := by
      rw [← List.mem_map, hf.1, List.mem_range'_1]
    have ha : (log.append entries).lastPurged = log.lastPurged := rfl
    rw [Log.call, Log.append_isSome_iff, hsome, hnew, ha]
    omega

section Sample

def entryAt (index : Nat) : Entry := ⟨{ sampleId with index }, .blank⟩

def sampleRun : List Call := [.append [entryAt 0, entryAt 1, entryAt 2], .purge sampleId]

theorem sampleRun_lists : Log.Lists (Log.after sampleRun).entries [entryAt 1, entryAt 2] where
  sorted := by decide
  mem e := by
    have hi (i) : (Log.after sampleRun).entries i =
        if i = 1 then some (entryAt 1) else if i = 2 then some (entryAt 2) else none := by
      match i with
      | 0     => rfl
      | 1     => rfl
      | 2     => rfl
      | i + 3 =>
        simp [sampleRun, Log.after, Log.call, Log.append, Log.purge, Log.empty, sampleId, entryAt,
          Function.update_apply]
    rw [hi]
    constructor
    case mp =>
      intro h
      simp only [List.mem_cons, List.not_mem_nil, or_false] at h
      rcases h with rfl | rfl <;> rfl
    case mpr =>
      intro h
      split at h
      case isTrue => exact Option.some.inj h ▸ List.mem_cons_self
      case isFalse =>
        split at h
        case isTrue  => exact Option.some.inj h ▸ List.mem_cons_of_mem _ List.mem_cons_self
        case isFalse => cases h

-- The entries at 1 and 2, after the one at 0 has been purged.
theorem sampleRun_contiguous : ∃ s,
    Transition.run (SledLogStore.call sampleSerde) (openDb ⟨∅⟩) sampleRun = some s ∧
    s.Holds sampleSerde (Log.after sampleRun) ∧
    s.Contiguous sampleSerde [entryAt 1, entryAt 2] (some sampleId) := by
  have h₀ : Holds sampleSerde (openDb ⟨∅⟩) .empty := .openDb
  have ⟨s, hs, h⟩ := h₀.run (show ∀ c ∈ sampleRun, c.IsWide by decide)
  have ⟨es, hl⟩ := h.stores.lists
  have he : [entryAt 1, entryAt 2] = es :=
    eq_of_sorted sampleRun_lists.sorted hl.lists.sorted fun e => by
      rw [sampleRun_lists.mem, hl.lists.mem, Log.after]
  exact ⟨s, hs, h, (contiguous_iff h hl).mpr ⟨he, rfl, he ▸ rfl⟩⟩

theorem contiguous_crash_sample : ∃ s,
    Transition.run (SledLogStore.call sampleSerde) (openDb ⟨∅⟩) sampleRun = some s ∧
    ∃ s', s.crash sampleSerde (.purge (entryAt 1).logId) 2 = some s' ∧
      ∃ es purged, s'.Contiguous sampleSerde es purged := by
  have ⟨s, hs, h, hc⟩ := sampleRun_contiguous
  have hf : Follows [entryAt 1, entryAt 2] (some sampleId) (.purge (entryAt 1).logId) :=
    fun p hp => Option.some.inj hp ▸ by decide
  have ⟨s', hs', hi⟩ := contiguous_crash_iff sampleSerde 2 h hc hf
  exact ⟨s, hs, s', hs', hi.mpr (.inr (.inl (by decide)))⟩

-- A crash after the first of two removals leaves the entry at 2, while the one at 1 is gone.
theorem contiguous_crash_fails : ∃ s,
    Transition.run (SledLogStore.call sampleSerde) (openDb ⟨∅⟩) sampleRun = some s ∧
    s.Holds sampleSerde (Log.after sampleRun) ∧
    s.Contiguous sampleSerde [entryAt 1, entryAt 2] (some sampleId) ∧
    Follows [entryAt 1, entryAt 2] (some sampleId) (.purge (entryAt 2).logId) ∧
    ∃ s', s.crash sampleSerde (.purge (entryAt 2).logId) 1 = some s' ∧
      ¬ ∃ es purged, s'.Contiguous sampleSerde es purged := by
  have ⟨s, hs, h, hc⟩ := sampleRun_contiguous
  have hf : Follows [entryAt 1, entryAt 2] (some sampleId) (.purge (entryAt 2).logId) :=
    fun p hp => Option.some.inj hp ▸ by decide
  have ⟨es, hl⟩ := h.stores.lists
  obtain ⟨rfl, _, hx⟩ := (contiguous_iff h hl).mp hc
  have ⟨s', hs', hi⟩ := purge_crash_iff (n := 1) h hl hx (entryAt 2).logId hf
  refine ⟨s, hs, h, hc, hf, s', hs', fun hc' => ?_⟩
  have := hi.mp hc'
  revert this
  rw [Intact]
  decide

end Sample

end SledLogStore

end All4One.Raft
