import Mathlib.Tactic.DeriveEncodable
import All4One.Foundation.Serde
import All4One.Raft.Log

open Foundation

namespace All4One.Raft.SledLogStore

variable {serde : LogSerde} {s s' : SledLogStore} {log : Log} {i j : Nat} {e : Entry}
  {es : List Entry} {range : IndexRange} {c : Call}

section Index

@[simp]
theorem decodeIndex_encodeIndex (h : i < 2 ^ 64) : decodeIndex (encodeIndex i) = some i := by
  have ht : (Bytes.toBe 8 i).take 8 = Bytes.toBe 8 i := List.take_of_length_le (by simp)
  simp [decodeIndex, encodeIndex, ht, Bytes.ofBe_toBe (show i < 256 ^ 8 from h)]

theorem encodeIndex_inj (hi : i < 2 ^ 64) (hj : j < 2 ^ 64) : encodeIndex i = encodeIndex j ↔ i = j := by
  constructor
  case mpr => exact congrArg encodeIndex
  case mp =>
    intro h
    have := congrArg decodeIndex h
    rw [decodeIndex_encodeIndex hi, decodeIndex_encodeIndex hj] at this
    exact Option.some.inj this

theorem encodeIndex_lt (hi : i < 2 ^ 64) (hj : j < 2 ^ 64) : encodeIndex i < encodeIndex j ↔ i < j :=
  Bytes.toBe_lt_toBe hi hj

end Index

theorem logTree_ne_metaTree : logTree ≠ metaTree := by
  rw [logTree, metaTree, Ne, Bytes.ofString_inj]
  decide

theorem voteKey_ne_committedKey : voteKey ≠ committedKey := by
  rw [voteKey, committedKey, Ne, Bytes.ofString_inj]
  decide

theorem voteKey_ne_lastPurgedKey : voteKey ≠ lastPurgedKey := by
  rw [voteKey, lastPurgedKey, Ne, Bytes.ofString_inj]
  decide

theorem committedKey_ne_lastPurgedKey : committedKey ≠ lastPurgedKey := by
  rw [committedKey, lastPurgedKey, Ne, Bytes.ofString_inj]
  decide

-- A log tree stores the entries of a log.
structure Stores (serde : LogSerde) (db : Sled.Db) (m : Nat → Option Entry) : Prop where
  keys    : ∀ k v, db.get logTree k = some v → ∃ i < 2 ^ 64, k = encodeIndex i
  entries : ∀ i < 2 ^ 64, db.get logTree (encodeIndex i) = (m i).map serde.entry.toVec
  indexed : ∀ i e, m i = some e → e.logId.index = i ∧ i < 2 ^ 64

-- A log store holds a log.
structure Holds (serde : LogSerde) (s : SledLogStore) (log : Log) : Prop where
  stores     : Stores serde s.db log.entries
  lastPurged : s.db.get metaTree lastPurgedKey = log.lastPurged.map serde.logId.toVec
  vote       : s.db.get metaTree voteKey = log.vote.map serde.vote.toVec
  committed  : s.db.get metaTree committedKey = log.committed.map serde.logId.toVec

-- How a log tree keeps an entry.
def item (serde : LogSerde) (e : Entry) : Bytes × Bytes :=
  (encodeIndex e.logId.index, serde.entry.toVec e)

-- A log tree is made of some entries.
structure Lists (serde : LogSerde) (db : Sled.Db) (m : Nat → Option Entry) (es : List Entry) :
    Prop where
  lists : Log.Lists m es
  iter  : (db.tree logTree).iter = es.map (item serde)
  wide  : ∀ e ∈ es, e.logId.index < 2 ^ 64

-- The removal of some entries.
def removals (es : List Entry) : List Sled.Write :=
  (es.map fun e => encodeIndex e.logId.index).map (.remove logTree)

section Items

theorem collect_items (h : ∀ e ∈ es, e.logId.index < 2 ^ 64) :
    collect serde range (es.map (item serde)) =
    some (es.filter fun e => range.contains e.logId.index) := by
  induction es
  case nil => rfl
  case cons e es hi =>
    have he := h e List.mem_cons_self
    have hi := hi fun e he => h e (List.mem_cons_of_mem _ he)
    simp only [List.map_cons, item, collect, decodeIndex_encodeIndex he, Option.bind_eq_bind,
      Option.bind_some, serde.entry.fromSlice_toVec]
    cases hr : range.contains e.logId.index <;> simp [hr, hi]

theorem keysWhere_items {p : Nat → Bool} (h : ∀ e ∈ es, e.logId.index < 2 ^ 64) :
    keysWhere p (es.map (item serde)) =
    some ((es.filter fun e => p e.logId.index).map fun e => encodeIndex e.logId.index) := by
  induction es
  case nil => rfl
  case cons e es hi =>
    have he := h e List.mem_cons_self
    have hi := hi fun e he => h e (List.mem_cons_of_mem _ he)
    simp only [List.map_cons, item, keysWhere, decodeIndex_encodeIndex he, Option.bind_eq_bind,
      Option.bind_some]
    cases hp : p e.logId.index <;> simp [hp, hi]

end Items

namespace Stores

variable {db db' : Sled.Db} {m : Nat → Option Entry}

theorem get_iff (h : Stores serde db m) {k v : Bytes} :
    db.get logTree k = some v ↔ ∃ e, m e.logId.index = some e ∧ (k, v) = item serde e := by
  constructor
  case mp =>
    intro hg
    have ⟨i, hi, hk⟩ := h.keys _ _ hg
    rw [hk, h.entries i hi, Option.map_eq_some_iff] at hg
    have ⟨e, he, hv⟩ := hg
    have ⟨hx, _⟩ := h.indexed _ _ he
    exact ⟨e, hx ▸ he, by rw [item, hk, ← hv, hx]⟩
  case mpr =>
    rintro ⟨e, he, hkv⟩
    have ⟨hk, hv⟩ := Prod.mk.inj hkv
    rw [hk, h.entries _ (h.indexed _ _ he).2, he, hv, Option.map_some]

theorem lists (h : Stores serde db m) : ∃ es, Lists serde db m es := by
  have ⟨es, hes⟩ : (db.tree logTree).iter ∈ Set.range (List.map (item serde)) := by
    rw [Set.range_list_map]
    rintro ⟨k, v⟩ hkv
    have ⟨e, _, he⟩ := h.get_iff.mp (Sled.Db.mem_iter.mp hkv)
    exact ⟨e, he.symm⟩
  have hinj : Function.Injective (item serde) := fun a b hab => by
    have := congrArg serde.entry.fromSlice (Prod.mk.inj hab).2
    simpa only [serde.entry.fromSlice_toVec, Option.some.injEq] using this
  have hmem (e : Entry) : e ∈ es ↔ m e.logId.index = some e := by
    rw [← List.mem_map_of_injective hinj, hes, item, Sled.Db.mem_iter, h.get_iff]
    constructor
    case mpr => exact fun he => ⟨e, he, rfl⟩
    case mp  => exact fun ⟨e', he', hkv⟩ => hinj (show item serde e = _ from hkv) ▸ he'
  have hw (e : Entry) (he : e ∈ es) : e.logId.index < 2 ^ 64 :=
    (h.indexed _ _ ((hmem e).mp he)).2
  have hs : (es.map (item serde)).Pairwise fun b b' => b.1 < b'.1 := hes ▸ HashMap.pairwise_sorted
  rw [List.pairwise_map] at hs
  refine ⟨es, ⟨hs.imp_of_mem ?_, hmem⟩, hes.symm, hw⟩
  intro e e' he he' hl
  exact (encodeIndex_lt (hw e he) (hw e' he')).mp hl

theorem congr (h : Stores serde db m) (hg : ∀ k, db'.get logTree k = db.get logTree k) :
    Stores serde db' m where
  keys k v hv  := h.keys k v (hg k ▸ hv)
  entries i hi := hg _ ▸ h.entries i hi
  indexed      := h.indexed

theorem insert (h : Stores serde db m) (he : e.logId.index < 2 ^ 64) :
    Stores serde (db.insert logTree (item serde e).1 (item serde e).2)
      (Function.update m e.logId.index (some e)) where
  keys k v hg := by
    rw [Sled.Db.get_insert] at hg
    by_cases hk : k = encodeIndex e.logId.index
    case pos => exact ⟨_, he, hk⟩
    case neg => exact h.keys k v (by simpa [item, hk] using hg)
  entries i hi := by
    rw [Sled.Db.get_insert, item]
    by_cases hk : i = e.logId.index
    case pos => subst hk; simp
    case neg => simp [encodeIndex_inj hi he, hk, h.entries i hi]
  indexed i e' := by
    by_cases hk : i = e.logId.index
    case neg => simpa [hk] using h.indexed i e'
    case pos =>
      subst hk
      simp only [Function.update_self, Option.some.injEq]
      rintro rfl
      exact ⟨rfl, he⟩

theorem append (h : Stores serde db m) (he : ∀ e ∈ es, e.logId.index < 2 ^ 64) :
    Stores serde (db.write (.batch logTree (es.map (item serde))))
      (es.foldl (fun m e => Function.update m e.logId.index (some e)) m) := by
  rw [Sled.Db.write, List.foldl_map]
  induction es generalizing db m
  case nil => exact h
  case cons e es hi =>
    exact hi (h.insert (he e List.mem_cons_self)) fun e he' => he e (List.mem_cons_of_mem _ he')

theorem removes (h : Stores serde db m) (he : ∀ e ∈ es, e.logId.index < 2 ^ 64) :
    Stores serde (db.writeAll (removals es))
      fun i => if ∃ e ∈ es, e.logId.index = i then none else m i where
  keys k v hg := by
    rw [removals, Sled.Db.get_removes] at hg
    split at hg
    · cases hg
    · exact h.keys k v hg
  entries i hi := by
    have hm : encodeIndex i ∈ es.map (fun e => encodeIndex e.logId.index) ↔
        ∃ e ∈ es, e.logId.index = i := by
      rw [List.mem_map]
      refine exists_congr fun e => and_congr_right fun hm => ?_
      rw [encodeIndex_inj (he e hm) hi]
    rw [removals, Sled.Db.get_removes, h.entries i hi]
    by_cases hr : ∃ e ∈ es, e.logId.index = i <;> simp [hm, hr]
  indexed i e' hx := by
    split at hx
    · cases hx
    · exact h.indexed i e' hx

theorem removesWhere (h : Stores serde db m) (hl : Lists serde db m es) (p : Nat → Bool) :
    Stores serde (db.writeAll (removals (es.filter fun e => p e.logId.index)))
      fun i => if p i then none else m i := by
  convert h.removes fun e he => hl.wide e (List.mem_of_mem_filter he) using 1
  funext i
  cases hm : m i
  case none => simp
  case some e =>
    have ⟨hi, _⟩ := h.indexed i e hm
    have he : e ∈ es := (hl.lists.mem e).mpr (hi ▸ hm)
    refine if_congr ?_ rfl rfl
    constructor
    case mp  => exact fun hp => ⟨e, List.mem_filter.mpr ⟨he, hi ▸ hp⟩, hi⟩
    case mpr =>
      rintro ⟨e', he', hi'⟩
      exact hi' ▸ (List.mem_filter.mp he').2

end Stores

namespace Holds

theorem openDb : Holds serde (openDb ⟨∅⟩) .empty where
  stores.keys _ _ h    := nomatch h
  stores.entries _ _   := rfl
  stores.indexed _ _ h := nomatch h
  lastPurged           := rfl
  vote                 := rfl
  committed            := rfl

-- A write to the log tree leaves the other tree alone.
theorem of_log {db : Sled.Db} {m : Nat → Option Entry} (h : s.Holds serde log)
    (hs : Stores serde db m) (hm : ∀ key, db.get metaTree key = s.db.get metaTree key) :
    Holds serde ⟨db⟩ { log with entries := m } where
  stores     := hs
  lastPurged := (hm _).trans h.lastPurged
  vote       := (hm _).trans h.vote
  committed  := (hm _).trans h.committed

theorem append (h : s.Holds serde log) (he : ∀ e ∈ es, e.logId.index < 2 ^ 64) :
    Holds serde ⟨s.db.writeAll (SledLogStore.append serde es)⟩ (log.append es) :=
  h.of_log (h.stores.append he) fun _ => Sled.Db.get_batch_of_ne logTree_ne_metaTree.symm

theorem removes {m : Nat → Option Entry} (h : s.Holds serde log)
    (hs : Stores serde (s.db.writeAll (removals es)) m) :
    Holds serde ⟨s.db.writeAll (removals es)⟩ { log with entries := m } := by
  refine h.of_log hs fun key => ?_
  rw [removals, Sled.Db.get_removes]
  simp [logTree_ne_metaTree.symm]

theorem setLastPurged (h : s.Holds serde log) (id : LogId) :
    Holds serde ⟨s.db.insert metaTree lastPurgedKey (serde.logId.toVec id)⟩
      { log with lastPurged := some id } where
  stores     := h.stores.congr fun k => by simp [Sled.Db.get_insert, logTree_ne_metaTree]
  lastPurged := by simp [Sled.Db.get_insert]
  vote       := by simpa [Sled.Db.get_insert, voteKey_ne_lastPurgedKey] using h.vote
  committed  := by simpa [Sled.Db.get_insert, committedKey_ne_lastPurgedKey] using h.committed

theorem setVote (h : s.Holds serde log) (vote : Vote) :
    Holds serde ⟨s.db.insert metaTree voteKey (serde.vote.toVec vote)⟩
      { log with vote := some vote } where
  stores     := h.stores.congr fun k => by simp [Sled.Db.get_insert, logTree_ne_metaTree]
  lastPurged := by simpa [Sled.Db.get_insert, voteKey_ne_lastPurgedKey.symm] using h.lastPurged
  vote       := by simp [Sled.Db.get_insert]
  committed  := by simpa [Sled.Db.get_insert, voteKey_ne_committedKey.symm] using h.committed

theorem setCommitted (h : s.Holds serde log) (id : LogId) :
    Holds serde ⟨s.db.insert metaTree committedKey (serde.logId.toVec id)⟩
      { log with committed := some id } where
  stores     := h.stores.congr fun k => by simp [Sled.Db.get_insert, logTree_ne_metaTree]
  lastPurged := by simpa [Sled.Db.get_insert, committedKey_ne_lastPurgedKey.symm] using h.lastPurged
  vote       := by simpa [Sled.Db.get_insert, voteKey_ne_committedKey] using h.vote
  committed  := by simp [Sled.Db.get_insert]

theorem clearCommitted (h : s.Holds serde log) :
    Holds serde ⟨s.db.remove metaTree committedKey⟩ { log with committed := none } where
  stores     := h.stores.congr fun k => by simp [Sled.Db.get_remove, logTree_ne_metaTree]
  lastPurged := by simpa [Sled.Db.get_remove, committedKey_ne_lastPurgedKey.symm] using h.lastPurged
  vote       := by simpa [Sled.Db.get_remove, voteKey_ne_committedKey] using h.vote
  committed  := by simp [Sled.Db.get_remove]

end Holds

namespace Lists

variable {m : Nat → Option Entry} {id : LogId}

theorem truncate (h : Lists serde s.db m es) :
    s.truncate id = some (removals (es.filter fun e => id.index ≤ e.logId.index)) := by
  rw [SledLogStore.truncate, h.iter, keysWhere_items h.wide]
  rfl

theorem purge (h : Lists serde s.db m es) :
    s.purge serde id = some (removals (es.filter fun e => e.logId.index ≤ id.index) ++
      [.insert metaTree lastPurgedKey (serde.logId.toVec id)]) := by
  rw [SledLogStore.purge, h.iter, keysWhere_items h.wide]
  rfl

end Lists

theorem readMeta_of_get {α : Type} {serde : Serde α Bytes} {key : Bytes} {a : Option α}
    (h : s.db.get metaTree key = a.map serde.toVec) : s.readMeta serde key = some a := by
  cases a <;> simp [SledLogStore.readMeta, h, serde.fromSlice_toVec]

theorem Lists.tryGetLogEntries {m : Nat → Option Entry} (h : Lists serde s.db m es) :
    s.tryGetLogEntries serde range = some (es.filter fun e => range.contains e.logId.index) := by
  have hs : (es.filter fun e => range.contains e.logId.index).Pairwise
      fun e e' => decide (e.logId.index ≤ e'.logId.index) = true :=
    (h.lists.sorted.filter _).imp fun hl => decide_eq_true (Nat.le_of_lt hl)
  simp only [SledLogStore.tryGetLogEntries, h.iter, collect_items h.wide, Option.bind_eq_bind,
    Option.bind_some, List.mergeSort_of_pairwise hs]

theorem Lists.getLogState (h : s.Holds serde log) (hl : Lists serde s.db log.entries es) :
    s.getLogState serde = some ⟨log.lastPurged, es.getLast?.map (·.logId)⟩ := by
  have hp := readMeta_of_get h.lastPurged
  simp only [SledLogStore.getLogState, hp, Sled.Tree.last, hl.iter, List.getLast?_map]
  cases es.getLast? <;> simp [item, serde.entry.fromSlice_toVec]

-- Every call goes through, and does to the log what it is meant to do.
theorem Holds.call (h : s.Holds serde log) (hc : c.IsWide) :
    ∃ s', s.call serde c = some s' ∧ s'.Holds serde (log.call c) := by
  have ⟨es, hl⟩ := h.stores.lists
  cases c
  case append entries    => exact ⟨_, rfl, h.append hc⟩
  case saveVote vote     => exact ⟨_, rfl, h.setVote vote⟩
  case reopen            => exact ⟨_, rfl, h⟩
  case saveCommitted committed =>
    cases committed
    case some id => exact ⟨_, rfl, h.setCommitted id⟩
    case none    => exact ⟨_, rfl, h.clearCommitted⟩
  case truncate id =>
    refine ⟨_, by simp only [SledLogStore.call, writes, hl.truncate]; rfl, ?_⟩
    have hs := h.removes (h.stores.removesWhere hl fun i => id.index ≤ i)
    simp only [decide_eq_true_eq] at hs
    exact hs
  case purge id =>
    refine ⟨_, by simp only [SledLogStore.call, writes, hl.purge]; rfl, ?_⟩
    have hs := h.removes (h.stores.removesWhere hl fun i => i ≤ id.index)
    have hs := hs.setLastPurged id
    simp only [decide_eq_true_eq] at hs
    rw [Sled.Db.writeAll_append]
    exact hs

-- What can be read of a log store, compared with the log it stands for.
structure Refines (serde : LogSerde) (s : SledLogStore) (log : Log) : Prop where
  entries   : ∀ range, ∃ es, s.tryGetLogEntries serde range = some es ∧ log.Reads range es
  vote      : s.readVote serde = some log.vote
  committed : s.readCommitted serde = some log.committed

-- The two parts of a log store do not touch each other.
structure Framed (serde : LogSerde) (c : Call) (s s' : SledLogStore) : Prop where
  saved   : c.isLog = true → s'.readVote serde = s.readVote serde ∧
    s'.readCommitted serde = s.readCommitted serde
  entries : c.isLog = false → ∀ range,
    s'.tryGetLogEntries serde range = s.tryGetLogEntries serde range

theorem Holds.toRefines (h : s.Holds serde log) : s.Refines serde log where
  entries range := by
    have ⟨es, hl⟩ := h.stores.lists
    refine ⟨_, hl.tryGetLogEntries, hl.lists.sorted.filter _, fun e => ?_⟩
    rw [List.mem_filter, hl.lists.mem]
  vote      := readMeta_of_get h.vote
  committed := readMeta_of_get h.committed

theorem eq_of_sorted {es' : List Entry} (h : es.Pairwise (·.logId.index < ·.logId.index))
    (h' : es'.Pairwise (·.logId.index < ·.logId.index)) (hm : ∀ e, e ∈ es ↔ e ∈ es') : es = es' := by
  have : Std.Irrefl fun e e' : Entry => e.logId.index < e'.logId.index := ⟨fun _ => Nat.lt_irrefl _⟩
  have : Std.Antisymm fun e e' : Entry => e.logId.index < e'.logId.index :=
    ⟨fun _ _ h h' => absurd h' (Nat.lt_asymm h)⟩
  exact h.eq_of_mem_iff h' hm

theorem Holds.framed (h : s.Holds serde log) (hc : c.IsWide) (hs : s.call serde c = some s') :
    Framed serde c s s' := by
  obtain ⟨_, hs', h'⟩ := h.call hc
  obtain rfl := Option.some.inj (hs.symm.trans hs')
  have hr := h.toRefines
  have hr' := h'.toRefines
  constructor
  case saved =>
    intro hl
    rw [hr.vote, hr'.vote, hr.committed, hr'.committed]
    cases c <;> first | exact ⟨rfl, rfl⟩ | cases hl
  case entries =>
    intro hl range
    have ⟨es, he, hes⟩ := hr.entries range
    have ⟨es', he', hes'⟩ := hr'.entries range
    have : (log.call c).entries = log.entries := by
      cases c <;> first | rfl | cases hl
    rw [he, he', eq_of_sorted hes.sorted hes'.sorted fun e => by rw [hes.mem, hes'.mem, this]]

theorem Holds.run {calls : List Call} (h : s.Holds serde log) (hc : ∀ c ∈ calls, c.IsWide) :
    ∃ s', Transition.run (SledLogStore.call serde) s calls = some s' ∧
      s'.Holds serde (calls.foldl Log.call log) := by
  induction calls generalizing s log
  case nil => exact ⟨s, rfl, h⟩
  case cons c cs hi =>
    have ⟨s₁, h₁, h⟩ := h.call (hc c List.mem_cons_self)
    have ⟨s', h', h⟩ := hi h fun c hm => hc c (List.mem_cons_of_mem _ hm)
    exact ⟨s', Transition.run_of_step h₁ h', h⟩

-- Whatever is called on a log store, it shows what the log it stands for has.
theorem refines (serde : LogSerde) {calls : List Call} (h : ∀ c ∈ calls, c.IsWide) :
    ∃ s, Transition.run (SledLogStore.call serde) (openDb ⟨∅⟩) calls = some s ∧
      s.Refines serde (Log.after calls) ∧
      ∀ c s', c.IsWide → s.call serde c = some s' → Framed serde c s s' := by
  have h₀ : Holds serde (openDb ⟨∅⟩) .empty := .openDb
  have ⟨s, hr, hs⟩ := h₀.run h
  exact ⟨s, hr, hs.toRefines, fun _ _ hc => hs.framed hc⟩

end All4One.Raft.SledLogStore

namespace All4One

deriving instance Encodable for NodeId

namespace Raft

deriving instance Encodable for LeaderId, LogId, Membership, RaftCommand, EntryPayload, Entry, Vote

namespace SledLogStore

section Sample

def sampleId : LogId := ⟨⟨1, ⟨7⟩⟩, 0⟩

def leaderText : String :=
  "\x7b\"term\":1,\"node_id\":\"00000000-0000-0000-0000-000000000007\"\x7d"

def idText : String := "\x7b\"leader_id\":" ++ leaderText ++ ",\"index\":0\x7d"

def entryText : String := "\x7b\"log_id\":" ++ idText ++ ",\"payload\":\"Blank\"\x7d"

def voteText : String := "\x7b\"leader_id\":" ++ leaderText ++ ",\"committed\":true\x7d"

theorem counted_ne {α : Type} [Encodable α] {b : Bytes} (h : b.head? = some 123) (a : α) :
    (Serde.counted α).toVec a ≠ b := by
  rintro rfl
  cases h

-- The JSON form of one entry, one vote and one log id. What else there is has some form.
def sampleSerde : LogSerde where
  entry := (Serde.counted Entry).assign ⟨sampleId, .blank⟩ (.ofString entryText)
    (counted_ne (by decide +kernel))
  vote  := (Serde.counted Vote).assign ⟨sampleId.leaderId, true⟩ (.ofString voteText)
    (counted_ne (by decide +kernel))
  logId := (Serde.counted LogId).assign sampleId (.ofString idText)
    (counted_ne (by decide +kernel))

def sampleCalls : List Call := [
  .saveVote ⟨sampleId.leaderId, true⟩, .append [⟨sampleId, .blank⟩], .saveCommitted (some sampleId),
  .purge sampleId, .truncate sampleId, .saveCommitted none, .reopen]

theorem refines_sample :
    (∀ c ∈ sampleCalls, c.IsWide) ∧
    ∃ s, Transition.run (SledLogStore.call sampleSerde) (openDb ⟨∅⟩) sampleCalls = some s ∧
      s.Refines sampleSerde (Log.after sampleCalls) ∧
      ∀ c s', c.IsWide → s.call sampleSerde c = some s' → Framed sampleSerde c s s' :=
  have h : ∀ c ∈ sampleCalls, c.IsWide := by decide
  ⟨h, refines sampleSerde h⟩

end Sample

end SledLogStore

end Raft

end All4One
