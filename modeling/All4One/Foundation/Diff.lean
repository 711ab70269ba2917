import All4One.Foundation.HashMap

namespace Foundation

-- What becomes of one key of a finite map.
inductive Change (κ ν : Type)
  | added (k : κ) (v : ν)
  | changed (k : κ) (prev v : ν)
  | removed (k : κ)
  deriving DecidableEq, Repr

namespace Change

variable {κ ν : Type}

def key : Change κ ν → κ
  | added k _     => k
  | changed k _ _ => k
  | removed k     => k

variable [DecidableEq ν]

-- The change of a key from one binding to another one, if there is any.
def between (k : κ) : Option ν → Option ν → Option (Change κ ν)
  | none,      none   => none
  | none,      some v => some (added k v)
  | some _,    none   => some (removed k)
  | some prev, some v => if prev ≠ v then some (changed k prev v) else none

variable {k : κ} {a b : Option ν} {c : Change κ ν}

theorem key_of_between (h : between k a b = some c) : c.key = k := by
  cases a <;> cases b
  case none.none => cases h
  case none.some => cases h; rfl
  case some.none => cases h; rfl
  case some.some =>
    rw [between] at h
    split at h <;> cases h
    rfl

theorem between_eq_none_iff : between k a b = none ↔ a = b := by
  cases a <;> cases b <;> simp [between]

variable [DecidableEq κ]

-- A change applies to a map in which its key is bound as the change says.
def apply (m : HashMap κ ν) : Change κ ν → Option (HashMap κ ν)
  | added k v        => if m.lookup k = none then some (m.insert k v) else none
  | changed k prev v => if m.lookup k = some prev then some (m.insert k v) else none
  | removed k        => if (m.lookup k).isSome then some (m.erase k) else none

def replay (m : HashMap κ ν) (cs : List (Change κ ν)) : Option (HashMap κ ν) :=
  cs.foldlM apply m

-- The changes from one map to another one: a loop over the new map finds what has been added and what
-- has changed, one over the old map what has been removed.
def diff (old new : AList fun _ : κ => ν) : List (Change κ ν) :=
  (new.entries.filterMap fun e => between e.1 (old.lookup e.1) (some e.2)) ++
  (old.keys.filter (· ∉ new)).map removed

variable {cs : List (Change κ ν)} {m : HashMap κ ν} {old new : AList fun _ : κ => ν}

theorem apply_between (h : between k a b = some c) (hm : m.lookup k = a) :
    ∃ m', c.apply m = some m' ∧ ∀ k', m'.lookup k' = if k' = k then b else m.lookup k' := by
  cases a <;> cases b
  case none.none => cases h
  case none.some v =>
    cases h
    exact ⟨_, if_pos hm, fun _ => HashMap.lookup_insert'⟩
  case some.none v =>
    cases h
    refine ⟨_, if_pos (by simp [hm]), fun k' => ?_⟩
    split
    case isTrue hk  => rw [hk, Finmap.lookup_erase]
    case isFalse hk => exact Finmap.lookup_erase_ne hk
  case some.some prev v =>
    rw [between] at h
    split at h <;> cases h
    exact ⟨_, if_pos hm, fun _ => HashMap.lookup_insert'⟩

-- Changes of different keys do not get in each other's way.
theorem replay_between {f g : κ → Option ν} (hn : (cs.map key).Nodup)
    (hc : ∀ c ∈ cs, between c.key (f c.key) (g c.key) = some c)
    (hm : ∀ k ∈ cs.map key, m.lookup k = f k) :
    ∃ m', replay m cs = some m' ∧
      ∀ k, m'.lookup k = if k ∈ cs.map key then g k else m.lookup k := by
  induction cs generalizing m
  case nil => exact ⟨m, rfl, fun _ => rfl⟩
  case cons c cs hi =>
    rw [List.map_cons, List.nodup_cons] at hn
    rw [List.forall_mem_cons] at hc
    rw [List.map_cons, List.forall_mem_cons] at hm
    obtain ⟨m₁, h₁, hl₁⟩ := apply_between hc.1 hm.1
    have hm₁ : ∀ k ∈ cs.map key, m₁.lookup k = f k := by
      intro k hk
      have hne : k ≠ c.key := fun he => hn.1 (he ▸ hk)
      rw [hl₁, if_neg hne, hm.2 k hk]
    obtain ⟨m', h', hl'⟩ := hi hn.2 hc.2 hm₁
    refine ⟨m', ?_, fun k => ?_⟩
    · rw [replay, List.foldlM_cons, h₁]
      exact h'
    · rw [hl', hl₁]
      by_cases hk : k = c.key
      case pos =>
        subst hk
        simp [hn.1]
      case neg => simp [hk]

theorem mem_diff : c ∈ diff old new ↔ between c.key (old.lookup c.key) (new.lookup c.key) = some c := by
  rw [diff, List.mem_append, List.mem_filterMap, List.mem_map]
  constructor
  case mp =>
    rintro (⟨e, he, hc⟩ | ⟨k, hk, rfl⟩)
    · have hl : new.lookup e.1 = some e.2 := AList.mem_lookup_iff.mpr he
      rw [key_of_between hc, hl, hc]
    · rw [List.mem_filter, decide_eq_true_eq] at hk
      obtain ⟨prev, hp⟩ := Option.isSome_iff_exists.mp (AList.lookup_isSome.mpr hk.1)
      rw [key, hp, AList.lookup_eq_none.mpr hk.2]
      rfl
  case mpr =>
    intro hc
    cases hn : new.lookup c.key
    case some v =>
      rw [hn] at hc
      exact .inl ⟨⟨c.key, v⟩, AList.mem_lookup_iff.mp hn, hc⟩
    case none =>
      rw [hn] at hc
      refine .inr ⟨c.key, ?_⟩
      cases ho : old.lookup c.key
      case none => rw [ho] at hc; cases hc
      case some prev =>
        rw [ho] at hc
        rw [List.mem_filter, decide_eq_true_eq]
        refine ⟨⟨AList.lookup_isSome.mp (by simp [ho]), AList.lookup_eq_none.mp hn⟩, ?_⟩
        exact Option.some.inj hc

theorem mem_keys_diff (h : between k (old.lookup k) (new.lookup k) = some c) :
    k ∈ (diff old new).map key := by
  have hk := key_of_between h
  exact List.mem_map.mpr ⟨c, mem_diff.mpr (by rw [hk, h]), hk⟩

theorem nodup_diff : ((diff old new).map key).Nodup := by
  rw [diff, List.map_append, List.nodup_append']
  refine ⟨?_, ?_, ?_⟩
  · rw [List.Nodup, List.pairwise_map, List.pairwise_filterMap]
    have hn : new.entries.Pairwise fun e e' => e.1 ≠ e'.1 := List.nodupKeys_iff_pairwise.mp new.nodupKeys
    refine hn.imp fun hne c hc c' hc' => ?_
    rwa [key_of_between hc, key_of_between hc']
  · rw [List.map_map]
    exact (old.keys_nodup.filter _).map fun _ _ => id
  · intro k h₁ h₂
    obtain ⟨c, hc, rfl⟩ := List.mem_map.mp h₁
    obtain ⟨e, he, hc⟩ := List.mem_filterMap.mp hc
    obtain ⟨c', hc', hk⟩ := List.mem_map.mp h₂
    obtain ⟨k', hk', rfl⟩ := List.mem_map.mp hc'
    rw [List.mem_filter, decide_eq_true_eq] at hk'
    rw [key_of_between hc, key] at hk
    exact hk'.2 (hk ▸ AList.mem_keys.mpr (List.mem_map_of_mem he))

-- What has been found between two maps leads from the one to the other.
theorem replay_diff : replay old.toFinmap (diff old new) = some new.toFinmap := by
  have hn : ((diff old new).map key).Nodup := nodup_diff
  obtain ⟨m', hr, hl⟩ := replay_between (m := old.toFinmap) (f := old.lookup) (g := new.lookup)
    hn (fun _ => mem_diff.mp) fun _ _ => Finmap.lookup_toFinmap ..
  rw [hr, Option.some_inj]
  refine Finmap.ext_lookup fun k => ?_
  rw [hl, Finmap.lookup_toFinmap, Finmap.lookup_toFinmap]
  split
  case isTrue     => rfl
  case isFalse hk =>
    rw [← between_eq_none_iff (k := k), Option.eq_none_iff_forall_ne_some]
    exact fun c hc => hk (mem_keys_diff hc)

-- There is one change of each key whose binding is not the same.
theorem count_diff (k : κ) : ((diff old new).map key).count k =
    if new.lookup k = old.lookup k then 0 else 1 := by
  split
  case isTrue h =>
    refine List.count_eq_zero.mpr fun hk => ?_
    obtain ⟨c, hc, rfl⟩ := List.mem_map.mp hk
    rw [mem_diff, between_eq_none_iff.mpr h.symm] at hc
    cases hc
  case isFalse h =>
    refine List.count_eq_one_of_mem nodup_diff ?_
    have hb : between k (old.lookup k) (new.lookup k) ≠ none :=
      fun hb => h (between_eq_none_iff.mp hb).symm
    obtain ⟨c, hc⟩ := Option.ne_none_iff_exists'.mp hb
    exact mem_keys_diff hc

end Change

end Foundation
