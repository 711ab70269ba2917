import All4One.Raft.SnapshotIds

open Foundation

namespace All4One

theorem Uuid.toText_ne_latest (u : Uuid) : u.toText ≠ "latest" := by
  intro h
  have hl := congrArg (·.toList.length) h
  simp only [Uuid.toText, String.toList_ofList] at hl
  rw [Uuid.length_hyphenate (Uuid.length_hexDigits 32 _)] at hl
  exact absurd hl (by decide)

namespace Raft.SnapshotSource

variable {ι β : Type} {json : Json ι β} {null : β} {s s' : SnapshotSource ι β}
  {e : Event ι β} {a b : Producer × Snapshot β}

-- The snapshots that have been built are the only ones with an id of their own.
structure Labelled (s : SnapshotSource ι β) : Prop where
  latest : ∀ a ∈ s.handedOut, a.1 = .getCurrentSnapshot → a.2.metadata.snapshotId = "latest"
  drawn  : ∀ a ∈ s.handedOut, a.1 = .buildSnapshot →
    ∃ u ∈ s.drawn, a.2.metadata.snapshotId = u.toText
  unique : ∀ a ∈ s.handedOut, ∀ b ∈ s.handedOut, a.1 = .buildSnapshot → b.1 = .buildSnapshot →
    a.2.metadata.snapshotId = b.2.metadata.snapshotId → a = b

-- All snapshots of `get_current_snapshot` have the same bytes.
def Constant (s : SnapshotSource ι β) : Prop :=
  ∀ a ∈ s.handedOut, ∀ b ∈ s.handedOut, a.1 = .getCurrentSnapshot → b.1 = .getCurrentSnapshot →
    a.2.data = b.2.data

theorem buildSnapshot_id {serde : Serde RaftState β} {builder : SledSnapshotBuilder} {id : String} :
    (builder.buildSnapshot serde id).metadata.snapshotId = id :=
  rfl

theorem Labelled.start (db : HashMap String β) (order : ι) : Labelled (start json db order) where
  latest _ h     := by cases h
  drawn _ h      := by cases h
  unique _ h _ _ := by cases h

-- One more snapshot is handed out.
theorem Labelled.append {x : Producer × Snapshot β} (h : Labelled s)
    (hh : s'.handedOut = s.handedOut ++ [x]) (hd : s.drawn ⊆ s'.drawn)
    (hl : x.1 = .getCurrentSnapshot → x.2.metadata.snapshotId = "latest")
    (hu : x.1 = .buildSnapshot → ∃ u ∈ s'.drawn, u ∉ s.drawn ∧ x.2.metadata.snapshotId = u.toText) :
    Labelled s' := by
  -- The id of a snapshot that is built has not been drawn for another one.
  have fresh {a} (ha : a ∈ s.handedOut) (hb : a.1 = .buildSnapshot) (hx : x.1 = .buildSnapshot) :
      a.2.metadata.snapshotId ≠ x.2.metadata.snapshotId := by
    intro hid
    obtain ⟨u, hm, hau⟩ := h.drawn a ha hb
    obtain ⟨v, -, hv, hxv⟩ := hu hx
    rw [hau, hxv] at hid
    exact hv (Uuid.toText_injective hid ▸ hm)
  have mem {a} (ha : a ∈ s'.handedOut) : a ∈ s.handedOut ∨ a = x := by
    rw [hh, List.mem_append, List.mem_singleton] at ha
    exact ha
  constructor
  case latest =>
    intro a ha hc
    rcases mem ha with ha | rfl
    · exact h.latest a ha hc
    · exact hl hc
  case drawn =>
    intro a ha hb
    rcases mem ha with ha | rfl
    · exact (h.drawn a ha hb).imp fun _ hu => ⟨hd hu.1, hu.2⟩
    · exact (hu hb).imp fun _ hu => ⟨hu.1, hu.2.2⟩
  case unique =>
    intro a ha b hb hpa hpb hid
    rcases mem ha with ha | rfl <;> rcases mem hb with hb | rfl
    · exact h.unique a ha b hb hpa hpb hid
    · exact absurd hid (fresh ha hpa hpb)
    · exact absurd hid.symm (fresh hb hpb hpa)
    · rfl

theorem constant_append {x : Producer × Snapshot β} (hh : s'.handedOut = s.handedOut ++ [x]) :
    s'.Constant ↔ s.Constant ∧ (x.1 = .getCurrentSnapshot →
      ∀ a ∈ s.handedOut, a.1 = .getCurrentSnapshot → a.2.data = x.2.data) := by
  rw [Constant, hh]
  constructor
  case mp =>
    intro h
    refine ⟨fun a ha b hb => h a (List.mem_append_left _ ha) b (List.mem_append_left _ hb), ?_⟩
    exact fun hx a ha hc => h a (List.mem_append_left _ ha) x (by simp) hc hx
  case mpr =>
    rintro ⟨h, hx⟩ a ha b hb hca hcb
    rw [List.mem_append, List.mem_singleton] at ha hb
    rcases ha with ha | rfl <;> rcases hb with hb | rfl
    · exact h a ha b hb hca hcb
    · exact hx hcb a ha hca
    · exact (hx hca b hb hcb).symm
    · rfl

theorem distinguishes_iff_constant (h : Labelled s) : s.Distinguishes ↔ s.Constant := by
  constructor
  case mp =>
    intro hd a ha b hb hca hcb
    by_contra hne
    exact hd a ha b hb hne ((h.latest a ha hca).trans (h.latest b hb hcb).symm)
  case mpr =>
    intro hc a ha b hb hne hid
    cases hpa : a.1 <;> cases hpb : b.1
    case getCurrentSnapshot.getCurrentSnapshot => exact hne (hc a ha b hb hpa hpb)
    case buildSnapshot.buildSnapshot => exact hne (h.unique a ha b hb hpa hpb hid ▸ rfl)
    case buildSnapshot.getCurrentSnapshot =>
      obtain ⟨u, -, hu⟩ := h.drawn a ha hpa
      exact u.toText_ne_latest (hu.symm.trans (hid.trans (h.latest b hb hpb)))
    case getCurrentSnapshot.buildSnapshot =>
      obtain ⟨u, -, hu⟩ := h.drawn b hb hpb
      exact u.toText_ne_latest (hu.symm.trans (hid.symm.trans (h.latest a ha hpa)))

variable [DecidableEq β]

-- What is handed out has the id that its producer gives it.
inductive Step (json : Json ι β) (null : β) (s : SnapshotSource ι β) :
    Event ι β → SnapshotSource ι β → Prop
  | silent {e : Event ι β} {s' : SnapshotSource ι β} :
    s'.handedOut = s.handedOut → s'.drawn = s.drawn →
    (e = .current → json.toVec s.order s.sm.state = null ∨ s.sm.state.lastApplied.isNone) →
    Step json null s e s'
  | built {i : Nat} {order : ι} {u : Uuid} {s' : SnapshotSource ι β} {snapshot : Snapshot β} :
    u ∉ s.drawn → snapshot.metadata.snapshotId = u.toText →
    s'.handedOut = s.handedOut ++ [(.buildSnapshot, snapshot)] → s'.drawn = u :: s.drawn →
    Step json null s (.build i order u) s'
  | current {s' : SnapshotSource ι β} {snapshot : Snapshot β} :
    json.toVec s.order s.sm.state ≠ null → s.sm.state.lastApplied.isSome →
    snapshot.metadata.snapshotId = "latest" → snapshot.data = json.toVec s.order s.sm.state →
    s'.handedOut = s.handedOut ++ [(.getCurrentSnapshot, snapshot)] → s'.drawn = s.drawn →
    Step json null s .current s'

theorem Step.of_step (h : s.step json null e = some s') : Step json null s e s' := by
  cases e <;> simp only [SnapshotSource.step] at h
  case apply   => exact Option.some.inj h ▸ silent rfl rfl nofun
  case restart => exact Option.some.inj h ▸ silent rfl rfl nofun
  case getBuilder => exact Option.some.inj h ▸ silent rfl rfl nofun
  case install =>
    split at h <;> exact Option.some.inj h ▸ silent rfl rfl nofun
  case build =>
    split at h
    case h_1 => cases h
    case h_2 =>
      split at h
      case isTrue     => cases h
      case isFalse hd =>
        rw [← Option.some.inj h]
        exact built hd buildSnapshot_id rfl rfl
  case current =>
    split at h
    case h_1 snapshot hc =>
      rw [SledStateMachine.getCurrentSnapshot] at hc
      split at hc
      case isTrue => cases hc
      case isFalse hn =>
        rw [not_or, Bool.not_eq_true, Option.isNone_eq_false_iff] at hn
        obtain rfl := Option.some.inj hc
        exact Option.some.inj h ▸ current hn.1 hn.2 rfl rfl rfl rfl
    case h_2 hc =>
      rw [SledStateMachine.getCurrentSnapshot] at hc
      split at hc
      case isTrue hn => exact Option.some.inj h ▸ silent rfl rfl fun _ => hn
      case isFalse   => cases hc

theorem Labelled.step (h : Labelled s) (hs : s.step json null e = some s') : Labelled s' := by
  cases Step.of_step hs
  case silent _ hh hd =>
    exact ⟨hh ▸ h.latest, hd ▸ hh ▸ h.drawn, hh ▸ h.unique⟩
  case current hi _ hh hd => exact h.append hh (hd ▸ List.Subset.refl _) (fun _ => hi) nofun
  case built hu hi hh hd =>
    exact h.append hh (hd ▸ List.subset_cons_self _ _) nofun fun _ => ⟨_, by simp [hd], hu, hi⟩

-- A snapshot of the current state joins those that have been handed out before.
theorem constant_iff_of_step (hs : s.step json null e = some s') :
    s'.Constant ↔ s.Constant ∧ s.Unchanged json null e := by
  cases Step.of_step hs
  case silent hn hh _ =>
    have hu : s.Unchanged json null e := by
      intro he hd hl
      rcases hn he with h | h
      · exact absurd h hd
      · rw [Option.isNone_iff_eq_none.mp h] at hl
        cases hl
    rw [Constant, hh, and_iff_left hu, Constant]
  case built hh _ =>
    rw [constant_append hh]
    exact and_congr_right fun _ => iff_of_true (by rintro ⟨⟩) (by rintro ⟨⟩)
  case current hd hl _ hb hh _ =>
    rw [constant_append hh, hb]
    exact and_congr_right fun _ => ⟨fun h _ _ _ => h rfl, fun h _ => h rfl hd hl⟩

-- Snapshots can be told apart by their ids, in every run, if and only if `get_current_snapshot` never
-- hands out another state than before.
theorem distinguishes_iff (json : Json ι β) (null : β) (db : HashMap String β) (order : ι)
    (es : List (Event ι β)) (s : SnapshotSource ι β)
    (h : Transition.run (step json null) (start json db order) es = some s) :
    s.Distinguishes ↔
    Transition.Guarded (step json null) (Unchanged json null) (start json db order) es := by
  have hl : Labelled s :=
    Transition.Reachable.invariant ⟨es, h⟩ (.start db order) fun _ _ _ hl hs => hl.step hs
  rw [distinguishes_iff_constant hl,
    Transition.holds_iff_guarded (I := fun _ => True) h trivial (fun _ _ _ _ _ => trivial)
      fun _ _ _ _ hs => constant_iff_of_step hs]
  exact and_iff_right fun _ ha => by cases ha

section Sample

-- The state as it is.
def sampleJson : Json Unit RaftState where
  toVec _             := id
  fromSlice           := some
  fromSlice_toVec _ _ := rfl

def sampleStart : SnapshotSource Unit RaftState :=
  start sampleJson ∅ ()

def blank (index : Nat) : Event Unit RaftState :=
  .apply [(⟨⟨⟨1, ⟨0⟩⟩, index⟩, .blank⟩, "")] ()

-- A snapshot of the first entry is built and handed out twice more.
theorem distinguishes_iff_sample :
    ∃ s, Transition.run (step sampleJson .default) sampleStart
        [blank 1, .getBuilder, .current, .build 0 () 7, .current] = some s ∧ s.Distinguishes := by
  have hs : (Transition.run (step sampleJson .default) sampleStart
      [blank 1, .getBuilder, .current, .build 0 () 7, .current]).isSome := by decide
  obtain ⟨s, hr⟩ := Option.isSome_iff_exists.mp hs
  exact ⟨s, hr, (distinguishes_iff sampleJson .default ∅ () _ s hr).mpr (by decide)⟩

-- An entry is applied between two snapshots.
theorem distinguishes_fails : ¬ ∀ (ι β : Type) (_ : DecidableEq β) (json : Json ι β) (null : β)
    (db : HashMap String β) (order : ι) (es : List (Event ι β)) (s : SnapshotSource ι β),
    Transition.run (step json null) (start json db order) es = some s → s.Distinguishes := by
  intro hall
  have hs : (Transition.run (step sampleJson .default) sampleStart
      [blank 1, .current, blank 2, .current]).map (·.handedOut.map fun a =>
        (a.2.metadata.snapshotId, a.2.data.lastApplied.map (·.index))) =
      some [("latest", some 1), ("latest", some 2)] := by
    decide
  obtain ⟨s, hr, hm⟩ := Option.map_eq_some_iff.mp hs
  have hd := hall Unit RaftState inferInstance sampleJson .default ∅ () _ s hr
  obtain ⟨a, _, ho, ha, hb⟩ := List.map_eq_cons_iff.mp hm
  obtain ⟨b, _, rfl, hb, -⟩ := List.map_eq_cons_iff.mp hb
  rw [Prod.mk.injEq] at ha hb
  refine hd a (by simp [ho]) b (by simp [ho]) (fun he => ?_) (ha.1.trans hb.1.symm)
  have := ha.2.symm.trans ((congrArg (·.lastApplied.map (·.index)) he).trans hb.2)
  simp at this

end Sample

end Raft.SnapshotSource

end All4One
