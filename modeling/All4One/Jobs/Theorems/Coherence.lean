import All4One.Jobs.Theorems.Writes

open Foundation Transition

namespace All4One

-- What the status says about the exit code and the error.
def Verdict.Coherent (v : Verdict) : Prop :=
  match v.status with
  | .completed => v.exitCode = some 0 ∧ v.error = none
  | .failed    => v.error.isSome ∧ v.exitCode ≠ some 0
  | .cancelled => True
  | _          => v.exitCode = none ∧ v.error = none

namespace Verdict.Coherent

variable {v : Verdict} {o : Outcome}

theorem queued : Verdict.queued.Coherent :=
  ⟨rfl, rfl⟩

theorem dispatched (h : v.Coherent) : v.dispatched.Coherent := by
  by_cases hq : v.status = .queued
  case neg => simpa only [Verdict.dispatched, hq, ↓reduceIte] using h
  case pos => simpa [Coherent, Verdict.dispatched, hq] using h

theorem cancel : v.cancel.Coherent :=
  trivial

theorem outcome (o : Outcome) : o.verdict.Coherent := by
  cases o
  case exited code =>
    by_cases h : Outcome.code code = 0 <;> simp [Coherent, Outcome.verdict, h]
  all_goals simp [Coherent, Outcome.verdict]

theorem start_iff : v.start.Coherent ↔ v.exitCode = none ∧ v.error = none :=
  .rfl

end Verdict.Coherent

-- The end of a process finds nothing in a record that does not go with what it writes there.
def Outcome.Suits (o : Outcome) (v : Verdict) : Prop :=
  match o with
  | .exited code => v.status ≠ .cancelled → Outcome.code code = 0 → v.error = none
  | _            => v.exitCode ≠ some 0

theorem Verdict.Coherent.finish_iff {v : Verdict} {o : Outcome} (h : v.Coherent) :
    (v.finish o).Coherent ↔ o.Suits v := by
  cases o
  case exited code =>
    by_cases hc : v.status = .cancelled
    case pos => simpa [Verdict.finish, Outcome.Suits, hc] using h
    case neg =>
      by_cases h0 : Outcome.code code = 0
      case pos => simp [Verdict.finish, Outcome.Suits, Coherent, hc, h0]
      case neg => simpa [Verdict.finish, Outcome.Suits, hc, h0] using outcome (.exited code)
  all_goals simp [Verdict.finish, Outcome.Suits, Outcome.verdict, Coherent]

namespace JobSystem

def Coherent (s : JobSystem) : Prop :=
  ∀ n jobId v, s.verdict n jobId = some v → v.Coherent

-- Only the agents' own code calls the agents.
def Event.isHonest : Event → Bool
  | .foreignSubmit .. | .foreignReport .. => false
  | _                                     => true

-- An executor finds nothing in the record of its job that another one has left there.
def Untainted (s : JobSystem) : Event → Prop
  | .start k _ =>
    ∀ e, s.executors[k]? = some e → ∀ v, s.verdict e.node e.jobId = some v →
      v.exitCode = none ∧ v.error = none
  | .finish k _ =>
    ∀ e, s.executors[k]? = some e → ∀ o, e.phase = .ended o →
      ∀ v, s.verdict e.node e.jobId = some v → o.Suits v
  | _ => True

variable {net : Network} {s s' : JobSystem} {ev : Event}

theorem Untainted.coherent (h : Untainted s ev) (hc : s.Coherent) (hh : ev.isHonest)
    (hs : Step net s ev s') : s'.Coherent := by
  intro m i v hv
  rcases hs.written m i with he | ⟨v', hv', w⟩
  · exact hc m i v (he ▸ hv)
  · obtain rfl := Option.some.inj (hv.symm.trans hv')
    cases w with
    | enqueued           => exact .queued
    | submitted          => exact .queued
    | lateSubmitted      => exact .queued
    | foreignSubmitted   => exact .queued
    | foreignReported    => cases hh
    | replied _ _ hl     => exact (hc _ _ _ hl).dispatched
    | started he _ hl    => exact Verdict.Coherent.start_iff.mpr (h _ he _ hl)
    | finished he hp hl  => exact (hc _ _ _ hl).finish_iff.mpr (h _ he _ hp _ hl)
    | deleted            => exact .cancel
    | reported _ hsub _ _ =>
      obtain ⟨o, _, _, _, _, rfl⟩ := Executor.reporting_of_submission hsub
      rw [Grpc.reportJobStatusRequest_verdict]
      exact .outcome o

theorem Coherent.untainted (hc : s.Coherent) (hc' : s'.Coherent) (hs : Step net s ev s') :
    Untainted s ev := by
  have written {m i v} (w : Write net s ev m i v) : v.Coherent := hc' m i v (w.verdict hs)
  cases hs
  case startGone he _ hl =>
    intro e he' v hv
    obtain rfl := Option.some.inj (he.symm.trans he')
    simp [verdict, hl] at hv
  case started he hp =>
    intro e he' v hv
    obtain rfl := Option.some.inj (he.symm.trans he')
    exact Verdict.Coherent.start_iff.mp (written (.started he hp hv))
  case finished he hp =>
    intro e he' o hp' v hv
    obtain rfl := Option.some.inj (he.symm.trans he')
    exact (hc _ _ _ hv).finish_iff.mp (written (.finished he hp' hv))
  all_goals trivial

-- In exactly the runs in which no executor meets what another one has left behind, all records are
-- coherent.
theorem coherent_iff (net : Network) (clusters : NodeId → ClusterState) (es : List Event)
    (hh : ∀ e ∈ es, e.isHonest) :
    (∀ s, Visits (step net) (init clusters) es s → s.Coherent) ↔
    Guarded (step net) Untainted (init clusters) es :=
  visits_iff_guarded (I := fun _ => True) trivial (fun _ _ _ hv => nomatch hv) hh
    (fun _ _ _ _ _ _ => trivial)
    fun _ _ _ _ hc hh hs =>
      ⟨fun hc' => hc.untainted hc' (Step.of_step hs), fun h => h.coherent hc hh (Step.of_step hs)⟩

theorem coherent_cancelled_before_start :
    ∃ s, Visits (step .plain) (init fun _ => .plain ⟨1⟩)
        [.enqueue ⟨1⟩ .plain ⟨7⟩ 0, .dispatch 0, .delete ⟨1⟩ ⟨7⟩ 1, .start 0 2] s ∧
      s.status ⟨1⟩ ⟨7⟩ = some .running ∧ s.Coherent := by
  let pre : List Event := [.enqueue ⟨1⟩ .plain ⟨7⟩ 0, .dispatch 0, .delete ⟨1⟩ ⟨7⟩ 1]
  have h₁ : (run (step .plain) (init fun _ => .plain ⟨1⟩) pre).map
      (fun s => (s.executors, s.verdict ⟨1⟩ ⟨7⟩)) =
      some ([.spawnJob ⟨1⟩ ⟨7⟩ none], some ⟨.cancelled, none, none⟩) := by
    decide
  have h₂ : (run (step .plain) (init fun _ => .plain ⟨1⟩) (pre ++ [.start 0 2])).bind
      (·.status ⟨1⟩ ⟨7⟩) = some .running := by
    decide
  obtain ⟨s, hr, hs⟩ := Option.bind_eq_some_iff.mp h₂
  refine ⟨s, .last hr, hs, (coherent_iff .plain _ (pre ++ [.start 0 2]) (by decide)).mpr ?_ s
    (.last hr)⟩
  refine guarded_append.mpr ⟨fun _ _ => ⟨trivial, fun _ _ => ⟨trivial, fun _ _ => ⟨trivial, trivial⟩⟩⟩,
    fun s hr _ _ => ⟨fun e he v hv => ?_, trivial⟩⟩
  rw [hr, Option.map_some, Option.some.injEq, Prod.mk.injEq] at h₁
  rw [h₁.1, List.getElem?_cons_zero, Option.some.injEq] at he
  subst he
  cases h₁.2.symm.trans hv
  exact ⟨rfl, rfl⟩

-- A node accepts a job twice. Once the first executor has let go of the job table, the second one starts
-- the job with the exit code of the first one.
theorem incoherent_reachable :
    ¬ ∀ (net : Network) (clusters : NodeId → ClusterState) (es : List Event),
      (∀ e ∈ es, e.isHonest) →
      ∀ s, Visits (step net) (init clusters) es s → s.Coherent := by
  intro h
  let round (now : DateTime) : List Event := [.wake 0, .pick 0, .dispatch 0, .submit 0 now]
  let es : List Event :=
    [.enqueue ⟨1⟩ .plain ⟨7⟩ 0, .gossip ⟨1⟩ (.plain ⟨2⟩)] ++ round 1 ++ [.loseReply 0] ++ round 2 ++
      [.start 0 3, .spawn 0, .exit 0 (.exited (some 3)), .finish 0 4, .report 0 5, .start 1 6]
  have hs : (run (step .plain) (init fun _ => .default) es).bind
      (fun s => (s.verdict ⟨2⟩ ⟨7⟩).map fun v => (v.status, v.exitCode)) =
      some (.running, some 3) := by
    decide
  obtain ⟨s, hr, hs⟩ := Option.bind_eq_some_iff.mp hs
  obtain ⟨v, hv, hs⟩ := Option.map_eq_some_iff.mp hs
  obtain ⟨hstatus, hexit⟩ := Prod.mk.inj hs
  have hc := h .plain (fun _ => .default) es (by decide) s (.last hr) _ _ v hv
  rw [Verdict.Coherent, hstatus] at hc
  exact absurd (hc.1.symm.trans hexit) (by simp)

end JobSystem

end All4One
