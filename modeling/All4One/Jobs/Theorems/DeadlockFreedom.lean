import All4One.Jobs.Completion
import Mathlib.Data.Set.Finite.Range

open Foundation Transition

namespace All4One.Completion

variable {ι : Type} [DecidableEq ι] {d : ι → Delegated}

namespace Phase

-- In these phases the task holds the guard on its node's job table.
def holdsGuard : Phase → Bool
  | holding | reporting | handling | replying => true
  | _                                         => false

end Phase

-- A lock is held by a task of its node, in a phase that holds the guard.
def LocksHeld (d : ι → Delegated) (s : State ι) : Prop :=
  ∀ n i, s.lock n = some i → (d i).node = n ∧ (s.phase i).holdsGuard

theorem LocksHeld.step {s s' : State ι} {e : Event ι} (h : LocksHeld d s)
    (hs : step d s e = some s') : LocksHeld d s' := by
  intro n j hj
  cases e <;> simp only [Completion.step, Option.ite_none_right_eq_some, Option.some.injEq] at hs
  case exit i =>
    have ⟨hp, hs⟩ := hs
    subst hs
    have ⟨hn, hg⟩ := h n j hj
    have hne : j ≠ i := by rintro rfl; simp [hp, Phase.holdsGuard] at hg
    simp [hn, hg, hne]
  case acquire i now =>
    have ⟨⟨hp, hl⟩, hs⟩ := hs
    subst hs
    by_cases hn : n = (d i).node
    case pos =>
      subst hn
      simp only [Function.update_self, Option.some.injEq] at hj
      simp [← hj, Phase.holdsGuard]
    case neg =>
      simp only [Function.update_of_ne hn] at hj
      have ⟨hn, hg⟩ := h n j hj
      have hne : j ≠ i := by rintro rfl; simp [hp, Phase.holdsGuard] at hg
      simp [hn, hg, hne]
  case reply i =>
    have ⟨hp, hs⟩ := hs
    subst hs
    by_cases hn : n = (d i).node
    case pos => subst hn; simp at hj
    case neg =>
      simp only [Function.update_of_ne hn] at hj
      have ⟨hn', hg⟩ := h n j hj
      have hne : j ≠ i := by rintro rfl; exact hn hn'.symm
      simp [hn', hg, hne]
  case' handle i now => have ⟨⟨_, _⟩, hs⟩ := hs
  case' send i       => have ⟨_, hs⟩ := hs
  case' deliver i    => have ⟨_, hs⟩ := hs
  all_goals
    subst hs
    have ⟨hn, hg⟩ := h n j hj
    by_cases hne : j = i
    · subst hne; exact ⟨hn, by simp [Phase.holdsGuard]⟩
    · simp [hn, hg, hne]

theorem LocksHeld.reachable {jobs : NodeId → Jobs} {s : State ι}
    (h : Reachable (Completion.step d) (init jobs) s) : LocksHeld d s :=
  h.invariant (by simp [LocksHeld, init]) fun _ _ _ => LocksHeld.step

namespace Deadlocked

variable {s : State ι}

-- Only the wait for the origin's job table can hold up an outstanding report.
theorem handling_of_outstanding (h : Deadlocked d s) {i : ι} (ho : (s.phase i).isOutstanding) :
    s.phase i = .handling := by
  cases hp : s.phase i <;> simp only [hp, Phase.isOutstanding, Bool.false_eq_true] at ho
  case handling  => rfl
  case reporting => simpa [step, hp] using h.stuck (.deliver i) nofun
  case replying  => simpa [step, hp] using h.stuck (.reply i) nofun

-- The origin's job table is then locked by a task of the origin that itself waits for a report.
theorem exists_waiting_at_origin (h : Deadlocked d s) (hl : LocksHeld d s) {i : ι}
    (hi : s.phase i = .handling) : ∃ j, (d j).node = (d i).origin ∧ s.phase j = .handling := by
  have hs := h.stuck (.handle i 0) nofun
  have ⟨j, hj⟩ : ∃ j, s.lock (d i).origin = some j := by
    simpa [step, hi, Option.ne_none_iff_exists'] using hs
  have ⟨hn, hg⟩ := hl _ _ hj
  refine ⟨j, hn, ?_⟩
  by_cases ho : (s.phase j).isOutstanding
  case pos => exact h.handling_of_outstanding ho
  case neg =>
    -- The only other phase that holds the guard goes on to send its report.
    have hh : s.phase j = .holding := by
      cases hp : s.phase j <;> simp_all [Phase.holdsGuard, Phase.isOutstanding]
    simpa [step, hh] using h.stuck (.send j) nofun

end Deadlocked

theorem not_deadlocked_of_acyclic [Finite ι] (ha : Acyclic (DelegatedBy d)) {jobs : NodeId → Jobs}
    {s : State ι} (hr : Reachable (step d) (init jobs) s) : ¬ Deadlocked d s := by
  intro h
  have hl := LocksHeld.reachable hr
  have hf : { m | ∃ n, DelegatedBy d m n }.Finite := by
    refine (Set.finite_range fun i => (d i).node).subset ?_
    rintro m ⟨n, i, hm, _⟩
    exact ⟨i, hm⟩
  have ⟨i, hi⟩ := h.outstanding
  have hi := h.handling_of_outstanding hi
  have ⟨_, ⟨j, hj, rfl⟩, hn⟩ :=
    ha.exists_sink hf (S := { n | ∃ i, s.phase i = .handling ∧ (d i).node = n }) ⟨_, i, hi, rfl⟩
  have ⟨k, hk, hk'⟩ := h.exists_waiting_at_origin hl hj
  exact hn (d j).origin ⟨k, hk', hk⟩ ⟨j, rfl, rfl⟩

section Cycle

-- The events that take a job from the end of its process to its handler at the origin.
def reportEvents (i : ι) : List (Event ι) :=
  [.exit i, .acquire i 0, .send i, .deliver i]

-- The jobs in `l` wait at their origins, each with its own node's job table locked, and no other
-- job has moved.
structure Blocked (d : ι → Delegated) (l : List ι) (s : State ι) : Prop where
  phase : ∀ i, s.phase i = if i ∈ l then .handling else .running
  lock  : ∀ n, s.lock n = none ↔ ∀ i ∈ l, (d i).node ≠ n

theorem Blocked.init (jobs : NodeId → Jobs) : Blocked d [] (init jobs) where
  phase i := by simp [Completion.init]
  lock n  := by simp [Completion.init]

theorem Blocked.cons {l : List ι} {s : State ι} {i : ι} (h : Blocked d l s) (hi : i ∉ l)
    (hn : ∀ j ∈ l, (d j).node ≠ (d i).node) :
    ∃ s', run (step d) s (reportEvents i) = some s' ∧ Blocked d (i :: l) s' := by
  have hp : s.phase i = .running := by simp [h.phase, hi]
  have hl : s.lock (d i).node = none := (h.lock _).mpr hn
  refine ⟨_, by simp [reportEvents, run, step, hp, hl]; rfl, ?_, ?_⟩
  case refine_1 =>
    intro j
    by_cases hj : j = i
    · subst hj; simp
    · simp [hj, h.phase]
  case refine_2 =>
    intro n
    by_cases hn : n = (d i).node
    · subst hn; simp
    · simp [Function.update_of_ne hn, h.lock, Ne.symm hn]

theorem exists_run_blocked (jobs : NodeId → Jobs) (l : List ι)
    (hl : l.Pairwise fun i j => (d i).node ≠ (d j).node) :
    ∃ s, Reachable (step d) (init jobs) s ∧ Blocked d l s := by
  induction l
  case nil => exact ⟨_, ⟨[], rfl⟩, .init jobs⟩
  case cons i l hi =>
    have ⟨hn, hl⟩ := List.pairwise_cons.mp hl
    have ⟨s, ⟨es, hr⟩, hb⟩ := hi hl
    have ⟨s', hr', hb'⟩ := hb.cons (fun hm => hn i hm rfl) fun j hj => (hn j hj).symm
    exact ⟨s', ⟨_, run_append_of_some hr hr'⟩, hb'⟩

theorem Blocked.deadlocked {l : List ι} {s : State ι} (h : Blocked d l s) (hne : l ≠ [])
    (hc : ∀ i ∈ l, ∃ j ∈ l, (d j).node = (d i).origin) : Deadlocked d s where
  outstanding := by
    have ⟨i, hi⟩ := List.exists_mem_of_ne_nil l hne
    exact ⟨i, by simp [h.phase, hi, Phase.isOutstanding]⟩
  stuck e he := by
    cases e <;> simp only [step, ite_eq_right_iff, reduceCtorEq, imp_false]
    case exit => exact absurd rfl he
    case handle i now =>
      rintro ⟨hp, ho⟩
      have hi : i ∈ l := by by_contra hi; simp [h.phase, hi] at hp
      have ⟨j, hj, hn⟩ := hc i hi
      exact (h.lock _).mp ho j hj hn
    case acquire i now =>
      rw [h.phase]
      split <;> simp
    all_goals
      rw [h.phase]
      split <;> simp

theorem exists_deadlocked_of_cycle [Finite ι] {n : NodeId}
    (h : Relation.TransGen (DelegatedBy d) n n) (jobs : NodeId → Jobs) :
    ∃ s, Reachable (step d) (init jobs) s ∧ Deadlocked d s := by
  have ⟨S, hn, hS⟩ := Acyclic.exists_closed_of_cycle h
  -- One job for every node of the cycle, run there on behalf of another node of the cycle.
  have hS (m : S) : ∃ i, (d i).node = m ∧ (d i).origin ∈ S := by
    have ⟨_, hk, i, hm, ho⟩ := hS m m.property
    exact ⟨i, hm, ho ▸ hk⟩
  choose job hnode horigin using hS
  have hinj : Function.Injective job := fun a b h => by
    rw [Subtype.ext_iff, ← hnode a, ← hnode b, h]
  have := Finite.of_injective job hinj
  have := Fintype.ofFinite S
  let l : List ι := Finset.univ.toList.map job
  have hmem (m : S) : job m ∈ l := by simp [l]
  have hl : l.Pairwise fun i j => (d i).node ≠ (d j).node := by
    refine List.pairwise_map.mpr <| (Finset.nodup_toList _).imp fun {a b} hab h => hab ?_
    rw [Subtype.ext_iff, ← hnode a, ← hnode b, h]
  have ⟨s, hr, hb⟩ := exists_run_blocked jobs l hl
  refine ⟨s, hr, hb.deadlocked (List.ne_nil_of_mem <| hmem ⟨n, hn⟩) fun i hi => ?_⟩
  have ⟨m, _, hm⟩ := List.mem_map.mp hi
  exact ⟨_, hmem ⟨(d i).origin, hm ▸ horigin m⟩, hnode _⟩

end Cycle

-- Whatever the jobs and their outcomes: completion can deadlock exactly if some node runs a job on
-- behalf of a node that, directly or through others, has a job run on behalf of the first.
theorem deadlock_free_iff [Finite ι] (jobs : NodeId → Jobs) :
    (∀ s, Reachable (step d) (init jobs) s → ¬ Deadlocked d s) ↔ Acyclic (DelegatedBy d) := by
  constructor
  case mp =>
    intro h n hn
    have ⟨s, hr, hd⟩ := exists_deadlocked_of_cycle hn jobs
    exact h s hr hd
  case mpr => exact fun ha s hr => not_deadlocked_of_acyclic ha hr

-- Two jobs that are run one for the other's node and one for a third deadlock nowhere.
theorem deadlock_free_chain :
    let d (i : Fin 2) : Delegated := {
      jobId   := ⟨if i = 0 then 10 else 11⟩
      node    := ⟨if i = 0 then 1 else 2⟩
      origin  := ⟨if i = 0 then 2 else 3⟩
      outcome := .exited (some 0)
    }
    ∀ s, Reachable (step d) (init fun _ => ∅) s → ¬ Deadlocked d s := by
  intro d
  refine (deadlock_free_iff fun _ => ∅).mpr fun n hn => ?_
  -- A node runs jobs only for nodes of a greater id.
  have lt {m n : NodeId} (h : DelegatedBy d m n) : m.uuid < n.uuid := by
    obtain ⟨i, rfl, rfl⟩ := h
    revert i
    decide
  have (m : NodeId) (h : Relation.TransGen (DelegatedBy d) n m) : n.uuid < m.uuid := by
    induction h
    case single h => exact lt h
    case tail h hi => exact BitVec.lt_trans hi (lt h)
  exact BitVec.lt_irrefl _ (this n hn)

-- Two nodes that each finish a job of the other at the same time.
theorem deadlock_reachable :
    ∃ (d : Fin 2 → Delegated) (jobs : NodeId → Jobs) (s : State (Fin 2)),
      (∀ i, ((jobs (d i).node).lookup (d i).jobId).isSome) ∧
      (∀ i, ((jobs (d i).origin).lookup (d i).jobId).isSome) ∧
      Reachable (step d) (init jobs) s ∧ Deadlocked d s := by
  let d (i : Fin 2) : Delegated := {
    jobId   := ⟨if i = 0 then 10 else 11⟩
    node    := ⟨if i = 0 then 1 else 2⟩
    origin  := ⟨if i = 0 then 2 else 1⟩
    outcome := .exited (some 0)
  }
  let record (i : Fin 2) : JobRecord := {
    jobId := (d i).jobId, status := .running, assignedTo := (d i).node, runtime := .python,
    source := "pass", command := [], createdAt := 0, updatedAt := 0, exitCode := none, error := none
  }
  let jobs (_ : NodeId) : Jobs := Finmap.insert (d 0).jobId (record 0) <|
    Finmap.insert (d 1).jobId (record 1) ∅
  have ⟨s, hr, hb⟩ := exists_run_blocked (d := d) jobs [0, 1] (by decide)
  exact ⟨d, jobs, s, by decide, by decide, hr, hb.deadlocked (by decide) (by decide)⟩

end All4One.Completion
