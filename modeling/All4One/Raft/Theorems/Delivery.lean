import All4One.Raft.Theorems.Agreement

open Foundation

namespace All4One.Raft

namespace SledStateMachine

variable {s s₁ s₂ : RaftState} {cmd : RaftCommand} {now : String} {e : Entry} {clock : Nat → String}
  {log log' : List Entry} {i : Nat}

@[simp]
theorem applyCommand_lastApplied : (applyCommand s now cmd).2.lastApplied = s.lastApplied := by
  cases cmd <;> simp only [applyCommand]
  case registerJob        => split <;> rfl
  case updateJobStatus    => split <;> rfl
  case consumeEnrollToken =>
    split
    · split <;> rfl
    · rfl

@[simp]
theorem applyEntry_lastApplied : (applyEntry s (e, now)).2.lastApplied = some e.logId := by
  cases hp : e.payload <;> simp [applyEntry, hp]

theorem length_applyEntries (s : RaftState) (es : List TimedEntry) :
    (applyEntries s es).1.length = es.length := by
  induction es generalizing s
  case nil          => rfl
  case cons e es hi => simp [applyEntries, hi]

-- The log applied entry by entry to a fresh state.
def plain (clock : Nat → String) (log : List Entry) : List RaftCommandResponse × RaftState :=
  applyEntries .default (timed clock log)

theorem plain_lastApplied : (plain clock log).2.lastApplied = log.getLast?.map Entry.logId := by
  induction log using List.reverseRecOn
  case nil => rfl
  case append_singleton => simp [plain, applyEntries_timed_append]

theorem length_plain : (plain clock log).1.length = log.length := by
  rw [plain, length_applyEntries, timed, List.length_map, List.length_zipIdx]

theorem plain_append : plain clock (log ++ log') =
    let rest := applyEntries (plain clock log).2 (timed (fun i => clock (log.length + i)) log')
    ((plain clock log).1 ++ rest.1, rest.2) := by
  rw [plain, timed_append_append, applyEntries_append]
  rfl

-- Where a log goes on after its first entries, so do the responses.
theorem applyEntries_of_plain (h : SameButStamps s (plain clock log).2) (c : Nat → String)
    (log' : List Entry) :
    (applyEntries s (timed c log')).1 = ((plain clock (log ++ log')).1.drop log.length) ∧
    SameButStamps (applyEntries s (timed c log')).2 (plain clock (log ++ log')).2 := by
  have ⟨hr, hs⟩ := applyEntries_congr h c (fun i => clock (log.length + i)) log'
  rw [plain_append]
  refine ⟨?_, hs⟩
  rw [hr, List.drop_left' length_plain]

theorem plain_responses_append (clock : Nat → String) (log log' : List Entry) :
    (plain clock (log ++ log')).1.take log.length = (plain clock log).1 := by
  rw [plain_append, List.take_left' length_plain]

end SledStateMachine

open SledStateMachine

-- A log whose indices go up.
def IsAscending (log : List Entry) : Prop :=
  log.Pairwise fun e e' => e.logId.index < e'.logId.index

instance (log : List Entry) : Decidable (IsAscending log) :=
  inferInstanceAs (Decidable (List.Pairwise _ _))

-- What is reported as applied tells where the log goes on.
theorem position_of_take {log : List Entry} {i : Nat} (h : IsAscending log) (hi : i ≤ log.length) :
    position log ((log.take i).getLast?.map Entry.logId) = i := by
  rcases List.eq_nil_or_concat (log.take i) with hn | ⟨pre, e, hc⟩
  case inl =>
    have hl := List.length_take_of_le hi
    rw [hn] at hl
    rw [hn, ← hl]
    rfl
  case inr =>
    rw [List.concat_eq_append] at hc
    have hl : log = pre ++ e :: log.drop i := by
      conv_lhs => rw [← List.take_append_drop i log, hc, List.append_assoc]
      rfl
    have hlen : pre.length + 1 = i := by
      have := congrArg List.length hc
      rw [List.length_take_of_le hi, List.length_append, List.length_singleton] at this
      exact this.symm
    rw [IsAscending, hl, List.pairwise_append, List.pairwise_cons] at h
    have ⟨_, ⟨hafter, _⟩, hbefore⟩ := h
    have hpre : pre.countP (fun e' => e'.logId.index ≤ e.logId.index) = pre.length :=
      List.countP_eq_length.mpr fun e' he' => by
        simpa using (hbefore e' he' e List.mem_cons_self).le
    have hrest : (log.drop i).countP (fun e' => e'.logId.index ≤ e.logId.index) = 0 :=
      List.countP_eq_zero.mpr fun e' he' => by simpa using hafter e' he'
    rw [hc, List.getLast?_concat, Option.map_some, position]
    conv_lhs => rw [hl]
    rw [List.countP_append, List.countP_cons, hpre, hrest]
    simpa using hlen

-- How much of a log the events of a delivery hand over, and the answers that are due: those of the
-- plain run for the entries of each call.
structure Course where
  position : Nat
  answers  : List (List Entry × List RaftCommandResponse)

namespace Course

open Delivery

variable {β : Type} (log : List Entry) (clock : Nat → String)

-- A call that is cut off hands nothing over, unless it has got to the end.
def step (c : Course) : Event β → Course
  | .apply n _      => {
      position := min (c.position + n) log.length
      answers  := c.answers ++ [((log.drop c.position).take n,
        ((plain clock log).1.drop c.position).take n)]
    }
  | .crash n _ none => { c with position := min (c.position + n) log.length }
  | _               => c

def of (es : List (Event β)) : Course :=
  es.foldl (step log clock) ⟨0, []⟩

end Course

namespace Delivery

variable {β : Type} {serde : Serde RaftState β} {null : β} {log : List Entry}
  {clock : Nat → String} {d d' : Delivery β} {sm receiver : SledStateMachine β} {e : Event β}
  {c : Course} {i n : Nat}

-- The first entries of a log have arrived, in memory and on disk.
structure Arrived (serde : Serde RaftState β) (log : List Entry) (clock : Nat → String)
    (sm : SledStateMachine β) (i : Nat) : Prop where
  le        : i ≤ log.length
  state     : SameButStamps sm.state (plain clock (log.take i)).2
  persisted : (SledStateMachine.openDb serde sm.db).state = sm.state

-- A delivery is where its events have brought it, and has given the answers that were due.
structure IsFaithful (serde : Serde RaftState β) (log : List Entry) (clock : Nat → String)
    (c : Course) (d : Delivery β) : Prop where
  arrived : Arrived serde log clock d.sm c.position
  next    : d.next = c.position
  answers : d.answers = c.answers
  one     : ∀ answer ∈ d.answers, answer.2.length = answer.1.length

namespace Arrived

theorem openDb (h : Arrived serde log clock sm i) :
    Arrived serde log clock (.openDb serde sm.db) i where
  le        := h.le
  state     := h.persisted ▸ h.state
  persisted := rfl

theorem position (h : Arrived serde log clock sm i) (hlog : IsAscending log) :
    position log sm.state.lastApplied = i := by
  rw [h.state.lastApplied, plain_lastApplied]
  exact position_of_take hlog h.le

-- A call takes the state machine on, and its responses are those of the plain run.
theorem apply (h : Arrived serde log clock sm i) (c : Nat → String) (n : Nat) :
    Arrived serde log clock (sm.apply serde (timed c ((log.drop i).take n))).2
      (min (i + n) log.length) ∧
    (sm.apply serde (timed c ((log.drop i).take n))).1 = ((plain clock log).1.drop i).take n := by
  have hlen : (log.take i).length = i := List.length_take_of_le h.le
  have htake : log.take (i + n) = log.take i ++ (log.drop i).take n := List.take_add
  have ⟨hr, hs⟩ := applyEntries_of_plain h.state c ((log.drop i).take n)
  rw [← htake, hlen] at hr
  rw [← htake] at hs
  constructor
  case left =>
    constructor
    case le        => exact Nat.min_le_right _ _
    case state     => rw [← List.take_eq_take_min]; exact hs
    case persisted => simp [SledStateMachine.openDb, SledStateMachine.apply, serde.fromSlice_toVec]
  case right =>
    have hresp : (plain clock (log.take (i + n))).1 = (plain clock log).1.take (i + n) := by
      have := plain_responses_append clock (log.take (i + n)) (log.drop (i + n))
      rw [List.take_append_drop, List.length_take] at this
      rw [← this, List.take_eq_take_iff, length_plain]
      omega
    have hc : (sm.apply serde (timed c ((log.drop i).take n))).1 =
        (applyEntries sm.state (timed c ((log.drop i).take n))).1 := rfl
    rw [hc, hr, hresp, List.drop_take, Nat.add_sub_cancel_left]

-- Another node that installs a snapshot goes on from where it was made.
theorem install (receiver : SledStateMachine β) (metadata : SnapshotMeta)
    (h : Arrived serde log clock sm i)
    (hl : metadata.lastLogId = sm.state.lastApplied)
    (hm : metadata.lastMembership = sm.state.lastMembership) :
    ∃ sm', receiver.installSnapshot serde ⟨metadata, serde.toVec sm.state⟩ = some sm' ∧
      Arrived serde log clock sm' i := by
  refine ⟨⟨receiver.db.insert "state" (serde.toVec sm.state), sm.state⟩, ?_, h.le, h.state, ?_⟩
  · simp only [installSnapshot, serde.fromSlice_toVec, hl, hm]
  · simp [SledStateMachine.openDb, serde.fromSlice_toVec]

end Arrived

namespace IsFaithful

theorem start : IsFaithful serde log clock ⟨0, []⟩ (start serde) where
  arrived := ⟨Nat.zero_le _, .refl _, rfl⟩
  next    := rfl
  answers := rfl
  one     := by simp [Delivery.start]

theorem batch (h : IsFaithful serde log clock c d) : d.batch log n = (log.drop c.position).take n := by
  rw [Delivery.batch, h.next]

theorem openDb (hlog : IsAscending log) (h : IsFaithful serde log clock c d)
    (ha : Arrived serde log clock sm i) :
    IsFaithful serde log clock { c with position := i } (d.openDb serde log sm.db) where
  arrived := ha.openDb
  next    := ha.openDb.position hlog
  answers := h.answers
  one     := h.one

theorem install (hlog : IsAscending log) (h : IsFaithful serde log clock c d)
    (receiver : SledStateMachine β) (snapshotId : String) : ∃ d',
    d.install serde log receiver ⟨⟨d.sm.state.lastApplied, d.sm.state.lastMembership, snapshotId⟩,
      serde.toVec d.sm.state⟩ = some d' ∧ IsFaithful serde log clock c d' := by
  have ⟨sm, hi, ha⟩ := h.arrived.install receiver
    ⟨d.sm.state.lastApplied, d.sm.state.lastMembership, snapshotId⟩ rfl rfl
  refine ⟨{ d with sm, next := position log d.sm.state.lastApplied }, ?_, ?_⟩
  · rw [Delivery.install, hi]
    rfl
  · exact ⟨ha, h.arrived.position hlog, h.answers, h.one⟩

variable [DecidableEq β] (null : β)

-- No event fails.
theorem step (hlog : IsAscending log) (h : IsFaithful serde log clock c d) (e : Event β) :
    ∃ d', d.step serde null log e = some d' ∧ IsFaithful serde log clock (c.step log clock e) d' := by
  cases e
  case apply n clock' =>
    have ⟨ha, hr⟩ := h.arrived.apply clock' n
    refine ⟨_, rfl, ?_⟩
    rw [h.batch]
    constructor
    case arrived => exact ha
    case answers => rw [Course.step, ← hr, ← h.answers]; rfl
    case one =>
      intro answer hm
      rcases List.mem_append.mp hm with hm | hm
      · exact h.one answer hm
      · rw [List.mem_singleton.mp hm]
        exact (length_applyEntries _ _).trans (by simp [timed])
    case next =>
      simp only [Course.step, h.next, List.length_take, List.length_drop]
      have := h.arrived.le
      omega
  case restart => exact ⟨_, rfl, h.openDb hlog h.arrived⟩
  case crash n clock' stop =>
    refine ⟨_, rfl, ?_⟩
    rw [h.batch]
    cases stop
    case none   => exact h.openDb hlog (h.arrived.apply clock' n).1
    case some k =>
      change IsFaithful serde log clock c (d.openDb serde log d.sm.db)
      exact h.openDb hlog h.arrived
  case build snapshotId receiver => exact h.install hlog receiver snapshotId
  case current receiver =>
    rw [Delivery.step, getCurrentSnapshot]
    split
    case h_1 => exact ⟨d, rfl, h⟩
    case h_2 hs =>
      split at hs
      case isTrue  => cases hs
      case isFalse => cases hs; exact h.install hlog receiver "latest"

theorem run (hlog : IsAscending log) (h : IsFaithful serde log clock c d) (es : List (Event β)) :
    ∃ d', Transition.run (Delivery.step serde null log) d es = some d' ∧
      IsFaithful serde log clock (es.foldl (Course.step log clock) c) d' := by
  induction es generalizing c d
  case nil => exact ⟨d, rfl, h⟩
  case cons e es hi =>
    have ⟨d₁, hs, h₁⟩ := h.step null hlog e
    have ⟨d', hr, h'⟩ := hi h₁
    exact ⟨d', Transition.run_of_step hs hr, h'⟩

end IsFaithful

variable [DecidableEq β]

-- However a log gets to a state machine, none of it is left out and nothing is applied twice: the state
-- is that of the plain run over what has been handed over, up to the time stamps, and the responses are
-- those of the plain run. A call that is cut off leaves on disk what was there before it, unless it has
-- got to the end.
theorem delivery_irrelevant (serde : Serde RaftState β) (null : β) (clock : Nat → String)
    (hlog : IsAscending log) (es : List (Event β)) :
    ∃ d, Transition.run (Delivery.step serde null log) (start serde) es = some d ∧
      SameButStamps d.sm.state (plain clock (log.take (Course.of log clock es).position)).2 ∧
      ((Course.of log clock es).position = log.length →
        SameButStamps d.sm.state (plain clock log).2) ∧
      d.answers = (Course.of log clock es).answers ∧
      (∀ answer ∈ d.answers, answer.2.length = answer.1.length) ∧
      ∀ entries n, (SledStateMachine.openDb serde
        (d.sm.applyInterrupted serde entries (some n)).db).state = d.sm.state := by
  have ⟨d, hr, h⟩ : ∃ d, Transition.run (Delivery.step serde null log) (start serde) es = some d ∧
      IsFaithful serde log clock (Course.of log clock es) d :=
    IsFaithful.start.run null hlog es
  have hs : SameButStamps d.sm.state
      (plain clock (log.take (Course.of log clock es).position)).2 :=
    h.arrived.state
  refine ⟨d, hr, hs, fun hp => ?_, h.answers, h.one, fun _ _ => h.arrived.persisted⟩
  rwa [hp, List.take_length] at hs

-- A call is cut off, and after one with three entries the log goes on at another node, which crashes
-- right after it has written its state.
theorem delivery_irrelevant_handoff :
    let id (index : Nat) : LogId := ⟨⟨1, ⟨0⟩⟩, index⟩
    let log : List Entry := [
      ⟨id 1, .normal (.registerJob "job" "node" "python" "2026-04-08T10:00:00+00:00")⟩,
      ⟨id 2, .normal (.updateJobStatus "job" "running" "node")⟩,
      ⟨id 4, .normal (.storeEnrollToken "token" "2026-04-09T10:00:00+00:00" "node")⟩,
      ⟨id 5, .normal (.updateJobStatus "job" "done" "node")⟩,
      ⟨id 7, .normal (.consumeEnrollToken "token")⟩
    ]
    let receiver : SledStateMachine RaftState := ⟨∅, { RaftState.default with lastApplied := id 9 }⟩
    ∃ d, Transition.run (Delivery.step (.raw RaftState) .default log) (start (.raw RaftState))
        [.crash 4 (fun _ => "10:00") (some 2), .apply 3 fun _ => "10:01", .current receiver,
          .crash 1 (fun _ => "10:02") none, .restart, .apply 7 fun _ => "10:03"] = some d ∧
      SameButStamps d.sm.state (plain (fun _ => "10:04") log).2 ∧
      d.answers.map (·.1.length) = [3, 1] := by
  intro id log receiver
  have ⟨d, hr, _, hs, ha, _⟩ := @delivery_irrelevant _ log _ (.raw RaftState) .default
    (fun _ => "10:04") (by decide) [.crash 4 (fun _ => "10:00") (some 2), .apply 3 fun _ => "10:01",
      .current receiver, .crash 1 (fun _ => "10:02") none, .restart, .apply 7 fun _ => "10:03"]
  exact ⟨d, hr, hs (by decide), by rw [ha]; decide⟩

end Delivery

end All4One.Raft
