import All4One.Jobs.Output

open Foundation Broadcast LineReader Transition

namespace All4One.Output

section Pipes

variable {written bytes : Bytes} {said ls : List String} {p p' : Pipe} {line : Option String}

-- What has been told of what has been written to a pipe: while it is read, the lines so far, all of
-- which are UTF-8, and in the end all lines up to the first one that is not.
structure Pipe.Tells (written : Bytes) (said : List String) (p : Pipe) : Prop where
  reading : p.reading = true → ∃ raws, raws.map Bytes.toString? = said.map some ∧
    ∀ more, (p.closed = true → more = []) →
      lines (written ++ more) = raws ++ lines (p.unread ++ more)
  ended   : p.reading = false → ∀ more, (p.closed = true → more = []) →
    texts (lines (written ++ more)) = said

-- What may happen to a pipe: what is written to it then, and what is told of it.
inductive Pipe.Step (p : Pipe) : Bytes → List String → Pipe → Prop
  | none : Step p [] [] p
  | write {bytes : Bytes} {p' : Pipe} : p.write bytes = some p' → Step p bytes [] p'
  | close {p' : Pipe} : p.close = some p' → Step p [] [] p'
  | read {p' : Pipe} {line : Option String} : p.read = some (p', line) → Step p [] line.toList p'

namespace Pipe.Tells

theorem new : Tells [] [] .new where
  reading _ := ⟨[], rfl, fun _ _ => rfl⟩
  ended h   := by cases h

theorem write (h : p.Tells written said) (hw : p.write bytes = some p') :
    p'.Tells (written ++ bytes) said := by
  rw [Pipe.write] at hw
  split at hw
  case isTrue => cases hw
  case isFalse hc =>
    cases hw
    constructor
    case reading =>
      intro hr
      obtain ⟨raws, hm, hl⟩ := h.reading hr
      refine ⟨raws, hm, fun more _ => ?_⟩
      rw [List.append_assoc, List.append_assoc]
      exact hl _ fun hc' => absurd hc' hc
    case ended =>
      intro hr more _
      rw [List.append_assoc]
      exact h.ended hr _ fun hc' => absurd hc' hc

theorem close (h : p.Tells written said) (hc : p.close = some p') : p'.Tells written said := by
  rw [Pipe.close] at hc
  split at hc
  case isTrue => cases hc
  case isFalse hn =>
    cases hc
    constructor
    case reading =>
      intro hr
      obtain ⟨raws, hm, hl⟩ := h.reading hr
      exact ⟨raws, hm, fun more _ => hl more fun hc => absurd hc hn⟩
    case ended => exact fun hr more _ => h.ended hr more fun hc => absurd hc hn

theorem read (h : p.Tells written said) (hp : p.read = some (p', line)) :
    p'.Tells written (said ++ line.toList) := by
  rw [Pipe.read] at hp
  split at hp
  case isTrue => cases hp
  case isFalse hr =>
    rw [Bool.not_eq_true, Bool.not_eq_false'] at hr
    obtain ⟨raws, hm, hl⟩ := h.reading hr
    split at hp
    case h_1 => cases hp
    case h_2 hn =>
      cases hp
      obtain ⟨hc, hu⟩ := eq_nil_of_ends hn
      refine ⟨by simp, fun _ more hmore => ?_⟩
      obtain rfl := hmore hc
      rw [hl [] (fun _ => rfl), hu, texts_append hm]
      rfl
    case h_3 raw rest hn =>
      have hline {more} (hmore : p.closed = true → more = []) :
          lines (written ++ more) = raws ++ raw :: lines (rest ++ more) := by
        rw [hl more hmore, lines_of_line hn hmore]
      split at hp
      case h_1 hd =>
        cases hp
        refine ⟨by simp, fun _ more hmore => ?_⟩
        rw [hline hmore, texts_append hm, texts_of_bad hd]
        rfl
      case h_2 line hd =>
        cases hp
        refine ⟨fun _ => ⟨raws ++ [raw], ?_, fun more hmore => ?_⟩, fun h => ?_⟩
        case refine_1 => simp [hm, hd]
        case refine_2 => rw [hline hmore, List.append_assoc]; rfl
        case refine_3 => rw [hr] at h; cases h

theorem step (h : p.Tells written said) (hs : p.Step bytes ls p') :
    p'.Tells (written ++ bytes) (said ++ ls) := by
  cases hs
  case none     => simpa using h
  case write hw => simpa using h.write hw
  case close hc => simpa using h.close hc
  case read hp  => simpa using h.read hp

theorem isPrefix (h : p.Tells written said) : said <+: texts (lines written) := by
  cases hr : p.reading
  case true =>
    obtain ⟨raws, hm, hl⟩ := h.reading hr
    have hl := hl [] fun _ => rfl
    rw [List.append_nil] at hl
    rw [hl, texts_append hm]
    exact List.prefix_append _ _
  case false =>
    have := h.ended hr [] fun _ => rfl
    rw [List.append_nil] at this
    rw [this]

theorem eq_texts (h : p.Tells written said) (hr : p.reading = false) : said = texts (lines written) := by
  have := h.ended hr [] fun _ => rfl
  rw [List.append_nil] at this
  exact this.symm

end Pipe.Tells

theorem Pipe.Step.reading (h : p.Step bytes ls p') (hr : p.reading = false) : p'.reading = false := by
  cases h
  case none => exact hr
  case write hw =>
    rw [Pipe.write] at hw
    split at hw <;> cases hw
    exact hr
  case close hc =>
    rw [Pipe.close] at hc
    split at hc <;> cases hc
    exact hr
  case read hp => simp [Pipe.read, hr] at hp

end Pipes

-- What an event writes to a pipe.
def Event.written (i : Nat) (source : Source) : Event → Bytes
  | .write j source' bytes => if j = i ∧ source' = source then bytes else []
  | _                      => []

-- The line, if it comes from a pipe.
def Said.lineOf (i : Nat) (source : Source) (said : Said) : Option String :=
  if said.speaker = .executor i source then some said.line else none

namespace State

variable {s s' s₁ : State} {e : Event} {es : List Event} {i : Nat} {x x' : Executor} {source : Source}
  {job : JobId} {said : Said}

theorem executors_foldl_say {saids : List Said} : (saids.foldl say s).executors = s.executors := by
  induction saids generalizing s
  case nil            => rfl
  case cons _ _ hi    => exact hi

theorem step_eq_some : s.step e = some s' ↔
    ∃ s₁, s.act e = some s₁ ∧ (s.tells e).foldl say s₁ = s' :=
  Option.map_eq_some_iff

@[simp] theorem pipe_setPipe {p : Pipe} {source' : Source} :
    (x.setPipe p source).pipe source' = if source' = source then p else x.pipe source' := by
  cases source <;> cases source' <;> rfl

@[simp] theorem job_setPipe {p : Pipe} : (x.setPipe p source).job = x.job := by
  cases source <;> rfl

-- What an event does to the executors: one is new, one changes, or all stay as they are.
inductive Turns (s : State) : Event → List Executor → Prop
  | spawn {job : JobId} : Turns s (.spawn job) (s.executors ++ [.start job])
  | write {i : Nat} {source : Source} {bytes : Bytes} {x : Executor} {p : Pipe} :
    s.executors[i]? = some x → (x.pipe source).write bytes = some p →
    Turns s (.write i source bytes) (s.executors.set i (x.setPipe p source))
  | close {i : Nat} {source : Source} {x : Executor} {p : Pipe} :
    s.executors[i]? = some x → (x.pipe source).close = some p →
    Turns s (.close i source) (s.executors.set i (x.setPipe p source))
  | read {i : Nat} {source : Source} {x : Executor} {p : Pipe} {line : Option String} :
    s.executors[i]? = some x → (x.pipe source).read = some (p, line) →
    s.tells (.read i source) = line.toList.map (⟨x.job, .executor i source, ·⟩) →
    Turns s (.read i source) (s.executors.set i (x.setPipe p source))
  | finish {i : Nat} {x x' : Executor} :
    s.executors[i]? = some x → x.finish = some x' → Turns s (.finish i) (s.executors.set i x')
  | other {e : Event} : (∀ i source, e.written i source = []) →
    (∀ said ∈ s.tells e, said.speaker = .spawnJob) → Turns s e s.executors

theorem turns_of_step (h : s.step e = some s') : Turns s e s'.executors := by
  obtain ⟨s₁, ha, rfl⟩ := step_eq_some.mp h
  rw [executors_foldl_say]
  cases e
  case spawn => cases ha; exact .spawn
  case spawnFails => cases ha; exact .other (fun _ _ => rfl) (by simp [tells])
  case openStream client job =>
    simp only [act] at ha
    split at ha <;> cases ha
    exact .other (fun _ _ => rfl) (by simp [tells])
  case subscribe client =>
    simp only [act, Option.bind_eq_bind, Option.bind_eq_some_iff] at ha
    obtain ⟨stream, -, ha⟩ := ha
    split at ha <;> cases ha
    exact .other (fun _ _ => rfl) (by simp [tells])
  case poll client =>
    simp only [act, Option.bind_eq_bind, Option.bind_eq_some_iff] at ha
    obtain ⟨stream, -, ⟨r, c⟩, -, ha⟩ := ha
    cases r
    case message line =>
      simp only at ha
      split at ha <;> cases ha <;> exact .other (fun _ _ => rfl) (by simp [tells])
    case lagged => cases ha; exact .other (fun _ _ => rfl) (by simp [tells])
  case leave client =>
    simp only [act, Option.bind_eq_bind, Option.bind_eq_some_iff] at ha
    obtain ⟨stream, -, ha⟩ := ha
    cases ha
    exact .other (fun _ _ => rfl) (by simp [tells])
  case write i source bytes =>
    simp only [act, Option.bind_eq_bind, Option.bind_eq_some_iff] at ha
    obtain ⟨x, hx, p, hp, ha⟩ := ha
    cases ha
    exact .write hx hp
  case close i source =>
    simp only [act, Option.bind_eq_bind, Option.bind_eq_some_iff] at ha
    obtain ⟨x, hx, p, hp, ha⟩ := ha
    cases ha
    exact .close hx hp
  case read i source =>
    simp only [act, Option.bind_eq_bind, Option.bind_eq_some_iff] at ha
    obtain ⟨x, hx, ⟨p, line⟩, hp, ha⟩ := ha
    cases ha
    refine .read hx hp ?_
    simp only [tells, hx, hp, Option.bind_eq_bind, Option.bind_some]
    cases line <;> rfl
  case finish i =>
    simp only [act, Option.bind_eq_bind, Option.bind_eq_some_iff] at ha
    obtain ⟨x, hx, x', hp, ha⟩ := ha
    cases ha
    exact .finish hx hp

-- The account that is given of what is written to a pipe of an executor.
structure Account (i : Nat) (source : Source) (written : Bytes) (ls : List String) (s : State) :
    Prop where
  pipe  : ∀ x, s.executors[i]? = some x → (x.pipe source).Tells written ls
  blank : s.executors[i]? = none → written = [] ∧ ls = []

namespace Account

variable {written bytes : Bytes} {ls ls' : List String}

-- One executor changes.
theorem set {j : Nat} (h : s.Account i source written ls) (hx : s.executors[j]? = some x)
    (he : s'.executors = s.executors.set j x')
    (hi : i = j → (x.pipe source).Step bytes ls' (x'.pipe source))
    (hj : i ≠ j → bytes = [] ∧ ls' = []) : s'.Account i source (written ++ bytes) (ls ++ ls') := by
  by_cases hij : i = j
  case pos =>
    subst hij
    have hlt := (List.getElem?_eq_some_iff.mp hx).1
    have hx' : s'.executors[i]? = some x' := by rw [he, List.getElem?_set_self hlt]
    constructor
    case pipe =>
      intro y hy
      cases hx'.symm.trans hy
      exact (h.pipe x hx).step (hi rfl)
    case blank => exact fun hn => nomatch hx'.symm.trans hn
  case neg =>
    obtain ⟨rfl, rfl⟩ := hj hij
    have hl : s'.executors[i]? = s.executors[i]? := by rw [he, List.getElem?_set_ne (Ne.symm hij)]
    rw [List.append_nil, List.append_nil]
    exact ⟨fun y hy => h.pipe y (hl ▸ hy), fun hn => h.blank (hl ▸ hn)⟩

theorem step_pipe {p : Pipe} {source' : Source} (h : source' = source → (x.pipe source').Step bytes ls p)
    (hn : source' ≠ source → bytes = [] ∧ ls = []) :
    (x.pipe source).Step bytes ls ((x.setPipe p source').pipe source) := by
  rw [pipe_setPipe]
  split
  case isTrue hs  => subst hs; exact h rfl
  case isFalse hs => obtain ⟨rfl, rfl⟩ := hn (Ne.symm hs); exact .none

theorem step (h : s.Account i source written ls) (hs : s.step e = some s') :
    s'.Account i source (written ++ e.written i source)
      (ls ++ (s.tells e).filterMap (Said.lineOf i source)) := by
  have ht := turns_of_step hs
  generalize he : s'.executors = executors at ht
  cases ht
  case spawn job =>
    have hw : s'.Account i source written ls := by
      constructor
      case blank =>
        intro hn
        rw [he, List.getElem?_eq_none_iff, List.length_append] at hn
        exact h.blank (List.getElem?_eq_none (by omega))
      case pipe =>
        intro y hy
        rw [he, List.getElem?_append] at hy
        split at hy
        case isTrue  => exact h.pipe y hy
        case isFalse hl =>
          obtain ⟨rfl, rfl⟩ := h.blank (List.getElem?_eq_none (Nat.not_lt.mp hl))
          obtain rfl : .start job = y := by
            rw [List.getElem?_singleton] at hy
            split at hy <;> cases hy
            rfl
          cases source <;> exact .new
    simpa [Event.written, tells] using hw
  case write j source' bytes x p hx hp =>
    refine h.set hx he (fun hi => step_pipe (fun hsrc => ?_) fun hsrc => ?_) fun hi => ?_
    · subst hi hsrc; simpa [Event.written, tells] using Pipe.Step.write hp
    · simp [Event.written, tells, hsrc]
    · simp [Event.written, tells, Ne.symm hi]
  case close j source' x p hx hp =>
    refine h.set hx he (fun hi => step_pipe (fun hsrc => ?_) fun _ => ⟨rfl, rfl⟩) fun _ => ⟨rfl, rfl⟩
    subst hi hsrc
    exact .close hp
  case read j source' x p line hx hp ht =>
    rw [ht]
    refine h.set hx he (fun hi => step_pipe (fun hsrc => ?_) fun hsrc => ?_) fun hi => ?_
    · subst hi hsrc
      have hl : (line.toList.map (Said.mk x.job (.executor i source'))).filterMap
          (Said.lineOf i source') = line.toList := by
        cases line <;> simp [Said.lineOf]
      rw [hl]
      exact .read hp
    · cases line <;> simp [Event.written, Said.lineOf, hsrc]
    · cases line <;> simp [Event.written, Said.lineOf, Ne.symm hi]
  case finish j x x' hx hp =>
    refine h.set hx he (fun _ => ?_) fun _ => ⟨rfl, rfl⟩
    rw [Executor.finish] at hp
    split at hp <;> cases hp
    cases source <;> exact .none
  case other hw ht =>
    have hl : (s.tells e).filterMap (Said.lineOf i source) = [] :=
      List.filterMap_eq_nil_iff.mpr fun said hm => by simp [Said.lineOf, ht said hm]
    rw [hw, hl, List.append_nil, List.append_nil]
    exact ⟨fun y hy => h.pipe y (by rwa [he] at hy), fun hn => h.blank (by rwa [he] at hn)⟩

end Account

-- How an executor goes on: it keeps its job, it does not read a pipe again that it is done with, and it
-- looks at the outcome only then.
structure Continues (x x' : Executor) : Prop where
  job      : x'.job = x.job
  reading  : ∀ source, (x.pipe source).reading = false → (x'.pipe source).reading = false
  finished : x'.finished = true → x.finished = true ∨ ∀ source, (x'.pipe source).reading = false

theorem Continues.refl (x : Executor) : Continues x x :=
  ⟨rfl, fun _ => id, .inl⟩

theorem Continues.setPipe {p : Pipe} (h : (x.pipe source).reading = false → p.reading = false) :
    Continues x (x.setPipe p source) where
  job            := job_setPipe
  reading source' hr := by
    rw [pipe_setPipe]
    split
    case isTrue hs => subst hs; exact h hr
    case isFalse   => exact hr
  finished hf    := .inl (by cases source <;> exact hf)

theorem Turns.continues {executors : List Executor} (h : Turns s e executors)
    (hx : s.executors[i]? = some x) : ∃ x', executors[i]? = some x' ∧ Continues x x' := by
  have set {j : Nat} {y y' : Executor} (hy : s.executors[j]? = some y) (hc : Continues y y') :
      ∃ x', (s.executors.set j y')[i]? = some x' ∧ Continues x x' := by
    by_cases hij : j = i
    case neg => exact ⟨x, by rw [List.getElem?_set_ne hij, hx], .refl x⟩
    case pos =>
      subst hij
      cases hx.symm.trans hy
      exact ⟨y', List.getElem?_set_self (List.getElem?_eq_some_iff.mp hx).1, hc⟩
  cases h
  case spawn =>
    have hlt := (List.getElem?_eq_some_iff.mp hx).1
    exact ⟨x, by rw [List.getElem?_append_left hlt, hx], .refl x⟩
  case write hy hp => exact set hy (.setPipe (Pipe.Step.write hp).reading)
  case close hy hp => exact set hy (.setPipe (Pipe.Step.close hp).reading)
  case read hy hp _ => exact set hy (.setPipe (Pipe.Step.read hp).reading)
  case finish hy hp =>
    refine set hy ?_
    rw [Executor.finish] at hp
    split at hp <;> cases hp
    case isFalse hn =>
      simp only [not_or, Bool.not_eq_true] at hn
      exact ⟨rfl, fun source => by cases source <;> exact id,
        fun _ => .inr fun source => by cases source; exacts [hn.2.1, hn.2.2]⟩
  case other => exact ⟨x, hx, .refl x⟩

theorem Turns.starts {executors : List Executor} (h : Turns s e executors)
    (hx : s.executors[i]? = none) (hx' : executors[i]? = some x') : ∃ job, x' = .start job := by
  have set {j : Nat} {y : Executor} (hs : (s.executors.set j y)[i]? = some x') : False := by
    have := (List.getElem?_eq_some_iff.mp hs).1
    rw [List.length_set] at this
    rw [List.getElem?_eq_getElem this] at hx
    cases hx
  cases h
  case spawn job =>
    rw [List.getElem?_append_right (List.getElem?_eq_none_iff.mp hx), List.getElem?_singleton] at hx'
    split at hx' <;> cases hx'
    exact ⟨job, rfl⟩
  case other => rw [hx] at hx'; cases hx'
  all_goals exact (set hx').elim

-- What is told is of the job of an executor, which is done with its pipes once it has finished.
structure Holds (told : List Said) (s : State) : Prop where
  job  : ∀ said ∈ told, ∀ i source, said.speaker = .executor i source →
    ∃ x : Executor, s.executors[i]? = some x ∧ x.job = said.job
  done : ∀ (i : Nat) (x : Executor), s.executors[i]? = some x → x.finished = true →
    ∀ source, (x.pipe source).reading = false

theorem Holds.step {told : List Said} (h : Holds told s) (hs : s.step e = some s') :
    Holds (told ++ s.tells e) s' := by
  have ht := turns_of_step hs
  constructor
  case done =>
    intro i x' hx' hf
    cases hx : s.executors[i]?
    case none =>
      obtain ⟨job, rfl⟩ := ht.starts hx hx'
      cases hf
    case some x =>
      obtain ⟨y, hy, hc⟩ := ht.continues hx
      cases hx'.symm.trans hy
      rcases hc.finished hf with hf | hf
      · exact fun source => hc.reading source (h.done i x hx hf source)
      · exact hf
  case job =>
    intro said hm i source hsp
    have keeps {x} (hx : s.executors[i]? = some x) (hj : x.job = said.job) :
        ∃ x : Executor, s'.executors[i]? = some x ∧ x.job = said.job := by
      obtain ⟨x', hx', hc⟩ := ht.continues hx
      exact ⟨x', hx', hc.job.trans hj⟩
    rcases List.mem_append.mp hm with ho | hn
    · obtain ⟨x, hx, hj⟩ := h.job said ho i source hsp
      exact keeps hx hj
    · generalize s'.executors = executors at ht keeps
      cases ht
      case read j source' x p line hx hp htells =>
        rw [htells, List.mem_map] at hn
        obtain ⟨text, -, rfl⟩ := hn
        cases hsp
        exact keeps hx rfl
      case other hs' => cases (hs' said hn).symm.trans hsp
      all_goals cases hn

-- What holds of all that has happened and been told so far.
structure History (es : List Event) (s : State) : Prop where
  run     : run step start es = some s
  account : ∀ i source, s.Account i source (es.flatMap (Event.written i source))
    ((outputs step tells start es).filterMap (Said.lineOf i source))
  holds   : Holds (outputs step tells start es) s

theorem History.start : History [] start where
  run         := rfl
  account _ _ := ⟨fun _ h => (by cases h), fun _ => ⟨rfl, rfl⟩⟩
  holds       := ⟨fun _ h => (by cases h), fun _ _ h => (by cases h)⟩

theorem History.step (h : History es s) (hs : s.step e = some s') : History (es ++ [e]) s' where
  run              := run_concat_some.mpr ⟨s, h.run, hs⟩
  account i source := by
    rw [outputs_concat h.run hs, List.flatMap_append, List.filterMap_append]
    simpa using (h.account i source).step hs
  holds            := by
    rw [outputs_concat h.run hs]
    exact h.holds.step hs

-- What an executor has told of a pipe are the lines that have been written to it, in order and as far
-- as it has come, and all of them once it looks at the outcome. It tells them of its own job.
theorem output_is_told {told : List Said} (h : run step start es = some s)
    (ht : told = outputs step tells start es) (hx : s.executors[i]? = some x) :
    (∀ source, told.filterMap (Said.lineOf i source) <+:
        texts (lines (es.flatMap (Event.written i source)))) ∧
      (x.finished = true → ∀ source, told.filterMap (Said.lineOf i source) =
        texts (lines (es.flatMap (Event.written i source)))) ∧
      ∀ said ∈ told, ∀ source, said.speaker = .executor i source → said.job = x.job := by
  subst ht
  have hh : History es s := run_history h .start fun _ _ _ _ hi hs => hi.step hs
  have hp source := (hh.account i source).pipe x hx
  refine ⟨fun source => (hp source).isPrefix, fun hf source => ?_, fun said hm source hs => ?_⟩
  · exact (hp source).eq_texts (hh.holds.done i x hx hf source)
  · obtain ⟨y, hy, hj⟩ := hh.holds.job said hm i source hs
    cases hx.symm.trans hy
    exact hj.symm

theorem output_is_told_sample : ∃ s, run step start [.spawn ⟨7⟩, .write 0 .stdout [104, 105, 10, 121],
      .read 0 .stdout, .close 0 .stdout, .close 0 .stderr, .read 0 .stdout, .read 0 .stderr,
      .read 0 .stdout, .finish 0] = some s ∧
    (outputs step tells start [.spawn ⟨7⟩, .write 0 .stdout [104, 105, 10, 121], .read 0 .stdout,
      .close 0 .stdout, .close 0 .stderr, .read 0 .stdout, .read 0 .stderr, .read 0 .stdout,
      .finish 0]).filterMap (Said.lineOf 0 .stdout) = ["hi", "y"] := by
  let es : List Event := [.spawn ⟨7⟩, .write 0 .stdout [104, 105, 10, 121], .read 0 .stdout,
    .close 0 .stdout, .close 0 .stderr, .read 0 .stdout, .read 0 .stderr, .read 0 .stdout, .finish 0]
  have hf : ((run step start es).bind (·.executors[0]?)).map (·.finished) = some true := by
    decide +kernel
  obtain ⟨x, hx, hf⟩ := Option.map_eq_some_iff.mp hf
  obtain ⟨s, hr, hx⟩ := Option.bind_eq_some_iff.mp hx
  refine ⟨s, hr, ((output_is_told hr rfl hx).2.1 hf .stdout).trans ?_⟩
  decide +kernel

end State

end All4One.Output
