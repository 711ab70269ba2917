import All4One.Jobs.Output

open Foundation Broadcast Transition

namespace All4One.Output.State

variable {s s' s₁ : State} {e : Event} {es : List Event} {k client : Nat} {job job' : JobId}
  {sent got : List String} {missed : Nat} {c : Channel Nat String 256} {stream : Stream}

@[simp] theorem channel_setChannel :
    (s.setChannel job c).channel job' = if job' = job then c else s.channel job' := by
  simp only [channel, setChannel, HashMap.lookup_insert']
  split <;> rfl

theorem channel_setChannel_self : (s.setChannel job (s.channel job)).channel job' = s.channel job' := by
  rw [channel_setChannel]
  split
  case isTrue h => rw [h]
  case isFalse  => rfl

@[simp] theorem channel_setStream : (s.setStream client stream).channel job = s.channel job := rfl

@[simp] theorem channel_drop : (s.drop client job).channel job' =
    if job' = job then (s.channel job).leave client else s.channel job' :=
  channel_setChannel

theorem lookup_setStream : (s.setStream client stream).streams.lookup k =
    if k = client then some stream else s.streams.lookup k :=
  HashMap.lookup_insert'

theorem lookup_drop : (s.drop k job).streams.lookup k = none :=
  Finmap.lookup_erase _ _

theorem streams_foldl_say {saids : List Said} : (saids.foldl say s).streams = s.streams := by
  induction saids generalizing s
  case nil         => rfl
  case cons _ _ hi => exact hi

-- The texts of what is told of a job.
def texts (job : JobId) (told : List Said) : List String :=
  (told.filter (·.job = job)).map Said.text

-- What an event does for a client.
inductive Serves (s : State) : Event → State → Prop
  | openStream {client : Nat} {job : JobId} : s.streams.lookup client = none →
    Serves s (.openStream client job)
      ((s.setChannel job (s.channel job)).setStream client ⟨job, false, []⟩)
  | subscribe {client : Nat} {stream : Stream} :
    s.streams.lookup client = some stream → stream.subscribed = false →
    Serves s (.subscribe client)
      ((s.setChannel stream.job ((s.channel stream.job).subscribe client)).setStream client
        { stream with subscribed := true })
  | deliver {client : Nat} {stream : Stream} {line : String} {c : Channel Nat String 256} :
    s.streams.lookup client = some stream →
    (s.channel stream.job).receive client = some (.message line, c) → '\r' ∉ line.toList →
    Serves s (.poll client)
      ((s.setChannel stream.job c).setStream client
        { stream with received := stream.received ++ [line] })
  | panics {client : Nat} {stream : Stream} {line : String} {c : Channel Nat String 256} :
    s.streams.lookup client = some stream →
    (s.channel stream.job).receive client = some (.message line, c) → '\r' ∈ line.toList →
    Serves s (.poll client) ((s.setChannel stream.job c).drop client stream.job)
  | lags {client n : Nat} {stream : Stream} {c : Channel Nat String 256} :
    s.streams.lookup client = some stream →
    (s.channel stream.job).receive client = some (.lagged n, c) →
    Serves s (.poll client) (s.setChannel stream.job c)
  | leave {client : Nat} {stream : Stream} :
    s.streams.lookup client = some stream → Serves s (.leave client) (s.drop client stream.job)
  | other {e : Event} {s' : State} : s'.streams = s.streams →
    (∀ job, s'.channel job = s.channel job) → Serves s e s'

theorem serves_of_act (ha : s.act e = some s') : Serves s e s' := by
  cases e
  case openStream client job =>
    simp only [act] at ha
    split at ha <;> cases ha
    case h_2 hn => exact .openStream hn
  case subscribe client =>
    simp only [act, Option.bind_eq_bind, Option.bind_eq_some_iff] at ha
    obtain ⟨stream, hs, ha⟩ := ha
    split at ha <;> cases ha
    case isFalse hn => exact .subscribe hs (Bool.not_eq_true _ ▸ hn)
  case poll client =>
    simp only [act, Option.bind_eq_bind, Option.bind_eq_some_iff] at ha
    obtain ⟨stream, hs, ⟨r, c⟩, hr, ha⟩ := ha
    cases r
    case lagged => cases ha; exact .lags hs hr
    case message line =>
      simp only at ha
      split at ha <;> cases ha
      case isTrue hc  => exact .panics hs hr hc
      case isFalse hc => exact .deliver hs hr hc
  case leave client =>
    simp only [act, Option.bind_eq_bind, Option.bind_eq_some_iff] at ha
    obtain ⟨stream, hs, ha⟩ := ha
    cases ha
    exact .leave hs
  case spawn => cases ha; exact .other rfl fun _ => channel_setChannel_self
  case spawnFails => cases ha; exact .other rfl fun _ => channel_setChannel_self
  case write i source bytes =>
    simp only [act, Option.bind_eq_bind, Option.bind_eq_some_iff] at ha
    obtain ⟨x, -, p, -, ha⟩ := ha
    cases ha
    exact .other rfl fun _ => rfl
  case close i source =>
    simp only [act, Option.bind_eq_bind, Option.bind_eq_some_iff] at ha
    obtain ⟨x, -, p, -, ha⟩ := ha
    cases ha
    exact .other rfl fun _ => rfl
  case read i source =>
    simp only [act, Option.bind_eq_bind, Option.bind_eq_some_iff] at ha
    obtain ⟨x, -, p, -, ha⟩ := ha
    cases ha
    exact .other rfl fun _ => rfl
  case finish i =>
    simp only [act, Option.bind_eq_bind, Option.bind_eq_some_iff] at ha
    obtain ⟨x, -, x', -, ha⟩ := ha
    cases ha
    exact .other rfl fun _ => rfl

-- A stream that has ended is not there again before it is opened.
theorem ended_step (h : s.streams.lookup k = none) (hs : s.step e = some s')
    (ho : ∀ job, e ≠ .openStream k job) : s'.streams.lookup k = none := by
  obtain ⟨s₁, ha, rfl⟩ := Option.map_eq_some_iff.mp hs
  rw [streams_foldl_say]
  have ne {client} {stream : Stream} (hs : s.streams.lookup client = some stream) : k ≠ client := by
    rintro rfl
    rw [h] at hs
    cases hs
  have hv := serves_of_act ha
  clear hs ha
  cases hv
  case openStream client job _ =>
    have hk : k ≠ client := fun hk => ho job (hk ▸ rfl)
    rwa [lookup_setStream, if_neg hk]
  case subscribe hs _ => rwa [lookup_setStream, if_neg (ne hs)]
  case deliver hs _ _ => rwa [lookup_setStream, if_neg (ne hs)]
  case panics hs _ _  => exact (Finmap.lookup_erase_ne (ne hs)).trans h
  case lags           => exact h
  case leave hs       => exact (Finmap.lookup_erase_ne (ne hs)).trans h
  case other hs _     => rwa [hs]

theorem ended_run (h : s.streams.lookup k = none) (hr : run step s es = some s')
    (ho : ∀ job, .openStream k job ∉ es) : s'.streams.lookup k = none := by
  induction es generalizing s
  case nil => cases hr; exact h
  case cons e es hi =>
    obtain ⟨s₁, hs, hr⟩ := run_cons_some.mp hr
    simp only [List.mem_cons, not_or] at ho
    exact hi (ended_step h hs fun job he => (ho job).1 he.symm) hr fun job => (ho job).2

-- A client has been sent some of what has been told of a job since it listens.
structure Listens (s : State) (k : Nat) (job : JobId) (sent got : List String) (missed : Nat) :
    Prop where
  stream  : s.streams.lookup k = some ⟨job, true, got⟩
  carries : (s.channel job).Carries k sent got missed

namespace Listens

-- What is done for other clients is of no matter to one.
theorem frame (h : s.Listens k job sent got missed)
    (hs : s'.streams.lookup k = s.streams.lookup k)
    (hc : (s'.channel job).count = (s.channel job).count ∧ (s'.channel job).kept = (s.channel job).kept ∧
      (s'.channel job).readers.lookup k = (s.channel job).readers.lookup k) :
    s'.Listens k job sent got missed where
  stream  := hs ▸ h.stream
  carries := h.carries.congr hc.1 hc.2.1 hc.2.2

theorem same (h : s.Listens k job sent got missed) (hs : s'.streams = s.streams)
    (hc : ∀ job, s'.channel job = s.channel job) : s'.Listens k job sent got missed :=
  h.frame (by rw [hs]) (by simp [hc])

theorem setStream (h : s.Listens k job sent got missed) (hk : k ≠ client) :
    (s.setStream client stream).Listens k job sent got missed :=
  h.frame (by rw [lookup_setStream, if_neg hk]) ⟨rfl, rfl, rfl⟩

theorem setChannel (h : s.Listens k job sent got missed)
    (hc : c.count = (s.channel job').count ∧ c.kept = (s.channel job').kept ∧
      c.readers.lookup k = (s.channel job').readers.lookup k) :
    (s.setChannel job' c).Listens k job sent got missed := by
  refine h.frame rfl ?_
  rw [channel_setChannel]
  split
  case isTrue hj => subst hj; exact hc
  case isFalse   => exact ⟨rfl, rfl, rfl⟩

theorem drop (h : s.Listens k job sent got missed) (hk : k ≠ client) :
    (s.drop client job').Listens k job sent got missed :=
  (h.setChannel (Channel.leave_frame hk)).frame (Finmap.lookup_erase_ne hk) ⟨rfl, rfl, rfl⟩

theorem say (h : s.Listens k job sent got missed) (said : Said) :
    (s.say said).Listens k job (sent ++ texts job [said]) got missed where
  stream  := h.stream
  carries := by
    rw [State.say, channel_setChannel]
    split
    case isTrue hj =>
      simpa [texts, hj.symm] using h.carries.send
    case isFalse hj =>
      simpa [texts, Ne.symm hj] using h.carries

theorem foldl_say {saids : List Said} (h : s.Listens k job sent got missed) :
    (saids.foldl State.say s).Listens k job (sent ++ texts job saids) got missed := by
  induction saids generalizing s sent
  case nil => simpa [texts] using h
  case cons said saids hi =>
    have := hi (h.say said)
    rwa [List.append_assoc, texts, texts, ← List.map_append, ← List.filter_append,
      List.singleton_append] at this

-- What an event does for a client that listens: it has ended, or it has been sent the next text, or it
-- has missed some texts.
theorem act (h : s.Listens k job sent got missed) (ha : s.act e = some s')
    (ho : ∀ job, e ≠ .openStream k job) :
    s'.streams.lookup k = none ∧ (e = .leave k ∨ ∃ text ∈ sent, '\r' ∈ text.toList) ∨
    ∃ got' missed', s'.Listens k job sent got' missed' ∧
      ((s.channel job).waiting k ≤ 256 → missed' = missed) := by
  have keeps {s' : State} (hl : s'.Listens k job sent got missed) :
      ∃ got' missed', s'.Listens k job sent got' missed' ∧
        ((s.channel job).waiting k ≤ 256 → missed' = missed) :=
    ⟨got, missed, hl, fun _ => rfl⟩
  have own {stream : Stream} (hs : s.streams.lookup k = some stream) : stream = ⟨job, true, got⟩ :=
    Option.some_injective _ (hs.symm.trans h.stream)
  have hv := serves_of_act ha
  clear ha
  cases hv
  case openStream client job' _ =>
    have hk : k ≠ client := fun hk => ho job' (hk ▸ rfl)
    exact .inr (keeps ((h.setChannel ⟨rfl, rfl, rfl⟩).setStream hk))
  case subscribe client stream hs hn =>
    have hk : k ≠ client := by
      rintro rfl
      rw [own hs] at hn
      cases hn
    exact .inr (keeps ((h.setChannel (Channel.subscribe_frame hk)).setStream hk))
  case leave client stream hs =>
    by_cases hk : k = client
    case pos => subst hk; exact .inl ⟨lookup_drop, .inl rfl⟩
    case neg => exact .inr (keeps (h.drop hk))
  case deliver client stream line c hs hr _ =>
    by_cases hk : k = client
    case neg =>
      exact .inr (keeps ((h.setChannel (Channel.receive_frame hr hk)).setStream hk))
    case pos =>
      subst hk
      cases own hs
      rcases h.carries.receive hr with ⟨_, hl, hc⟩ | ⟨_, hl, _⟩ <;> cases hl
      refine .inr ⟨got ++ [line], missed, ⟨?_, ?_⟩, fun _ => rfl⟩
      case refine_1 => rw [lookup_setStream, if_pos rfl]
      case refine_2 => rwa [channel_setStream, channel_setChannel, if_pos rfl]
  case panics client stream line c hs hr hcr =>
    by_cases hk : k = client
    case neg =>
      exact .inr (keeps ((h.setChannel (Channel.receive_frame hr hk)).drop hk))
    case pos =>
      subst hk
      cases own hs
      rcases h.carries.receive hr with ⟨_, hl, hc⟩ | ⟨_, hl, _⟩ <;> cases hl
      exact .inl ⟨lookup_drop, .inr ⟨line, hc.sublist.subset (by simp), hcr⟩⟩
  case lags client n stream c hs hr =>
    by_cases hk : k = client
    case neg => exact .inr (keeps (h.setChannel (Channel.receive_frame hr hk)))
    case pos =>
      subst hk
      cases own hs
      rcases h.carries.receive hr with ⟨_, hl, _⟩ | ⟨_, hl, hw, hc⟩ <;> cases hl
      refine .inr ⟨got, missed + n, ⟨h.stream, ?_⟩, fun hle => absurd hw (Nat.not_lt.mpr hle)⟩
      rwa [channel_setChannel, if_pos rfl]
  case other hs hc => exact .inr (keeps (h.same hs hc))

theorem step (h : s.Listens k job sent got missed) (hs : s.step e = some s')
    (ho : ∀ job, e ≠ .openStream k job) :
    s'.streams.lookup k = none ∧ (e = .leave k ∨ ∃ text ∈ sent, '\r' ∈ text.toList) ∨
    ∃ got' missed', s'.Listens k job (sent ++ texts job (s.tells e)) got' missed' ∧
      ((s.channel job).waiting k ≤ 256 → missed' = missed) := by
  obtain ⟨s₁, ha, rfl⟩ := Option.map_eq_some_iff.mp hs
  rcases h.act ha ho with ⟨hn, hr⟩ | ⟨got', missed', hl, hm⟩
  · exact .inl ⟨by rwa [streams_foldl_say], hr⟩
  · exact .inr ⟨got', missed', hl.foldl_say, hm⟩

theorem run (h : s.Listens k job sent got missed) (hr : run State.step s es = some s')
    (ho : ∀ job, .openStream k job ∉ es) :
    s'.streams.lookup k = none ∧ (.leave k ∈ es ∨
      ∃ text ∈ sent ++ texts job (outputs State.step tells s es), '\r' ∈ text.toList) ∨
    ∃ got' missed', s'.Listens k job (sent ++ texts job (outputs State.step tells s es)) got' missed' ∧
      (Guarded State.step (fun s _ => (s.channel job).waiting k ≤ 256) s es → missed' = missed) := by
  induction es generalizing s sent got missed
  case nil =>
    cases hr
    exact .inr ⟨got, missed, by simpa [outputs, texts] using h, fun _ => rfl⟩
  case cons e es hi =>
    obtain ⟨s₁, hs, hr⟩ := run_cons_some.mp hr
    simp only [List.mem_cons, not_or] at ho
    have hsent : sent ++ texts job (outputs State.step tells s (e :: es)) =
        sent ++ texts job (s.tells e) ++ texts job (outputs State.step tells s₁ es) := by
      simp [outputs, hs, texts]
    rw [hsent]
    rcases h.step hs fun job he => (ho job).1 he.symm with ⟨hn, hend⟩ | ⟨got₁, missed₁, hl, hm⟩
    case inl =>
      refine .inl ⟨ended_run hn hr fun job => (ho job).2, ?_⟩
      rcases hend with rfl | ⟨text, ht, hc⟩
      · exact .inl List.mem_cons_self
      · exact .inr ⟨text, by simp [ht], hc⟩
    case inr =>
      rcases hi hl hr fun job => (ho job).2 with ⟨hn, hend⟩ | ⟨got', missed', hl', hm'⟩
      · exact .inl ⟨hn, hend.imp_left (List.mem_cons_of_mem e)⟩
      · refine .inr ⟨got', missed', hl', fun hg => ?_⟩
        obtain ⟨hw, hg⟩ := hg s₁ hs
        exact (hm' hg).trans (hm hw)

end Listens

-- A stream goes on until its client leaves or a carriage return is to be sent. Until then its client is
-- sent what has been told of the job since it listens, in order. If it is not too slow, it misses
-- nothing, and if there is nothing more for it, it has got the last 256 texts in any case.
theorem stream_follows (h : s.streams.lookup k = some ⟨job, false, []⟩)
    (hs : s.step (.subscribe k) = some s₁) (hr : run step s₁ es = some s')
    (ho : ∀ job, .openStream k job ∉ es) (ht : sent = texts job (outputs step tells s₁ es)) :
    s'.streams.lookup k = none ∧ (.leave k ∈ es ∨ ∃ text ∈ sent, '\r' ∈ text.toList) ∨
    ∃ got, s'.streams.lookup k = some ⟨job, true, got⟩ ∧ got.Sublist sent ∧
      ((s'.channel job).waiting k = 0 → sent.drop (sent.length - 256) <:+ got) ∧
      (Guarded step (fun s _ => (s.channel job).waiting k ≤ 256) s₁ es →
        got = sent.take (sent.length - (s'.channel job).waiting k)) := by
  subst ht
  have hl : s₁.Listens k job [] [] 0 := by
    obtain ⟨s₂, ha, rfl⟩ := Option.map_eq_some_iff.mp hs
    simp only [act, h, Option.bind_eq_bind, Option.bind_some] at ha
    cases ha
    constructor
    case stream  => exact (HashMap.lookup_insert').trans (if_pos rfl)
    case carries =>
      change Channel.Carries (State.channel (State.setStream _ _ _) job) k [] [] 0
      rw [channel_setStream, channel_setChannel, if_pos rfl]
      exact .start
  rcases hl.run hr ho with hend | ⟨got, missed, hl', hm⟩
  · exact .inl hend
  · refine .inr ⟨got, hl'.stream, hl'.carries.sublist, hl'.carries.last, fun hg => ?_⟩
    obtain rfl := hm hg
    exact hl'.carries.eq_take

theorem stream_follows_sample : ∃ s s₁ s', State.start.step (.openStream 0 ⟨7⟩) = some s ∧
    s.step (.subscribe 0) = some s₁ ∧
    run step s₁ [.spawn ⟨7⟩, .write 0 .stderr [104, 105, 13, 10], .read 0 .stderr, .poll 0] = some s' ∧
    s'.streams.lookup 0 = some ⟨⟨7⟩, true, ["[stderr] hi"]⟩ := by
  let es : List Event := [.spawn ⟨7⟩, .write 0 .stderr [104, 105, 13, 10], .read 0 .stderr, .poll 0]
  let s := (State.start.setChannel ⟨7⟩ .empty).setStream 0 ⟨⟨7⟩, false, []⟩
  have hs : State.start.step (.openStream 0 ⟨7⟩) = some s := rfl
  obtain ⟨s₁, h₁⟩ : ∃ s₁, s.step (.subscribe 0) = some s₁ := ⟨_, rfl⟩
  have hq : ((s.step (.subscribe 0)).bind fun s₁ => (run step s₁ es).map fun s' =>
      ((s'.channel ⟨7⟩).waiting 0, texts ⟨7⟩ (outputs step tells s₁ es),
        decide (Guarded step (fun s _ => (s.channel ⟨7⟩).waiting 0 ≤ 256) s₁ es))) =
      some (0, ["[stderr] hi"], true) := by
    decide +kernel
  rw [h₁, Option.bind_some] at hq
  obtain ⟨s', hr, hq⟩ := Option.map_eq_some_iff.mp hq
  simp only [Prod.mk.injEq, decide_eq_true_eq] at hq
  obtain ⟨hw, ht, hg⟩ := hq
  have ho : ∀ job, .openStream 0 job ∉ es := by simp [es]
  refine ⟨s, s₁, s', hs, h₁, hr, ?_⟩
  rcases stream_follows rfl h₁ hr ho ht.symm with ⟨-, hl | ⟨text, ht, hc⟩⟩ | ⟨got, hl, -, -, hgot⟩
  · simp [es] at hl
  · rw [List.mem_singleton.mp ht] at hc
    exact absurd hc (by decide)
  · rw [hl, hgot hg, hw]
    rfl

end All4One.Output.State
