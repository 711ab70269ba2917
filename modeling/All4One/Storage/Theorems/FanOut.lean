import All4One.Storage.Theorems.Replication

open Foundation Path Transition

namespace All4One.Storage.FanOut

variable {crates : Crates} {text : Failure → String} {now : Nat → String}
  {dataDir peerDir bucket key : String} {policy : StoragePolicy} {header : Option String}
  {body : Bytes} {metadata : ObjectMetadata} {shards : List Bytes} {shard : Shard}
  {pending : List Shard} {s s' s₀ : FanOut} {newest task : Task} {older : List Task} {k : Nat}
  {disk : Disk}

section Step

theorem step_put (h : step crates text dataDir peerDir bucket key s (.put now header body) = some s') :
    ∃ metadata w, (putObjectHandler crates now dataDir bucket key header body).run ⟨s.origin, []⟩ =
        (.ok metadata, w) ∧
      s' = ⟨w.disk, s.peer, ⟨body, metadata, none⟩ :: s.tasks⟩ := by
  simp only [step, put] at h
  have ⟨⟨metadata, w⟩, hr, h⟩ := Option.bind_eq_some_iff.mp h
  exact ⟨metadata, w, Prog.succeed_eq_some.mp hr, (Option.some.inj h).symm⟩

theorem step_read (h : step crates text dataDir peerDir bucket key s (.read k) = some s') :
    ∃ body metadata shards w, s.tasks[k]? = some ⟨body, metadata, none⟩ ∧
      (readShards crates dataDir bucket key).run ⟨s.origin, []⟩ = (shards, w) ∧
      s' = ⟨w.disk, s.peer, s.tasks.set k ⟨body, metadata, some (shards.toOption.getD [])⟩⟩ := by
  simp only [step, read] at h
  split at h
  case h_1 body metadata ht => exact ⟨body, metadata, _, _, ht, rfl, (Option.some.inj h).symm⟩
  case h_2 => cases h

theorem step_deliver (h : step crates text dataDir peerDir bucket key s (.deliver now k) = some s') :
    ∃ body metadata shard shards, s.tasks[k]? = some ⟨body, metadata, some (shard :: shards)⟩ ∧
      s' = ⟨s.origin, received crates text peerDir bucket key metadata now shard s.peer,
        s.tasks.set k ⟨body, metadata, some shards⟩⟩ := by
  simp only [step, deliver] at h
  split at h
  case h_1 body metadata shard shards ht => exact ⟨_, _, _, _, ht, (Option.some.inj h).symm⟩
  case h_2 => cases h

end Step

-- The peer has what the newest task has sent, as far as the newest task will not send it yet.
structure Converges (crates : Crates) (dataDir peerDir bucket key : String) (s : FanOut)
    (newest : Task) (policy : StoragePolicy) (shards : List Bytes) : Prop where
  stored  : Stored crates dataDir bucket key newest.body policy shards s.origin
  text    : newest.metadata.policy = policy.text
  etag    : newest.metadata.etag = crates.sha256 newest.body
  genuine : ∀ pending, newest.pending = some pending →
    ∀ shard ∈ pending, shards[shard.index]? = some shard.data
  data    : ∀ i < policy.dataShards, newest.Awaits i ∨ ∃ shard, shards[i]? = some shard ∧
    s.peer.files.entry (shardPlace s.peer.files.cwd peerDir bucket key i) = some (.file shard)
  parity  : ∀ i < policy.dataShards + policy.parityShards, newest.Awaits i ∨ ∃ shard,
    s.peer.files.entry (shardPlace s.peer.files.cwd peerDir bucket key i) = some (.file shard)
  index   : newest.pending ≠ some [] ∨ HasDir peerDir bucket s.peer.files ∧
    ∃ m, Index.entry s.peer.index bucket key = some (crates.json.toVec m) ∧
      m.policy = policy.text ∧ m.etag = crates.sha256 newest.body

namespace Converges

-- A put leaves everything to its task.
theorem of_put {w w' : World}
    (h : (putObjectHandler crates now dataDir bucket key header body).run w = (.ok metadata, w')) :
    ∃ policy shards, Converges crates dataDir peerDir bucket key
      ⟨w'.disk, s.peer, ⟨body, metadata, none⟩ :: s.tasks⟩ ⟨body, metadata, none⟩ policy shards := by
  have ⟨⟨shards, hs⟩, ⟨_, hm⟩, _⟩ := Stored.of_putObjectHandler h
  refine ⟨_, shards, hs, ?_, ?_, ?_, ?_, ?_, ?_⟩
  · rw [hm]; rfl
  · rw [hm]; rfl
  · intro _ h; cases h
  · intro _ _; exact .inl fun _ h => by cases h
  · intro _ _; exact .inl fun _ h => by cases h
  · exact .inl nofun

-- The newest task reads all of the shards that it is to send.
theorem read {loaded : List Shard} {tasks : List Task}
    (h : Converges crates dataDir peerDir bucket key s ⟨body, metadata, none⟩ policy shards)
    (hs : Stored crates dataDir bucket key body policy shards disk)
    (hi : loaded.map (·.index) = List.range (policy.dataShards + policy.parityShards))
    (hg : ∀ shard ∈ loaded, shards[shard.index]? = some shard.data) :
    Converges crates dataDir peerDir bucket key ⟨disk, s.peer, tasks⟩ ⟨body, metadata, some loaded⟩
      policy shards := by
  have hawait (i : Nat) (h : i < policy.dataShards + policy.parityShards) :
      Task.Awaits ⟨body, metadata, some loaded⟩ i := by
    intro _ hl
    cases hl
    rwa [← List.mem_range, ← hi, List.mem_map] at h
  constructor
  case stored  => exact hs
  case text    => exact h.text
  case etag    => exact h.etag
  case genuine => intro _ hl; cases hl; exact hg
  case data    => intro i hi; exact .inl (hawait i (by omega))
  case parity  => intro i hi; exact .inl (hawait i hi)
  case index =>
    left
    rintro hl
    cases hl
    cases policy <;> cases hi

-- An older task may read what the newest put has left.
theorem of_origin {tasks : List Task}
    (h : Converges crates dataDir peerDir bucket key s newest policy shards)
    (hs : Stored crates dataDir bucket key newest.body policy shards disk) :
    Converges crates dataDir peerDir bucket key ⟨disk, s.peer, tasks⟩ newest policy shards :=
  { h with stored := hs }

theorem awaits_or (h : Task.Awaits ⟨body, metadata, some (shard :: pending)⟩ k) :
    k = shard.index ∨ Task.Awaits ⟨body, metadata, some pending⟩ k := by
  have ⟨other, ho, hi⟩ := h _ rfl
  cases ho
  case head => exact .inl hi.symm
  case tail ho => exact .inr fun _ hl => by cases hl; exact ⟨other, ho, hi⟩

-- A message of the newest task brings the peer closer.
theorem deliver {tasks : List Task}
    (h : Converges crates dataDir peerDir bucket key s ⟨body, metadata, some (shard :: pending)⟩
      policy shards)
    (hr : Received crates now peerDir (transferRequest bucket key metadata shard) s.peer disk) :
    Converges crates dataDir peerDir bucket key ⟨s.origin, disk, tasks⟩
      ⟨body, metadata, some pending⟩ policy shards := by
  have hg := h.genuine _ rfl
  rw [List.forall_mem_cons] at hg
  have hcwd := hr.files.cwd
  constructor
  case stored  => exact h.stored
  case text    => exact h.text
  case etag    => exact h.etag
  case genuine => intro _ hl; cases hl; exact hg.2
  case index =>
    refine .inr ⟨hr.dir, _, hr.index, ?_, h.etag⟩
    have hp : metadata.policy = policy.text := h.text
    simp only [transferRequest, hp, policyOfText_text]
    rfl
  case data =>
    intro i hi
    rw [hcwd]
    by_cases hs : i = shard.index
    case pos => exact .inr ⟨shard.data, hs ▸ hg.1, hs ▸ hr.shard⟩
    case neg =>
      rcases h.data i hi with ha | ⟨data, hd, he⟩
      · exact .inl ((awaits_or ha).resolve_left hs)
      · exact .inr ⟨data, hd, hr.other i hs _ he⟩
  case parity =>
    intro i hi
    rw [hcwd]
    by_cases hs : i = shard.index
    case pos => exact .inr ⟨shard.data, hs ▸ hr.shard⟩
    case neg =>
      rcases h.parity i hi with ha | ⟨data, he⟩
      · exact .inl ((awaits_or ha).resolve_left hs)
      · exact .inr ⟨data, hr.other i hs _ he⟩

-- A harmless message of an older task does not take the peer further away.
theorem harmless {tasks : List Task}
    (h : Converges crates dataDir peerDir bucket key s newest policy shards)
    (hh : s.Harmless dataDir bucket key newest task shard)
    (hr : Received crates now peerDir (transferRequest bucket key task.metadata shard) s.peer disk) :
    Converges crates dataDir peerDir bucket key ⟨s.origin, disk, tasks⟩ newest policy shards := by
  have hcwd := hr.files.cwd
  constructor
  case stored  => exact h.stored
  case text    => exact h.text
  case etag    => exact h.etag
  case genuine => exact h.genuine
  case index =>
    refine hh.index.imp id fun ⟨hp, he⟩ => ⟨hr.dir, _, hr.index, ?_, he.trans h.etag⟩
    simp only [transferRequest, hp, h.text, policyOfText_text]
    rfl
  case data =>
    intro i hi
    rw [hcwd]
    by_cases hs : i = shard.index
    case neg =>
      refine (h.data i hi).imp id fun ⟨data, hd, he⟩ => ⟨data, hd, hr.other i hs _ he⟩
    case pos =>
      subst hs
      rcases hh.shard with ha | hl | he
      · exact .inl ha
      · rw [h.text, layout_text] at hl
        exact absurd hi (Nat.not_lt.mpr hl)
      · -- The origin has the same bytes in this shard.
        have hlt : shard.index < shards.length := by
          rw [h.stored.encoding.length]
          omega
        rw [h.stored.files _ hlt, Option.some.injEq, Entry.file.injEq] at he
        exact .inr ⟨_, List.getElem?_eq_getElem hlt, he ▸ hr.shard⟩
  case parity =>
    intro i hi
    rw [hcwd]
    by_cases hs : i = shard.index
    case pos => exact .inr ⟨shard.data, hs ▸ hr.shard⟩
    case neg =>
      exact (h.parity i hi).imp id fun ⟨data, he⟩ => ⟨data, hr.other i hs _ he⟩

-- Once all is sent, the peer has the object.
theorem holds (h : Converges crates dataDir peerDir bucket key s newest policy shards)
    (hd : newest.pending = some []) :
    Holds crates peerDir bucket key newest.body policy shards s.peer := by
  have hn (i : Nat) : ¬ newest.Awaits i := fun ha => by simpa using ha _ hd
  have ⟨hdir, hx⟩ := h.index.resolve_left (not_not.mpr hd)
  constructor
  case encoding => exact h.stored.encoding
  case dir      => exact hdir
  case index    => exact hx
  case shards   => exact fun i hi => (h.data i hi).resolve_left (hn i)
  case parity   => exact fun i hi => (h.parity i hi).resolve_left (hn i)

end Converges

-- Nothing is in the way of the messages, and they bring the peer to what was put last.
structure IsConverging (crates : Crates) (dataDir peerDir bucket key : String) (s : FanOut) :
    Prop where
  free      : Unobstructed peerDir bucket key s.peer.files
  converges : ∀ newest older, s.tasks = newest :: older →
    ∃ policy shards, Converges crates dataDir peerDir bucket key s newest policy shards

namespace IsConverging

variable (h : IsConverging crates dataDir peerDir bucket key s)
include h

theorem put (hs : s.step crates text dataDir peerDir bucket key (.put now header body) = some s') :
    IsConverging crates dataDir peerDir bucket key s' := by
  have ⟨metadata, w, hr, hs'⟩ := step_put hs
  subst hs'
  refine ⟨h.free, fun newest older ht => ?_⟩
  cases ht
  exact Converges.of_put hr

theorem read (hb : '/' ∉ bucket.toList)
    (hs : s.step crates text dataDir peerDir bucket key (.read k) = some s') :
    IsConverging crates dataDir peerDir bucket key s' := by
  have ⟨body, metadata, loaded, w, hk, hr, hs'⟩ := step_read hs
  subst hs'
  refine ⟨h.free, fun newest' older' ht' => ?_⟩
  cases ht : s.tasks
  case nil => simp [ht] at hk
  case cons newest older =>
    have ⟨policy, shards, h⟩ := h.converges newest older ht
    have ⟨loaded', hr', hi, hgen⟩ := readShards_of_stored (w := ⟨s.origin, []⟩) hb h.stored
    rw [hr'] at hr
    cases hr
    have hst := h.stored.openTree
    cases k
    case zero =>
      simp only [ht, List.getElem?_cons_zero, Option.some.injEq] at hk
      subst hk
      simp only [ht, List.set_cons_zero, List.cons.injEq] at ht'
      cases ht'.1
      exact ⟨policy, shards, h.read hst hi fun shard hs => (hgen shard hs).1⟩
    case succ k =>
      simp only [ht, List.set_cons_succ, List.cons.injEq] at ht'
      cases ht'.1
      exact ⟨policy, shards, h.of_origin hst⟩

theorem deliver (hb : '/' ∉ bucket.toList) (hg : s.IsHarmless dataDir bucket key (.deliver now k))
    (hs : s.step crates text dataDir peerDir bucket key (.deliver now k) = some s') :
    IsConverging crates dataDir peerDir bucket key s' := by
  have ⟨body, metadata, shard, pending, hk, hs'⟩ := step_deliver hs
  subst hs'
  have hr : Received crates now peerDir (transferRequest bucket key metadata shard) s.peer
      (received crates text peerDir bucket key metadata now shard s.peer) :=
    h.free.received hb
  refine ⟨h.free.of_received hb, fun newest' older' ht' => ?_⟩
  cases ht : s.tasks
  case nil => simp [ht] at hk
  case cons newest older =>
    have ⟨policy, shards, h⟩ := h.converges newest older ht
    cases k
    case zero =>
      simp only [ht, List.getElem?_cons_zero, Option.some.injEq] at hk
      subst hk
      simp only [ht, List.set_cons_zero, List.cons.injEq] at ht'
      cases ht'.1
      exact ⟨policy, shards, h.deliver hr⟩
    case succ k =>
      simp only [ht, List.getElem?_cons_succ] at hk
      simp only [ht, List.set_cons_succ, List.cons.injEq] at ht'
      cases ht'.1
      exact ⟨policy, shards, h.harmless (hg _ _ _ _ _ ht hk rfl) hr⟩

theorem step {e : Event} (hb : '/' ∉ bucket.toList) (hg : s.IsHarmless dataDir bucket key e)
    (hs : s.step crates text dataDir peerDir bucket key e = some s') :
    IsConverging crates dataDir peerDir bucket key s' := by
  cases e
  case put     => exact h.put hs
  case read    => exact h.read hb hs
  case deliver => exact h.deliver hb hg hs

end IsConverging

-- Where older tasks only send what does no harm, and nothing is in the way at the peer, it ends up with
-- what was put last.
theorem converges {es : List Event} (hb : '/' ∉ bucket.toList) (h₀ : s₀.tasks = [])
    (hu : Unobstructed peerDir bucket key s₀.peer.files)
    (hg : Guarded (step crates text dataDir peerDir bucket key)
      (IsHarmless dataDir bucket key) s₀ es)
    (hr : run (step crates text dataDir peerDir bucket key) s₀ es = some s)
    (ht : s.tasks = newest :: older) (hd : ∀ task ∈ s.tasks, task.pending = some []) :
    getResult crates peerDir bucket key ⟨s.peer, []⟩ = .ok newest.body := by
  have hi : IsConverging crates dataDir peerDir bucket key s₀ := by
    refine ⟨hu, fun newest older ht => ?_⟩
    rw [h₀] at ht
    cases ht
  have hi := hg.invariant (.last hr) hi fun _ _ _ h hg hs => h.step hb hg hs
  have ⟨policy, shards, hc⟩ := hi.converges newest older ht
  exact (hc.holds (hd newest (by simp [ht]))).getResult

section Runs

variable {origin peer : Disk} {tasks : List Task}

theorem step_put_of_run {w : World}
    (h : (putObjectHandler crates now dataDir bucket key header body).run ⟨origin, []⟩ =
      (.ok metadata, w)) :
    step crates text dataDir peerDir bucket key ⟨origin, peer, tasks⟩ (.put now header body) =
      some ⟨w.disk, peer, ⟨body, metadata, none⟩ :: tasks⟩ := by
  simp only [step, put, Prog.succeed_eq_some.mpr h]
  rfl

theorem step_read_of_hot {data : Bytes} (hb : '/' ∉ bucket.toList)
    (hk : tasks[k]? = some ⟨body, metadata, none⟩)
    (h : Stored .reference dataDir bucket key data .hot shards origin) :
    ∃ disk, Stored .reference dataDir bucket key data .hot shards disk ∧
      step .reference text dataDir peerDir bucket key ⟨origin, peer, tasks⟩ (.read k) =
        some ⟨disk, peer, tasks.set k ⟨body, metadata, some [hotShard data]⟩⟩ := by
  have hr := readShards_of_hot (w := ⟨origin, []⟩) hb h
  refine ⟨_, h.openTree, ?_⟩
  simp only [step, read, hk, hr]
  rfl

theorem step_deliver_of_pending (hk : tasks[k]? = some ⟨body, metadata, some (shard :: pending)⟩) :
    step crates text dataDir peerDir bucket key ⟨origin, peer, tasks⟩ (.deliver now k) =
      some ⟨origin, received crates text peerDir bucket key metadata now shard peer,
        tasks.set k ⟨body, metadata, some pending⟩⟩ := by
  simp only [step, deliver, hk]

-- Nothing has been put yet.
def fresh : FanOut where
  origin := World.empty.disk
  peer   := World.empty.disk
  tasks  := []

def stepText : FanOut → Event → Option FanOut :=
  step .reference (fun _ => "") "/d" "/p" "b" "a"

def putHot (text : String) : Event :=
  .put clock (some "hot") (Bytes.ofString text)

theorem Stored.of_putTextHandler {text : String} {w w' : World}
    (h : (putTextHandler "b" "a" (some "hot") text).run w = (.ok metadata, w')) :
    ∃ shards, Stored .reference "/d" "b" "a" (Bytes.ofString text) .hot shards w'.disk :=
  (Storage.Stored.of_putObjectHandler h).1

def taskText (text : String) (pending : Option (List Shard)) : Task where
  body     := Bytes.ofString text
  metadata := textMetadata "b" "a" text .hot
  pending  := pending

-- The peer when a message of a task has arrived, with what the task has read.
def receivedText (old new : String) (peer : Disk) : Disk :=
  received .reference (fun _ => "") "/p" "b" "a" (textMetadata "b" "a" old .hot) clock
    (hotShard (Bytes.ofString new)) peer

theorem stepText_deliver {old new : String}
    (hk : tasks[k]? = some (taskText old (some [hotShard (Bytes.ofString new)]))) :
    stepText ⟨origin, peer, tasks⟩ (.deliver clock k) =
      some ⟨origin, receivedText old new peer, tasks.set k (taskText old (some []))⟩ :=
  step_deliver_of_pending hk

-- Both puts are evaluated together.
theorem hello_bye_replies :
    ((putTextHandler "b" "a" (some "hot") "hello").run .empty).1 =
      .ok (textMetadata "b" "a" "hello" .hot) ∧
    ((putTextHandler "b" "a" (some "hot") "bye").run
      ⟨((putTextHandler "b" "a" (some "hot") "hello").run .empty).2.disk, []⟩).1 =
      .ok (textMetadata "b" "a" "bye" .hot) := by
  decide +kernel

-- Two puts, of which none has been read.
theorem run_puts : ∃ disk shards,
    Stored .reference "/d" "b" "a" (Bytes.ofString "bye") .hot shards disk ∧
    ∃ w, stepText fresh (putHot "hello") = some w ∧ stepText w (putHot "bye") =
      some ⟨disk, World.empty.disk, [taskText "bye" none, taskText "hello" none]⟩ := by
  have ⟨hhello, hbye⟩ := hello_bye_replies
  have ⟨w, hp⟩ := Prog.exists_of_fst hhello
  rw [hp] at hbye
  have ⟨w₁, hq⟩ := Prog.exists_of_fst hbye
  have ⟨shards, hs⟩ := Stored.of_putTextHandler hq
  exact ⟨w₁.disk, shards, hs, _, step_put_of_run hp, step_put_of_run hq⟩

-- The task of the first put reads what the second has left, and is done with it before the task of the
-- second reads the same.
theorem converges_bye :
    ∃ s, run stepText fresh [putHot "hello", putHot "bye", .read 1, .deliver clock 1, .read 0,
        .deliver clock 0] = some s ∧
      getResult .reference "/p" "b" "a" ⟨s.peer, []⟩ = .ok (Bytes.ofString "bye") := by
  have hb : '/' ∉ "b".toList := by decide
  have ⟨disk, shards, hs, w, h₁, h₂⟩ := run_puts
  let shard := hotShard (Bytes.ofString "bye")
  obtain ⟨d, hs, h₃⟩ : ∃ d, Stored .reference "/d" "b" "a" (Bytes.ofString "bye") .hot shards d ∧
      stepText ⟨disk, World.empty.disk, [taskText "bye" none, taskText "hello" none]⟩ (.read 1) =
        some ⟨d, World.empty.disk, [taskText "bye" none, taskText "hello" (some [shard])]⟩ :=
    step_read_of_hot hb rfl hs
  obtain ⟨peer, hpeer⟩ : ∃ peer, receivedText "hello" "bye" World.empty.disk = peer := ⟨_, rfl⟩
  have h₄ : stepText ⟨d, World.empty.disk, [taskText "bye" none, taskText "hello" (some [shard])]⟩
      (.deliver clock 1) = some ⟨d, peer, [taskText "bye" none, taskText "hello" (some [])]⟩ :=
    hpeer ▸ stepText_deliver rfl
  obtain ⟨d', _, h₅⟩ : ∃ d', Stored .reference "/d" "b" "a" (Bytes.ofString "bye") .hot shards d' ∧
      stepText ⟨d, peer, [taskText "bye" none, taskText "hello" (some [])]⟩ (.read 0) =
        some ⟨d', peer, [taskText "bye" (some [shard]), taskText "hello" (some [])]⟩ :=
    step_read_of_hot hb rfl hs
  have h₆ : stepText ⟨d', peer, [taskText "bye" (some [shard]), taskText "hello" (some [])]⟩
      (.deliver clock 0) = some ⟨d', receivedText "bye" "bye" peer,
        [taskText "bye" (some []), taskText "hello" (some [])]⟩ :=
    stepText_deliver rfl
  have hr : run stepText fresh [putHot "hello", putHot "bye", .read 1, .deliver clock 1, .read 0,
      .deliver clock 0] = some ⟨d', receivedText "bye" "bye" peer,
        [taskText "bye" (some []), taskText "hello" (some [])]⟩ :=
    run_of_step h₁ <| run_of_step h₂ <| run_of_step h₃ <| run_of_step h₄ <| run_of_step h₅ <|
    run_of_step h₆ rfl
  -- The newest task has not even read when the message of the older one arrives.
  have hharmless : IsHarmless "/d" "b" "a"
      ⟨d, World.empty.disk, [taskText "bye" none, taskText "hello" (some [shard])]⟩
      (.deliver clock 1) := by
    rintro newest older task shard shards ht - -
    cases ht
    exact ⟨.inl nofun, .inl nofun⟩
  have hg : Guarded stepText (IsHarmless "/d" "b" "a") fresh [putHot "hello", putHot "bye", .read 1,
      .deliver clock 1, .read 0, .deliver clock 0] :=
    .of_step h₁ trivial <| .of_step h₂ trivial <| .of_step h₃ trivial <| .of_step h₄ hharmless <|
    .of_step h₅ trivial <| .of_step h₆ trivial trivial
  have hsent : ∀ task ∈ [taskText "bye" (some []), taskText "hello" (some [])],
      task.pending = some [] :=
    List.forall_mem_cons.mpr ⟨rfl, List.forall_mem_singleton.mpr rfl⟩
  have hfree : Unobstructed "/p" "b" "a" fresh.peer.files := unobstructed_empty
  have hget := converges hb rfl hfree hg hr rfl hsent
  exact ⟨_, hr, hget⟩

theorem etag_bye : Crates.reference.sha256 (Bytes.ofString "bye") ≠
    (textMetadata "b" "a" "hello" .hot).etag := by
  decide +kernel

-- The task of the first put is late: it reads what the second put has left and sends it with the
-- hash of the first.
theorem converges_fails :
    ∃ s newest older, run stepText fresh [putHot "hello", putHot "bye", .read 0,
        .deliver clock 0, .read 1, .deliver clock 1] = some s ∧
      s.tasks = newest :: older ∧ (∀ task ∈ s.tasks, task.pending = some []) ∧
      newest.body = Bytes.ofString "bye" ∧
      getResult .reference "/p" "b" "a" ⟨s.peer, []⟩ ≠ .ok newest.body := by
  have hb : '/' ∉ "b".toList := by decide
  have ⟨disk, shards, hs, w, h₁, h₂⟩ := run_puts
  let shard := hotShard (Bytes.ofString "bye")
  obtain ⟨d, hs, h₃⟩ : ∃ d, Stored .reference "/d" "b" "a" (Bytes.ofString "bye") .hot shards d ∧
      stepText ⟨disk, World.empty.disk, [taskText "bye" none, taskText "hello" none]⟩ (.read 0) =
        some ⟨d, World.empty.disk, [taskText "bye" (some [shard]), taskText "hello" none]⟩ :=
    step_read_of_hot hb rfl hs
  obtain ⟨peer, hpeer⟩ : ∃ peer, receivedText "bye" "bye" World.empty.disk = peer := ⟨_, rfl⟩
  have h₄ : stepText ⟨d, World.empty.disk, [taskText "bye" (some [shard]), taskText "hello" none]⟩
      (.deliver clock 0) = some ⟨d, peer, [taskText "bye" (some []), taskText "hello" none]⟩ :=
    hpeer ▸ stepText_deliver rfl
  obtain ⟨d', _, h₅⟩ : ∃ d', Stored .reference "/d" "b" "a" (Bytes.ofString "bye") .hot shards d' ∧
      stepText ⟨d, peer, [taskText "bye" (some []), taskText "hello" none]⟩ (.read 1) =
        some ⟨d', peer, [taskText "bye" (some []), taskText "hello" (some [shard])]⟩ :=
    step_read_of_hot hb rfl hs
  have h₆ : stepText ⟨d', peer, [taskText "bye" (some []), taskText "hello" (some [shard])]⟩
      (.deliver clock 1) = some ⟨d', receivedText "hello" "bye" peer,
        [taskText "bye" (some []), taskText "hello" (some [])]⟩ :=
    stepText_deliver rfl
  have hr : run stepText fresh [putHot "hello", putHot "bye", .read 0, .deliver clock 0,
      .read 1, .deliver clock 1] = some ⟨d', receivedText "hello" "bye" peer,
        [taskText "bye" (some []), taskText "hello" (some [])]⟩ :=
    run_of_step h₁ <| run_of_step h₂ <| run_of_step h₃ <| run_of_step h₄ <| run_of_step h₅ <|
    run_of_step h₆ rfl
  refine ⟨_, _, _, hr, rfl, ?_, rfl, fun hget => ?_⟩
  · exact List.forall_mem_cons.mpr ⟨rfl, List.forall_mem_singleton.mpr rfl⟩
  have hpeer : Unobstructed "/p" "b" "a" peer.files := hpeer ▸ unobstructed_empty.of_received hb
  have hrec : Received .reference clock "/p" (transferRequest "b" "a" (textMetadata "b" "a" "hello" .hot)
      shard) peer (receivedText "hello" "bye" peer) :=
    hpeer.received hb
  have hx : Index.entry (receivedText "hello" "bye" peer).index "b" "a" = _ := hrec.index
  have hget := (getResult_of_some (w := ⟨receivedText "hello" "bye" peer, []⟩) hx).symm.trans hget
  exact etag_bye (etag_of_decodeChunks hget)

end Runs

end All4One.Storage.FanOut
