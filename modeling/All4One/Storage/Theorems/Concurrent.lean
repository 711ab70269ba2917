import All4One.Storage.Concurrent
import All4One.Storage.Theorems.RoundTrip

open Foundation Path

namespace All4One.Storage

variable {crates : Crates} {dataDir bucket key : String} {call : PutCall} {calls : Side → PutCall}
  {shards : List Bytes} {shard : Bytes} {op : PutStep} {ops : List PutStep} {w w' : World} {i : Nat}

namespace PutCall

theorem shards_eq_ok :
    call.shards crates = .ok shards ↔ IsEncoding crates call.data call.policy shards := by
  simp only [PutCall.shards, IsEncoding, bind, Except.bind]
  cases compress crates call.data call.policy.zstdLevel <;> simp

theorem mem_shardSteps : .shard i shard ∈ shardSteps shards ↔ shards[i]? = some shard := by
  simp [shardSteps, List.mem_zipIdx_iff_getElem?, eq_comm]

theorem writeShard_run {c : Bytes × Nat} :
    (Prog.forEach [.shard c.2 c.1, .sidecar c.2 c.1] (call.perform crates dataDir bucket key)).run w =
    (writeShard crates (chunksDir dataDir bucket) (objectId bucket key) call.data.length c.2 c.1).run
      w := by
  rw [Prog.forEach_pair, writeShard]
  simp only [perform]

theorem writeEncoding_run :
    (Prog.forEach (shardSteps shards) (call.perform crates dataDir bucket key)).run w =
    (writeEncoding crates dataDir bucket key call.data shards).run w := by
  rw [shardSteps, Prog.forEach_flatMap, writeEncoding, writeShards]
  exact Prog.forEach_congr writeShard_run

-- The steps of a put, one after the other, are the put.
theorem thread_prog :
    ((call.thread crates bucket key).prog (call.perform crates dataDir bucket key)).run w =
    (putObject crates call.now dataDir bucket key call.data call.policy).run w := by
  rw [putObject_eq, Thread.prog, thread]
  split
  case h_1 shards hs =>
    obtain ⟨compressed, hz, he⟩ := shards_eq_ok.mp hs
    rw [Prog.forEach_cons, Prog.bind_assoc]
    refine Prog.bind_congr fun {_ _} => ?_
    rw [hz, Prog.ofExcept_ok_bind, he, Prog.ofExcept_ok_bind]
    rw [Prog.bind_congr_left Prog.forEach_append, Prog.bind_assoc,
      Prog.bind_congr_left writeEncoding_run]
    refine Prog.bind_congr fun {_ _} => ?_
    rw [Prog.forEach_cons, Prog.bind_assoc]
    rfl
  case h_2 e hs =>
    rw [Prog.forEach_cons, Prog.bind_assoc]
    refine Prog.bind_congr fun {_ _} => ?_
    simp only [PutCall.shards, bind, Except.bind] at hs
    split at hs
    case h_1 hz => cases hs; rw [hz]; rfl
    case h_2 hz => rw [hz, Prog.ofExcept_ok_bind, hs]; rfl

theorem perform_createDir :
    call.perform crates dataDir bucket key .createDir = createChunksDir dataDir bucket := by
  rw [perform, createChunksDir]

theorem perform_shard : call.perform crates dataDir bucket key (.shard i shard) = Io.files
    (Files.write (chunkPath (chunksDir dataDir bucket) (objectId bucket key) i) shard) := by
  rw [perform]

theorem perform_sidecar : call.perform crates dataDir bucket key (.sidecar i shard) = Io.files
    (Files.write (chunkPath (chunksDir dataDir bucket) (objectId bucket key) i ++ ".meta")
      (All4One.Storage.sidecar i (crates.sha256 shard) call.data.length)) := by
  rw [perform]

theorem perform_index : call.perform crates dataDir bucket key .index =
    putIndex crates call.now bucket key call.data call.policy := by
  rw [perform, putIndex]

theorem perform_extends (h : (call.perform crates dataDir bucket key op).run w = (.ok (), w')) :
    Files.Extends w.disk.files w'.disk.files := by
  cases op
  case createDir =>
    rw [perform_createDir] at h
    exact .of_grows (createChunksDir_keeps.of_eq h).1
  case shard =>
    rw [perform_shard] at h
    exact ((Io.files_write_keeps _ _).of_eq h).1.1
  case sidecar =>
    rw [perform_sidecar] at h
    exact ((Io.files_write_keeps _ _).of_eq h).1.1
  case index =>
    rw [perform_index] at h
    exact (putIndex_ok h).1 ▸ .refl _

theorem perform_shard_ok (h : (call.perform crates dataDir bucket key (.shard i shard)).run w =
    (.ok (), w')) :
    w'.disk.files.entry (shardPlace w.disk.files.cwd dataDir bucket key i) = some (.file shard) := by
  rw [perform_shard] at h
  exact Files.write_ok (Io.files_ok h).1

-- A shard file stays as it is unless it is written with something else.
theorem perform_keeps (h : (call.perform crates dataDir bucket key op).run w = (.ok (), w'))
    (hs : w.disk.files.entry (shardPlace w.disk.files.cwd dataDir bucket key i) =
      some (.file shard))
    (ho : ∀ shard', op = .shard i shard' → shard' = shard) :
    w'.disk.files.entry (shardPlace w.disk.files.cwd dataDir bucket key i) = some (.file shard) := by
  cases op
  case createDir =>
    rw [perform_createDir] at h
    exact (createChunksDir_keeps.of_eq h).1.entry _ _ hs
  case shard j shard' =>
    by_cases hj : j = i
    case pos =>
      subst hj
      rw [← ho shard' rfl]
      exact perform_shard_ok h
    case neg =>
      rw [perform_shard] at h
      rw [((Io.files_write_keeps _ _).of_eq h).1.2 _ fun he => hj (shardPlace_inj.mp he).2.symm]
      exact hs
  case sidecar =>
    rw [perform_sidecar] at h
    rw [((Io.files_write_keeps _ _).of_eq h).1.2 _ shardPlace_ne_sidecarPlace]
    exact hs
  case index =>
    rw [perform_index] at h
    rw [(putIndex_ok h).1]
    exact hs

end PutCall

namespace Puts

open PutCall

variable {last t : Side} {s s' : Puts} {ts : List Side}

-- A call has written one of its shards. Data that is needed can not get lost any more.
structure IsWritten (dataDir bucket key : String) (calls : Side → PutCall) (last : Side) (i : Nat)
    (shard : Bytes) (s : Puts) : Prop where
  file : ∃ shard', s.state.disk.files.entry
    (shardPlace s.state.disk.files.cwd dataDir bucket key i) = some (.file shard')
  data : i < (calls last).policy.dataShards →
    s.state.disk.files.entry (shardPlace s.state.disk.files.cwd dataDir bucket key i) =
      some (.file shard) ∧
    ∀ shard', .shard i shard' ∈ (s.threads last.other).todo → shard' = shard

-- What a call does not have to do any more is done.
structure Holds (dataDir bucket key : String) (calls : Side → PutCall) (last : Side)
    (shards : List Bytes) (s : Puts) : Prop where
  todo  : (s.threads last).todo <:+ .createDir :: (shardSteps shards ++ [.index])
  dir   : .createDir ∈ (s.threads last).todo ∨ HasDir dataDir bucket s.state.disk.files
  shard : ∀ i shard, shards[i]? = some shard →
    .shard i shard ∈ (s.threads last).todo ∨ IsWritten dataDir bucket key calls last i shard s

theorem IsWritten.of_perform (h : IsWritten dataDir bucket key calls last i shard s)
    (ht : (s.threads t).todo = op :: ops)
    (hp : ((calls t).perform crates dataDir bucket key op).run s.state = (.ok (), w))
    (ho : ∀ shard', i < (calls last).policy.dataShards → op = .shard i shard' → shard' = shard) :
    IsWritten dataDir bucket key calls last i shard
      (s.advance t ops w) := by
  have he := perform_extends hp
  constructor
  case file =>
    obtain ⟨shard', hf⟩ := h.file
    rw [Threads.advance_state, he.cwd]
    exact he.file _ _ hf
  case data =>
    intro hi
    have ⟨hf, hd⟩ := h.data hi
    rw [Threads.advance_state, he.cwd]
    refine ⟨perform_keeps hp hf fun shard' => ho shard' hi, fun shard' hm => hd shard' ?_⟩
    by_cases hl : last.other = t
    case pos =>
      subst hl
      rw [Threads.advance_self] at hm
      exact ht ▸ List.mem_cons_of_mem _ hm
    case neg => rwa [Threads.advance_of_ne hl] at hm

theorem HasDir.of_perform (hd : .createDir ∈ op :: ops ∨ HasDir dataDir bucket w.disk.files)
    (hp : (call.perform crates dataDir bucket key op).run w = (.ok (), w')) :
    .createDir ∈ ops ∨ HasDir dataDir bucket w'.disk.files := by
  rcases hd with hd | hd
  case inr => exact .inr (hd.of_extends (perform_extends hp))
  case inl =>
    rcases List.mem_cons.mp hd with rfl | hd
    case inr => exact .inl hd
    case inl =>
      rw [perform_createDir] at hp
      exact .inr (createChunksDir_ok hp)

theorem Holds.of_other (h : Holds dataDir bucket key calls last shards s) (hl : t ≠ last)
    (ht : (s.threads t).todo = op :: ops)
    (hp : ((calls t).perform crates dataDir bucket key op).run s.state = (.ok (), w)) :
    Holds dataDir bucket key calls last shards
      (s.advance t ops w) := by
  have hu : (s.advance t ops w).threads last = s.threads last := Threads.advance_of_ne hl.symm
  have ho : last.other = t := by cases t <;> cases last <;> first | exact absurd rfl hl | rfl
  constructor
  case todo => rw [hu]; exact h.todo
  case dir =>
    rw [hu]
    exact h.dir.imp_right (·.of_extends (perform_extends hp))
  case shard =>
    intro i shard hi
    rw [hu]
    refine (h.shard i shard hi).imp_right fun hw => hw.of_perform ht hp fun shard' hd he => ?_
    exact (hw.data hd).2 shard' (by rw [ho, ht, he]; exact List.mem_cons_self)

theorem Holds.of_last (h : Holds dataDir bucket key calls last shards s)
    (hg : Overrides calls last s last) (ht : (s.threads last).todo = op :: ops)
    (hp : ((calls last).perform crates dataDir bucket key op).run s.state = (.ok (), w)) :
    Holds dataDir bucket key calls last shards
      (s.advance last ops w) := by
  have htodo := h.todo
  have hdir := h.dir
  rw [ht] at htodo hdir
  -- The shards of a call have different numbers.
  have heq {i shard shard'} (hi : shards[i]? = some shard) (ho : op = .shard i shard') :
      shard' = shard := by
    have hm : op ∈ PutStep.createDir :: (shardSteps shards ++ [.index]) :=
      htodo.subset List.mem_cons_self
    simpa [ho, mem_shardSteps, hi, eq_comm] using hm
  constructor
  case todo => simpa using (List.suffix_cons op ops).trans htodo
  case dir  => simpa using HasDir.of_perform hdir hp
  case shard =>
    intro i shard hi
    have hs := h.shard i shard hi
    rw [Threads.advance_self]
    rw [ht, List.mem_cons, or_assoc] at hs
    rcases hs with ho | hm | hw
    case inr.inl => exact .inl hm
    case inr.inr => exact .inr (hw.of_perform ht hp fun shard' _ => heq hi)
    case inl =>
      subst ho
      have hf := perform_shard_ok hp
      rw [← (perform_extends hp).cwd] at hf
      refine .inr ⟨⟨shard, hf⟩, fun hd => ⟨hf, fun shard' hm => ?_⟩⟩
      have hne : last.other ≠ last := by cases last <;> decide
      rw [Threads.advance_of_ne hne] at hm
      exact hg rfl _ (by rw [ht]; rfl) _ hm (i, shard) rfl (i, shard') rfl hd rfl

theorem Holds.init (h : (calls last).shards crates = .ok shards) :
    Holds dataDir bucket key calls last shards (Puts.init crates bucket key calls w) := by
  have ht : ((Puts.init crates bucket key calls w).threads last).todo =
      .createDir :: (shardSteps shards ++ [.index]) := by
    simp only [Puts.init, thread, h]
  constructor
  case todo  => rw [ht]
  case dir   => rw [ht]; exact .inl List.mem_cons_self
  case shard =>
    intro i shard hi
    rw [ht]
    exact .inl (by simp [mem_shardSteps, hi])

theorem Holds.of_run {s₀ : Puts} (init : Holds dataDir bucket key calls last shards s₀)
    (hg : Transition.Guarded (step crates dataDir bucket key calls) (Overrides calls last) s₀ ts)
    (h : Transition.run (step crates dataDir bucket key calls) s₀ ts = some s)
    (hr : ∀ t, ∃ m, (s.threads t).result = .ok m) :
    Holds dataDir bucket key calls last shards s := by
  refine Threads.invariant hg h hr init fun s t op ops w hs hg ht hp => ?_
  by_cases hl : t = last
  case pos => subst hl; exact hs.of_last hg ht hp
  case neg => exact hs.of_other hl ht hp

-- What the index speaks of is there, once it is the last step of a call.
theorem Holds.getResult (h : Holds dataDir bucket key calls last shards s)
    (henc : IsEncoding crates (calls last).data (calls last).policy shards)
    (ht : (s.threads last).todo = [.index])
    (hp : ((calls last).perform crates dataDir bucket key .index).run s.state = (.ok (), w)) :
    getResult crates dataDir bucket key w = .ok (calls last).data := by
  rw [perform_index] at hp
  have ⟨hf, hx⟩ := putIndex_ok hp
  have hx := hx bucket key
  rw [if_pos ⟨rfl, rfl⟩] at hx
  have hdir : HasDir dataDir bucket w.disk.files := by
    rw [hf]
    exact h.dir.resolve_left (by simp [ht])
  have hlen := henc.length
  have hw (i : Nat) (hi : i < shards.length) :
      IsWritten dataDir bucket key calls last i shards[i] s :=
    (h.shard i shards[i] (List.getElem?_eq_getElem hi)).resolve_left (by simp [ht])
  obtain ⟨loaded, hload, hl⟩ := loadShards_of_data (p := (calls last).policy.parityShards) hdir
    (hlen ▸ Nat.le_add_right _ _)
    (fun i hi => by rw [hf]; exact ((hw i (by omega)).data hi).1)
    fun i hi => by
      obtain ⟨_, hfile⟩ := (hw i (by omega)).file
      rw [hf, hfile]
      simp
  rw [getResult_of_some hx]
  exact decodeChunks_of_encoding henc rfl rfl hload hl

-- The last step of a call is the one that indexes its object.
theorem exists_last_step
    (h : Transition.run (step crates dataDir bucket key calls) (Puts.init crates bucket key calls w)
      (ts ++ [last]) = some s)
    (hb : s.BothReturn crates bucket key calls) :
    ∃ shards s₁ w', (calls last).shards crates = .ok shards ∧
      Transition.run (step crates dataDir bucket key calls) (Puts.init crates bucket key calls w) ts =
        some s₁ ∧
      (∀ t, ∃ m, (s₁.threads t).result = .ok m) ∧ (s₁.threads last).todo = [.index] ∧
      ((calls last).perform crates dataDir bucket key .index).run s₁.state = (.ok (), w') ∧
      s = s₁.advance last [] w' := by
  obtain ⟨s₁, h₁, h₂⟩ := Transition.run_concat_some.mp h
  have hr (t : Side) : ∃ m, (s₁.threads t).result = .ok m :=
    ⟨_, Threads.result_of_step h₂ (congrArg Thread.result (hb t))⟩
  obtain ⟨m, hm⟩ := hr last
  have hm := Threads.result_of_run h₁ hm
  have hsuf : (s₁.threads last).todo <:+ _ := Threads.suffix_of_run h₁
  simp only [Puts.init, PutCall.thread] at hm hsuf
  split at hm
  case h_2 => cases hm
  case h_1 shards hs =>
    simp only [hs] at hsuf
    cases Threads.Step.of_step h₂
    case failed =>
      have := congrArg Thread.result (hb last)
      simp at this
    case done op ops w' ht hp =>
      have hops : ops = [] := by simpa using congrArg Thread.todo (hb last)
      subst hops
      have hop : op = .index := by
        rw [ht] at hsuf
        obtain ⟨ops, ho⟩ := hsuf
        have ho := congrArg List.getLast? ho
        simpa [List.getLast?_cons] using ho
      subst hop
      exact ⟨shards, s₁, w', hs, h₁, hr, ht, hp, rfl⟩

-- The index speaks of the call that has returned last.
theorem entry_of_last
    (h : Transition.run (step crates dataDir bucket key calls) (Puts.init crates bucket key calls w)
      (ts ++ [last]) = some s)
    (hb : s.BothReturn crates bucket key calls) :
    Index.entry s.state.disk.index bucket key = some (crates.json.toVec
      (Index.metadata (calls last).now bucket key (crates.sha256 (calls last).data)
        (calls last).data.length (calls last).policy)) := by
  obtain ⟨_, s₁, w', _, _, _, _, hp, rfl⟩ := exists_last_step h hb
  rw [perform_index] at hp
  rw [Threads.advance_state, (putIndex_ok hp).2, if_pos ⟨rfl, rfl⟩]

-- A put that nobody interrupts is the put.
theorem exists_run_of_putObject {t : Side} {r : Except Failure ObjectMetadata}
    (h : (putObject crates (calls t).now dataDir bucket key (calls t).data (calls t).policy).run w =
      (r, w')) :
    ∃ n, Transition.run (step crates dataDir bucket key calls) (Puts.init crates bucket key calls w)
        (List.replicate n t) =
      some ⟨w', Function.update (Puts.init crates bucket key calls w).threads t ⟨[], r⟩⟩ :=
  Threads.exists_run_of_prog (PutCall.thread_prog.trans h)

-- However the steps fall, nothing but the data of that call is ever returned.
theorem sha256_of_getResult {data : Bytes}
    (h : Transition.run (step crates dataDir bucket key calls) (Puts.init crates bucket key calls w)
      (ts ++ [last]) = some s)
    (hb : s.BothReturn crates bucket key calls)
    (hg : All4One.Storage.getResult crates dataDir bucket key s.state = .ok data) :
    crates.sha256 data = crates.sha256 (calls last).data := by
  rw [getResult_of_some (entry_of_last h hb)] at hg
  exact etag_of_decodeChunks hg

end Puts

open Puts in
-- When two puts of one object have both returned, the object is the one that was indexed last, if
-- that call has written its data shards over those of the other.
theorem concurrent_puts {last : Side} {ts : List Side} {s : Puts}
    (h : Transition.run (Puts.step crates dataDir bucket key calls)
      (Puts.init crates bucket key calls w) (ts ++ [last]) = some s)
    (hb : s.BothReturn crates bucket key calls)
    (hg : Transition.Guarded (Puts.step crates dataDir bucket key calls) (Overrides calls last)
      (Puts.init crates bucket key calls w) (ts ++ [last])) :
    getResult crates dataDir bucket key s.state = .ok (calls last).data := by
  obtain ⟨shards, s₁, w', hs, h₁, hr, ht, hp, rfl⟩ := exists_last_step h hb
  have hi : Holds dataDir bucket key calls last shards (Puts.init crates bucket key calls w) :=
    .init hs
  have hh := hi.of_run (Transition.guarded_append.mp hg).1 h₁ hr
  exact hh.getResult (PutCall.shards_eq_ok.mp hs) ht hp

-- Two short texts that are put under one key at the same time.
def putTexts : Side → PutCall
  | .left  => ⟨fun _ => "2026-01-01T00:00:00+00:00", Bytes.ofString "hello", .hot⟩
  | .right => ⟨fun _ => "2026-01-01T00:00:00+00:00", Bytes.ofString "world", .hot⟩

def runTexts (ts : List Side) : Option Puts :=
  Transition.run (Puts.step .reference "/d" "b" "k" putTexts)
    (Puts.init .reference "b" "k" putTexts .empty) ts

theorem bothReturn_of_runTexts {ts : List Side} {s : Puts} (h : runTexts ts = some s)
    (hl : (runTexts ts).map (·.threads .left) =
      some ⟨[], .ok (textMetadata "b" "k" "hello" .hot)⟩)
    (hr : (runTexts ts).map (·.threads .right) =
      some ⟨[], .ok (textMetadata "b" "k" "world" .hot)⟩) :
    s.BothReturn .reference "b" "k" putTexts := by
  rw [h, Option.map_some, Option.some.injEq] at hl hr
  intro t
  cases t
  case left  => exact hl
  case right => exact hr

-- The second call has written its only shard and its sidecar when the first one gets to them.
theorem concurrent_puts_overridden :
    ∃ s, runTexts ([.left, .right, .right, .right, .left, .left, .right] ++ [.left]) = some s ∧
      getResult .reference "/d" "b" "k" s.state = .ok (Bytes.ofString "hello") := by
  have hl : (runTexts ([.left, .right, .right, .right, .left, .left, .right] ++ [.left])).map
      (·.threads .left) = some ⟨[], .ok (textMetadata "b" "k" "hello" .hot)⟩ := by
    decide +kernel
  have hr : (runTexts ([.left, .right, .right, .right, .left, .left, .right] ++ [.left])).map
      (·.threads .right) = some ⟨[], .ok (textMetadata "b" "k" "world" .hot)⟩ := by
    decide +kernel
  have hg : Transition.Guarded (Puts.step .reference "/d" "b" "k" putTexts)
      (Puts.Overrides putTexts .left) (Puts.init .reference "b" "k" putTexts .empty)
      ([.left, .right, .right, .right, .left, .left, .right] ++ [.left]) := by
    decide +kernel
  obtain ⟨s, h, _⟩ := Option.map_eq_some_iff.mp hl
  exact ⟨s, h, concurrent_puts h (bothReturn_of_runTexts h hl hr) hg⟩

-- The second call comes in between the only shard of the first one and its index.
theorem concurrent_puts_mixed :
    ∃ s, runTexts ([.left, .left, .right, .right, .right, .right, .left] ++ [.left]) = some s ∧
      s.BothReturn .reference "b" "k" putTexts ∧
      ∃ e, getResult .reference "/d" "b" "k" s.state = .error e := by
  have hl : (runTexts ([.left, .left, .right, .right, .right, .right, .left] ++ [.left])).map
      (·.threads .left) = some ⟨[], .ok (textMetadata "b" "k" "hello" .hot)⟩ := by
    decide +kernel
  have hr : (runTexts ([.left, .left, .right, .right, .right, .right, .left] ++ [.left])).map
      (·.threads .right) = some ⟨[], .ok (textMetadata "b" "k" "world" .hot)⟩ := by
    decide +kernel
  have hd : (runTexts ([.left, .left, .right, .right, .right, .right, .left] ++ [.left])).map
      (fun s => (decodeChunks .reference s.state.disk.files (chunksDir "/d" "b")
        (objectId "b" "k") (textMetadata "b" "k" "hello" .hot)).isOk) = some false := by
    decide +kernel
  obtain ⟨s, h, _⟩ := Option.map_eq_some_iff.mp hl
  have hb := bothReturn_of_runTexts h hl hr
  refine ⟨s, h, hb, ?_⟩
  rw [h, Option.map_some, Option.some.injEq] at hd
  rw [getResult_of_some (Puts.entry_of_last h hb)]
  cases he : decodeChunks .reference s.state.disk.files (chunksDir "/d" "b") (objectId "b" "k")
    (textMetadata "b" "k" "hello" .hot)
  case error e => exact ⟨e, he⟩
  case ok      => rw [he] at hd; cases hd

end All4One.Storage
