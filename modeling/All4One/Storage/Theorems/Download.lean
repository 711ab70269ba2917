import All4One.Storage.Download
import All4One.Storage.Theorems.Replication
import All4One.Storage.Theorems.Sound

open Foundation Path

namespace All4One.Storage

variable {crates : Crates} {text : Failure → String} {now : Nat → String}
  {dataDir bucket key : String} {header : Option String} {body data : Bytes} {w w' : World}
  {disk : Disk} {m : ObjectMetadata} {e : Failure} {etag : String}

-- The ETag of the second look at the index.
def etagAt (crates : Crates) (bucket key : String) (disk : Disk) : String :=
  ApiRest.etagOrDefault (Index.parse crates bucket key (Index.entry disk.index bucket key))

theorem etagAt_congr {disk' : Disk}
    (h : Index.entry disk'.index bucket key = Index.entry disk.index bucket key) :
    etagAt crates bucket key disk' = etagAt crates bucket key disk := by
  rw [etagAt, etagAt, h]

theorem etagAt_of_some (h : Index.entry disk.index bucket key = some (crates.json.toVec m)) :
    etagAt crates bucket key disk = m.etag := by
  rw [etagAt, h, Index.parse, crates.json.fromSlice_toVec]
  rfl

theorem etagAt_of_none (h : Index.entry disk.index bucket key = none) :
    etagAt crates bucket key disk = "" := by
  rw [etagAt, h]
  rfl

section Requests

theorem putObjectHandler_entry_of_error
    (h : (putObjectHandler crates now dataDir bucket key header body).run w = (.error e, w')) :
    Index.entry w'.disk.index bucket key = Index.entry w.disk.index bucket key := by
  rw [putObjectHandler, Prog.attempt_bind] at h
  rw [putObject_entry_of_error h]
  rcases hc : (Index.createBucket bucket).run w with ⟨_ | _, w₁⟩
  case error => exact (Io.index_error hc).2 _ _
  case ok    => rw [Io.index_ok hc, id, Index.entry_openTree]

theorem etagAt_putObjectHandler
    (h : (putObjectHandler crates now dataDir bucket key header body).run w = (.ok m, w')) :
    etagAt crates bucket key w'.disk = crates.sha256 body := by
  have ⟨_, _, _, hx⟩ := Stored.of_putObjectHandler h
  rw [etagAt_of_some hx]
  rfl

theorem etagAt_deleteObject (h : (deleteObject bucket key).run w = (.ok (), w')) :
    etagAt crates bucket key w'.disk = "" :=
  etagAt_of_none (by rw [deleteObject_entry h, if_pos ⟨rfl, rfl⟩])

end Requests

theorem decodeChunks_eq {files : Files} {dir object : String} :
    decodeChunks crates files dir object m =
    (loadShards files dir object (layout m.policy).dataShards
      (List.range ((layout m.policy).dataShards + (layout m.policy).parityShards))).bind
        (decodeLoaded crates m) :=
  rfl

theorem etag_of_decodeLoaded {shards : List Bytes} (h : decodeLoaded crates m shards = .ok data) :
    crates.sha256 data = m.etag := by
  simp only [decodeLoaded, bind, Except.bind] at h
  split at h
  case h_1 => cases h
  case h_2 =>
    split at h
    case isTrue =>
      split at h
      case h_1 => cases h
      case h_2 => split at h <;> cases h; exact not_not.mp ‹_›
    case isFalse => split at h <;> cases h; exact not_not.mp ‹_›

namespace Download

variable {s s' : State} {ev : Event} {es : List Event} {faults : List Fault} {left : Left}
  {loaded : List Bytes} {rest : List Nat}

-- The ETag that the second look finds.
def State.expected (crates : Crates) (s : State) : String :=
  match s.since with
  | none      => s.first
  | some left => left.elim "" crates.sha256

-- What the handler has read fits what it finds in the index and what it has found there at first.
def Fits (crates : Crates) (bucket key : String) (s : State) : Prop :=
  match s.phase with
  | .start         => s.since = none
  | .load m _ _    => etagAt crates bucket key s.disk = s.expected crates ∧ m.etag = s.first
  | .verified data =>
    etagAt crates bucket key s.disk = s.expected crates ∧ crates.sha256 data = s.first
  | .done reply    => ∀ etag body, reply = .ok (.object etag body) →
    etag = s.expected crates ∧ crates.sha256 body = s.first

theorem look_fst : (look crates bucket key disk).1 =
    Index.parse crates bucket key (Index.entry disk.index bucket key) := by
  simp only [look, Index.getObject, Index.entry_openTree]

theorem look_entry : Index.entry (look crates bucket key disk).2.index bucket key =
    Index.entry disk.index bucket key := by
  simp only [look, Index.getObject, Index.entry_openTree]

theorem etagOrDefault_look : ApiRest.etagOrDefault (look crates bucket key disk).1 =
    etagAt crates bucket key disk := by
  rw [look_fst]
  rfl

theorem notFoundOrFailed_ne : ApiRest.notFoundOrFailed text e ≠ .object etag body := by
  rw [ApiRest.notFoundOrFailed]
  split <;> exact ApiRest.Reply.noConfusion

theorem download_ok {etag' : String} (h : ApiRest.download etag body = .ok (.object etag' data)) :
    etag' = etag ∧ data = body := by
  rw [ApiRest.download] at h
  split at h <;> cases h
  exact ⟨rfl, rfl⟩

theorem fits_failed {first : String} {since : Option Left} :
    Fits crates bucket key ⟨disk, failed text e, first, since⟩ := by
  intro etag body hr
  cases e
  case panic => cases hr
  all_goals exact absurd (Except.ok.inj hr) notFoundOrFailed_ne

-- A failure of the handler ends it, and a step that does not end it goes on with what it has read.
theorem fits_read (hf : Fits crates bucket key s)
    (h : read crates text dataDir bucket key s = some s') : Fits crates bucket key s' := by
  rw [Download.read] at h
  split at h
  case h_1 hp =>
    rw [Fits, hp] at hf
    dsimp only at h
    split at h <;> cases h
    case h_1 => exact fits_failed
    case h_2 m hm =>
      refine ⟨?_, rfl⟩
      have he : ApiRest.etagOrDefault (look crates bucket key s.disk).1 = _ := etagOrDefault_look
      rw [hm] at he
      rw [etagAt_congr look_entry, ← he, State.expected]
      simp only [show s.since = none from hf]
      rfl
  case h_2 hp =>
    rw [Fits, hp] at hf
    dsimp only at h
    split at h
    case isTrue =>
      split at h <;> cases h
      case h_1 => exact fits_failed
      case h_2 => exact hf
    case isFalse =>
      split at h <;> cases h
      case isTrue  => exact fits_failed
      case isFalse => exact hf
  case h_3 hp =>
    rw [Fits, hp] at hf
    split at h <;> cases h
    case h_1    => exact fits_failed
    case h_2 hd => exact ⟨hf.1, (etag_of_decodeLoaded hd).trans hf.2⟩
  case h_4 hp =>
    rw [Fits, hp] at hf
    cases h
    intro etag body hr
    obtain ⟨rfl, rfl⟩ := download_ok hr
    exact ⟨etagOrDefault_look.trans hf.1, hf.2⟩
  case h_5 => cases h

-- What somebody else's request does to the index is noted if it is between the two looks.
theorem fits_serve {α : Type} {request : Io α} (hf : Fits crates bucket key s)
    (ok : ∀ a w', request.run ⟨s.disk, faults⟩ = (.ok a, w') →
      etagAt crates bucket key w'.disk = left.elim "" crates.sha256)
    (error : ∀ e w', request.run ⟨s.disk, faults⟩ = (.error e, w') →
      etagAt crates bucket key w'.disk = etagAt crates bucket key s.disk) :
    Fits crates bucket key (serve s request faults left) := by
  have htag (hb : s.phase.isBetween) (h : etagAt crates bucket key s.disk = s.expected crates) :
      etagAt crates bucket key (serve s request faults left).disk =
      (serve s request faults left).expected crates := by
    rcases hr : request.run ⟨s.disk, faults⟩ with ⟨_ | _, w'⟩
    case error =>
      simp only [Download.serve, hr, State.expected]
      exact (error _ _ hr).trans h
    case ok =>
      simp only [Download.serve, hr, State.expected, hb]
      exact ok _ _ hr
  have hsame (hb : s.phase.isBetween = false) : (serve s request faults left).since = s.since := by
    simp [Download.serve, hb]
  have hexpected (hb : s.phase.isBetween = false) :
      (serve s request faults left).expected crates = s.expected crates := by
    rw [State.expected, hsame hb]
    rfl
  unfold Fits at hf ⊢
  rw [show (serve s request faults left).phase = s.phase from rfl]
  split at hf
  case h_1 hp => exact (hsame (by rw [hp]; rfl)).trans hf
  case h_2 hp => exact ⟨htag (by rw [hp]; rfl) hf.1, hf.2⟩
  case h_3 hp => exact ⟨htag (by rw [hp]; rfl) hf.1, hf.2⟩
  case h_4 hp =>
    rw [hexpected (by rw [hp]; rfl)]
    exact hf

theorem fits_of_step (hf : Fits crates bucket key s)
    (h : step crates text dataDir bucket key s ev = some s') : Fits crates bucket key s' := by
  cases ev
  case read =>
    rw [step] at h
    exact fits_read hf h
  case put =>
    rw [step] at h
    rw [← Option.some.inj h]
    refine fits_serve hf (fun m w' hr => ?_) fun e w' hr => ?_
    · exact etagAt_putObjectHandler hr
    · exact etagAt_congr (putObjectHandler_entry_of_error hr)
  case delete =>
    rw [step] at h
    rw [← Option.some.inj h]
    refine fits_serve hf (fun u w' hr => ?_) fun e w' hr => ?_
    · exact etagAt_deleteObject hr
    · exact etagAt_congr (deleteObject_entry_of_error hr)

theorem fits_of_run (h : Transition.run (step crates text dataDir bucket key) (init disk) es = some s) :
    Fits crates bucket key s :=
  Transition.Reachable.invariant ⟨es, h⟩ rfl fun _ _ _ => fits_of_step

theorem read_init (h : Index.parse crates bucket key (Index.entry disk.index bucket key) = .ok m) :
    read crates text dataDir bucket key (init disk) = some ⟨(look crates bucket key disk).2, .load m []
      (List.range ((layout m.policy).dataShards + (layout m.policy).parityShards)), m.etag, none⟩ := by
  have hr : (look crates bucket key disk).1 = .ok m := look_fst.trans h
  simp only [read, init, hr]

section Alone

theorem read_load {first : String} {since : Option Left} {i : Nat} :
    read crates text dataDir bucket key ⟨disk, .load m loaded (i :: rest), first, since⟩ =
    match disk.files.stat (chunkPath (chunksDir dataDir bucket) (objectId bucket key) i) with
    | some (.file shard) => some ⟨disk, .load m (loaded ++ [shard]) rest, first, since⟩
    | some .dir          => some ⟨disk, failed text (.io .refused), first, since⟩
    | none               =>
      if i < (layout m.policy).dataShards then
        some ⟨disk, failed text (.error "Insufficient shards to recover data"), first, since⟩
      else
        some ⟨disk, .load m loaded rest, first, since⟩ := by
  simp only [read, Files.pathExists, Files.read]
  rcases disk.files.stat (chunkPath (chunksDir dataDir bucket) (objectId bucket key) i) with _ | _ | _
  all_goals rfl

-- The handler gets from one state to another with nobody else around.
def Alone (crates : Crates) (text : Failure → String) (dataDir bucket key : String) (s s' : State) : Prop :=
  ∃ n, Transition.run (step crates text dataDir bucket key) s (List.replicate n .read) = some s'

theorem Alone.refl : Alone crates text dataDir bucket key s s :=
  ⟨0, rfl⟩

theorem Alone.head {s₁ s₂ : State} (h : read crates text dataDir bucket key s = some s₁)
    (h' : Alone crates text dataDir bucket key s₁ s₂) : Alone crates text dataDir bucket key s s₂ := by
  have ⟨n, hn⟩ := h'
  exact ⟨n + 1, by rw [List.replicate_succ, Transition.run, step, h]; exact hn⟩

-- The shards are loaded as `get_chunks` loads them.
theorem Alone.load {first : String} {since : Option Left} {is : List Nat}
    (error : ∀ e, loadShards disk.files (chunksDir dataDir bucket) (objectId bucket key)
        (layout m.policy).dataShards is = .error e →
      Alone crates text dataDir bucket key ⟨disk, failed text e, first, since⟩ s)
    (ok : ∀ shards, loadShards disk.files (chunksDir dataDir bucket) (objectId bucket key)
        (layout m.policy).dataShards is = .ok shards →
      Alone crates text dataDir bucket key ⟨disk, .load m (loaded ++ shards) [], first, since⟩ s) :
    Alone crates text dataDir bucket key ⟨disk, .load m loaded is, first, since⟩ s := by
  induction is generalizing loaded
  case nil => exact List.append_nil loaded ▸ ok [] rfl
  case cons i is hi =>
    have hr : read crates text dataDir bucket key ⟨disk, .load m loaded (i :: is), first, since⟩ = _ :=
      read_load
    rw [loadShards_cons] at error ok
    cases hs : disk.files.stat (chunkPath (chunksDir dataDir bucket) (objectId bucket key) i)
    case none =>
      simp only [hs] at hr error ok
      by_cases hk : i < (layout m.policy).dataShards
      case pos =>
        rw [if_pos hk] at hr error
        exact .head hr (error _ rfl)
      case neg =>
        rw [if_neg hk] at hr error ok
        exact .head hr (hi error ok)
    case some entry =>
      cases entry
      case dir =>
        simp only [hs] at hr error
        exact .head hr (error _ rfl)
      case file shard =>
        simp only [hs] at hr error ok
        refine .head hr (hi (fun e h => error e (by rw [h]; rfl)) fun shards h => ?_)
        rw [List.append_assoc]
        exact ok _ (by rw [h]; rfl)

theorem caught_run {α : Type} {x : Io α} : (ApiRest.caught x).run w =
    match (x.run w).1 with
    | .error .panic => (.error .panic, (x.run w).2)
    | r             => (.ok r, (x.run w).2) := by
  rw [ApiRest.caught, Prog.attempt_bind]
  rcases (x.run w).1 with (_ | _ | _ | _) | _ <;> rfl

-- A get changes nothing but that it opens the tree of the bucket.
theorem getObject_snd : ((getObject crates dataDir bucket key).run w).2 =
    ⟨{ w.disk with index := w.disk.index.openTree (Index.treeName bucket) }, w.faults⟩ := by
  have : getObject crates dataDir bucket key = Index.getObject crates bucket key >>= fun m =>
      .reads fun w =>
        decodeChunks crates w.disk.files (chunksDir dataDir bucket) (objectId bucket key) m := rfl
  rw [this]
  rcases h : (Index.getObject crates bucket key).run w with ⟨_ | m, w'⟩
  case error => rw [Prog.bind_of_error h]; exact (congrArg Prod.snd h).symm
  case ok    => rw [Prog.bind_of_ok h]; exact (congrArg Prod.snd h).symm

theorem getObjectHandler_run :
    Phase.done ((ApiRest.getObjectHandler crates text true dataDir bucket key).run w).1 =
    match getResult crates dataDir bucket key w with
    | .error e => failed text e
    | .ok data => .done (ApiRest.download (etagAt crates bucket key w.disk) data) := by
  rw [getResult, ApiRest.getObjectHandler]
  simp only [Bool.not_true, Bool.false_eq_true, ↓reduceIte]
  rcases h : (getObject crates dataDir bucket key).run w with ⟨e | data, w'⟩
  case error =>
    have hc : (ApiRest.caught (getObject crates dataDir bucket key)).run w = _ := caught_run
    rw [h] at hc
    cases e
    case panic => rw [Prog.bind_of_error hc]; rfl
    all_goals rw [Prog.bind_of_ok hc]; rfl
  case ok =>
    have hc : (ApiRest.caught (getObject crates dataDir bucket key)).run w = _ := caught_run
    rw [h] at hc
    have hw : ((getObject crates dataDir bucket key).run w).2 = _ := getObject_snd
    rw [h] at hw
    have hx : Index.entry w'.disk.index bucket key = Index.entry w.disk.index bucket key := by
      rw [show w' = _ from hw, Index.entry_openTree]
    have ht : ApiRest.etagOrDefault ((Index.getObject crates bucket key).run w').1 =
        etagAt crates bucket key w.disk := by
      rw [← etagAt_congr hx, ← etagOrDefault_look]
      rfl
    rw [Prog.bind_of_ok hc, Prog.attempt_bind, Prog.ofExcept_run, ht]

-- With nobody else around, the steps amount to the handler.
theorem alone_getObjectHandler : ∃ s, Alone crates text dataDir bucket key (init disk) s ∧
    s.phase = .done ((ApiRest.getObjectHandler crates text true dataDir bucket key).run ⟨disk, []⟩).1 := by
  rw [getObjectHandler_run, getResult_eq]
  have hr : (look crates bucket key disk).1 = _ := look_fst
  cases hp : Index.parse crates bucket key (Index.entry disk.index bucket key)
  case error e =>
    rw [hp] at hr
    have h : read crates text dataDir bucket key (init disk) =
        some ⟨(look crates bucket key disk).2, failed text e, "", none⟩ := by
      simp only [read, init, hr]
    exact ⟨_, .head h .refl, rfl⟩
  case ok m =>
    rw [hp] at hr
    have h : read crates text dataDir bucket key (init disk) = _ := read_init hp
    simp only [Except.bind, decodeChunks_eq]
    cases hl : loadShards disk.files (chunksDir dataDir bucket) (objectId bucket key)
      (layout m.policy).dataShards
      (List.range ((layout m.policy).dataShards + (layout m.policy).parityShards))
    case error e =>
      refine ⟨⟨(look crates bucket key disk).2, failed text e, m.etag, none⟩, .head h ?_, rfl⟩
      refine .load (fun _ he => ?_) fun _ he => nomatch hl.symm.trans he
      obtain rfl := Except.error.inj (hl.symm.trans he)
      exact .refl
    case ok shards =>
      have decoded {s} (hs : Alone crates text dataDir bucket key
            ⟨(look crates bucket key disk).2, .load m shards [], m.etag, none⟩ s) :
          Alone crates text dataDir bucket key (init disk) s := by
        refine .head h (.load (fun _ he => nomatch hl.symm.trans he) fun _ he => ?_)
        obtain rfl := Except.ok.inj (hl.symm.trans he)
        exact hs
      cases hd : decodeLoaded crates m shards
      case error e =>
        have h : read crates text dataDir bucket key
              ⟨(look crates bucket key disk).2, .load m shards [], m.etag, none⟩ =
            some ⟨(look crates bucket key disk).2, failed text e, m.etag, none⟩ := by
          simp only [read, hd]
        exact ⟨_, decoded (.head h .refl), by simp only [hd]⟩
      case ok data =>
        have h : read crates text dataDir bucket key
              ⟨(look crates bucket key disk).2, .load m shards [], m.etag, none⟩ =
            some ⟨(look crates bucket key disk).2, .verified data, m.etag, none⟩ := by
          simp only [read, hd]
        refine ⟨_, decoded (.head h (.head rfl .refl)), ?_⟩
        simp only [hd]
        rw [etagOrDefault_look, etagAt_congr look_entry]

end Alone

-- The ETag is that of the body if no request gets between the two looks at the index, or the last that
-- does has stored bytes with the same hash.
theorem etag_iff (crates : Crates) (text : Failure → String) (dataDir bucket key : String) (disk : Disk)
    (es : List Event) (s : State) (etag : String) (body : Bytes)
    (hsha : ∀ data, crates.sha256 data ≠ "")
    (h : Transition.run (step crates text dataDir bucket key) (init disk) es = some s)
    (hd : s.phase = .done (.ok (.object etag body))) :
    etag = crates.sha256 body ↔
    s.since = none ∨ ∃ data, s.since = some (some data) ∧ crates.sha256 data = s.first := by
  have hf := fits_of_run h
  rw [Fits, hd] at hf
  have ⟨he, hb⟩ := hf etag body rfl
  rw [he, hb, State.expected]
  rcases s.since with _ | _ | data
  case none      => simp
  case some.none =>
    simp only [Option.elim_none, reduceCtorEq, Option.some.injEq, false_and, exists_false, or_self,
      iff_false, ← hb]
    exact (hsha body).symm
  case some.some => simp

section During

open Transition (run_of_step)

variable {shards : List Bytes} {m' : ObjectMetadata}

-- An object that is kept as a copy is read in two steps, checked in one and answered in one. What is
-- put in its place before the last two gives the ETag.
theorem run_during (hs : Stored crates dataDir bucket key data .hot shards disk)
    (hp : (putObjectHandler crates now dataDir bucket key header body).run
      ⟨(look crates bucket key disk).2, faults⟩ = (.ok m', w'))
    (hv : ApiRest.isHeaderValue (crates.sha256 body)) :
    ∃ s, Transition.run (step crates text dataDir bucket key) (init disk)
        [.read, .read, .put now header body faults, .read, .read] = some s ∧
      s.phase = .done (.ok (.object (crates.sha256 body) data)) ∧ s.first = crates.sha256 data ∧
      s.since = some (some body) := by
  obtain ⟨m, hx, hpolicy, hetag⟩ := hs.index
  have hparse : Index.parse crates bucket key (Index.entry disk.index bucket key) = .ok m := by
    rw [hx, Index.parse, crates.json.fromSlice_toVec]
  have hl : layout m.policy = ⟨1, 0, 0⟩ := by
    rw [hpolicy, layout_text]
    rfl
  obtain ⟨shard, rfl⟩ := List.length_eq_one_iff.mp hs.encoding.length
  have hstat : disk.files.stat (chunkPath (chunksDir dataDir bucket) (objectId bucket key) 0) =
      some (.file shard) := by
    rw [stat_chunkPath hs.dir]
    exact hs.files 0 Nat.zero_lt_one
  have hload : loadShards disk.files (chunksDir dataDir bucket) (objectId bucket key) 1 (List.range 1) =
      .ok ([shard].take 1) :=
    loadShards_range le_rfl fun i hi => by
      obtain rfl := Nat.lt_one_iff.mp hi
      exact hstat
  have hdec : decodeLoaded crates m [shard] = .ok data := by
    have hd := decodeChunks_of_encoding hs.encoding hpolicy hetag hload fun _ _ => rfl
    rw [decodeChunks_eq, hl] at hd
    exact (congrArg (Except.bind · (decodeLoaded crates m)) hload).symm.trans hd
  have h₁ : step crates text dataDir bucket key (init disk) .read =
      some ⟨(look crates bucket key disk).2, .load m [] [0], m.etag, none⟩ := by
    have hr : read crates text dataDir bucket key (init disk) = _ := read_init hparse
    rw [hl] at hr
    exact hr
  have h₂ : step crates text dataDir bucket key
        ⟨(look crates bucket key disk).2, .load m [] [0], m.etag, none⟩ .read =
      some ⟨(look crates bucket key disk).2, .load m [shard] [], m.etag, none⟩ := by
    rw [step, read_load, show (look crates bucket key disk).2.files = disk.files from rfl, hstat]
    rfl
  have h₃ : step crates text dataDir bucket key
        ⟨(look crates bucket key disk).2, .load m [shard] [], m.etag, none⟩
        (.put now header body faults) =
      some ⟨w'.disk, .load m [shard] [], m.etag, some (some body)⟩ := by
    rw [step, serve, hp]
    rfl
  have h₄ : step crates text dataDir bucket key
        ⟨w'.disk, .load m [shard] [], m.etag, some (some body)⟩ .read =
      some ⟨w'.disk, .verified data, m.etag, some (some body)⟩ := by
    simp only [step, read, hdec]
  have h₅ : step crates text dataDir bucket key
        ⟨w'.disk, .verified data, m.etag, some (some body)⟩ .read =
      some ⟨(look crates bucket key w'.disk).2, .done (.ok (.object (crates.sha256 body) data)), m.etag,
        some (some body)⟩ := by
    simp only [step, read, etagOrDefault_look, etagAt_putObjectHandler hp, ApiRest.download, hv, if_true]
  have hrun : Transition.run (step crates text dataDir bucket key) (init disk)
      [.read, .read, .put now header body faults, .read, .read] = some _ :=
    run_of_step h₁ <| run_of_step h₂ <| run_of_step h₃ <| run_of_step h₄ <| run_of_step h₅ rfl
  exact ⟨_, hrun, rfl, hetag, rfl⟩

end During

section Sample

def stored : Disk :=
  ((putText "b" "k" "hello" .hot).run .empty).2.disk

def putHot (body : String) : Event :=
  .put (fun _ => "2026-01-01T00:00:01+00:00") (some "hot") (Bytes.ofString body) []

-- A get of the object with a put of it before the handler looks at the index again.
def during (body : String) : Option State :=
  Transition.run (step .reference (fun _ => "") "/d" "b" "k") (init stored)
    [.read, .read, putHot body, .read, .read]

def hash (body : String) : String :=
  Crates.reference.sha256 (Bytes.ofString body)

theorem stored_stored : ∃ shards,
    Stored .reference "/d" "b" "k" (Bytes.ofString "hello") .hot shards stored := by
  have hp : ((putText "b" "k" "hello" .hot).run .empty).1 = .ok (textMetadata "b" "k" "hello" .hot) := by
    decide +kernel
  obtain ⟨w', hp⟩ := Prog.exists_of_fst hp
  rw [stored, hp]
  exact Stored.of_putObject hp

theorem during_eq {body : String}
    (hp : ((putObjectHandler .reference (fun _ => "2026-01-01T00:00:01+00:00") "/d" "b" "k" (some "hot")
      (Bytes.ofString body)).run ⟨(look .reference "b" "k" stored).2, []⟩).1.isOk)
    (hv : ApiRest.isHeaderValue (hash body)) :
    ∃ s, during body = some s ∧ s.phase = .done (.ok (.object (hash body) (Bytes.ofString "hello"))) ∧
      s.first = hash "hello" ∧ s.since = some (some (Bytes.ofString body)) := by
  obtain ⟨shards, hs⟩ := stored_stored
  rcases hr : (putObjectHandler .reference (fun _ => "2026-01-01T00:00:01+00:00") "/d" "b" "k"
    (some "hot") (Bytes.ofString body)).run ⟨(look .reference "b" "k" stored).2, []⟩ with ⟨_ | m', w'⟩
  case error => rw [hr] at hp; cases hp
  case ok    => exact run_during hs hr hv

-- The put is of the same bytes.
theorem etag_iff_sample : ∃ s etag, during "hello" = some s ∧
    s.phase = .done (.ok (.object etag (Bytes.ofString "hello"))) ∧
    etag = Crates.reference.sha256 (Bytes.ofString "hello") := by
  have hv : ApiRest.isHeaderValue (hash "hello") := by
    rw [hash, Crates.reference_eq]
    decide +kernel
  obtain ⟨s, h, hphase, hfirst, hsince⟩ := during_eq (by decide +kernel) hv
  refine ⟨s, _, h, hphase, ?_⟩
  rw [during] at h
  exact (etag_iff .reference _ "/d" "b" "k" stored _ s _ _ Sha256.hex_ne_empty h hphase).mpr <|
    .inr ⟨_, hsince, hfirst.symm⟩

-- The put is of other bytes: their hash goes out with the bytes that were there before.
theorem etag_fails : ¬ ∀ (crates : Crates) (text : Failure → String) (dataDir bucket key : String)
    (disk : Disk) (es : List Event) (s : State) (etag : String) (body : Bytes),
    (∀ data, crates.sha256 data ≠ "") →
    Transition.run (step crates text dataDir bucket key) (init disk) es = some s →
    s.phase = .done (.ok (.object etag body)) → etag = crates.sha256 body := by
  intro hall
  have hv : ApiRest.isHeaderValue (hash "bye") := by
    rw [hash, Crates.reference_eq]
    decide +kernel
  have hne : hash "bye" ≠ hash "hello" := by
    rw [hash, hash, Crates.reference_eq]
    decide +kernel
  obtain ⟨s, h, hs, -⟩ := during_eq (by decide +kernel) hv
  rw [during] at h
  exact hne (hall .reference _ "/d" "b" "k" stored _ s _ _ Sha256.hex_ne_empty h hs)

end Sample

end Download

end All4One.Storage
