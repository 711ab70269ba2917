import All4One.Storage.Theorems.Store

open Foundation Path

namespace All4One.Storage

-- How errors are displayed: one with a message of the code's own as that message.
def ShowsMessages (text : Failure → String) : Prop :=
  ∀ message, text (.error message) = message

-- The hashes are in hexadecimal, or of other characters that a header may have.
def HasPlainHashes (crates : Crates) : Prop :=
  ∀ data, ApiRest.isHeaderValue (crates.sha256 data)

section Replies

variable {text : Failure → String} {e : Failure}

theorem isFailure_none : IsFailure none := by
  rintro r ⟨⟩

theorem isFailure_failed : IsFailure (some (ApiRest.failed text e)) :=
  isFailure_error

theorem isFailure_notFoundOrFailed : IsFailure (some (ApiRest.notFoundOrFailed text e)) := by
  simp only [ApiRest.notFoundOrFailed]
  split <;> exact isFailure_error

theorem notFoundOrFailed_of_notFound (ht : ShowsMessages text) {bucket key : String} :
    ApiRest.notFoundOrFailed text (.error s!"Object not found: {bucket}/{key}") =
    .error 404 s!"Object not found: {bucket}/{key}" := by
  have hc : ApiRest.contains s!"Object not found: {bucket}/{key}" "Object not found" = true := by
    rw [ApiRest.contains, decide_eq_true_eq]
    refine List.IsPrefix.isInfix ⟨": ".toList ++ bucket.toList ++ "/".toList ++ key.toList, ?_⟩
    change _ = ("Object not found: " ++ bucket ++ "/" ++ key).toList
    simp
  have ht := ht s!"Object not found: {bucket}/{key}"
  simp only [ApiRest.notFoundOrFailed, ht, hc, Bool.or_true, if_true]

end Replies

namespace StandsFor

variable {crates : Crates} {text : Failure → String} {dataDir bucket key : String}
  {names : Set (String × String)} {disk : Disk} {store : Store} {faults : List Fault} {e : Failure}

-- The answer to a call is one that the store may give, and the disk then stands for what becomes of
-- the store.
def Serves (crates : Crates) (text : Failure → String) (dataDir : String)
    (names : Set (String × String)) (disk : Disk) (store : Store) (request : Call × List Fault) : Prop :=
  let r := Call.serve crates text dataDir disk request
  ∃ store', store.Answers crates request r.1 store' ∧ StandsFor crates dataDir names r.2 store'

theorem serves_createBucket (h : StandsFor crates dataDir names disk store) :
    Serves crates text dataDir names disk store (.createBucket bucket, faults) := by
  rw [Serves, Call.serve, Call.io, ApiRest.createBucket]
  simp only [Bool.not_true, Bool.false_eq_true, ↓reduceIte]
  have hs : KeepsSame ⟨disk, faults⟩ ((Index.createBucket bucket).run ⟨disk, faults⟩).2 :=
    createBucket_keepsSame _
  rcases hr : (Index.createBucket bucket).run ⟨disk, faults⟩ with ⟨e | _, w'⟩
  all_goals rw [hr] at hs
  case ok => rw [caught_bind_of_ok hr]; exact ⟨store, .created, h.same hs⟩
  case error =>
    rw [caught_bind_of_error hr]
    split
    · exact ⟨store, .notCreated (index_troubled hr) isFailure_none, h.same hs⟩
    · exact ⟨store, .notCreated (index_troubled hr) isFailure_failed, h.same hs⟩

theorem serves_listObjects {keyPrefix : Option String} {maxKeys : Option Nat}
    (h : StandsFor crates dataDir names disk store) :
    Serves crates text dataDir names disk store (.listObjects bucket keyPrefix maxKeys, faults) := by
  rw [Serves, Call.serve, Call.io, ApiRest.listBucketObjects]
  simp only [Bool.not_true, Bool.false_eq_true, ↓reduceIte]
  obtain ⟨objects, hl, hr⟩ := h.listObjects bucket keyPrefix maxKeys faults
  obtain ⟨w', hr⟩ := Prog.exists_of_fst hr
  have hs := listObjects_keepsSame.of_eq hr
  rw [caught_bind_of_ok hr]
  exact ⟨store, .listed hl rfl, h.same hs⟩

theorem serves_put {header : Option String} {body : Bytes} {now : Nat → String}
    (h : StandsFor crates dataDir names disk store) (ha : Apart names) (hn : (bucket, key) ∈ names) :
    Serves crates text dataDir names disk store (.put bucket key header body now, faults) := by
  rw [Serves, Call.serve, Call.io, ApiRest.withBody]
  by_cases hl : ApiRest.bodyLimit < body.length
  case pos => rw [if_pos hl]; exact ⟨store, .tooLarge hl, h⟩
  rw [if_neg hl, ApiRest.putObjectHandler]
  simp only [Bool.not_true, Bool.false_eq_true, ↓reduceIte]
  have hl : body.length ≤ ApiRest.bodyLimit := Nat.not_lt.mp hl
  -- The bucket is created first, whether or not that goes through.
  obtain ⟨w₁, hw₁⟩ : ∃ w₁, ((Index.createBucket bucket).run ⟨disk, faults⟩).2 = w₁ := ⟨_, rfl⟩
  have hs : KeepsSame ⟨disk, faults⟩ ((Index.createBucket bucket).run ⟨disk, faults⟩).2 :=
    createBucket_keepsSame _
  have hf : w₁.faults = faults.tail := hw₁ ▸ index_faults
  rw [hw₁] at hs
  have h₁ := h.same hs
  have hrun : (putObjectHandler crates now dataDir bucket key header body).run ⟨disk, faults⟩ =
      (putObject crates now dataDir bucket key body (policyOfText (header.getD "warm"))).run w₁ := by
    rw [putObjectHandler, Prog.attempt_bind, hw₁]
  rcases hr : (putObject crates now dataDir bucket key body (policyOfText (header.getD "warm"))).run w₁
    with ⟨e | m, w'⟩
  case ok =>
    cases PutChunks.of_run hr
    case stored henc _ _ _ =>
      rw [caught_bind_of_ok (hrun.trans hr)]
      exact ⟨_, .stored hl rfl (fits_iff.mpr ⟨_, henc⟩), h₁.put ha hn hr⟩
  case error =>
    obtain ⟨store', hput, h'⟩ : ∃ store', (∀ reply, IsFailure reply →
        store.Answers crates (.put bucket key header body now, faults) reply store') ∧
        StandsFor crates dataDir names w'.disk store' := by
      by_cases hfits : Fits crates body (policyOfText (header.getD "warm"))
      case neg => exact ⟨store, fun _ => .refused hl hfits, h₁.refuse (ha.plain _ hn) hfits hr⟩
      case pos =>
        refine ⟨_, fun _ => .broken hl ?_, h₁.spoil ha hn hr⟩
        by_contra htr
        have htail : ¬ Troubled w₁.faults := hf ▸ (fault_of_not_troubled (w := ⟨disk, faults⟩) htr).2
        obtain ⟨_, hc⟩ := putObject_completes now (ha.plain _ hn) h₁.tidy htail hfits
        rw [hc] at hr
        cases hr
    rw [caught_bind_of_error (hrun.trans hr)]
    split
    · exact ⟨store', hput _ isFailure_none, h'⟩
    · exact ⟨store', hput _ isFailure_failed, h'⟩

-- What a get answers with.
theorem reply_getObject {r : Except Failure ApiRest.Reply}
    (h : Download.Phase.done r = Download.failed text e) : IsFailure r.toOption := by
  cases e
  all_goals
    cases h
    first | exact isFailure_none | exact isFailure_notFoundOrFailed

theorem serves_get (ht : ShowsMessages text) (hh : HasPlainHashes crates)
    (h : StandsFor crates dataDir names disk store) :
    Serves crates text dataDir names disk store (.get bucket key, faults) := by
  have hrun := @Download.getObjectHandler_run crates text dataDir bucket key ⟨disk, faults⟩
  have hs := h.same (@getObjectHandler_keepsSame crates text dataDir bucket key ⟨disk, faults⟩)
  have hg := @getResult_faults crates dataDir bucket key ⟨disk, []⟩ faults
  refine ⟨store, ?_, hs⟩
  rw [Call.serve, Call.io]
  cases ho : store.lookup (bucket, key)
  case none =>
    have he : Index.entry disk.index bucket key = none := by rw [h.entry, ho]; rfl
    rw [getResult_of_none he] at hrun
    simp only [Download.failed, notFoundOrFailed_of_notFound ht, Download.Phase.done.injEq] at hrun
    simp only [hrun]
    exact .notFound ho
  case some o =>
    have he : Index.entry disk.index bucket key = some (crates.json.toVec o.metadata) := by
      rw [h.entry, ho]
      rfl
    have hdownload (body : Bytes) : ApiRest.download (etagAt crates bucket key disk) body =
        .ok (.object o.metadata.etag body) := by
      rw [etagAt_of_some he, ApiRest.download, (h.named _ _ _ ho).2.2.2, if_pos (hh _)]
    rcases hr : getResult crates dataDir bucket key ⟨disk, faults⟩ with e | body
    all_goals rw [hr] at hrun
    case error =>
      have hw : ¬ o.whole := by
        intro hw
        rw [hg, h.whole _ _ _ ho hw] at hr
        cases hr
      exact .lost ho hw (reply_getObject hrun)
    case ok =>
      simp only [hdownload, Download.Phase.done.injEq] at hrun
      simp only [hrun]
      by_cases hw : o.whole
      case pos =>
        rw [hg, h.whole _ _ _ ho hw] at hr
        cases hr
        exact .found ho hw
      case neg =>
        rw [getResult_of_some he] at hr
        exact .doubtful ho hw (etag_of_decodeChunks hr)

theorem serves_delete (h : StandsFor crates dataDir names disk store) :
    Serves crates text dataDir names disk store (.delete bucket key, faults) := by
  rw [Serves, Call.serve, Call.io, ApiRest.deleteObjectHandler]
  simp only [Bool.not_true, Bool.false_eq_true, ↓reduceIte]
  rcases hr : (deleteObject bucket key).run ⟨disk, faults⟩ with ⟨e | _, w'⟩
  case ok =>
    rw [caught_bind_of_ok hr]
    exact ⟨_, .deleted, delete (w := ⟨disk, faults⟩) h hr⟩
  case error =>
    have hi := hr
    rw [deleteObject, Index.deleteObject] at hi
    have hs : disk.Same w'.disk := same_of_index_error (w := ⟨disk, faults⟩) hi
    rw [caught_bind_of_error hr]
    split
    · exact ⟨store, .notDeleted (index_troubled hi) isFailure_none, h.same hs⟩
    · exact ⟨store, .notDeleted (index_troubled hi) isFailure_notFoundOrFailed, h.same hs⟩

theorem serves {request : Call × List Fault} (ht : ShowsMessages text) (hh : HasPlainHashes crates)
    (ha : Apart names) (h : StandsFor crates dataDir names disk store)
    (hn : ∀ o ∈ request.1.puts?, o ∈ names) : Serves crates text dataDir names disk store request := by
  obtain ⟨call, faults⟩ := request
  cases call
  case createBucket => exact h.serves_createBucket
  case listObjects  => exact h.serves_listObjects
  case put          => exact h.serves_put ha (hn _ rfl)
  case get          => exact h.serves_get ht hh
  case delete       => exact h.serves_delete

end StandsFor

variable {crates : Crates} {text : Failure → String} {dataDir : String} {disk : Disk}
  {requests : List (Call × List Fault)}

section Sample

def sampleText : Failure → String
  | .error message => message
  | _              => ""

end Sample

end All4One.Storage
