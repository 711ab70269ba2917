import All4One.Foundation.Bytes
import All4One.Foundation.HashMap
import All4One.Foundation.Path
import All4One.Foundation.Prog

namespace Foundation

inductive Entry
  | file (data : Bytes)
  | dir
  deriving DecidableEq, Repr

-- The files and directories of a machine, each under its place from the root. There are no links.
structure Files where
  cwd     : List Name
  entries : HashMap (List Name) Entry

-- What happens to an operation that writes: it goes through, it fails before it does anything, or
-- it fails after its first `n` bytes or directories.
inductive Fault
  | none
  | before
  | after (n : Nat)
  deriving DecidableEq, Repr

-- The operating system refuses an operation, or it breaks off.
inductive IoError
  | refused
  | broken
  deriving DecidableEq, Repr

namespace Files

def entry (fs : Files) (q : List Name) : Option Entry :=
  if q = [] then some .dir else fs.entries.lookup q

def set (fs : Files) (q : List Name) (e : Entry) : Files :=
  { fs with entries := Finmap.insert q e fs.entries }

def erase (fs : Files) (q : List Name) : Files :=
  { fs with entries := Finmap.erase q fs.entries }

def resolve (fs : Files) (p : String) : List Name :=
  Path.resolve fs.cwd p

-- The places that a path leads through are directories.
def Leads (fs : Files) (p : String) : Prop :=
  ∀ q ∈ (Path.trail fs.cwd p).dropLast, fs.entry q = some .dir

instance (fs : Files) (p : String) : Decidable (fs.Leads p) :=
  inferInstanceAs (Decidable (∀ q ∈ _, _))

def stat (fs : Files) (p : String) : Option Entry :=
  if fs.Leads p then fs.entry (fs.resolve p) else none

-- `Path::exists`
def pathExists (fs : Files) (p : String) : Bool :=
  (fs.stat p).isSome

-- `fs::read`
def read (fs : Files) (p : String) : Except IoError Bytes :=
  match fs.stat p with
  | some (.file data) => .ok data
  | _                 => .error .refused

def createDirs : List (List Name) → Files → Except IoError Unit × Files
  | [],      fs => (.ok (), fs)
  | q :: qs, fs =>
    match fs.entry q with
    | some .dir      => createDirs qs fs
    | some (.file _) => (.error .refused, fs)
    | none           => createDirs qs (fs.set q .dir)

-- `fs::create_dir_all`. A path that ends in a dot has to lead to a directory once the directories
-- before the dot are made.
def createDirAll (p : String) (fault : Fault) : Prog Files IoError Unit where
  run fs :=
    let dirs := Path.madeDirs fs.cwd p
    match fault with
    | .none    =>
      let (made, fs') := createDirs dirs fs
      (if fs'.entry (fs.resolve p) = some .dir then made else .error .refused, fs')
    | .before  => (.error .broken, fs)
    | .after n => (.error .broken, (createDirs (dirs.take n) fs).2)

def IsWritable (fs : Files) (p : String) : Prop :=
  fs.Leads p ∧ fs.entry (fs.resolve p) ≠ some .dir

instance (fs : Files) (p : String) : Decidable (fs.IsWritable p) :=
  inferInstanceAs (Decidable (_ ∧ _))

-- `fs::write`, which empties the file first.
def write (p : String) (data : Bytes) (fault : Fault) : Prog Files IoError Unit where
  run fs :=
    let q := fs.resolve p
    if fs.IsWritable p then
      match fault with
      | .none    => (.ok (), fs.set q (.file data))
      | .before  => (.error .broken, fs)
      | .after n => (.error .broken, fs.set q (.file (data.take n)))
    else
      (.error .refused, fs)

-- What is there stays as it is.
structure Grows (fs fs' : Files) : Prop where
  cwd   : fs'.cwd = fs.cwd
  entry : ∀ q e, fs.entry q = some e → fs'.entry q = some e

-- A file stays a file, and a directory a directory.
structure Extends (fs fs' : Files) : Prop where
  cwd  : fs'.cwd = fs.cwd
  dir  : ∀ q, fs.entry q = some .dir → fs'.entry q = some .dir
  file : ∀ q data, fs.entry q = some (.file data) → ∃ data', fs'.entry q = some (.file data')

section

variable {fs fs' fs₁ fs₂ fs₃ : Files} {q r : List Name} {e : Entry} {p n : String} {data : Bytes}
  {fault : Fault}

@[simp] theorem set_cwd : (fs.set q e).cwd = fs.cwd := rfl
@[simp] theorem erase_cwd : (fs.erase q).cwd = fs.cwd := rfl
@[simp] theorem entry_nil : fs.entry [] = some .dir := rfl

theorem entry_set (h : q ≠ []) : (fs.set q e).entry r = if r = q then some e else fs.entry r := by
  by_cases hr : r = []
  case pos => simp [hr, entry, h.symm]
  case neg => simp [entry, hr, set, HashMap.lookup_insert']

@[simp]
theorem entry_set_self (h : q ≠ []) : (fs.set q e).entry q = some e := by
  rw [entry_set h, if_pos rfl]

@[simp]
theorem entry_set_of_ne (h : r ≠ q) : (fs.set q e).entry r = fs.entry r := by
  by_cases hr : r = []
  case pos => simp [hr]
  case neg => simp [entry, hr, set, Finmap.lookup_insert_of_ne _ h]

theorem entry_erase : (fs.erase q).entry r = if r = q ∧ r ≠ [] then none else fs.entry r := by
  by_cases hr : r = []
  case pos => simp [hr]
  case neg =>
    by_cases hq : r = q
    case pos => subst hq; simp [entry, hr, erase]
    case neg => simp [entry, hr, hq, erase, Finmap.lookup_erase_ne hq]

-- A name in a directory is found once the directories that lead to that one are there.
theorem leads_join (h : ∀ r ∈ Path.trail fs.cwd p, fs.entry r = some .dir)
    (hn : Path.IsName n.toList) : fs.Leads (Path.join p n) :=
  fun r hr => h r ((Path.trail_join_name hn).subset hr)

theorem leads_append {s : String} (hs : '/' ∉ s.toList) : fs.Leads (p ++ s) ↔ fs.Leads p := by
  rw [Leads, Leads, Path.trail_append hs]

theorem stat_of_leads (h : fs.Leads p) : fs.stat p = fs.entry (fs.resolve p) :=
  if_pos h

namespace Grows

theorem refl (fs : Files) : Grows fs fs where
  cwd         := rfl
  entry _ _ h := h

theorem trans (h₁ : Grows fs₁ fs₂) (h₂ : Grows fs₂ fs₃) : Grows fs₁ fs₃ where
  cwd         := h₂.cwd.trans h₁.cwd
  entry q e h := h₂.entry q e (h₁.entry q e h)

theorem set_of_none (h : fs.entry q = none) : Grows fs (fs.set q e) where
  cwd         := rfl
  entry r _ h' := by
    have hr : r ≠ q := by rintro rfl; simp [h] at h'
    rw [entry_set_of_ne hr, h']

theorem toExtends (h : Grows fs fs') : Extends fs fs' where
  cwd          := h.cwd
  dir q hq     := h.entry q _ hq
  file _ d hq  := ⟨d, h.entry _ _ hq⟩

end Grows

namespace Extends

theorem refl (fs : Files) : Extends fs fs where
  cwd           := rfl
  dir _ h       := h
  file _ data h := ⟨data, h⟩

theorem trans (h₁ : Extends fs₁ fs₂) (h₂ : Extends fs₂ fs₃) : Extends fs₁ fs₃ where
  cwd           := h₂.cwd.trans h₁.cwd
  dir q h       := h₂.dir q (h₁.dir q h)
  file q data h := have ⟨data, h⟩ := h₁.file q data h; h₂.file q data h

theorem of_grows (h : Grows fs fs') : Extends fs fs' where
  cwd           := h.cwd
  dir q         := h.entry q .dir
  file q data h' := ⟨data, h.entry q _ h'⟩

theorem ne_none (h : Extends fs fs') (hq : fs.entry q ≠ none) : fs'.entry q ≠ none := by
  cases he : fs.entry q
  case none => exact absurd he hq
  case some e =>
    cases e
    case dir  => simp [h.dir q he]
    case file => have ⟨_, hf⟩ := h.file q _ he; simp [hf]

theorem leads (h : Extends fs fs') (hl : fs.Leads p) : fs'.Leads p :=
  fun q hq => h.dir q (hl q (h.cwd ▸ hq))

end Extends

theorem extends_set_file (h : fs.entry q ≠ some .dir) : Extends fs (fs.set q (.file data)) := by
  have hq : q ≠ [] := by rintro rfl; exact h rfl
  constructor
  case cwd  => rfl
  case dir  => intro r hr; rw [entry_set_of_ne (by rintro rfl; exact h hr), hr]
  case file =>
    intro r data' hr
    rw [entry_set hq]
    split
    · exact ⟨data, rfl⟩
    · exact ⟨data', hr⟩

section CreateDirAll

variable {qs : List (List Name)}

theorem createDirs_grows (qs : List (List Name)) (fs : Files) : Grows fs (createDirs qs fs).2 := by
  induction qs generalizing fs
  case nil => exact .refl fs
  case cons q qs hi =>
    rw [createDirs]
    split
    · exact hi fs
    · exact .refl fs
    · exact .trans (.set_of_none ‹_›) (hi _)

theorem createDirs_ok (h : createDirs qs fs = (.ok (), fs')) :
    ∀ q ∈ qs, fs'.entry q = some .dir := by
  induction qs generalizing fs
  case nil => simp
  case cons q qs hi =>
    rw [createDirs] at h
    split at h
    case h_1 hd =>
      have hg := createDirs_grows qs fs
      rw [h] at hg
      simpa [hg.entry q _ hd] using hi h
    case h_2 => cases h
    case h_3 hd =>
      have hq : q ≠ [] := by rintro rfl; cases hd
      have hg := createDirs_grows qs (fs.set q .dir)
      rw [h] at hg
      simpa [hg.entry q _ (entry_set_self hq)] using hi h

theorem createDirAll_fault (h : (createDirAll p fault).run fs = (.ok (), fs')) : fault = .none := by
  cases fault
  case none => rfl
  all_goals cases h

-- Where the directories are there, none is created.
theorem createDirs_of_dirs (h : ∀ q ∈ qs, fs.entry q = some .dir) :
    createDirs qs fs = (.ok (), fs) := by
  induction qs
  case nil => rfl
  case cons q qs hi =>
    simp only [List.forall_mem_cons] at h
    rw [createDirs, h.1]
    exact hi h.2

-- Only a file is in the way of a directory.
theorem createDirs_of_forall {fs : Files} {qs : List (List Name)}
    (h : ∀ q ∈ qs, ∀ data, fs.entry q ≠ some (.file data)) : ∃ fs', createDirs qs fs = (.ok (), fs') := by
  induction qs generalizing fs
  case nil => exact ⟨fs, rfl⟩
  case cons q qs hi =>
    rw [List.forall_mem_cons] at h
    rw [createDirs]
    split
    case h_1 => exact hi h.2
    case h_2 hf => exact absurd hf (h.1 _)
    case h_3 hn =>
      have hq : q ≠ [] := by rintro rfl; cases hn
      refine hi fun r hr data => ?_
      rw [entry_set hq]
      split
      · simp
      · exact h.2 r hr data

theorem createDirs_entry_of_notMem (h : q ∉ qs) : (createDirs qs fs).2.entry q = fs.entry q := by
  induction qs generalizing fs
  case nil => rfl
  case cons r qs hi =>
    rw [List.mem_cons, not_or] at h
    rw [createDirs]
    split
    case h_1 => exact hi h.2
    case h_2 => rfl
    case h_3 => rw [hi h.2, entry_set_of_ne h.1]

-- No file comes into being with the directories.
theorem file_of_createDirs (h : (createDirs qs fs).2.entry q = some (.file data)) :
    fs.entry q = some (.file data) := by
  induction qs generalizing fs
  case nil => exact h
  case cons r qs hi =>
    rw [createDirs] at h
    split at h
    case h_1 => exact hi h
    case h_2 => exact h
    case h_3 hn =>
      have hr : r ≠ [] := by rintro rfl; cases hn
      have := hi h
      rw [entry_set hr] at this
      split at this
      · cases this
      · exact this

theorem createDirAll_grows (p : String) (fault : Fault) : (createDirAll p fault).Keeps Grows := by
  intro fs
  cases fault
  case none    => exact createDirs_grows _ fs
  case before  => exact .refl fs
  case after n => exact createDirs_grows _ fs

theorem createDirAll_entry_of_notMem (h : q ∉ Path.trail fs.cwd p) :
    ((createDirAll p fault).run fs).2.entry q = fs.entry q := by
  have h := mt (fun h => (Path.madeDirs_prefix _ _).subset h) h
  cases fault
  case none    => exact createDirs_entry_of_notMem h
  case before  => rfl
  case after n => exact createDirs_entry_of_notMem (mt List.mem_of_mem_take h)

-- The directories are made, and the path leads to one.
theorem createDirAll_eq_ok : (createDirAll p fault).run fs = (.ok (), fs') ↔
    fault = .none ∧ createDirs (Path.madeDirs fs.cwd p) fs = (.ok (), fs') ∧
      fs'.entry (fs.resolve p) = some .dir := by
  cases fault
  case before => simp [createDirAll]
  case after  => simp [createDirAll]
  case none =>
    simp only [createDirAll, true_and]
    rcases hc : createDirs (Path.madeDirs fs.cwd p) fs with ⟨r, fs₁⟩
    constructor
    case mp =>
      intro h
      split at h
      case isTrue hd => cases h; exact ⟨rfl, hd⟩
      case isFalse   => cases h
    case mpr =>
      rintro ⟨h, hd⟩
      cases h
      rw [if_pos hd]

theorem createDirAll_ok (h : (createDirAll p fault).run fs = (.ok (), fs')) :
    ∀ q ∈ Path.trail fs.cwd p, fs'.entry q = some .dir := by
  have ⟨_, hc, hd⟩ := createDirAll_eq_ok.mp h
  intro q hq
  rcases Path.mem_madeDirs hq with hq | rfl
  · exact createDirs_ok hc q hq
  · exact hd

-- Where only directories are in the way, and where a dot at the end of the path stands for one, the
-- directories are made.
theorem createDirAll_of_forall
    (h : ∀ q ∈ Path.trail fs.cwd p, ∀ data, fs.entry q ≠ some (.file data))
    (hd : fs.resolve p ∈ Path.madeDirs fs.cwd p ∨ fs.entry (fs.resolve p) = some .dir) :
    ∃ fs', (createDirAll p .none).run fs = (.ok (), fs') := by
  have ⟨fs', hc⟩ := createDirs_of_forall fun q hq => h q ((Path.madeDirs_prefix _ _).subset hq)
  refine ⟨fs', createDirAll_eq_ok.mpr ⟨rfl, hc, ?_⟩⟩
  rcases hd with hd | hd
  · exact createDirs_ok hc _ hd
  · have hg := createDirs_grows (Path.madeDirs fs.cwd p) fs
    rw [hc] at hg
    exact hg.entry _ _ hd

theorem createDirAll_of_dirs (h : ∀ q ∈ Path.trail fs.cwd p, fs.entry q = some .dir) :
    ((createDirAll p fault).run fs).2 = fs := by
  have h := fun q hq => h q ((Path.madeDirs_prefix _ _).subset hq)
  cases fault
  case none    => exact congrArg Prod.snd (createDirs_of_dirs h)
  case before  => rfl
  case after n => exact congrArg Prod.snd (createDirs_of_dirs fun q hq => h q (List.mem_of_mem_take hq))

-- Where the directories are there, that is all it takes.
theorem createDirAll_none_of_dirs (h : ∀ q ∈ Path.trail fs.cwd p, fs.entry q = some .dir) :
    (createDirAll p .none).run fs = (.ok (), fs) :=
  createDirAll_eq_ok.mpr ⟨rfl, createDirs_of_dirs fun q hq => h q ((Path.madeDirs_prefix _ _).subset hq),
    h _ Path.resolve_mem_trail⟩

end CreateDirAll

section Write

theorem write_extends (p : String) (data : Bytes) (fault : Fault) :
    (write p data fault).Keeps Extends := by
  intro fs
  simp only [write]
  split
  case isFalse => exact .refl fs
  case isTrue h =>
    cases fault
    case none    => exact extends_set_file h.2
    case before  => exact .refl fs
    case after n => exact extends_set_file h.2

theorem write_entry_of_ne (h : r ≠ fs.resolve p) :
    ((write p data fault).run fs).2.entry r = fs.entry r := by
  simp only [write]
  split
  case isFalse => rfl
  case isTrue =>
    cases fault
    case none    => exact entry_set_of_ne h
    case before  => rfl
    case after n => exact entry_set_of_ne h

-- What a write that fails leaves in its place is what has been there, or it has broken off.
theorem write_error_entry {err : IoError} (h : (write p data fault).run fs = (.error err, fs')) :
    fs'.entry (fs.resolve p) = fs.entry (fs.resolve p) ∨
      fault ≠ .none ∧ ∃ part, part <+: data ∧ fs'.entry (fs.resolve p) = some (.file part) := by
  simp only [write] at h
  split at h
  case isFalse => cases h; exact .inl rfl
  case isTrue hw =>
    have hp : fs.resolve p ≠ [] := fun hp => hw.2 (by rw [hp]; rfl)
    cases fault
    case none   => cases h
    case before => cases h; exact .inl rfl
    case after n =>
      cases h
      exact .inr ⟨by simp, _, List.take_prefix n data, entry_set_self hp⟩

-- A write to a place where nothing is takes nothing away.
theorem write_grows (data : Bytes) (fault : Fault) (h : fs.entry (fs.resolve p) = none) :
    Grows fs ((write p data fault).run fs).2 := by
  simp only [write]
  split
  case isFalse => exact .refl fs
  case isTrue =>
    cases fault
    case none    => exact .set_of_none h
    case before  => exact .refl fs
    case after n => exact .set_of_none h

-- A write that is not interfered with goes through or is refused.
theorem write_none : (write p data .none).run fs =
    if fs.IsWritable p then (.ok (), fs.set (fs.resolve p) (.file data)) else (.error .refused, fs) :=
  rfl

theorem write_none_error {err : IoError} (h : (write p data .none).run fs = (.error err, fs')) :
    fs' = fs := by
  rw [write_none] at h
  split at h <;> cases h
  rfl

theorem write_ok (h : (write p data fault).run fs = (.ok (), fs')) :
    fs'.entry (fs.resolve p) = some (.file data) := by
  simp only [write] at h
  split at h
  case isFalse => cases h
  case isTrue hw =>
    cases fault
    case none =>
      cases h
      have : fs.resolve p ≠ [] := fun hp => hw.2 (by rw [hp]; rfl)
      exact entry_set_self this
    all_goals cases h

-- A write to a place that can be reached finds something there or puts it there.
theorem write_touches (h : fs.Leads p) :
    ((write p data .none).run fs).2.entry (fs.resolve p) ≠ none := by
  simp only [write]
  split
  case isTrue hw =>
    have hp : fs.resolve p ≠ [] := fun hp => hw.2 (by rw [hp]; rfl)
    rw [entry_set_self hp]
    simp
  case isFalse hw =>
    have : fs.entry (fs.resolve p) = some .dir := not_not.mp fun hd => hw ⟨h, hd⟩
    rw [this]
    simp

-- A write that does not fail at once leaves something.
theorem write_leaves (h : fs.IsWritable p) (hf : fault ≠ .before) :
    ((write p data fault).run fs).2.entry (fs.resolve p) ≠ none := by
  have hp : fs.resolve p ≠ [] := fun hp => h.2 (by rw [hp]; rfl)
  simp only [write, if_pos h]
  cases fault
  case before => exact absurd rfl hf
  all_goals rw [entry_set_self hp]; simp

-- A write makes no directory, and leaves all of them.
theorem write_dir : ((write p data fault).run fs).2.entry r = some .dir ↔ fs.entry r = some .dir := by
  refine ⟨fun h => ?_, (write_extends p data fault fs).dir r⟩
  have set (d : Bytes) (hs : (fs.set (fs.resolve p) (.file d)).entry r = some .dir) :
      fs.entry r = some .dir := by
    by_cases hr : r = fs.resolve p
    case neg => rwa [entry_set_of_ne hr] at hs
    case pos =>
      by_cases hn : fs.resolve p = []
      case pos => rw [hr, hn]; rfl
      case neg => rw [hr, entry_set_self hn] at hs; cases hs
  simp only [write] at h
  split at h
  case isFalse => exact h
  case isTrue =>
    cases fault
    case none    => exact set _ h
    case before  => exact h
    case after n => exact set _ h

theorem write_before : ∃ e, (write p data .before).run fs = (.error e, fs) := by
  simp only [write]
  split
  · exact ⟨_, rfl⟩
  · exact ⟨_, rfl⟩

end Write

-- Nothing goes away, and the files at some places stay as they are.
structure Spares (P : List Name → Prop) (fs fs' : Files) : Prop where
  grown : Extends fs fs'
  file  : ∀ q data, P q → fs.entry q = some (.file data) → fs'.entry q = some (.file data)

section Spares

variable {P : List Name → Prop}

theorem Spares.refl (fs : Files) : Spares P fs fs where
  grown        := .refl fs
  file _ _ _ h := h

theorem Spares.trans (h₁ : Spares P fs₁ fs₂) (h₂ : Spares P fs₂ fs₃) : Spares P fs₁ fs₃ where
  grown            := h₁.grown.trans h₂.grown
  file q data hq h := h₂.file q data hq (h₁.file q data hq h)

theorem Spares.of_grows (h : Grows fs fs') : Spares P fs fs' where
  grown        := h.toExtends
  file q _ _ h' := h.entry q _ h'

theorem createDirAll_spares (p : String) (fault : Fault) : (createDirAll p fault).Keeps (Spares P) :=
  fun fs => .of_grows (createDirAll_grows p fault fs)

theorem write_spares (data : Bytes) (fault : Fault) (h : ¬ P (fs.resolve p)) :
    Spares P fs ((write p data fault).run fs).2 := by
  refine ⟨write_extends p data fault fs, fun q data' hq he => ?_⟩
  rw [write_entry_of_ne (fun hp => h (hp ▸ hq)), he]

end Spares

-- What is read at the end of a path depends on the directories and on that place.
theorem read_congr {fs' : Files} (hc : fs'.cwd = fs.cwd)
    (hd : ∀ q, fs'.entry q = some .dir ↔ fs.entry q = some .dir)
    (hq : fs'.entry (fs.resolve p) = fs.entry (fs.resolve p)) : fs'.read p = fs.read p := by
  have hl : fs'.Leads p ↔ fs.Leads p := by simp only [Leads, hc, hd]
  have hr : fs'.resolve p = fs.resolve p := by rw [resolve, resolve, hc]
  simp only [read, stat, hl, hr, hq]

-- What is in the file at a place, if there is a file.
def content (fs : Files) (q : List Name) : Option Bytes :=
  match fs.entry q with
  | some (.file data) => some data
  | _                 => none

section Content

theorem content_eq_some : fs.content q = some data ↔ fs.entry q = some (.file data) := by
  rw [content]
  split
  case h_1 d hd => rw [hd]; simp
  case h_2 hd   => exact iff_of_false (by simp) (hd data)

theorem content_congr {fs' : Files} (h : fs'.entry q = fs.entry q) : fs'.content q = fs.content q := by
  rw [content, content, h]

theorem content_createDirs {qs : List (List Name)} :
    (createDirs qs fs).2.content q = fs.content q :=
  Option.ext fun data => by
    rw [content_eq_some, content_eq_some]
    exact ⟨file_of_createDirs, (createDirs_grows qs fs).entry q _⟩

theorem content_createDirAll : ((createDirAll p fault).run fs).2.content q = fs.content q := by
  cases fault
  case none   => exact content_createDirs
  case before => rfl
  case after  => exact content_createDirs

theorem content_write_of_ne (h : q ≠ fs.resolve p) :
    ((write p data fault).run fs).2.content q = fs.content q :=
  content_congr (write_entry_of_ne h)

end Content

-- A file is there with this content, or is not there.
def replace (fs : Files) (q : List Name) : Option Bytes → Files
  | some data => fs.set q (.file data)
  | none      => fs.erase q

section Replace

variable {o : Option Bytes}

@[simp]
theorem replace_cwd : (fs.replace q o).cwd = fs.cwd := by
  cases o <;> rfl

theorem entry_replace_self (h : q ≠ []) : (fs.replace q o).entry q = o.map .file := by
  cases o
  case none   => simp [replace, entry_erase, h]
  case some d => exact entry_set_self h

theorem entry_replace_of_ne (h : r ≠ q) : (fs.replace q o).entry r = fs.entry r := by
  cases o
  case none   => simp [replace, entry_erase, h]
  case some d => exact entry_set_of_ne h

theorem ext_lookup {fs' : Files} (hc : fs'.cwd = fs.cwd)
    (h : ∀ r, fs'.entries.lookup r = fs.entries.lookup r) : fs' = fs := by
  obtain ⟨cwd, entries⟩ := fs
  obtain ⟨cwd', entries'⟩ := fs'
  obtain rfl : cwd' = cwd := hc
  exact congrArg (mk cwd') (Finmap.ext_lookup h)

theorem lookup_replace : (fs.replace q o).entries.lookup r =
    if r = q then o.map .file else fs.entries.lookup r := by
  cases o
  case none =>
    split
    case isTrue hr  => subst hr; exact Finmap.lookup_erase _ _
    case isFalse hr => exact Finmap.lookup_erase_ne hr
  case some d => exact HashMap.lookup_insert'

theorem replace_self (hq : q ≠ []) (h : fs.entry q = o.map .file) : fs.replace q o = fs := by
  have hl : fs.entries.lookup q = o.map .file := by rwa [entry, if_neg hq] at h
  refine ext_lookup replace_cwd fun r => ?_
  rw [lookup_replace]
  split
  case isTrue hr => exact hr ▸ hl.symm
  case isFalse   => rfl

theorem replace_set (h : r ≠ q) : (fs.set r e).replace q o = (fs.replace q o).set r e := by
  refine ext_lookup (by simp) fun t => ?_
  rw [lookup_replace, set, set, HashMap.lookup_insert', HashMap.lookup_insert', lookup_replace]
  by_cases ht : t = q
  case pos => rw [if_pos ht, if_neg (ht ▸ h.symm), if_pos ht]
  case neg => rw [if_neg ht, if_neg ht]

variable (hd : fs.entry q ≠ some .dir)
include hd

theorem replace_ne_nil : q ≠ [] := by
  rintro rfl
  exact hd rfl

-- A file that comes, goes or changes leads nowhere else.
theorem replace_dir : (fs.replace q o).entry r = some .dir ↔ fs.entry r = some .dir := by
  by_cases hr : r = q
  case pos =>
    subst hr
    rw [entry_replace_self (replace_ne_nil hd)]
    exact iff_of_false (by cases o <;> simp) hd
  case neg => rw [entry_replace_of_ne hr]

theorem leads_replace : (fs.replace q o).Leads p ↔ fs.Leads p := by
  simp only [Leads, replace_cwd, replace_dir hd]

theorem stat_replace (h : fs.resolve p ≠ q) : (fs.replace q o).stat p = fs.stat p := by
  simp only [stat, leads_replace hd, resolve, replace_cwd]
  exact if_congr Iff.rfl (entry_replace_of_ne h) rfl

theorem write_replace (h : fs.resolve p ≠ q) : (write p data fault).run (fs.replace q o) =
    (((write p data fault).run fs).1, ((write p data fault).run fs).2.replace q o) := by
  have hw : (fs.replace q o).IsWritable p ↔ fs.IsWritable p := by
    simp only [IsWritable, leads_replace hd, resolve, replace_cwd, ne_eq, replace_dir hd]
  simp only [write, hw]
  by_cases hp : fs.IsWritable p
  case neg => simp only [if_neg hp]
  case pos =>
    simp only [if_pos hp]
    cases fault
    case none   => exact Prod.ext rfl (by simp only [resolve, replace_cwd]; exact (replace_set h).symm)
    case before => rfl
    case after  => exact Prod.ext rfl (by simp only [resolve, replace_cwd]; exact (replace_set h).symm)

end Replace

end

end Files

end Foundation
