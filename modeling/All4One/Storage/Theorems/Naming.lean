import All4One.Storage.Chunks

open Foundation Path

namespace All4One.Storage

section Digits

theorem digit_of_mem_repr {i : Nat} {c : Char} (h : c ∈ i.repr.toList) : c.isDigit := by
  rw [Nat.toList_repr] at h
  exact Nat.isDigit_of_mem_toDigits (by decide) (by decide) h

theorem not_mem_repr {i : Nat} {c : Char} (h : c.isDigit = false) : c ∉ i.repr.toList := by
  intro hc
  simp [digit_of_mem_repr hc] at h

theorem repr_injective : Function.Injective Nat.repr := by
  intro i j h
  have h := congrArg String.toList h
  rw [Nat.toList_repr, Nat.toList_repr] at h
  rw [← Nat.ofDigitChars_ten_toDigits (n := i), h, Nat.ofDigitChars_ten_toDigits]

end Digits

theorem append_singleton_inj {α : Type*} {a b : α} {l m : List α} :
    l ++ [a] = m ++ [b] ↔ l = m ∧ a = b := by
  constructor
  case mp  => intro h; simpa using List.append_inj' h rfl
  case mpr => rintro ⟨rfl, rfl⟩; rfl

-- The last separator of a text is where it was put.
theorem append_sep_inj {α : Type*} {a : α} {l m ds es : List α} (hd : a ∉ ds) (he : a ∉ es)
    (h : l ++ a :: ds = m ++ a :: es) : l = m ∧ ds = es := by
  rcases List.append_eq_append_iff.mp h with ⟨c, rfl, hc⟩ | ⟨c, rfl, hc⟩
  all_goals
    cases c
    case nil => simp_all
    case cons => simp_all

theorem slash_not_mem_slashToDash (s : String) : '/' ∉ (slashToDash s).toList := by
  simp only [slashToDash, String.toList_ofList, List.mem_map, not_exists, not_and]
  intro c _ h
  split at h
  · exact absurd h (by decide)
  · exact absurd h ‹_›

theorem chunkId_inj {x y : String} {i j : Nat} : chunkId x i = chunkId y j ↔ x = y ∧ i = j := by
  constructor
  case mpr => rintro ⟨rfl, rfl⟩; rfl
  case mp =>
    intro h
    have h : (x ++ "-shard").toList ++ '-' :: i.repr.toList =
        (y ++ "-shard").toList ++ '-' :: j.repr.toList := by
      have := congrArg String.toList h
      simpa [chunkId] using this
    have ⟨hx, hi⟩ := append_sep_inj (not_mem_repr rfl) (not_mem_repr rfl) h
    rw [String.toList_append, String.toList_append, List.append_left_inj] at hx
    exact ⟨String.toList_inj.mp hx, repr_injective (String.toList_inj.mp hi)⟩

-- A shard is named in a way in which no directory is ever reached.
theorem isName_chunkId (bucket key : String) (i : Nat) :
    IsName (chunkId (objectId bucket key) i).toList := by
  have hd : '-' ∈ (chunkId (objectId bucket key) i).toList := by simp [chunkId]
  constructor
  case ne_nil  => intro h; simp [h] at hd
  case ne_dot  => intro h; simp [h] at hd
  case ne_dots => intro h; simp [h] at hd
  case slash =>
    simp only [chunkId, String.toList_append, List.mem_append, not_or]
    exact ⟨⟨slash_not_mem_slashToDash _, by decide⟩, not_mem_repr rfl⟩

theorem isName_sidecar (bucket key : String) (i : Nat) :
    IsName (chunkId (objectId bucket key) i ++ ".meta").toList := by
  have hd : '-' ∈ (chunkId (objectId bucket key) i ++ ".meta").toList := by simp [chunkId]
  constructor
  case ne_nil  => intro h; simp [h] at hd
  case ne_dot  => intro h; simp [h] at hd
  case ne_dots => intro h; simp [h] at hd
  case slash =>
    rw [String.toList_append, List.mem_append, not_or]
    exact ⟨(isName_chunkId bucket key i).slash, by decide⟩

-- A shard is not named like the sidecar of a shard: one ends in a digit.
theorem chunkId_ne_sidecar (x y : String) (i j : Nat) : chunkId x i ≠ chunkId y j ++ ".meta" := by
  intro h
  have h := congrArg (fun s => s.toList.getLast?) h
  have hne : i.repr.toList ≠ [] := by
    rw [Nat.toList_repr]
    exact Nat.toDigits_ne_nil
  have hc := List.getLast?_eq_some_getLast hne
  have hd := digit_of_mem_repr (List.getLast_mem hne)
  simp only [chunkId, String.toList_append, List.getLast?_append, hc, Option.some_or] at h
  have ha : (".meta".toList).getLast? = some 'a' := by decide
  rw [ha, Option.some_or, Option.some.injEq] at h
  rw [h] at hd
  revert hd
  decide

-- Where the shards of an object are, and the files next to them.
def dirPlace (cwd : List Name) (dataDir bucket : String) : List Name :=
  resolve cwd (chunksDir dataDir bucket)

def shardPlace (cwd : List Name) (dataDir bucket key : String) (i : Nat) : List Name :=
  resolve cwd (chunkPath (chunksDir dataDir bucket) (objectId bucket key) i)

def sidecarPlace (cwd : List Name) (dataDir bucket key : String) (i : Nat) : List Name :=
  resolve cwd (chunkPath (chunksDir dataDir bucket) (objectId bucket key) i ++ ".meta")

section Places

variable {cwd : List Name} {dataDir bucket key b₁ b₂ k₁ k₂ : String} {i j : Nat}

theorem shardPlace_eq : shardPlace cwd dataDir bucket key i =
    dirPlace cwd dataDir bucket ++ [(chunkId (objectId bucket key) i).toList] :=
  resolve_join_name (isName_chunkId bucket key i)

theorem sidecarPlace_eq : sidecarPlace cwd dataDir bucket key i =
    dirPlace cwd dataDir bucket ++ [(chunkId (objectId bucket key) i ++ ".meta").toList] := by
  have hne : chunkId (objectId bucket key) i ≠ "" := by
    intro h
    have := (isName_chunkId bucket key i).ne_nil
    simp [h] at this
  rw [sidecarPlace, chunkPath, ← join_append hne]
  exact resolve_join_name (isName_sidecar bucket key i)

-- Two objects have their shards in one directory under one name.
def SameFiles (cwd : List Name) (dataDir b₁ k₁ b₂ k₂ : String) : Prop :=
  dirPlace cwd dataDir b₁ = dirPlace cwd dataDir b₂ ∧ objectId b₁ k₁ = objectId b₂ k₂

instance : Decidable (SameFiles cwd dataDir b₁ k₁ b₂ k₂) :=
  inferInstanceAs (Decidable (_ ∧ _))

theorem shardPlace_inj :
    shardPlace cwd dataDir b₁ k₁ i = shardPlace cwd dataDir b₂ k₂ j ↔
    SameFiles cwd dataDir b₁ k₁ b₂ k₂ ∧ i = j := by
  rw [shardPlace_eq, shardPlace_eq, append_singleton_inj, String.toList_inj, chunkId_inj, SameFiles,
    and_assoc]

theorem shardPlace_ne_sidecarPlace :
    shardPlace cwd dataDir b₁ k₁ i ≠ sidecarPlace cwd dataDir b₂ k₂ j := by
  rw [shardPlace_eq, sidecarPlace_eq, ne_eq, append_singleton_inj, String.toList_inj]
  exact fun h => chunkId_ne_sidecar _ _ _ _ h.2

theorem shardPlace_ne_nil : shardPlace cwd dataDir bucket key i ≠ [] := by
  simp [shardPlace_eq]

end Places

end All4One.Storage
