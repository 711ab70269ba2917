import Mathlib.Data.List.Basic
import Mathlib.Data.List.DropRight

namespace Foundation

-- A component of a path.
abbrev Name := List Char

namespace Path

def isAbsolute (p : String) : Bool :=
  p.toList.head? = some '/'

-- `Path::join`
def join (p q : String) : String :=
  if isAbsolute q then
    q
  else if p = "" ∨ p.toList.getLast? = some '/' then
    p ++ q
  else
    p ++ "/" ++ q

def components (p : String) : List Name :=
  p.toList.splitOn '/'

-- One step from a directory.
def push (dir : List Name) (c : Name) : List Name :=
  if c = [] ∨ c = ['.'] then
    dir
  else if c = ['.', '.'] then
    dir.dropLast
  else
    dir ++ [c]

def start (cwd : List Name) (p : String) : List Name :=
  if isAbsolute p then [] else cwd

-- The place that a path leads to, from the root.
def resolve (cwd : List Name) (p : String) : List Name :=
  (components p).foldl push (start cwd p)

-- The places that a path leads through, from the root.
def trail (cwd : List Name) (p : String) : List (List Name) :=
  (components p).scanl push (start cwd p)

-- Empty components do not count at the end of a path.
def endsInDot (p : String) : Bool :=
  ((components p).filter (· ≠ [])).getLast? = some ['.']

-- The places at which directories are made so that a path leads to one. At the end of a path a dot
-- names a directory that is there, and none is made for it.
def madeDirs (cwd : List Name) (p : String) : List (List Name) :=
  if endsInDot p then
    (trail cwd p).rdropWhile (· = resolve cwd p)
  else
    trail cwd p

-- A file name: one component that leads one step down.
structure IsName (n : Name) : Prop where
  ne_nil  : n ≠ []
  ne_dot  : n ≠ ['.']
  ne_dots : n ≠ ['.', '.']
  slash   : '/' ∉ n

-- Strictly below a directory.
def IsBelow (dir place : List Name) : Prop :=
  dir <+: place ∧ place ≠ dir

instance (dir place : List Name) : Decidable (IsBelow dir place) :=
  inferInstanceAs (Decidable (_ ∧ _))

theorem isBelow_append_singleton {dir place : List Name} {n : Name} :
    IsBelow dir (place ++ [n]) ↔ dir <+: place := by
  constructor
  case mp =>
    rintro ⟨hp, hne⟩
    exact (List.prefix_concat_iff.mp hp).resolve_left hne.symm
  case mpr =>
    intro hp
    refine ⟨hp.trans (List.prefix_append _ _), ?_⟩
    rintro rfl
    have := hp.length_le
    rw [List.length_append, List.length_singleton] at this
    omega

-- A path up to its last separator.
def front (p : String) : String :=
  String.ofList (p.toList.rdropWhile (· ≠ '/'))

-- The last component of a path.
def last (p : String) : String :=
  String.ofList (p.toList.rtakeWhile (· ≠ '/'))

variable {cwd dir : List Name} {p q r : String} {n : Name}

theorem push_of_isName (h : IsName n) : push dir n = dir ++ [n] := by
  simp [push, h.ne_nil, h.ne_dot, h.ne_dots]

theorem not_isAbsolute (h : '/' ∉ q.toList) : isAbsolute q = false := by
  cases hq : q.toList
  case nil => simp [isAbsolute, hq]
  case cons c cs =>
    have : c ≠ '/' := fun hc => h (by simp [hq, hc])
    simp [isAbsolute, hq, this]

theorem components_of_isName (h : IsName q.toList) : components q = [q.toList] :=
  List.splitOnP_eq_singleton fun c hc => by
    simp only [beq_eq_false_iff_ne]
    rintro rfl
    exact h.slash hc

theorem components_of_slash {l m : List Char} (h : p.toList = l ++ '/' :: m) :
    components p = l.splitOn '/' ++ m.splitOn '/' := by
  rw [components, h]
  exact List.splitOnP_append_cons l m (by decide)

theorem start_eq_of_head? (h : p.toList.head? = q.toList.head?) : start cwd p = start cwd q := by
  simp [start, isAbsolute, h]

-- What is joined to a path becomes its last components, in place of an empty one if there is.
theorem components_join (cwd : List Name) (p : String) (hq : isAbsolute q = false) : ∃ cs,
    components (join p q) = cs ++ components q ∧ (components p = cs ∨ components p = cs ++ [[]]) ∧
    start cwd (join p q) = start cwd p := by
  have hn : ([] : List Char).splitOn '/' = [[]] := rfl
  simp only [join, hq, Bool.false_eq_true, ↓reduceIte]
  rcases List.eq_nil_or_concat p.toList with hp | ⟨d, c, hp⟩
  case inl =>
    obtain rfl : p = "" := by rw [← String.toList_inj, hp]; rfl
    have he : isAbsolute "" = false := rfl
    simp only [true_or, ↓reduceIte, String.empty_append]
    exact ⟨[], rfl, .inr rfl, by simp [start, hq, he]⟩
  case inr =>
    have hne : p ≠ "" := by rintro rfl; simp at hp
    rw [List.concat_eq_append] at hp
    have hh (t : String) : start cwd (p ++ t) = start cwd p :=
      start_eq_of_head? (by simp [hp])
    by_cases hc : c = '/'
    case pos =>
      subst hc
      have hpq : (p ++ q).toList = d ++ '/' :: q.toList := by simp [hp]
      rw [if_pos (.inr (by simp [hp])), components_of_slash hpq, components_of_slash hp, hn]
      exact ⟨_, rfl, .inr rfl, hh q⟩
    case neg =>
      have hpq : (p ++ "/" ++ q).toList = p.toList ++ '/' :: q.toList := by simp
      rw [if_neg (by simp [hne, hp, hc]), components_of_slash hpq, String.append_assoc]
      exact ⟨_, rfl, .inl rfl, hh _⟩

theorem resolve_join (p q : String) : resolve cwd (join p q) = resolve (resolve cwd p) q := by
  by_cases hq : isAbsolute q
  case pos => simp [resolve, start, join, hq]
  case neg =>
    rw [Bool.not_eq_true] at hq
    have ⟨cs, hj, hp, hs⟩ := components_join cwd p hq
    have hr : resolve cwd p = cs.foldl push (start cwd p) := by
      rcases hp with hp | hp <;> simp [resolve, hp, push]
    have hd (dir : List Name) : start dir q = dir := by simp [start, hq]
    rw [resolve, hj, hs, List.foldl_append, ← hr, resolve.eq_1 (resolve cwd p), hd]

-- A name that is joined to a path names an entry of the directory that the path leads to.
theorem resolve_join_name (h : IsName q.toList) :
    resolve cwd (join p q) = resolve cwd p ++ [q.toList] := by
  rw [resolve_join, resolve, start, if_neg (by simp [not_isAbsolute h.slash]),
    components_of_isName h, List.foldl_cons, List.foldl_nil, push_of_isName h]

-- It is found through the places that the path leads through.
theorem trail_join_name (h : IsName q.toList) : (trail cwd (join p q)).dropLast <+: trail cwd p := by
  have ⟨cs, hj, hp, hs⟩ := components_join cwd p (not_isAbsolute h.slash)
  have : (trail cwd (join p q)).dropLast = cs.scanl push (start cwd p) := by
    rw [trail, hj, hs, components_of_isName h, List.scanl_append]
    simp
  rw [this, trail]
  rcases hp with rfl | hp
  · exact List.prefix_refl _
  · rw [hp, List.scanl_append]
    exact List.prefix_append _ _

theorem mem_trail_join_name {r : List Name} (h : IsName q.toList) (hr : r ∈ trail cwd p) :
    r ∈ (trail cwd (join p q)).dropLast := by
  have ⟨cs, hj, hp, hs⟩ := components_join cwd p (not_isAbsolute h.slash)
  have : (trail cwd (join p q)).dropLast = cs.scanl push (start cwd p) := by
    rw [trail, hj, hs, components_of_isName h, List.scanl_append]
    simp
  rw [this]
  rw [trail] at hr
  rcases hp with rfl | hp
  · exact hr
  · -- A slash at the end of the path leads nowhere else.
    rw [hp, List.scanl_append, List.mem_append] at hr
    rcases hr with hr | hr
    · exact hr
    · have hl := List.mem_of_getLast? (List.getLast?_scanl (f := push) (b := start cwd p) (l := cs))
      simp [push] at hr
      exact hr ▸ hl

-- The last place that a path leads through is where it leads.
theorem mem_trail {r : List Name} (h : r ∈ trail cwd p) :
    r ∈ (trail cwd p).dropLast ∨ r = resolve cwd p := by
  have hl : resolve cwd p ∈ (trail cwd p).getLast? := List.getLast?_scanl
  rw [← List.dropLast_append_getLast? _ hl, List.mem_append, List.mem_singleton] at h
  exact h

theorem resolve_mem_trail : resolve cwd p ∈ trail cwd p :=
  List.mem_of_getLast? List.getLast?_scanl

theorem madeDirs_prefix (cwd : List Name) (p : String) : madeDirs cwd p <+: trail cwd p := by
  rw [madeDirs]
  split
  · exact List.rdropWhile_prefix _ _
  · exact List.prefix_refl _

theorem madeDirs_of_not_dot (h : endsInDot p = false) : madeDirs cwd p = trail cwd p := by
  rw [madeDirs, h]
  rfl

-- What a path leads through is made, or is where it leads.
theorem mem_madeDirs {r : List Name} (h : r ∈ trail cwd p) :
    r ∈ madeDirs cwd p ∨ r = resolve cwd p := by
  rw [madeDirs]
  split
  case isFalse => exact .inl h
  case isTrue =>
    rw [← List.rdropWhile_append_rtakeWhile (p := (· = resolve cwd p)) (l := trail cwd p),
      List.mem_append] at h
    refine h.imp_right fun h => ?_
    simpa using List.mem_rtakeWhile_imp h

-- A name that is joined to a path ends it.
theorem endsInDot_join (h : IsName q.toList) : endsInDot (join p q) = false := by
  have ⟨cs, hj, _⟩ := components_join [] p (not_isAbsolute h.slash)
  have hq : q.toList ≠ [] := h.ne_nil
  rw [endsInDot, hj, components_of_isName h, List.filter_append]
  simp [hq, h.ne_dot]

-- What is relative to a path leads through where the path does.
theorem resolve_mem_trail_join (hq : isAbsolute q = false) :
    resolve cwd p ∈ trail cwd (join p q) := by
  have ⟨cs, hj, hp, hs⟩ := components_join cwd p hq
  have hr : resolve cwd p = cs.foldl push (start cwd p) := by
    rcases hp with hp | hp <;> simp [resolve, hp, push]
  rw [trail, hj, hs, hr, List.scanl_append]
  exact List.mem_append_left _ (List.mem_of_getLast? List.getLast?_scanl)

-- What is joined to a path is found through the places of that path and its own.
theorem mem_trail_join {r : List Name} (hq : isAbsolute q = false)
    (h : r ∈ (trail cwd (join p q)).dropLast) :
    r ∈ trail cwd p ∨ r ∈ (trail (resolve cwd p) q).dropLast := by
  have ⟨cs, hj, hp, hs⟩ := components_join cwd p hq
  have hr : resolve cwd p = cs.foldl push (start cwd p) := by
    rcases hp with hp | hp <;> simp [resolve, hp, push]
  have hne : components q ≠ [] := List.splitOnP_ne_nil _ _
  have ⟨c, rest, hc⟩ := List.exists_cons_of_ne_nil hne
  have hd (dir : List Name) : start dir q = dir := by simp [start, hq]
  rw [trail, hj, hs, List.scanl_append, ← hr, hc, List.scanl_cons, List.tail_cons,
    List.dropLast_append_of_ne_nil (by simp), List.mem_append] at h
  rcases h with h | h
  · left
    rw [trail]
    rcases hp with rfl | hp
    · exact h
    · rw [hp, List.scanl_append]
      exact List.mem_append_left _ h
  · right
    rw [trail, hd, hc, List.scanl_cons, List.dropLast_cons_of_ne_nil (by simp)]
    exact List.mem_cons_of_mem _ h

theorem trail_subset_join (hq : isAbsolute q = false) :
    trail (resolve cwd p) q ⊆ trail cwd (join p q) := by
  have ⟨cs, hj, hp, hs⟩ := components_join cwd p hq
  have hr : resolve cwd p = cs.foldl push (start cwd p) := by
    rcases hp with hp | hp <;> simp [resolve, hp, push]
  have hd (dir : List Name) : start dir q = dir := by simp [start, hq]
  intro r h
  rw [trail, hd] at h
  rw [trail, hj, hs, List.scanl_append, ← hr]
  cases hc : (components q).scanl push (resolve cwd p)
  case nil => simp [hc] at h
  case cons r₀ rest =>
    rw [hc, List.mem_cons] at h
    rw [List.tail_cons, List.mem_append]
    refine h.imp ?_ id
    rintro rfl
    have h₀ := congrArg List.head? hc
    rw [List.head?_scanl, List.head?_cons, Option.some.injEq] at h₀
    rw [← h₀, hr]
    exact List.mem_of_getLast? List.getLast?_scanl

theorem resolve_of_isAbsolute {cwd' : List Name} (h : isAbsolute p) :
    resolve cwd p = resolve cwd' p := by
  simp [resolve, start, h]

theorem front_append_last (p : String) : front p ++ last p = p := by
  rw [← String.toList_inj, String.toList_append, front, last, String.toList_ofList,
    String.toList_ofList, List.rdropWhile_append_rtakeWhile]

theorem slash_not_mem_last (p : String) : '/' ∉ (last p).toList := by
  rw [last, String.toList_ofList]
  intro h
  simpa using List.mem_rtakeWhile_imp h

theorem isAbsolute_front (h : isAbsolute p) : isAbsolute (front p ++ q) := by
  have hp : p.toList.head? = some '/' := by simpa [isAbsolute] using h
  have hne : p.toList.rdropWhile (· ≠ '/') ≠ [] := by
    intro hn
    have := List.rdropWhile_eq_nil_iff.mp hn _ (List.mem_of_head? hp)
    simp at this
  have ⟨t, ht⟩ := List.rdropWhile_prefix (· ≠ '/') p.toList
  rw [← ht, List.head?_append_of_ne_nil _ hne] at hp
  simp only [isAbsolute, String.toList_append, front, String.toList_ofList,
    List.head?_append_of_ne_nil _ hne, hp, decide_true]

theorem not_isAbsolute_front (h : isAbsolute p = false) (hq : '/' ∉ q.toList) :
    isAbsolute (front p ++ q) = false := by
  by_cases hf : front p = ""
  case pos => rw [hf, String.empty_append, not_isAbsolute hq]
  case neg =>
    have hf : (front p).toList ≠ [] := by simpa using hf
    rw [← front_append_last p, isAbsolute, String.toList_append, List.head?_append_of_ne_nil _ hf] at h
    rw [isAbsolute, String.toList_append, List.head?_append_of_ne_nil _ hf, h]

-- The components of a path are those up to its last separator and the last one.
theorem components_front (p : String) (hq : '/' ∉ q.toList) : ∃ cs,
    components (front p ++ q) = cs ++ [q.toList] ∧ components (front p) = cs ++ [[]] := by
  have hn : ([] : List Char).splitOn '/' = [[]] := rfl
  have hs : q.toList.splitOn '/' = [q.toList] := List.splitOn_eq_singleton hq
  rcases List.eq_nil_or_concat (front p).toList with hf | ⟨l, c, hf⟩
  case inl =>
    obtain hf : front p = "" := by rw [← String.toList_inj, hf]; rfl
    rw [hf, String.empty_append]
    exact ⟨[], hs, rfl⟩
  case inr =>
    rw [List.concat_eq_append] at hf
    have hc : c = '/' := by
      have hl : p.toList.rdropWhile (· ≠ '/') = l ++ [c] := by rwa [front, String.toList_ofList] at hf
      have hne : p.toList.rdropWhile (· ≠ '/') ≠ [] := by rw [hl]; simp
      have hc := List.rdropWhile_last_not _ _ hne
      simp only [hl, List.getLast_append_singleton] at hc
      simpa using hc
    subst hc
    have hfq : (front p ++ q).toList = l ++ '/' :: q.toList := by simp [hf]
    exact ⟨l.splitOn '/', by rw [components_of_slash hfq, hs], by rw [components_of_slash hf, hn]⟩

theorem start_front (cwd : List Name) (p : String) (hq : '/' ∉ q.toList) :
    start cwd (front p ++ q) = start cwd (front p) := by
  by_cases hf : front p = ""
  case pos =>
    have he : isAbsolute "" = false := rfl
    rw [hf, String.empty_append, start, start, not_isAbsolute hq, he]
  case neg =>
    have hf : (front p).toList ≠ [] := by simpa using hf
    exact start_eq_of_head? (by rw [String.toList_append, List.head?_append_of_ne_nil _ hf])

-- A name after the last separator of a path names an entry of the directory before it.
theorem resolve_front (p : String) (hq : IsName q.toList) :
    resolve cwd (front p ++ q) = resolve cwd (front p) ++ [q.toList] := by
  have ⟨cs, hj, hf⟩ := components_front p hq.slash
  rw [resolve, start_front cwd p hq.slash, hj, List.foldl_append, List.foldl_cons, List.foldl_nil,
    push_of_isName hq, resolve, hf, List.foldl_append]
  rfl

-- The last component of a path is the last step.
theorem resolve_eq_push (cwd : List Name) (p : String) :
    resolve cwd p = push (resolve cwd (front p)) (last p).toList := by
  have ⟨cs, hj, hf⟩ := components_front p (slash_not_mem_last p)
  have hs := start_front cwd p (slash_not_mem_last p)
  rw [front_append_last] at hj hs
  rw [resolve, hj, hs, List.foldl_append, resolve, hf, List.foldl_append]
  rfl

theorem trail_front (p : String) (hq : IsName q.toList) :
    (trail cwd (front p ++ q)).dropLast ⊆ trail cwd p := by
  have ⟨cs, hj, hf⟩ := components_front p hq.slash
  have ⟨cs', hj', hf'⟩ := components_front p (slash_not_mem_last p)
  obtain rfl : cs = cs' := List.append_cancel_right (hf.symm.trans hf')
  have hs := start_front cwd p (slash_not_mem_last p)
  rw [front_append_last] at hj' hs
  rw [trail, trail, hj, hj', start_front cwd p hq.slash, hs, List.scanl_append, List.scanl_append]
  simp

-- A suffix without a separator changes nothing but the last step.
theorem trail_append {s : String} (hs : '/' ∉ s.toList) :
    (trail cwd (p ++ s)).dropLast = (trail cwd p).dropLast := by
  have hl : '/' ∉ (last p ++ s).toList := by
    rw [String.toList_append, List.mem_append, not_or]
    exact ⟨slash_not_mem_last p, hs⟩
  have ⟨cs, hj, hf⟩ := components_front p hl
  have ⟨cs', hj', hf'⟩ := components_front p (slash_not_mem_last p)
  obtain rfl : cs = cs' := List.append_cancel_right (hf.symm.trans hf')
  have hst := start_front cwd p hl
  have hst' := start_front cwd p (slash_not_mem_last p)
  rw [← String.append_assoc, front_append_last] at hj hst
  rw [front_append_last] at hj' hst'
  rw [trail, trail, hj, hj', hst, hst', List.scanl_append, List.scanl_append]
  simp

-- A suffix of a name that is joined is a suffix of the path.
theorem join_append (h : q ≠ "") : join p (q ++ r) = join p q ++ r := by
  have ha : isAbsolute (q ++ r) = isAbsolute q := by
    cases hq : q.toList
    case nil  => exact absurd (String.toList_inj.mp (by simpa using hq)) h
    case cons => simp [isAbsolute, hq]
  simp only [join, ha]
  split
  · rfl
  · split <;> simp [String.append_assoc]

end Path

end Foundation
