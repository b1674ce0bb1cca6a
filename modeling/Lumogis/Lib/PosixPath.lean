import Mathlib.Data.List.Basic
import Mathlib.Data.List.TakeWhile

/-!
# Lib.PosixPath

Paths as texts, by the POSIX rules: components between slashes, `.` and empty ones left out, joining and
normalising. A relative path without `..` that is joined to a root is normalised to the normal form of the
root followed by its own components (`normpath_join`); so it stays under the root, and two such paths are
the same file exactly if their components are equal.
-/

namespace PosixPath

/-- The components of a path, without the empty ones and `.`. -/
def comps (s : List Char) : List (List Char) := (s.splitOn '/').filter fun c => !(c.isEmpty || c == ['.'])

/-- The slashes that a path begins with, as they count: none, two, or one for any other number. -/
def slashes (s : List Char) : Nat :=
  match (s.takeWhile (· == '/')).length with
  | 0 => 0
  | 2 => 2
  | _ => 1

/-- `PurePosixPath(s).parts`. -/
def parts (s : List Char) : List (List Char) :=
  (if slashes s = 0 then [] else [List.replicate (slashes s) '/']) ++ comps s

/-- `posixpath.join`. -/
def join (root s : List Char) : List Char :=
  if s.head? = some '/' then s
  else if root.isEmpty || root.getLast? == some '/' then root ++ s
  else root ++ '/' :: s

/-- A normalised path. -/
structure NormPath where
  slashes : Nat
  comps : List (List Char)

/-- One component is appended, or it goes up. -/
def pushComp (rooted : Bool) (done : List (List Char)) (c : List Char) : List (List Char) :=
  if c ≠ ['.', '.'] ∨ (rooted = false ∧ done = []) ∨ done.getLast? = some ['.', '.'] then done ++ [c]
  else done.dropLast

/-- `posixpath.normpath`. -/
def normpath (s : List Char) : NormPath where
  slashes := slashes s
  comps := (comps s).foldl (pushComp (slashes s != 0)) []

/-- The path `rest` further down. -/
def NormPath.down (p : NormPath) (rest : List (List Char)) : NormPath := { p with comps := p.comps ++ rest }

/-- Further down than the root by some components, none of which goes up. -/
def StrictlyUnder (p root : NormPath) : Prop := ∃ rest, rest ≠ [] ∧ ['.', '.'] ∉ rest ∧ p = root.down rest

theorem NormPath.down_inj {p : NormPath} {a b : List (List Char)} : p.down a = p.down b ↔ a = b := by
  simp [NormPath.down]

/-- Down by components that do not go up is strictly under exactly if there are some. -/
theorem strictlyUnder_down_iff {p : NormPath} {rest : List (List Char)} (h : ['.', '.'] ∉ rest) :
    StrictlyUnder (p.down rest) p ↔ rest ≠ [] := by
  constructor
  · rintro ⟨rest', hne, -, heq⟩
    rwa [NormPath.down_inj.mp heq]
  · intro hne
    exact ⟨rest, hne, h, rfl⟩

@[simp] theorem comps_nil : comps [] = [] := by simp [comps]

theorem comps_append_slash (a b : List Char) : comps (a ++ '/' :: b) = comps a ++ comps b := by
  rw [comps, List.splitOn_append_cons_self, List.filter_append]
  rfl

theorem comps_join {root s : List Char} (h : s.head? ≠ some '/') : comps (join root s) = comps root ++ comps s := by
  rw [join, if_neg h]
  split
  · rename_i hroot
    rcases List.eq_nil_or_concat' root with rfl | ⟨init, c, rfl⟩
    · rw [List.nil_append, comps_nil, List.nil_append]
    · have hc : c = '/' := by simpa using hroot
      subst hc
      have hinit : comps (init ++ ['/']) = comps init := by
        rw [comps_append_slash, comps_nil, List.append_nil]
      rw [List.append_assoc, List.singleton_append, comps_append_slash, hinit]
  · exact comps_append_slash root s

theorem slashes_join {root s : List Char} (h : s.head? ≠ some '/') : slashes (join root s) = slashes root := by
  have hs : s.takeWhile (· == '/') = [] := by
    cases s with
    | nil => rfl
    | cons c s =>
      have hc : c ≠ '/' := by simpa using h
      simp [hc]
  have hlead : (join root s).takeWhile (· == '/') = root.takeWhile (· == '/') := by
    rw [join, if_neg h]
    split
    · rw [List.takeWhile_append, hs, List.append_nil]
      split
      · rename_i hall
        exact ((List.takeWhile_prefix _).eq_of_length hall).symm
      · rfl
    · rename_i hend
      rw [List.takeWhile_append, if_neg]
      intro hall
      -- a root of slashes ends with one
      have hroot := (List.takeWhile_prefix _).eq_of_length hall
      rcases List.eq_nil_or_concat' root with rfl | ⟨init, c, rfl⟩
      · simp at hend
      · have hc := List.mem_takeWhile_imp (hroot ▸ List.mem_append_right init (List.mem_singleton_self c))
        simp at hend
        exact hend (by simpa using hc)
  rw [slashes, hlead, slashes]

theorem foldl_pushComp {rooted : Bool} {cs : List (List Char)} (h : ['.', '.'] ∉ cs) (done : List (List Char)) :
    cs.foldl (pushComp rooted) done = done ++ cs := by
  induction cs generalizing done with
  | nil => simp
  | cons c cs ih =>
    simp only [List.mem_cons, not_or] at h
    have hc : c ≠ ['.', '.'] := fun heq => h.1 heq.symm
    rw [List.foldl_cons, pushComp, if_pos (Or.inl hc), ih h.2, List.append_assoc, List.singleton_append]

theorem normpath_join (root : List Char) {s : List Char} (h : s.head? ≠ some '/') (hup : ['.', '.'] ∉ comps s) :
    normpath (join root s) = (normpath root).down (comps s) := by
  simp only [normpath, NormPath.down, slashes_join h, comps_join h, List.foldl_append, foldl_pushComp hup]

end PosixPath
