import Lumogis.Lib.FileTree

/-!
# ReadFile

`_read_file`: the path is resolved and compared, as a text, with the resolved ingest roots, and then opened as
it was given. What is read is the file that the path resolves to, so it lies under a root; a file under a root is
not refused. Both hold exactly if there are roots, or nothing to open, and where the root directory is one of the
roots another root has the path (`read_file_contained_iff`): an empty list of roots is no check, and no text but
that of the root directory itself begins with the text of the root directory and a slash.
-/

namespace Lumogis.ReadFile

open FileTree

/-! ## Texts of locations -/

/-- `"/" + "/".join(..)` of at least one name. -/
def joined (loc : Loc) : List Char := loc.flatMap fun n => '/' :: n.1

/-- `str` of a resolved path. -/
def locText (loc : Loc) : List Char := if loc = [] then ['/'] else joined loc

/-- The steps of the text of a resolved path. -/
def locSteps (loc : Loc) : List Step := loc.map .name

/-! ## The process -/

/-- No part of the location is a link. -/
def Plain (t : Tree) (loc : Loc) : Prop := ∀ part n, part ++ [n] <+: loc → ¬ t.IsLink (part ++ [n])

/-- The files, the working directory, which `getcwd` gives without links, the home directory of each user name
(nothing if there is none), and the bound on the links of one opening. -/
structure Process where
  tree : Tree
  cwd : Loc
  cwd_plain : Plain tree cwd
  home : List Char → Option (List Char)
  maxLinks : Nat

namespace Process

/-- `Path(path).resolve()`; nothing if it raises. -/
def resolvePath (p : Process) (path : List Char) : Option Loc :=
  if '\x00' ∈ path then none else resolve p.tree (FileTree.startOf p.cwd path) (steps path)

/-- Where a root begins after `Path(root).expanduser()`, and its steps. -/
def expandUser (p : Process) (root : List Char) : Option (Loc × List Step) :=
  match FileTree.startOf p.cwd root, (steps root).dropWhile fun s => decide (s = .stay) with
  | start, .name n :: rest =>
    if root.head? ≠ some '/' ∧ n.1.head? = some '~' then
      (p.home n.1.tail).map fun home => (FileTree.startOf p.cwd home, steps home ++ rest)
    else some (start, steps root)
  | start, _ => some (start, steps root)

/-- `Path(root).expanduser().resolve(strict=False)`. -/
def resolveRoot (p : Process) (root : List Char) : Option Loc :=
  if '\x00' ∈ root then none
  else (p.expandUser root).bind fun expanded => resolve p.tree expanded.1 expanded.2

/-- `.expanduser().resolve(strict=False)` of a path that is absolute. -/
def resolveAgain (p : Process) (loc : Loc) : Option Loc := resolve p.tree [] (locSteps loc)

/-- `_resolved_path_under_root`; nothing if it raises. -/
def resolvedPathUnderRoot (p : Process) (resolved : Loc) (root : List Char) : Option Bool :=
  (p.resolveRoot root).bind fun rootResolved =>
    (p.resolveAgain resolved).map fun pathResolved =>
      decide (locText pathResolved = locText rootResolved) ||
        (locText rootResolved ++ ['/']).isPrefixOf (locText pathResolved)

/-- The loop of `_resolved_path_under_any_root`. -/
def underAny (p : Process) (resolved : Loc) : List (List Char) → Option Bool
  | [] => some false
  | root :: rest =>
    match p.resolvedPathUnderRoot resolved root with
    | none => none
    | some true => some true
    | some false => underAny p resolved rest

def resolvedPathUnderAnyRoot (p : Process) (resolved : Loc) (roots : List (List Char)) : Option Bool :=
  if roots = [] then some false
  else (p.resolveAgain resolved).bind fun pathResolved => p.underAny pathResolved roots

/-- `open` of the path for reading finds this file. -/
def Opens (p : Process) (path : List Char) (loc : Loc) (content : List Char) : Prop :=
  '\x00' ∉ path ∧ walk p.tree p.maxLinks (FileTree.startOf p.cwd path) (steps path) = .ok loc ∧
    p.tree.lstat loc = some (.file content)

/-- What is opened and read, decoded; nothing for an exception. -/
def openText (p : Process) (path : List Char) : Option (List Char) :=
  if '\x00' ∈ path then none
  else
    match walk p.tree p.maxLinks (FileTree.startOf p.cwd path) (steps path) with
    | .error _ => none
    | .ok loc =>
      match p.tree.lstat loc with
      | some (.file content) => some content
      | _ => none

end Process

/-! ## The tool -/

inductive ReadAnswer where
  /-- The exception of a path or root that cannot be resolved. -/
  | raised
  /-- `Access denied: path is outside ingest roots`. -/
  | outside
  | content (text : List Char) (truncated : Bool)
  /-- The text of an exception. -/
  | error
  deriving DecidableEq

def readOpened (p : Process) (path : List Char) : ReadAnswer :=
  match p.openText path with
  | none => .error
  | some file => .content (file.take 3000) (decide (3000 ≤ (file.take 3000).length))

def readFile (p : Process) (roots : List (List Char)) (path : List Char) : ReadAnswer :=
  if roots = [] then readOpened p path
  else
    match p.resolvePath path with
    | none => .raised
    | some resolved =>
      match p.resolvedPathUnderAnyRoot resolved roots with
      | none => .raised
      | some false => .outside
      | some true => readOpened p path

/-- The location lies under one of the roots. -/
def UnderRoots (p : Process) (roots : List (List Char)) (loc : Loc) : Prop :=
  ∃ root ∈ roots, ∃ rootLoc, p.resolveRoot root = some rootLoc ∧ rootLoc <+: loc

/-- What is answered is content of a file under a root, and no path under a root is called outside. -/
structure Contained (p : Process) (roots : List (List Char)) (path : List Char) : Prop where
  inside : ∀ text truncated, readFile p roots path = .content text truncated →
    ∃ loc file, p.Opens path loc file ∧ text = file.take 3000 ∧ p.resolvePath path = some loc ∧
      UnderRoots p roots loc
  reached : ∀ loc, p.resolvePath path = some loc → UnderRoots p roots loc → readFile p roots path ≠ .outside

/-- There are roots, unless there is nothing to open; and where one of them is the root directory, another one
has the path, unless the path is the root directory or a root cannot be resolved. -/
def RootsReach (p : Process) (roots : List (List Char)) (path : List Char) : Prop :=
  (roots = [] → p.openText path = none) ∧
  ∀ loc, p.resolvePath path = some loc → loc ≠ [] → (∀ root ∈ roots, p.resolveRoot root ≠ none) →
    (∃ root ∈ roots, p.resolveRoot root = some []) →
    ∃ root ∈ roots, ∃ rootLoc, p.resolveRoot root = some rootLoc ∧ rootLoc ≠ [] ∧ rootLoc <+: loc

/-! ## Prefixes of texts -/

theorem joined_cons (n : Name) (loc : Loc) : joined (n :: loc) = '/' :: n.1 ++ joined loc := by
  simp [joined]

theorem joined_next (loc : Loc) : joined loc = [] ∨ ∃ rest, joined loc = '/' :: rest := by
  cases loc with
  | nil => exact .inl rfl
  | cons n loc => exact .inr ⟨_, joined_cons n loc⟩

theorem names_eq {n m : Name} {a b : List Char} (ha : a = [] ∨ ∃ rest, a = '/' :: rest)
    (hb : b = [] ∨ ∃ rest, b = '/' :: rest) (h : n.1 ++ a = m.1 ++ b) : n = m ∧ a = b := by
  have hname : ∀ (n : Name) (a : List Char), (a = [] ∨ ∃ rest, a = '/' :: rest) →
      (n.1 ++ a).takeWhile (· != '/') = n.1 := by
    intro n a ha
    have hall : ∀ c ∈ n.1, (c != '/') = true := by
      intro c hc
      have : c ≠ '/' := fun h => n.2.2 (h ▸ hc)
      simpa using this
    rw [List.takeWhile_append_of_pos hall]
    rcases ha with rfl | ⟨rest, rfl⟩ <;> simp
  have hnm : n.1 = m.1 := by
    rw [← hname n a ha, ← hname m b hb, h]
  rw [hnm] at h
  exact ⟨Subtype.ext hnm, List.append_cancel_left h⟩

theorem joined_inj {loc loc' : Loc} (h : joined loc = joined loc') : loc = loc' := by
  induction loc generalizing loc' with
  | nil =>
    cases loc' with
    | nil => rfl
    | cons m loc' =>
      rw [joined_cons] at h
      cases h
  | cons n loc ih =>
    cases loc' with
    | nil =>
      rw [joined_cons] at h
      cases h
    | cons m loc' =>
      rw [joined_cons, joined_cons] at h
      obtain ⟨rfl, hrest⟩ := names_eq (joined_next loc) (joined_next loc') (List.cons.inj h).2
      rw [ih hrest]

theorem joined_below_iff (root loc : Loc) :
    joined root ++ ['/'] <+: joined loc ↔ root <+: loc ∧ root ≠ loc := by
  induction root generalizing loc with
  | nil =>
    cases loc with
    | nil => simp [joined]
    | cons m loc => simp [joined]
  | cons n root ih =>
    cases loc with
    | nil => simp [joined]
    | cons m loc =>
      have hcons : joined (n :: root) ++ ['/'] <+: joined (m :: loc) ↔
          n = m ∧ joined root ++ ['/'] <+: joined loc := by
        rw [joined_cons, joined_cons]
        constructor
        · rintro ⟨tail, htail⟩
          have hnext : joined root ++ ['/'] ++ tail = [] ∨ ∃ rest, joined root ++ ['/'] ++ tail = '/' :: rest := by
            rcases joined_next root with hroot | ⟨rest, hroot⟩
            · exact .inr ⟨tail, by rw [hroot]; rfl⟩
            · exact .inr ⟨rest ++ ['/'] ++ tail, by rw [hroot]; rfl⟩
          have htexts : n.1 ++ (joined root ++ ['/'] ++ tail) = m.1 ++ joined loc := by
            have := (List.cons.inj htail).2
            simpa [List.append_assoc] using this
          obtain ⟨rfl, hrest⟩ := names_eq hnext (joined_next loc) htexts
          exact ⟨rfl, tail, hrest⟩
        · rintro ⟨rfl, tail, htail⟩
          refine ⟨tail, ?_⟩
          rw [← htail]
          simp [List.append_assoc]
      rw [hcons, ih, List.cons_prefix_cons]
      constructor
      · rintro ⟨rfl, hpre, hne⟩
        exact ⟨⟨rfl, hpre⟩, fun h => hne (List.cons.inj h).2⟩
      · rintro ⟨⟨rfl, hpre⟩, hne⟩
        exact ⟨rfl, hpre, fun h => hne (congrArg (n :: ·) h)⟩

theorem textUnder_iff (root loc : Loc) :
    (decide (locText loc = locText root) || (locText root ++ ['/']).isPrefixOf (locText loc)) = true ↔
      if root = [] then loc = [] else root <+: loc := by
  have hroot : ∀ loc : Loc, loc ≠ [] → joined loc ≠ ['/'] := by
    intro loc hne h
    cases loc with
    | nil => exact hne rfl
    | cons n loc =>
      rw [joined_cons] at h
      have hnil := (List.cons.inj h).2
      exact n.2.1 (List.append_eq_nil_iff.mp hnil).1
  rw [Bool.or_eq_true, decide_eq_true_eq, List.isPrefixOf_iff_prefix]
  by_cases hr : root = []
  · rw [if_pos hr]
    subst hr
    by_cases hl : loc = []
    · exact iff_of_true (.inl (by rw [hl])) hl
    · refine iff_of_false ?_ hl
      rintro (h | h)
      · rw [locText, if_neg hl] at h
        exact hroot loc hl h
      · -- The text of a location goes on with a name after its first slash.
        rw [locText, locText, if_neg hl, if_pos rfl] at h
        cases loc with
        | nil => exact hl rfl
        | cons n loc =>
          obtain ⟨n, hn⟩ := n
          cases n with
          | nil => exact hn.1 rfl
          | cons c n =>
            obtain ⟨tail, htail⟩ := h
            rw [joined_cons] at htail
            have hc : '/' = c := (List.cons.inj (List.cons.inj htail).2).1
            exact hn.2 (hc ▸ List.mem_cons_self)
  · rw [if_neg hr, locText, locText, if_neg hr]
    by_cases hl : loc = []
    · subst hl
      rw [if_pos rfl]
      refine iff_of_false ?_ fun h => hr (List.prefix_nil.mp h)
      rintro (h | h)
      · exact hroot root hr h.symm
      · have hlength := h.length_le
        cases root with
        | nil => exact hr rfl
        | cons n root =>
          rw [joined_cons] at hlength
          simp at hlength
    · rw [if_neg hl, joined_below_iff]
      constructor
      · rintro (h | h)
        · rw [joined_inj h]
        · exact h.1
      · intro h
        by_cases heq : root = loc
        · exact .inl (by rw [heq])
        · exact .inr ⟨h, heq⟩

/-! ## Resolved paths -/

section
variable {t : Tree} {loc : Loc}

theorem Plain.dropLast (h : Plain t loc) : Plain t loc.dropLast := by
  intro part n hpart
  exact h part n (hpart.trans (List.dropLast_prefix loc))

theorem Plain.concat (h : Plain t loc) {n : Name} (hn : ¬ t.IsLink (loc ++ [n])) : Plain t (loc ++ [n]) := by
  intro part m hpart
  rcases List.prefix_concat_iff.mp hpart with heq | hle
  · rwa [heq]
  · exact h part m hle

theorem plain_nil (t : Tree) : Plain t [] := by
  intro part n hpart
  have hlength := hpart.length_le
  simp at hlength

theorem plain_startOf {cwd : Loc} (h : Plain t cwd) (text : List Char) : Plain t (FileTree.startOf cwd text) := by
  simp only [FileTree.startOf]
  split
  · exact plain_nil t
  · exact h

theorem Resolves.plain {cur : Loc} {path : List Step} {k : Nat} (hr : FileTree.Resolves t cur path loc k)
    (h : Plain t cur) : Plain t loc := by
  induction hr with
  | nil => exact h
  | stay _ ih => exact ih h
  | up _ ih => exact ih h.dropLast
  | name hlink _ ih => exact ih (h.concat hlink)
  | link _ _ _ ihTarget ihRest => exact ihRest (ihTarget (plain_startOf h _))

theorem resolves_locSteps (h : Plain t loc) : FileTree.Resolves t [] (locSteps loc) loc 0 := by
  have hfrom : ∀ (rest before : Loc), Plain t (before ++ rest) →
      FileTree.Resolves t before (locSteps rest) (before ++ rest) 0 := by
    intro rest
    induction rest with
    | nil =>
      intro before _
      rw [List.append_nil]
      exact .nil before
    | cons n rest ih =>
      intro before hplain
      have hsplit : before ++ n :: rest = before ++ [n] ++ rest := by simp
      rw [hsplit] at hplain ⊢
      exact .name (hplain before n (List.prefix_append _ _)) (ih (before ++ [n]) hplain)
  exact hfrom loc [] h

end

section
variable {p : Process} {path : List Char} {loc : Loc} {roots : List (List Char)}

theorem resolvePath_resolves (h : p.resolvePath path = some loc) :
    '\x00' ∉ path ∧ ∃ k, FileTree.Resolves p.tree (FileTree.startOf p.cwd path) (steps path) loc k := by
  simp only [Process.resolvePath] at h
  split at h
  · cases h
  · rename_i hnul
    exact ⟨hnul, resolve_iff.mp h⟩

theorem resolveAgain_of (h : p.resolvePath path = some loc) : p.resolveAgain loc = some loc := by
  obtain ⟨-, k, hk⟩ := resolvePath_resolves h
  exact resolve_iff.mpr ⟨0, resolves_locSteps (Resolves.plain hk (plain_startOf p.cwd_plain path))⟩

theorem openText_iff {content : List Char} :
    p.openText path = some content ↔ ∃ loc, p.Opens path loc content := by
  simp only [Process.openText, Process.Opens]
  constructor
  · intro h
    split at h
    · cases h
    · rename_i hnul
      split at h
      · cases h
      · rename_i loc hwalk
        split at h
        · rename_i file hfile
          cases h
          exact ⟨loc, hnul, hwalk, hfile⟩
        · cases h
  · rintro ⟨loc, hnul, hwalk, hfile⟩
    rw [if_neg hnul, hwalk]
    simp only [hfile]

theorem opens_resolves {content : List Char} (h : p.Opens path loc content) : p.resolvePath path = some loc := by
  obtain ⟨hnul, hwalk, -⟩ := h
  rw [Process.resolvePath, if_neg hnul]
  exact resolve_iff.mpr (walk_resolves hwalk)

/-! ## The roots -/

theorem resolvedPathUnderRoot_of (h : p.resolveAgain loc = some loc) {root : List Char} {rootLoc : Loc}
    (hroot : p.resolveRoot root = some rootLoc) :
    ∃ b, p.resolvedPathUnderRoot loc root = some b ∧
      (b = true ↔ if rootLoc = [] then loc = [] else rootLoc <+: loc) := by
  refine ⟨_, ?_, textUnder_iff rootLoc loc⟩
  simp only [Process.resolvedPathUnderRoot, hroot, h, Option.bind_some, Option.map_some]

theorem resolvedPathUnderRoot_none {root : List Char} (hroot : p.resolveRoot root = none) :
    p.resolvedPathUnderRoot loc root = none := by
  rw [Process.resolvedPathUnderRoot, hroot, Option.bind_none]

theorem underAny_true (h : p.resolveAgain loc = some loc) (hany : p.underAny loc roots = some true) :
    UnderRoots p roots loc := by
  induction roots with
  | nil => cases hany
  | cons root rest ih =>
    simp only [Process.underAny] at hany
    cases hroot : p.resolveRoot root with
    | none =>
      rw [resolvedPathUnderRoot_none hroot] at hany
      cases hany
    | some rootLoc =>
      obtain ⟨b, hb, hiff⟩ := resolvedPathUnderRoot_of h hroot
      rw [hb] at hany
      cases b with
      | true =>
        refine ⟨root, List.mem_cons_self, rootLoc, hroot, ?_⟩
        have hunder := hiff.mp rfl
        split at hunder
        · rename_i hnil
          rw [hnil]
          exact List.nil_prefix
        · exact hunder
      | false =>
        obtain ⟨root', hroot', hunder⟩ := ih hany
        exact ⟨root', List.mem_cons_of_mem root hroot', hunder⟩

/-- `outside`: every root was resolved, and none but the root directory has the path. -/
theorem underAny_false_iff (h : p.resolveAgain loc = some loc) :
    p.underAny loc roots = some false ↔ ∀ root ∈ roots, ∃ rootLoc, p.resolveRoot root = some rootLoc ∧
      if rootLoc = [] then loc ≠ [] else ¬ rootLoc <+: loc := by
  induction roots with
  | nil => simp [Process.underAny]
  | cons root rest ih =>
    simp only [Process.underAny, List.forall_mem_cons]
    cases hroot : p.resolveRoot root with
    | none =>
      rw [resolvedPathUnderRoot_none hroot]
      simp
    | some rootLoc =>
      obtain ⟨b, hb, hiff⟩ := resolvedPathUnderRoot_of h hroot
      rw [hb]
      cases b with
      | true =>
        have hunder := hiff.mp rfl
        refine iff_of_false (by simp) ?_
        rintro ⟨⟨rootLoc', hsome, hnot⟩, -⟩
        obtain rfl := Option.some.inj hsome
        split at hunder
        · rename_i hnil
          rw [if_pos hnil] at hnot
          exact hnot hunder
        · rename_i hne
          rw [if_neg hne] at hnot
          exact hnot hunder
      | false =>
        have hnot : ¬ if rootLoc = [] then loc = [] else rootLoc <+: loc := by
          intro hunder
          exact absurd (hiff.mpr hunder) (by decide)
        rw [show (match some false with
          | none => none
          | some true => some true
          | some false => p.underAny loc rest) = p.underAny loc rest from rfl, ih]
        constructor
        · intro hrest
          refine ⟨⟨rootLoc, rfl, ?_⟩, hrest⟩
          split at hnot
          · rename_i hnil
            rw [if_pos hnil]
            exact hnot
          · rename_i hne
            rw [if_neg hne]
            exact hnot
        · exact fun hall => hall.2

theorem resolvedPathUnderAnyRoot_of (h : p.resolveAgain loc = some loc) (hroots : roots ≠ []) :
    p.resolvedPathUnderAnyRoot loc roots = p.underAny loc roots := by
  rw [Process.resolvedPathUnderAnyRoot, if_neg hroots, h, Option.bind_some]

theorem readFile_outside_iff (hloc : p.resolvePath path = some loc) (hroots : roots ≠ []) :
    readFile p roots path = .outside ↔ p.underAny loc roots = some false := by
  simp only [readFile, if_neg hroots, hloc, resolvedPathUnderAnyRoot_of (resolveAgain_of hloc) hroots]
  cases hany : p.underAny loc roots with
  | none => simp
  | some b =>
    cases b with
    | false => simp
    | true =>
      simp only [readOpened]
      split <;> simp

theorem readOpened_content {text : List Char} {truncated : Bool} (h : readOpened p path = .content text truncated) :
    ∃ loc file, p.Opens path loc file ∧ text = file.take 3000 := by
  simp only [readOpened] at h
  split at h
  · cases h
  · rename_i file hfile
    cases h
    obtain ⟨loc, hopens⟩ := openText_iff.mp hfile
    exact ⟨loc, file, hopens, rfl⟩

end

theorem read_file_contained_iff (p : Process) (roots : List (List Char)) (path : List Char) :
    Contained p roots path ↔ RootsReach p roots path := by
  constructor
  · intro h
    constructor
    · rintro rfl
      cases hopen : p.openText path with
      | none => rfl
      | some file =>
        have hread : readFile p [] path = .content (file.take 3000) (decide (3000 ≤ (file.take 3000).length)) := by
          simp only [readFile, if_true, readOpened, hopen]
        obtain ⟨-, -, -, -, -, root, hroot, -⟩ := h.inside _ _ hread
        cases hroot
    · intro loc hloc hne hresolved hslash
      obtain ⟨slash, hslash, hnil⟩ := hslash
      have hroots : roots ≠ [] := List.ne_nil_of_mem hslash
      have hunder : UnderRoots p roots loc := ⟨slash, hslash, [], hnil, List.nil_prefix⟩
      have hnot := (readFile_outside_iff hloc hroots).not.mp (h.reached loc hloc hunder)
      rw [underAny_false_iff (resolveAgain_of hloc)] at hnot
      by_contra hnone
      refine hnot fun root hroot => ?_
      obtain ⟨rootLoc, hrootLoc⟩ := Option.ne_none_iff_exists'.mp (hresolved root hroot)
      refine ⟨rootLoc, hrootLoc, ?_⟩
      split
      · exact hne
      · rename_i hrootNe
        exact fun hpre => hnone ⟨root, hroot, rootLoc, hrootLoc, hrootNe, hpre⟩
  · intro h
    constructor
    · intro text truncated hread
      by_cases hroots : roots = []
      · rw [readFile, if_pos hroots] at hread
        obtain ⟨loc, file, hopens, -⟩ := readOpened_content hread
        have hnone := h.1 hroots
        rw [openText_iff.mpr ⟨loc, hopens⟩] at hnone
        cases hnone
      · simp only [readFile, if_neg hroots] at hread
        split at hread
        · cases hread
        · rename_i loc hloc
          rw [resolvedPathUnderAnyRoot_of (resolveAgain_of hloc) hroots] at hread
          split at hread
          · cases hread
          · cases hread
          · rename_i hany
            obtain ⟨loc', file, hopens, htext⟩ := readOpened_content hread
            obtain rfl := Option.some.inj (hloc.symm.trans (opens_resolves hopens))
            exact ⟨loc, file, hopens, htext, hloc, underAny_true (resolveAgain_of hloc) hany⟩
    · intro loc hloc hunder houtside
      obtain ⟨root, hroot, rootLoc, hrootLoc, hpre⟩ := hunder
      have hroots : roots ≠ [] := List.ne_nil_of_mem hroot
      have hall := (underAny_false_iff (resolveAgain_of hloc)).mp ((readFile_outside_iff hloc hroots).mp houtside)
      -- Only the root directory is not seen to have the path.
      have hbelow : ∀ root ∈ roots, ∀ rootLoc, p.resolveRoot root = some rootLoc → rootLoc <+: loc →
          rootLoc = [] ∧ loc ≠ [] := by
        intro root hroot rootLoc hrootLoc hpre
        obtain ⟨rootLoc', hsome, hnot⟩ := hall root hroot
        obtain rfl := Option.some.inj (hrootLoc.symm.trans hsome)
        split at hnot
        · rename_i hnil
          exact ⟨hnil, hnot⟩
        · exact absurd hpre hnot
      obtain ⟨rfl, hne⟩ := hbelow root hroot rootLoc hrootLoc hpre
      have hresolved : ∀ root ∈ roots, p.resolveRoot root ≠ none := by
        intro root hroot hnone
        obtain ⟨rootLoc, hsome, -⟩ := hall root hroot
        rw [hnone] at hsome
        cases hsome
      obtain ⟨other, hother, otherLoc, hotherLoc, hotherNe, hotherPre⟩ :=
        h.2 loc hloc hne hresolved ⟨root, hroot, hrootLoc⟩
      exact hotherNe (hbelow other hother otherLoc hotherLoc hotherPre).1

/-- `/data/notes.md`, and a working directory at the root. -/
def oneFile : Process where
  tree := ⟨[([⟨"data".toList, by decide⟩], .dir),
    ([⟨"data".toList, by decide⟩, ⟨"notes.md".toList, by decide⟩], .file "Milk.".toList)]⟩
  cwd := []
  cwd_plain := plain_nil _
  home := fun _ => none
  maxLinks := 40

/-- The root directory is the ingest root, and its files are called outside. -/
theorem root_directory_not_reached : ¬ Contained oneFile ["/".toList] "/data/notes.md".toList := by
  intro h
  have hpath : oneFile.resolvePath "/data/notes.md".toList =
      some [⟨"data".toList, by decide⟩, ⟨"notes.md".toList, by decide⟩] := by decide +kernel
  have hroot : oneFile.resolveRoot "/".toList = some [] := by decide +kernel
  refine h.reached _ hpath ⟨"/".toList, List.mem_singleton_self _, [], hroot, List.nil_prefix⟩ ?_
  decide +kernel

end Lumogis.ReadFile
