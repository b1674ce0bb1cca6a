import Lumogis.Lib.PosixPath

/-!
# ArchiveNames

`_validate_zip_entry_names`: absolute names, names with a drive, NUL or `..` are bad. A name that is not
bad, joined to any root and normalised, is the root's normal form followed by the components of the name,
none of which goes up (`archive_names_contained`). It is the root itself if there are no components, as in
`.`, and names with the same components are the same file: the validator looks at one name at a time
(`validator_accepts_root_and_twins`).
-/

namespace Lumogis.ArchiveNames

open PosixPath

/-- One round of the loop. -/
def isBad (name : List Char) : Bool :=
  if name.isEmpty || name.contains '\x00' then true
  else if name.head? == some '/' || (decide (2 ≤ name.length) && name[1]? == some ':') then true
  else (parts name).any fun p => p == ['.', '.']

def validateZipEntryNames (names : List (List Char)) : List (List Char) := names.filter isBad

/-- Each name, joined to the root and normalised, is strictly under the root. -/
def AllUnder (root : List Char) (names : List (List Char)) : Prop :=
  ∀ name ∈ names, StrictlyUnder (normpath (join root name)) (normpath root)

/-- No two names are the same file. -/
def NoTwins (root : List Char) (names : List (List Char)) : Prop :=
  names.Pairwise fun a b => normpath (join root a) ≠ normpath (join root b)

theorem relative_of_not_bad {name : List Char} (h : isBad name = false) :
    name.head? ≠ some '/' ∧ ['.', '.'] ∉ comps name := by
  simp only [isBad] at h
  split at h
  · cases h
  · split at h
    · cases h
    · rename_i hrooted
      constructor
      · intro hslash
        simp [hslash] at hrooted
      · intro hup
        have hall := List.any_eq_false.mp h ['.', '.'] (List.mem_append_right _ hup)
        simp at hall

theorem mem_accepted {names : List (List Char)} (h : validateZipEntryNames names = []) {name : List Char}
    (hname : name ∈ names) : isBad name = false := by
  simpa using List.filter_eq_nil_iff.mp h name hname

theorem normpath_accepted (root : List Char) {name : List Char} (h : isBad name = false) :
    normpath (join root name) = (normpath root).down (comps name) := by
  obtain ⟨hrelative, hup⟩ := relative_of_not_bad h
  exact normpath_join root hrelative hup

theorem allUnder_iff (root : List Char) {names : List (List Char)} (h : validateZipEntryNames names = []) :
    AllUnder root names ↔ ∀ name ∈ names, comps name ≠ [] := by
  have hunder : ∀ name ∈ names,
      StrictlyUnder (normpath (join root name)) (normpath root) ↔ comps name ≠ [] := by
    intro name hname
    have hgood := mem_accepted h hname
    rw [normpath_accepted root hgood]
    exact strictlyUnder_down_iff (relative_of_not_bad hgood).2
  constructor
  · intro hall name hname
    exact (hunder name hname).mp (hall name hname)
  · intro hall name hname
    exact (hunder name hname).mpr (hall name hname)

theorem noTwins_iff (root : List Char) {names : List (List Char)} (h : validateZipEntryNames names = []) :
    NoTwins root names ↔ (names.map comps).Nodup := by
  rw [NoTwins, List.Nodup, List.pairwise_map]
  apply List.Pairwise.iff_of_mem
  intro a b ha hb
  rw [normpath_accepted root (mem_accepted h ha), normpath_accepted root (mem_accepted h hb), Ne,
    NormPath.down_inj]

/-- No accepted name escapes; strictly under the root are those with components, and the same file are those
with the same ones. -/
theorem archive_names_contained (root : List Char) (names : List (List Char))
    (h : validateZipEntryNames names = []) :
    (∀ name ∈ names, ['.', '.'] ∉ comps name ∧ normpath (join root name) = (normpath root).down (comps name)) ∧
      (AllUnder root names ↔ ∀ name ∈ names, comps name ≠ []) ∧
      (NoTwins root names ↔ (names.map comps).Nodup) := by
  refine ⟨?_, allUnder_iff root h, noTwins_iff root h⟩
  intro name hname
  have hgood := mem_accepted h hname
  exact ⟨(relative_of_not_bad hgood).2, normpath_accepted root hgood⟩

/-- Two names under a root that goes up. -/
theorem archive_names_contained_two :
    (∀ name ∈ [['m'], ['u', '/', 'a']],
      ['.', '.'] ∉ comps name ∧ normpath (join ['.', '.', '/'] name) = (normpath ['.', '.', '/']).down (comps name)) ∧
    (AllUnder ['.', '.', '/'] [['m'], ['u', '/', 'a']] ↔ ∀ name ∈ [['m'], ['u', '/', 'a']], comps name ≠ []) ∧
    (NoTwins ['.', '.', '/'] [['m'], ['u', '/', 'a']] ↔ ([['m'], ['u', '/', 'a']].map comps).Nodup) :=
  archive_names_contained ['.', '.', '/'] [['m'], ['u', '/', 'a']] (by decide)

/-- `.` is accepted and is the root; `a` and `./a` are accepted together and are one file. -/
theorem validator_accepts_root_and_twins :
    validateZipEntryNames [['.'], ['a'], ['.', '/', 'a']] = [] ∧
      ¬ AllUnder ['/', 'r'] [['.'], ['a'], ['.', '/', 'a']] ∧ ¬ NoTwins ['/', 'r'] [['.'], ['a'], ['.', '/', 'a']] := by
  have haccepted : validateZipEntryNames [['.'], ['a'], ['.', '/', 'a']] = [] := by decide
  rw [allUnder_iff _ haccepted, noTwins_iff _ haccepted]
  decide

end Lumogis.ArchiveNames
