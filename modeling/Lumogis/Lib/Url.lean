import Mathlib.Data.List.TakeWhile

/-!
# Lib.Url

The origin of an absolute URL, `scheme://authority`: the authority ends at the first `/`, `?` or
`#`. A path that is joined to a base URL does not leave the origin of the base (`origin_join`).
-/

namespace Url

def authorityChar (c : Char) : Bool := !(c == '/' || c == '?' || c == '#')

def origin (url : List Char) : Option (List Char × List Char) :=
  let scheme := url.takeWhile (· != ':')
  match url.dropWhile (· != ':') with
  | ':' :: '/' :: '/' :: rest =>
    let authority := rest.takeWhile authorityChar
    if authority = [] then none else some (scheme, authority)
  | _ => none

/-- `rstrip("/")`. -/
def rstripSlash (l : List Char) : List Char := (l.reverse.dropWhile (· == '/')).reverse

/-- The base without its last slashes, and the path. -/
def join (base path : List Char) : List Char := rstripSlash base ++ '/' :: path

/-- The text ends, or goes on with what ends an authority. -/
def EndsAuthority : List Char → Prop
  | [] => True
  | c :: _ => authorityChar c = false

theorem takeWhile_authority {a rest : List Char} (ha : ∀ c ∈ a, authorityChar c = true)
    (hrest : EndsAuthority rest) : (a ++ rest).takeWhile authorityChar = a := by
  induction a with
  | nil =>
    cases rest with
    | nil => rfl
    | cons c rest =>
      have hc : authorityChar c = false := hrest
      simp [hc]
  | cons c a ih =>
    have hc := ha c (by simp)
    simp [hc, ih fun d hd => ha d (by simp [hd])]

theorem origin_eq_some {url s a : List Char} : origin url = some (s, a) ↔
    ∃ rest, url = s ++ ':' :: '/' :: '/' :: (a ++ rest) ∧ (∀ c ∈ s, c ≠ ':') ∧
      (∀ c ∈ a, authorityChar c = true) ∧ a ≠ [] ∧ EndsAuthority rest := by
  constructor
  · intro h
    simp only [origin] at h
    split at h
    · rename_i rest hrest
      split at h
      · cases h
      · rename_i hne
        cases h
        refine ⟨rest.dropWhile authorityChar, ?_, fun c hc => ?_, fun c hc => ?_, hne, ?_⟩
        · rw [List.takeWhile_append_dropWhile, ← hrest, List.takeWhile_append_dropWhile]
        · simpa using List.mem_takeWhile_imp hc
        · exact List.mem_takeWhile_imp hc
        · cases hd : rest.dropWhile authorityChar with
          | nil => trivial
          | cons c t =>
            have hhead := List.head?_dropWhile_not authorityChar rest
            rw [hd] at hhead
            exact hhead
    · cases h
  · rintro ⟨rest, rfl, hs, ha, hne, hrest⟩
    have hscheme : ∀ c ∈ s, (c != ':') = true := fun c hc => by simp [hs c hc]
    have htake : (s ++ ':' :: '/' :: '/' :: (a ++ rest)).takeWhile (· != ':') = s := by
      rw [List.takeWhile_append_of_pos hscheme]
      simp
    have hdrop : (s ++ ':' :: '/' :: '/' :: (a ++ rest)).dropWhile (· != ':') =
        ':' :: '/' :: '/' :: (a ++ rest) := by
      rw [List.dropWhile_append_of_pos hscheme]
      simp
    simp only [origin, htake, hdrop, takeWhile_authority ha hrest, if_neg hne]

/-- The slashes that are stripped come after the last other character. -/
theorem rstripSlash_append {l rest : List Char} {c : Char} (hc : c ≠ '/') :
    rstripSlash (l ++ c :: rest) = l ++ c :: rstripSlash rest := by
  have hstop : (c :: l.reverse).dropWhile (· == '/') = c :: l.reverse := by simp [hc]
  have hsplit : (l ++ c :: rest).reverse = rest.reverse ++ c :: l.reverse := by simp
  rw [rstripSlash, hsplit, List.dropWhile_append, hstop]
  split
  · rename_i hempty
    have hnil : rest.reverse.dropWhile (· == '/') = [] := List.isEmpty_iff.mp hempty
    simp [rstripSlash, hnil]
  · simp [rstripSlash]

theorem rstripSlash_prefix (l : List Char) : ∃ slashes, l = rstripSlash l ++ slashes := by
  refine ⟨(l.reverse.takeWhile (· == '/')).reverse, ?_⟩
  rw [rstripSlash, ← List.reverse_append, List.takeWhile_append_dropWhile, List.reverse_reverse]

/-- What follows an authority still ends it when its slashes are stripped. -/
theorem rstripSlash_ends {rest tail : List Char} (h : EndsAuthority rest) (htail : EndsAuthority tail) :
    EndsAuthority (rstripSlash rest ++ tail) := by
  obtain ⟨slashes, hrest⟩ := rstripSlash_prefix rest
  cases hr : rstripSlash rest with
  | nil => exact htail
  | cons c t =>
    rw [hr] at hrest
    rw [hrest] at h
    exact h

theorem origin_rstripSlash_append {base tail : List Char} {o : List Char × List Char}
    (h : origin base = some o) (htail : EndsAuthority tail) :
    origin (rstripSlash base ++ tail) = some o := by
  obtain ⟨s, a⟩ := o
  obtain ⟨rest, rfl, hs, ha, hne, hrest⟩ := origin_eq_some.mp h
  refine origin_eq_some.mpr ⟨rstripSlash rest ++ tail, ?_, hs, ha, hne, rstripSlash_ends hrest htail⟩
  obtain ⟨a', c, rfl⟩ : ∃ a' c, a = a' ++ [c] :=
    ⟨a.dropLast, a.getLast hne, (List.dropLast_concat_getLast hne).symm⟩
  have hc : c ≠ '/' := by
    rintro rfl
    exact absurd (ha '/' (by simp)) (by decide)
  have hbase : s ++ ':' :: '/' :: '/' :: (a' ++ [c] ++ rest) =
      (s ++ ':' :: '/' :: '/' :: a') ++ c :: rest := by simp
  rw [hbase, rstripSlash_append hc]
  simp

theorem origin_rstripSlash {base : List Char} {o : List Char × List Char} (h : origin base = some o) :
    origin (rstripSlash base) = some o := by
  have hends : EndsAuthority [] := trivial
  have hnil := origin_rstripSlash_append h hends
  rwa [List.append_nil] at hnil

/-- A joined path stays on the origin of the base. -/
theorem origin_join {base path : List Char} {o : List Char × List Char} (h : origin base = some o) :
    origin (join base path) = some o :=
  origin_rstripSlash_append h rfl

end Url
