import Lumogis.Lib.Dict
import Lumogis.Lib.SortedByKey

/-!
# ArchivePruning

`_decide_pruning` and `prune_user_archives`: the newest archives of a user are kept up to a number, and of
the others those that are not too old. The decision splits the list, prunes nothing but archives older than
the cutoff, and keeps the newest ones and enough of them (`decide_pruning_exact`); of a directory, that
holds of the files that are left and removed (`prune_user_archives_exact`).

Timestamps are in any linear order; archives of one path have one timestamp, as files have.
-/

namespace Lumogis.ArchivePruning

open SortedByKey

variable {P T : Type} [LinearOrder T]

structure ArchiveMeta (P T : Type) where
  path : P
  mtime : T

/-! ## Newest first -/

/-- `sorted(archives, key=.., reverse=True)`; archives of one time stay in their order. -/
def byNewest (archives : List (ArchiveMeta P T)) : List (ArchiveMeta P T) :=
  sortByKey (fun a => OrderDual.toDual a.mtime) archives

theorem byNewest_perm (archives : List (ArchiveMeta P T)) : (byNewest archives).Perm archives :=
  sortByKey_perm archives

theorem byNewest_sorted (archives : List (ArchiveMeta P T)) :
    (byNewest archives).Pairwise fun a b => b.mtime ≤ a.mtime := by
  have hsorted : Sorted (fun a : ArchiveMeta P T => OrderDual.toDual a.mtime) (byNewest archives) :=
    sorted_sortByKey archives
  exact hsorted

/-- The paths of the first `n`. -/
def firstPaths (archives : List (ArchiveMeta P T)) (n : Nat) : List P :=
  ((byNewest archives).take n).map ArchiveMeta.path

theorem le_of_first {archives : List (ArchiveMeta P T)} {n : Nat} {a b : ArchiveMeta P T}
    (ha : a ∈ (byNewest archives).take n) (hb : b ∈ byNewest archives) (hlater : b.path ∉ firstPaths archives n) : b.mtime ≤ a.mtime := by
  have hsorted := byNewest_sorted archives
  rw [← List.take_append_drop n (byNewest archives), List.pairwise_append] at hsorted
  rw [← List.take_append_drop n (byNewest archives)] at hb
  rcases List.mem_append.mp hb with hfirst | hdrop
  · exact absurd (List.mem_map_of_mem hfirst) hlater
  · exact hsorted.2.2 a ha b hdrop

/-- `xs[:n]`. -/
def sliceTo {α : Type} (xs : List α) (n : Int) : List α :=
  xs.take (if 0 ≤ n then n.toNat else xs.length - (-n).toNat)

theorem sliceTo_eq {α : Type} (xs : List α) (n : Int) :
    ∃ m : Nat, sliceTo xs n = xs.take m ∧ min n xs.length ≤ (xs.take m).length := by
  refine ⟨_, rfl, ?_⟩
  rw [List.length_take]
  split <;> omega

/-! ## The code -/

inductive PruneReason where
  | withinKeepMin | overMaxAge | underMaxAge

def PruneReason.value : PruneReason → String
  | .withinKeepMin => "within_keep_min"
  | .overMaxAge => "over_max_age"
  | .underMaxAge => "under_max_age"

structure PruneDecision (P : Type) where
  keep : List P := []
  prune : List P := []
  reasonPerPath : Dict P PruneReason := Dict.empty

variable [DecidableEq P]

/-- One round of the loop. -/
def decideOne (keepSet : List P) (cutoff : T) (d : PruneDecision P) (arch : ArchiveMeta P T) : PruneDecision P :=
  if arch.path ∈ keepSet then
    { d with keep := d.keep ++ [arch.path], reasonPerPath := d.reasonPerPath.set arch.path .withinKeepMin }
  else if arch.mtime < cutoff then
    { d with prune := d.prune ++ [arch.path], reasonPerPath := d.reasonPerPath.set arch.path .overMaxAge }
  else
    { d with keep := d.keep ++ [arch.path], reasonPerPath := d.reasonPerPath.set arch.path .underMaxAge }

def decidePruning [Sub T] [IntCast T] (archives : List (ArchiveMeta P T)) (keepMin maxAgeDays : Int) (now : T) :
    PruneDecision P :=
  if archives.isEmpty then {}
  else
    let cutoff := now - ((maxAgeDays * 86400 : Int) : T)
    let keepSet := (sliceTo (byNewest archives) keepMin).map ArchiveMeta.path
    (byNewest archives).foldl (decideOne keepSet cutoff) {}

/-! ## The decision -/

/-- Archives of one path have one timestamp. -/
def OneStamp (archives : List (ArchiveMeta P T)) : Prop :=
  ∀ a ∈ archives, ∀ b ∈ archives, a.path = b.path → a.mtime = b.mtime

/-- The decision splits the archives, prunes only those older than the cutoff, and keeps the newest ones,
at least `keepMin` if there are as many. -/
structure PrunedExactly (archives : List (ArchiveMeta P T)) (keepMin : Int) (cutoff : T) (d : PruneDecision P) :
    Prop where
  all : (d.keep ++ d.prune).Perm (archives.map ArchiveMeta.path)
  apart : ∀ p ∈ d.keep, p ∉ d.prune
  old : ∀ a ∈ archives, a.path ∈ d.prune → a.mtime < cutoff
  enough : min keepMin archives.length ≤ d.keep.length
  newest : ∀ a ∈ archives, ∀ b ∈ archives, a.path ∈ d.keep → b.path ∈ d.prune → b.mtime ≤ a.mtime

/-- The archive is kept. -/
def kept (keepSet : List P) (cutoff : T) (arch : ArchiveMeta P T) : Bool :=
  decide (arch.path ∈ keepSet) || decide (cutoff ≤ arch.mtime)

theorem decideLoop_eq (keepSet : List P) (cutoff : T) (archives : List (ArchiveMeta P T)) (d : PruneDecision P) :
    (archives.foldl (decideOne keepSet cutoff) d).keep
        = d.keep ++ (archives.filter (kept keepSet cutoff)).map ArchiveMeta.path ∧
      (archives.foldl (decideOne keepSet cutoff) d).prune
        = d.prune ++ (archives.filter fun a => !kept keepSet cutoff a).map ArchiveMeta.path := by
  induction archives generalizing d with
  | nil => simp
  | cons a archives ih =>
    rw [List.foldl_cons, (ih _).1, (ih _).2]
    by_cases hset : a.path ∈ keepSet
    · simp [decideOne, kept, hset]
    · by_cases hold : a.mtime < cutoff
      · simp [decideOne, kept, hset, hold, not_le.mpr hold]
      · simp [decideOne, kept, hset, hold, not_lt.mp hold]

section Decision

variable {archives : List (ArchiveMeta P T)} {n : Nat} {cutoff : T}

theorem kept_newest (hstamp : OneStamp archives) {a b : ArchiveMeta P T} (ha : a ∈ archives) (hb : b ∈ archives)
    (hkept : kept (firstPaths archives n) cutoff a = true) (hpruned : kept (firstPaths archives n) cutoff b = false) :
    b.mtime ≤ a.mtime := by
  simp only [kept, Bool.or_eq_false_iff, decide_eq_false_iff_not, not_le] at hpruned
  simp only [kept, Bool.or_eq_true, decide_eq_true_eq] at hkept
  rcases hkept with hfirst | hnew
  · obtain ⟨c, hc, hpath⟩ := List.mem_map.mp hfirst
    have hmem : c ∈ archives := (byNewest_perm archives).mem_iff.mp (List.mem_of_mem_take hc)
    rw [hstamp a ha c hmem hpath.symm]
    exact le_of_first hc ((byNewest_perm archives).mem_iff.mpr hb) hpruned.1
  · exact hpruned.2.le.trans hnew

theorem kept_congr (hstamp : OneStamp archives) {keepSet : List P} {a b : ArchiveMeta P T} (ha : a ∈ archives)
    (hb : b ∈ archives) (hpath : a.path = b.path) : kept keepSet cutoff a = kept keepSet cutoff b := by
  rw [kept, kept, hpath, hstamp a ha b hb hpath]

theorem length_kept : ((byNewest archives).take n).length
    ≤ ((byNewest archives).filter (kept (firstPaths archives n) cutoff)).length := by
  have hall : ((byNewest archives).take n).filter (kept (firstPaths archives n) cutoff)
      = (byNewest archives).take n := by
    rw [List.filter_eq_self]
    intro a ha
    have hmem : a.path ∈ firstPaths archives n := List.mem_map_of_mem ha
    simp [kept, hmem]
  rw [← hall]
  exact ((List.take_sublist n _).filter _).length_le

end Decision

theorem decide_pruning_exact [Sub T] [IntCast T] (archives : List (ArchiveMeta P T)) (keepMin maxAgeDays : Int)
    (now : T) (hstamp : OneStamp archives) :
    PrunedExactly archives keepMin (now - ((maxAgeDays * 86400 : Int) : T))
      (decidePruning archives keepMin maxAgeDays now) := by
  by_cases hempty : archives = []
  · subst hempty
    refine ⟨List.Perm.refl _, by simp [decidePruning], by simp, by simp [decidePruning], by simp⟩
  obtain ⟨n, hslice, hn⟩ := sliceTo_eq (byNewest archives) keepMin
  generalize hcutoff : now - ((maxAgeDays * 86400 : Int) : T) = cutoff
  have hloop : decidePruning archives keepMin maxAgeDays now
      = (byNewest archives).foldl (decideOne (firstPaths archives n) cutoff) {} := by
    simp [decidePruning, firstPaths, hempty, hslice, hcutoff]
  have hmem : ∀ a, a ∈ byNewest archives ↔ a ∈ archives := fun a => (byNewest_perm archives).mem_iff
  have hkeep : (decidePruning archives keepMin maxAgeDays now).keep
      = ((byNewest archives).filter (kept (firstPaths archives n) cutoff)).map ArchiveMeta.path := by
    simp [hloop, (decideLoop_eq _ cutoff (byNewest archives) {}).1]
  have hprune : (decidePruning archives keepMin maxAgeDays now).prune
      = ((byNewest archives).filter fun a => !kept (firstPaths archives n) cutoff a).map ArchiveMeta.path := by
    simp [hloop, (decideLoop_eq _ cutoff (byNewest archives) {}).2]
  -- a path is kept, or pruned, if its archives are
  have hkept : ∀ a ∈ archives, a.path ∈ (decidePruning archives keepMin maxAgeDays now).keep →
      kept (firstPaths archives n) cutoff a = true := by
    intro a ha hpath
    rw [hkeep] at hpath
    obtain ⟨b, hb, hsame⟩ := List.mem_map.mp hpath
    obtain ⟨hb, hbkept⟩ := List.mem_filter.mp hb
    rwa [kept_congr hstamp ha ((hmem b).mp hb) hsame.symm]
  have hpruned : ∀ a ∈ archives, a.path ∈ (decidePruning archives keepMin maxAgeDays now).prune →
      kept (firstPaths archives n) cutoff a = false := by
    intro a ha hpath
    rw [hprune] at hpath
    obtain ⟨b, hb, hsame⟩ := List.mem_map.mp hpath
    obtain ⟨hb, hbpruned⟩ := List.mem_filter.mp hb
    rw [kept_congr hstamp ha ((hmem b).mp hb) hsame.symm]
    simpa using hbpruned
  constructor
  · rw [hkeep, hprune, ← List.map_append]
    exact ((List.filter_append_perm _ _).trans (byNewest_perm archives)).map _
  · intro p hpk hpp
    have hpath := hpk
    rw [hkeep] at hpath
    obtain ⟨a, ha, rfl⟩ := List.mem_map.mp hpath
    have ha := (hmem a).mp (List.mem_filter.mp ha).1
    exact Bool.noConfusion ((hkept a ha hpk).symm.trans (hpruned a ha hpp))
  · intro a ha hpath
    have hfalse := hpruned a ha hpath
    simp only [kept, Bool.or_eq_false_iff, decide_eq_false_iff_not, not_le] at hfalse
    exact hfalse.2
  · rw [hkeep, List.length_map]
    have hlen := (byNewest_perm archives).length_eq
    have hfirst : ((byNewest archives).take n).length
        ≤ ((byNewest archives).filter (kept (firstPaths archives n) cutoff)).length := length_kept
    rw [hlen] at hn
    omega
  · intro a ha b hb hak hbp
    exact kept_newest hstamp ha hb (hkept a ha hak) (hpruned b hb hbp)

/-- Two archives of one age and a floor of one: the first of them is kept, the other one pruned. -/
theorem decide_pruning_exact_two :
    PrunedExactly [⟨"a.zip", 0⟩, ⟨"b.zip", 0⟩] 1 (100 * 86400 - ((30 * 86400 : Int) : Int))
      (decidePruning [⟨"a.zip", 0⟩, ⟨"b.zip", (0 : Int)⟩] 1 30 (100 * 86400)) :=
  decide_pruning_exact _ 1 30 (100 * 86400) (by unfold OneStamp; decide)

example : (decidePruning [⟨"a.zip", 0⟩, ⟨"b.zip", (0 : Int)⟩] 1 30 (100 * 86400)).prune = ["b.zip"] := by decide

/-! ## The archives of a user -/

/-- The files of a directory, each with the timestamp that `stat` gives, if it gives one. -/
abbrev Listing (P T : Type) := Dict P (Option T)

structure PruneReceipt (P : Type) where
  userId : String
  archivesKept : Nat
  archivesPruned : Nat
  /-- `pruned_filenames`, as paths. -/
  pruned : List P
  keepMin : Int
  maxAgeDays : Int

/-- The archives that have a timestamp. -/
def archivesOf (dir : Listing P T) : List (ArchiveMeta P T) :=
  dir.items.filterMap fun file => file.2.map fun mtime => ⟨file.1, mtime⟩

/-- `prune_user_archives`: the receipt and the files that are left; `unlinks` are those that can be removed. -/
def pruneUserArchives [Sub T] [IntCast T] (userId : String) (dir : Listing P T) (keepMin maxAgeDays : Int) (now : T)
    (unlinks : P → Bool) : PruneReceipt P × Listing P T :=
  let decision := decidePruning (archivesOf dir) keepMin maxAgeDays now
  let pruned := decision.prune.filter unlinks
  ({ userId, archivesKept := decision.keep.length, archivesPruned := pruned.length, pruned, keepMin, maxAgeDays },
    dir.without fun path => decide (path ∈ pruned))

omit [LinearOrder T] in
theorem mem_archivesOf {dir : Listing P T} {a : ArchiveMeta P T} :
    a ∈ archivesOf dir ↔ dir.get? a.path = some (some a.mtime) := by
  rw [archivesOf, List.mem_filterMap, Dict.get?_eq_some_iff]
  constructor
  · rintro ⟨⟨path, mtime⟩, hfile, ha⟩
    obtain ⟨t, rfl, rfl⟩ := Option.map_eq_some_iff.mp ha
    exact hfile
  · intro hfile
    exact ⟨_, hfile, rfl⟩

omit [LinearOrder T] in
theorem archivesOf_oneStamp (dir : Listing P T) : OneStamp (archivesOf dir) := by
  intro a ha b hb hpath
  rw [mem_archivesOf] at ha hb
  rw [hpath, hb] at ha
  exact (Option.some.inj (Option.some.inj ha)).symm

/-- The decision keeps and prunes by one test. -/
theorem decidePruning_kept [Sub T] [IntCast T] (archives : List (ArchiveMeta P T)) (keepMin maxAgeDays : Int) (now : T) :
    ∃ keepSet, ∀ path,
      (path ∈ (decidePruning archives keepMin maxAgeDays now).keep ↔ ∃ a ∈ archives, a.path = path ∧
        kept keepSet (now - ((maxAgeDays * 86400 : Int) : T)) a = true) ∧
      (path ∈ (decidePruning archives keepMin maxAgeDays now).prune ↔ ∃ a ∈ archives, a.path = path ∧
        kept keepSet (now - ((maxAgeDays * 86400 : Int) : T)) a = false) := by
  by_cases hempty : archives = []
  · exact ⟨[], fun path => by simp [decidePruning, hempty]⟩
  · refine ⟨(sliceTo (byNewest archives) keepMin).map ArchiveMeta.path, fun path => ?_⟩
    have hmem : ∀ a, a ∈ byNewest archives ↔ a ∈ archives := fun a => (byNewest_perm archives).mem_iff
    simp [decidePruning, hempty, decideLoop_eq, hmem, and_assoc, and_left_comm, and_comm]

/-- Only old files are removed, and none that the decision keeps. -/
theorem prune_user_archives_exact [Sub T] [IntCast T] (userId : String) (dir : Listing P T) (keepMin maxAgeDays : Int)
    (now : T) (unlinks : P → Bool) {path : P} {stat : Option T} (hfile : dir.get? path = some stat) :
    ((pruneUserArchives userId dir keepMin maxAgeDays now unlinks).2.get? path = none →
        ∃ t, stat = some t ∧ t < now - ((maxAgeDays * 86400 : Int) : T)) ∧
      (path ∈ (decidePruning (archivesOf dir) keepMin maxAgeDays now).keep →
        (pruneUserArchives userId dir keepMin maxAgeDays now unlinks).2.get? path = some stat) := by
  obtain ⟨keepSet, hsplit⟩ := decidePruning_kept (archivesOf dir) keepMin maxAgeDays now
  obtain ⟨hkeep, hprune⟩ := hsplit path
  have hleft : (pruneUserArchives userId dir keepMin maxAgeDays now unlinks).2.get? path
      = if path ∈ (decidePruning (archivesOf dir) keepMin maxAgeDays now).prune.filter unlinks then none
        else some stat := by
    simp [pruneUserArchives, Dict.get?_without, hfile]
  rw [hleft]
  constructor
  · intro hgone
    have hpruned : path ∈ (decidePruning (archivesOf dir) keepMin maxAgeDays now).prune := by
      by_contra hnot
      rw [if_neg] at hgone
      · cases hgone
      · exact fun h => hnot (List.mem_filter.mp h).1
    obtain ⟨a, ha, rfl, hold⟩ := hprune.mp hpruned
    have hstat : some a.mtime = stat := Option.some.inj ((mem_archivesOf.mp ha).symm.trans hfile)
    simp only [kept, Bool.or_eq_false_iff, decide_eq_false_iff_not, not_le] at hold
    exact ⟨a.mtime, hstat.symm, hold.2⟩
  · intro hmem
    obtain ⟨a, ha, hpath, hkept⟩ := hkeep.mp hmem
    rw [if_neg]
    intro h
    obtain ⟨b, hb, hpath', hnot⟩ := hprune.mp (List.mem_filter.mp h).1
    rw [kept_congr (archivesOf_oneStamp dir) ha hb (hpath.trans hpath'.symm), hnot] at hkept
    cases hkept

namespace PruneExample

/-- Two archives of one second, and a directory that `stat` refuses. -/
def dir : Listing String Int := ((Dict.empty.set "a.zip" (some 0)).set "b.zip" (some 0)).set "c.zip" none

end PruneExample

open PruneExample in
theorem prune_user_archives_exact_dir :
    ((pruneUserArchives "ann" dir 1 30 (100 * 86400) fun _ => true).2.get? "b.zip" = none →
        ∃ t, some (0 : Int) = some t ∧ t < 100 * 86400 - ((30 * 86400 : Int) : Int)) ∧
      ("b.zip" ∈ (decidePruning (archivesOf dir) 1 30 (100 * 86400)).keep →
        (pruneUserArchives "ann" dir 1 30 (100 * 86400) fun _ => true).2.get? "b.zip" = some (some 0)) :=
  prune_user_archives_exact "ann" dir 1 30 (100 * 86400) _ (by decide)

end Lumogis.ArchivePruning
