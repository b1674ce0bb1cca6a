import Mathlib.Data.List.Infix
import Mathlib.Data.List.Nodup
import Mathlib.Data.List.Perm.Subperm
import Mathlib.Data.List.SplitOn

/-!
# Lib.FileTree

Trees of files with symbolic links. A location is the list of the names from the root. A text is read as
steps: stay, up, or into a name. `walk` follows the steps as an opening of the path does, strictly and with a
bound on the links; `resolve` follows them as far as there is something and keeps the rest, and gives up on a
link that leads back to itself.

`Resolves` says where the steps lead, whatever follows them; it is a function of the steps
(`Resolves.deterministic`). What `walk` finds is there (`walk_resolves`), and `resolve` finds exactly what is
there (`resolve_iff`): a link that is met while it is being followed would take more links than itself.
-/

namespace FileTree

/-- What can stand between two slashes and name something. -/
abbrev Name := { s : List Char // s ≠ [] ∧ '/' ∉ s }

/-- The names from the root. -/
abbrev Loc := List Name

inductive Step where
  | stay
  | up
  | name (n : Name)
  deriving DecidableEq

def toStep (piece : List Char) : Step :=
  if piece = [] ∨ piece = ['.'] then .stay
  else if piece = ['.', '.'] then .up
  else if h : piece ≠ [] ∧ '/' ∉ piece then .name ⟨piece, h⟩
  else .stay

/-- The steps of a path. A doubled or a trailing slash stays, like a dot. -/
def steps (text : List Char) : List Step := (text.splitOn '/').map toStep

/-- Where the steps of a path begin. -/
def startOf (cwd : Loc) (text : List Char) : Loc := if text.head? = some '/' then [] else cwd

inductive Node where
  | dir
  | file (content : List Char)
  | link (target : List Char)
  deriving DecidableEq

structure Tree where
  nodes : List (Loc × Node)

namespace Tree

/-- What is there, without following it. The root is a directory. -/
def lstat (t : Tree) (loc : Loc) : Option Node :=
  if loc = [] then some .dir else (t.nodes.find? fun n => decide (n.1 = loc)).map Prod.snd

def IsLink (t : Tree) (loc : Loc) : Prop := ∃ target, t.lstat loc = some (.link target)

end Tree

/-! ## Opening -/

inductive WalkError where
  | missing | notDirectory | tooManyLinks

/-- The steps up to the first link, which `follow` takes over. -/
def walkSteps (t : Tree) (follow : Loc → List Step → Except WalkError Loc) : Loc → List Step → Except WalkError Loc
  | cur, [] => .ok cur
  | cur, s :: rest =>
    if t.lstat cur ≠ some .dir then .error .notDirectory
    else
      match s with
      | .stay => walkSteps t follow cur rest
      | .up => walkSteps t follow cur.dropLast rest
      | .name n =>
        match t.lstat (cur ++ [n]) with
        | none => .error .missing
        | some (.link target) => follow (startOf cur target) (steps target ++ rest)
        | some _ => walkSteps t follow (cur ++ [n]) rest

/-- Opening a path, with at most so many links. -/
def walk (t : Tree) : Nat → Loc → List Step → Except WalkError Loc
  | 0 => walkSteps t fun _ _ => .error .tooManyLinks
  | links + 1 => walkSteps t (walk t links)

/-! ## Resolving -/

/-- The steps, with the links that `follow` resolves. -/
def resolveSteps (t : Tree) (follow : Loc → List Char → Option Loc) : Loc → List Step → Option Loc
  | cur, [] => some cur
  | cur, .stay :: rest => resolveSteps t follow cur rest
  | cur, .up :: rest => resolveSteps t follow cur.dropLast rest
  | cur, .name n :: rest =>
    match t.lstat (cur ++ [n]) with
    | some (.link target) => (follow (cur ++ [n]) target).bind fun mid => resolveSteps t follow mid rest
    | _ => resolveSteps t follow (cur ++ [n]) rest

/-- A link that is being followed already leads back to itself. Every level has one more of them. -/
def resolveFrom (t : Tree) : Nat → List Loc → Loc → List Step → Option Loc
  | 0, _ => resolveSteps t fun _ _ => none
  | levels + 1, following => resolveSteps t fun link target =>
    if following.any fun l => decide (l = link) then none
    else resolveFrom t levels (link :: following) (startOf link.dropLast target) (steps target)

def resolve (t : Tree) (cur : Loc) (path : List Step) : Option Loc := resolveFrom t t.nodes.length [] cur path

/-! ## Where the steps lead -/

/-- The steps lead to a location, over so many links. -/
inductive Resolves (t : Tree) : Loc → List Step → Loc → Nat → Prop where
  | nil (cur : Loc) : Resolves t cur [] cur 0
  | stay {cur loc : Loc} {rest : List Step} {k : Nat} : Resolves t cur rest loc k → Resolves t cur (.stay :: rest) loc k
  | up {cur loc : Loc} {rest : List Step} {k : Nat} :
    Resolves t cur.dropLast rest loc k → Resolves t cur (.up :: rest) loc k
  | name {cur loc : Loc} {n : Name} {rest : List Step} {k : Nat} : ¬ t.IsLink (cur ++ [n]) →
    Resolves t (cur ++ [n]) rest loc k → Resolves t cur (.name n :: rest) loc k
  | link {cur mid loc : Loc} {n : Name} {rest : List Step} {target : List Char} {j k : Nat} :
    t.lstat (cur ++ [n]) = some (.link target) → Resolves t (startOf cur target) (steps target) mid j →
    Resolves t mid rest loc k → Resolves t cur (.name n :: rest) loc (j + k + 1)

section
variable {t : Tree} {cur loc : Loc} {path : List Step} {k : Nat}

theorem Resolves.deterministic (h : Resolves t cur path loc k) {loc' : Loc} {k' : Nat}
    (h' : Resolves t cur path loc' k') : loc = loc' ∧ k = k' := by
  induction h generalizing loc' k' with
  | nil =>
    cases h'
    exact ⟨rfl, rfl⟩
  | stay _ ih =>
    cases h' with
    | stay h' => exact ih h'
  | up _ ih =>
    cases h' with
    | up h' => exact ih h'
  | name hlink _ ih =>
    cases h' with
    | name _ h' => exact ih h'
    | link hl => exact absurd ⟨_, hl⟩ hlink
  | link hl _ _ ihTarget ihRest =>
    cases h' with
    | name hlink => exact absurd ⟨_, hl⟩ hlink
    | link hl' htarget hrest =>
      cases hl.symm.trans hl'
      obtain ⟨rfl, rfl⟩ := ihTarget htarget
      obtain ⟨rfl, rfl⟩ := ihRest hrest
      exact ⟨rfl, rfl⟩

/-- Steps can be taken in two parts. -/
theorem Resolves.split {a b : List Step} (h : Resolves t cur (a ++ b) loc k) :
    ∃ mid i j, Resolves t cur a mid i ∧ Resolves t mid b loc j ∧ k = i + j := by
  induction a generalizing cur k with
  | nil => exact ⟨cur, 0, k, .nil cur, h, (Nat.zero_add k).symm⟩
  | cons s a ih =>
    cases h with
    | stay h =>
      obtain ⟨mid, i, j, ha, hb, hk⟩ := ih h
      exact ⟨mid, i, j, .stay ha, hb, hk⟩
    | up h =>
      obtain ⟨mid, i, j, ha, hb, hk⟩ := ih h
      exact ⟨mid, i, j, .up ha, hb, hk⟩
    | name hlink h =>
      obtain ⟨mid, i, j, ha, hb, hk⟩ := ih h
      exact ⟨mid, i, j, .name hlink ha, hb, hk⟩
    | @link _ _ _ n _ target l m hl htarget h =>
      obtain ⟨mid, i, j, ha, hb, hk⟩ := ih h
      exact ⟨mid, l + i + 1, j, .link hl htarget ha, hb, by omega⟩

/-! ## What an opening finds -/

theorem walkSteps_resolves {follow : Loc → List Step → Except WalkError Loc}
    (hfollow : ∀ cur path loc, follow cur path = .ok loc → ∃ k, Resolves t cur path loc k)
    (h : walkSteps t follow cur path = .ok loc) : ∃ k, Resolves t cur path loc k := by
  induction path generalizing cur with
  | nil =>
    cases h
    exact ⟨0, .nil _⟩
  | cons s rest ih =>
    simp only [walkSteps] at h
    split at h
    · cases h
    · cases s with
      | stay =>
        obtain ⟨k, hk⟩ := ih h
        exact ⟨k, .stay hk⟩
      | up =>
        obtain ⟨k, hk⟩ := ih h
        exact ⟨k, .up hk⟩
      | name n =>
        simp only at h
        split at h
        · cases h
        · rename_i target hl
          obtain ⟨k, hk⟩ := hfollow _ _ _ h
          obtain ⟨mid, i, j, htarget, hrest, -⟩ := hk.split
          exact ⟨i + j + 1, .link hl htarget hrest⟩
        · rename_i node hnot hnode
          obtain ⟨k, hk⟩ := ih h
          refine ⟨k, .name ?_ hk⟩
          rintro ⟨target, hl⟩
          exact hnot target (Option.some.inj (hnode.symm.trans hl))

theorem walk_resolves {links : Nat} (h : walk t links cur path = .ok loc) : ∃ k, Resolves t cur path loc k := by
  induction links generalizing cur path loc with
  | zero =>
    refine walkSteps_resolves ?_ h
    intro _ _ _ h
    cases h
  | succ links ih => exact walkSteps_resolves (fun _ _ _ h => ih h) h

/-! ## What resolving finds -/

theorem resolveSteps_sound {follow : Loc → List Char → Option Loc}
    (hfollow : ∀ link target mid, follow link target = some mid →
      ∃ k, Resolves t (startOf link.dropLast target) (steps target) mid k)
    (h : resolveSteps t follow cur path = some loc) : ∃ k, Resolves t cur path loc k := by
  induction path generalizing cur with
  | nil =>
    cases h
    exact ⟨0, .nil _⟩
  | cons s rest ih =>
    cases s with
    | stay =>
      obtain ⟨k, hk⟩ := ih h
      exact ⟨k, .stay hk⟩
    | up =>
      obtain ⟨k, hk⟩ := ih h
      exact ⟨k, .up hk⟩
    | name n =>
      simp only [resolveSteps] at h
      split at h
      · rename_i target hl
        obtain ⟨mid, hmid, hrest⟩ := Option.bind_eq_some_iff.mp h
        obtain ⟨j, hj⟩ := hfollow _ _ _ hmid
        obtain ⟨k, hk⟩ := ih hrest
        rw [List.dropLast_concat] at hj
        exact ⟨j + k + 1, .link hl hj hk⟩
      · rename_i hnot
        obtain ⟨k, hk⟩ := ih h
        refine ⟨k, .name ?_ hk⟩
        rintro ⟨target, hl⟩
        exact hnot target hl

theorem resolveFrom_sound {levels : Nat} {following : List Loc}
    (h : resolveFrom t levels following cur path = some loc) : ∃ k, Resolves t cur path loc k := by
  induction levels generalizing following cur path loc with
  | zero =>
    refine resolveSteps_sound ?_ h
    intro _ _ _ h
    cases h
  | succ levels ih =>
    refine resolveSteps_sound ?_ h
    intro link target mid hmid
    split at hmid
    · cases hmid
    · exact ih hmid

theorem mem_nodes_of_link (h : t.IsLink loc) : loc ∈ t.nodes.map Prod.fst := by
  obtain ⟨target, hl⟩ := h
  simp only [Tree.lstat] at hl
  split at hl
  · cases hl
  · obtain ⟨node, hnode, -⟩ := Option.map_eq_some_iff.mp hl
    have hfound := List.find?_some hnode
    exact of_decide_eq_true hfound ▸ List.mem_map_of_mem (List.mem_of_find?_eq_some hnode)

/-- The links that are being followed: each of them takes at least as many links as what is left. -/
structure Following (t : Tree) (following : List Loc) (k : Nat) : Prop where
  nodup : following.Nodup
  cost : ∀ link ∈ following, ∃ target mid j, t.lstat link = some (.link target) ∧
    Resolves t (startOf link.dropLast target) (steps target) mid j ∧ k ≤ j

theorem Following.mono {following : List Loc} {j : Nat} (h : Following t following k) (hj : j ≤ k) :
    Following t following j where
  nodup := h.nodup
  cost := by
    intro link hlink
    obtain ⟨target, mid, i, hl, hr, hi⟩ := h.cost link hlink
    exact ⟨target, mid, i, hl, hr, Nat.le_trans hj hi⟩

/-- With a level for every link that is not being followed, resolving does not give up. -/
theorem resolveFrom_complete (h : Resolves t cur path loc k) : ∀ levels following, Following t following k →
    t.nodes.length ≤ levels + following.length → resolveFrom t levels following cur path = some loc := by
  induction h with
  | nil =>
    intro levels following _ _
    cases levels <;> rfl
  | stay _ ih =>
    intro levels following hf hlevels
    have hrest := ih levels following hf hlevels
    cases levels <;> exact hrest
  | up _ ih =>
    intro levels following hf hlevels
    have hrest := ih levels following hf hlevels
    cases levels <;> exact hrest
  | @name cur loc n rest k hlink _ ih =>
    intro levels following hf hlevels
    have hrest := ih levels following hf hlevels
    have hnot : ∀ target, t.lstat (cur ++ [n]) ≠ some (.link target) := fun target hl => hlink ⟨target, hl⟩
    cases levels <;>
    · simp only [resolveFrom, resolveSteps] at hrest ⊢
      exact hrest
  | @link cur mid loc n rest target j k hl htarget _ ihTarget ihRest =>
    intro levels following hf hlevels
    have hrest := ihRest levels following (hf.mono (by omega)) hlevels
    -- Were it being followed, its target would take more links than itself.
    have hfresh : cur ++ [n] ∉ following := by
      intro hmem
      obtain ⟨target', mid', j', hl', hr', hj'⟩ := hf.cost _ hmem
      cases hl.symm.trans hl'
      rw [List.dropLast_concat] at hr'
      obtain ⟨-, rfl⟩ := htarget.deterministic hr'
      omega
    have hf' : Following t ((cur ++ [n]) :: following) j := by
      constructor
      · exact List.nodup_cons.mpr ⟨hfresh, hf.nodup⟩
      · intro link hlink
        rcases List.mem_cons.mp hlink with rfl | hlink
        · exact ⟨target, mid, j, hl, by rwa [List.dropLast_concat], Nat.le_refl j⟩
        · exact (hf.mono (by omega)).cost link hlink
    have hroom : ((cur ++ [n]) :: following).length ≤ t.nodes.length := by
      have hsub : (cur ++ [n]) :: following ⊆ t.nodes.map Prod.fst := by
        intro link hlink
        obtain ⟨target, mid, j, hl, -⟩ := hf'.cost link hlink
        exact mem_nodes_of_link ⟨target, hl⟩
      simpa using (hf'.nodup.subperm hsub).length_le
    cases levels with
    | zero =>
      simp only [List.length_cons] at hroom
      omega
    | succ levels =>
      have hmid := ihTarget levels ((cur ++ [n]) :: following) hf' (by simp only [List.length_cons]; omega)
      have hany : (following.any fun l => decide (l = cur ++ [n])) = false := by
        rw [List.any_eq_false]
        intro l hmem heq
        exact hfresh (of_decide_eq_true heq ▸ hmem)
      simp only [resolveFrom, resolveSteps, hl, hany, Bool.false_eq_true, if_false, List.dropLast_concat] at hrest ⊢
      rw [hmid, Option.bind_some]
      exact hrest

theorem resolve_iff : resolve t cur path = some loc ↔ ∃ k, Resolves t cur path loc k := by
  constructor
  · exact resolveFrom_sound
  · rintro ⟨k, hk⟩
    refine resolveFrom_complete hk _ _ ?_ (Nat.le_add_right _ _)
    constructor
    · exact List.nodup_nil
    · intro link hlink
      cases hlink

end

end FileTree
