import Lumogis.Lib.Labelled
import Mathlib.Data.List.Nodup
import Mathlib.Data.List.Flatten
import Mathlib.Data.Fintype.Basic
import Mathlib.Logic.Function.Basic

/-!
# Migrations

The migration runner of the boot: the `.sql` files in lexical order, each executed and recorded in
`schema_migrations` in one transaction, those that are recorded left out. A file may hold a `COMMIT` of its
own. It ends the transaction that psycopg2 has begun, and what follows it, the record included, is outside.
Any number of runners may be at work, and each may be stopped anywhere.

`migrations_applied_once`: the schema is what the recorded files make, each executed once, in the order of
the records, in every run in which a runner begins while no other is at work and none is stopped between a
file's own `COMMIT` and its record.
-/

namespace Lumogis.Migrations

open Labelled

variable {D ι : Type}

/-! ## Files -/

/-- A statement of a file, on a schema `D`; `ddl` has no result where Postgres refuses it. -/
inductive SqlStmt (D : Type) where
  | begin
  | commit
  | ddl (run : D → Option D)

structure Migration (D : Type) where
  name : String
  /-- The beginning of its SHA-256. -/
  checksum : String
  stmts : List (SqlStmt D)

/-- Statements of one transaction. -/
abbrev Block (D : Type) := List (D → Option D)

def runBlock (block : Block D) (schema : D) : Option D := block.foldlM (fun d f => f d) schema

/-- The transactions that statements commit themselves, and what they leave in the open one. `explicit`: a
transaction is open; otherwise what is not committed yet is committed at the end of the string. `BEGIN` in
an open transaction does nothing. -/
def split : (explicit : Bool) → Block D → List (SqlStmt D) → List (Block D) × Block D
  | true, block, [] => ([], block)
  | false, [], [] => ([], [])
  | false, f :: block, [] => ([f :: block], [])
  | _, block, .begin :: stmts => split true block stmts
  | _, block, .commit :: stmts => (block :: (split false [] stmts).1, (split false [] stmts).2)
  | explicit, block, .ddl f :: stmts => split explicit (block ++ [f]) stmts

/-- The transactions of its own. -/
def Migration.blocks (m : Migration D) : List (Block D) := (split true [] m.stmts).1

/-- What is executed in the transaction of the record. -/
def Migration.last (m : Migration D) : Block D := (split true [] m.stmts).2

/-- The file's statements, one after another. -/
def Migration.ddl (m : Migration D) : Block D :=
  m.stmts.filterMap fun
    | .ddl f => some f
    | _ => none

/-! ## Runners -/

structure Db (D : Type) where
  schema : D
  /-- The rows of `schema_migrations`: the file's name and its checksum. -/
  records : List (String × String)

def Db.isApplied (db : Db D) (name : String) : Bool := db.records.any (·.1 = name)

/-- `_record`: `ON CONFLICT (filename) DO NOTHING`. -/
def Db.record (db : Db D) (m : Migration D) : Db D :=
  if db.isApplied m.name then db else { db with records := db.records ++ [(m.name, m.checksum)] }

/-- A call of `main`: the files that were not applied when it looked, from the one it is at, and how many
transactions of this one are committed. -/
structure Runner (D : Type) where
  todo : List (Migration D)
  committed : Nat

/-- The next transaction of the runner. It is over when no file is left, and when Postgres refuses a
statement: what is not committed is rolled back. -/
def Runner.next (r : Runner D) (db : Db D) : Db D × Option (Runner D) :=
  match r.todo with
  | [] => (db, none)
  | m :: rest =>
    match m.blocks[r.committed]? with
    | some block =>
      match runBlock block db.schema with
      | some schema => ({ db with schema := schema }, some { r with committed := r.committed + 1 })
      | none => (db, none)
    | none =>
      match runBlock m.last db.schema with
      | some schema => (Db.record { db with schema := schema } m, some { todo := rest, committed := 0 })
      | none => (db, none)

structure System (D ι : Type) where
  db : Db D
  runner : ι → Option (Runner D)

inductive Act (D ι : Type) where
  /-- `main` looks for what is applied; `files` are those of the directory. -/
  | boot (i : ι) (files : List (Migration D))
  | next (i : ι)
  /-- The runner is stopped, or loses its connection. -/
  | stop (i : ι)

section Steps

variable [DecidableEq ι]

def step : Act D ι → System D ι → Option (System D ι)
  | .boot i files, s =>
    if (s.runner i).isNone ∧ files.Pairwise fun m m' => m.name < m'.name then
      some { s with
        runner := Function.update s.runner i
          (some { todo := files.filter fun m => !s.db.isApplied m.name, committed := 0 }) }
    else none
  | .next i, s => (s.runner i).map fun r =>
      { db := (r.next s.db).1, runner := Function.update s.runner i (r.next s.db).2 }
  | .stop i, s => (s.runner i).map fun _ => { s with runner := Function.update s.runner i none }

/-- A runner begins alone, and none is over while only a part of a file is committed. -/
def Keeps : Act D ι → System D ι → Prop
  | .boot _ _, s => ∀ j, s.runner j = none
  | .next i, s => ∀ r ∈ s.runner i, (r.next s.db).2 = none → r.committed = 0
  | .stop i, s => ∀ r ∈ s.runner i, r.committed = 0

end Steps

/-- A schema before the first boot, without records. -/
def fresh (schema : D) : System D ι := { db := { schema := schema, records := [] }, runner := fun _ => none }

/-! ## Splitting -/

theorem split_flatten (explicit : Bool) (block : Block D) (stmts : List (SqlStmt D)) :
    (split explicit block stmts).1.flatten ++ (split explicit block stmts).2 =
      block ++ Migration.ddl { name := "", checksum := "", stmts := stmts } := by
  induction stmts generalizing explicit block with
  | nil => cases explicit <;> cases block <;> simp [split, Migration.ddl]
  | cons stmt stmts ih =>
    cases stmt with
    | begin =>
      have h := ih true block
      cases explicit <;> cases block <;> simpa [split, Migration.ddl] using h
    | commit =>
      have h := ih false []
      have hsplit : split explicit block (.commit :: stmts) =
          (block :: (split false [] stmts).1, (split false [] stmts).2) := by
        cases explicit <;> cases block <;> rfl
      rw [hsplit, List.flatten_cons, List.append_assoc, h]
      simp [Migration.ddl]
    | ddl f =>
      have h := ih explicit (block ++ [f])
      have hsplit : split explicit block (.ddl f :: stmts) = split explicit (block ++ [f]) stmts := by
        cases explicit <;> cases block <;> rfl
      rw [hsplit, h]
      simp [Migration.ddl]

/-- The transactions make up the file. -/
theorem Migration.blocks_last (m : Migration D) : m.blocks.flatten ++ m.last = m.ddl := split_flatten true [] m.stmts

theorem runBlock_append (a b : Block D) (schema : D) :
    runBlock (a ++ b) schema = (runBlock a schema).bind (runBlock b) := List.foldlM_append

/-! ## The files that are done -/

/-- The schema is what the recorded files make of the first one. -/
structure Migrated (init : D) (db : Db D) (done : List (Migration D)) (schema : D) : Prop where
  records : db.records = done.map fun m => (m.name, m.checksum)
  distinct : (done.map Migration.name).Nodup
  schema : done.foldlM (fun d m => runBlock m.ddl d) init = some schema

theorem Migrated.isApplied_iff {init schema : D} {db : Db D} {done : List (Migration D)}
    (h : Migrated init db done schema) (name : String) : db.isApplied name = true ↔ name ∈ done.map Migration.name := by
  rw [Db.isApplied, h.records]
  simp [List.any_map, List.mem_map]

/-- What the runner has left, of files that are not done, and of the one that it is at. -/
structure Progress (done : List (Migration D)) (base schema : D) (r : Runner D) : Prop where
  todo : (r.todo.map Migration.name).Nodup
  new : ∀ m ∈ r.todo, m.name ∉ done.map Migration.name
  idle : r.todo = [] → r.committed = 0
  committed : ∀ m ∈ r.todo.head?, runBlock (m.blocks.take r.committed).flatten base = some schema
  start : r.committed = 0 → schema = base

/-- At most one runner is at work. -/
def Sound (init : D) (s : System D ι) : Prop :=
  ∃ done base, Migrated init s.db done base ∧
    ((s.db.schema = base ∧ ∀ i, s.runner i = none) ∨
      ∃ i r, s.runner i = some r ∧ (∀ j, j ≠ i → s.runner j = none) ∧ Progress done base s.db.schema r)

theorem name_ne_of_lt {m m' : Migration D} (h : m.name < m'.name) : m.name ≠ m'.name := by
  intro heq
  rw [heq] at h
  exact String.lt_irrefl _ h

theorem Runner.next_sound {init base : D} {db : Db D} {done : List (Migration D)} {r : Runner D}
    (hm : Migrated init db done base) (hp : Progress done base db.schema r)
    (hk : (r.next db).2 = none → r.committed = 0) :
    ∃ done' base', Migrated init (r.next db).1 done' base' ∧
      ((r.next db).2 = none → (r.next db).1.schema = base') ∧
      ∀ r' ∈ (r.next db).2, Progress done' base' (r.next db).1.schema r' := by
  -- a run that is over leaves nothing behind
  have hover : (r.next db).2 = none → (r.next db).1 = db → ∃ done' base', Migrated init (r.next db).1 done' base' ∧
      ((r.next db).2 = none → (r.next db).1.schema = base') ∧
      ∀ r' ∈ (r.next db).2, Progress done' base' (r.next db).1.schema r' := by
    intro hnone hdb
    rw [hdb, hnone]
    exact ⟨done, base, hm, fun _ => hp.start (hk hnone), fun r' hr' => by cases hr'⟩
  cases htodo : r.todo with
  | nil => exact hover (by simp [Runner.next, htodo]) (by simp [Runner.next, htodo])
  | cons m rest =>
    have hhead := hp.committed m (by rw [htodo]; rfl)
    have hnodup := hp.todo
    rw [htodo, List.map_cons, List.nodup_cons] at hnodup
    cases hblock : m.blocks[r.committed]? with
    | some block =>
      cases hrun : runBlock block db.schema with
      | none => exact hover (by simp [Runner.next, htodo, hblock, hrun]) (by simp [Runner.next, htodo, hblock, hrun])
      | some schema =>
        have hnext : r.next db =
            ({ db with schema := schema }, some { r with committed := r.committed + 1 }) := by
          simp [Runner.next, htodo, hblock, hrun]
        rw [hnext]
        refine ⟨done, base, ⟨hm.records, hm.distinct, hm.schema⟩, nofun, fun r' hr' => ?_⟩
        cases hr'
        refine ⟨hp.todo, hp.new, fun h => ?_, fun m' hm' => ?_, nofun⟩
        · rw [htodo] at h
          cases h
        · rw [htodo] at hm'
          cases hm'
          rw [List.take_add_one, hblock, List.flatten_append, runBlock_append, hhead]
          simpa using hrun
    | none =>
      cases hrun : runBlock m.last db.schema with
      | none => exact hover (by simp [Runner.next, htodo, hblock, hrun]) (by simp [Runner.next, htodo, hblock, hrun])
      | some schema =>
        have hnext : r.next db = (Db.record { db with schema := schema } m, some { todo := rest, committed := 0 }) := by
          simp [Runner.next, htodo, hblock, hrun]
        have hnew : m.name ∉ done.map Migration.name := hp.new m (by rw [htodo]; exact List.mem_cons_self)
        have hunapplied : Db.isApplied { db with schema := schema } m.name = false := by
          rw [← Bool.not_eq_true]
          exact fun h => hnew ((hm.isApplied_iff m.name).mp h)
        have hrecord : Db.record { db with schema := schema } m =
            { schema := schema, records := db.records ++ [(m.name, m.checksum)] } := by
          rw [Db.record, hunapplied]
          rfl
        -- all of the file's transactions are committed, so the last one completes it
        have hfile : runBlock m.ddl base = some schema := by
          have hall : m.blocks.take r.committed = m.blocks := List.take_of_length_le (List.getElem?_eq_none_iff.mp hblock)
          rw [hall] at hhead
          rw [← m.blocks_last, runBlock_append, hhead]
          exact hrun
        rw [hnext, hrecord]
        refine ⟨done ++ [m], schema, ⟨?_, ?_, ?_⟩, nofun, fun r' hr' => ?_⟩
        · rw [List.map_append, ← hm.records]
          rfl
        · rw [List.map_append]
          refine List.Nodup.append hm.distinct (List.nodup_singleton _) fun x hx hx' => ?_
          rw [List.map_cons, List.map_nil, List.mem_singleton] at hx'
          exact hnew (hx' ▸ hx)
        · rw [List.foldlM_append, hm.schema]
          simpa using hfile
        · cases hr'
          refine ⟨hnodup.2, fun m' hm' hmem => ?_, fun _ => rfl, fun m' _ => rfl, fun _ => rfl⟩
          rw [List.map_append, List.mem_append] at hmem
          rcases hmem with hold | hlast
          · exact hp.new m' (by rw [htodo]; exact List.mem_cons_of_mem m hm') hold
          · rw [List.map_cons, List.map_nil, List.mem_singleton] at hlast
            exact hnodup.1 (hlast ▸ List.mem_map_of_mem hm')

section Steps

variable [DecidableEq ι] {init : D} {s s' : System D ι}

theorem Sound.step {act : Act D ι} (h : Sound init s) (hk : Keeps act s) (hstep : step act s = some s') :
    Sound init s' := by
  obtain ⟨done, base, hm, hcases⟩ := h
  cases act with
  | boot i files =>
    have hidle : s.db.schema = base := by
      rcases hcases with hidle | ⟨j, r, hj, -, -⟩
      · exact hidle.1
      · rw [hk j] at hj
        cases hj
    simp only [Migrations.step] at hstep
    split at hstep
    · rename_i hguard
      cases hstep
      refine ⟨done, base, hm, Or.inr ⟨i, _, Function.update_self .., fun j hj => ?_, ?_⟩⟩
      · exact (Function.update_of_ne hj ..).trans (hk j)
      · have hnodup : (files.map Migration.name).Nodup :=
          List.pairwise_map.mpr (hguard.2.imp name_ne_of_lt)
        refine ⟨(List.filter_sublist.map _).nodup hnodup, fun m hm' hmem => ?_, fun _ => rfl, fun _ _ => ?_, fun _ => hidle⟩
        · have happlied := (hm.isApplied_iff m.name).mpr hmem
          simpa [happlied] using (List.mem_filter.mp hm').2
        · rw [hidle]
          rfl
    · cases hstep
  | next i =>
    obtain ⟨r, hr, rfl⟩ := Option.map_eq_some_iff.mp hstep
    rcases hcases with ⟨-, hnone⟩ | ⟨j, r', hj, hothers, hp⟩
    · rw [hnone i] at hr
      cases hr
    · have hij : i = j := by
        by_contra hne
        rw [hothers i hne] at hr
        cases hr
      subst hij
      have hsame : r' = r := Option.some.inj (hj.symm.trans hr)
      subst hsame
      obtain ⟨done', base', hm', hover, hgoes⟩ := r'.next_sound hm hp (hk r' hj)
      refine ⟨done', base', hm', ?_⟩
      cases hnext : (r'.next s.db).2 with
      | none =>
        refine Or.inl ⟨hover hnext, fun k => ?_⟩
        by_cases hki : k = i
        · rw [hki]
          exact Function.update_self ..
        · exact (Function.update_of_ne hki ..).trans (hothers k hki)
      | some next =>
        refine Or.inr ⟨i, next, Function.update_self .., fun k hki => ?_, hgoes next hnext⟩
        exact (Function.update_of_ne hki ..).trans (hothers k hki)
  | stop i =>
    obtain ⟨r, hr, rfl⟩ := Option.map_eq_some_iff.mp hstep
    rcases hcases with ⟨-, hnone⟩ | ⟨j, r', hj, hothers, hp⟩
    · rw [hnone i] at hr
      cases hr
    · have hij : i = j := by
        by_contra hne
        rw [hothers i hne] at hr
        cases hr
      subst hij
      have hsame : r' = r := Option.some.inj (hj.symm.trans hr)
      subst hsame
      refine ⟨done, base, hm, Or.inl ⟨hp.start (hk r' hj), fun k => ?_⟩⟩
      by_cases hki : k = i
      · rw [hki]
        exact Function.update_self ..
      · exact (Function.update_of_ne hki ..).trans (hothers k hki)

/-- Between the runs the schema is what the recorded files make, each executed once, in the order of the
records. -/
theorem migrations_applied_once (hrun : Reaches step Keeps (fresh init) s) (hidle : ∀ i, s.runner i = none) :
    ∃ done : List (Migration D), s.db.records = (done.map fun m => (m.name, m.checksum)) ∧
      (done.map Migration.name).Nodup ∧ done.foldlM (fun d m => runBlock m.ddl d) init = some s.db.schema := by
  have hsound : Sound init s := by
    refine hrun.invariant ⟨[], init, ⟨rfl, List.nodup_nil, rfl⟩, Or.inl ⟨rfl, fun _ => rfl⟩⟩ ?_
    intro act t t' ht hk hstep
    exact ht.step hk hstep
  obtain ⟨done, base, hm, hcases⟩ := hsound
  rcases hcases with ⟨hbase, -⟩ | ⟨i, r, hr, -, -⟩
  · exact ⟨done, hm.records, hm.distinct, hbase ▸ hm.schema⟩
  · rw [hidle i] at hr
    cases hr

end Steps

/-! ## Two runs -/

instance [DecidableEq ι] [Fintype ι] : (act : Act D ι) → (s : System D ι) → Decidable (Keeps act s)
  | .boot _ _, s => inferInstanceAs (Decidable (∀ j, s.runner j = none))
  | .next i, s => inferInstanceAs (Decidable (∀ r ∈ s.runner i, (r.next s.db).2 = none → r.committed = 0))
  | .stop i, s => inferInstanceAs (Decidable (∀ r ∈ s.runner i, r.committed = 0))

namespace MigrationExample

/-- A counter of the statements: `013` commits itself, `020` does not. -/
def scopes : Migration Nat := ⟨"013-memory-scopes.sql", "a", [.begin, .ddl fun d => some (d + 1), .commit]⟩

def captures : Migration Nat := ⟨"020-captures.sql", "b", [.ddl fun d => some (d + 10)]⟩

def boots : List (Act Nat Unit) :=
  [.boot () [scopes], .next (), .next (), .next (), .boot () [scopes, captures], .next (), .next ()]

end MigrationExample

open MigrationExample in
theorem migrations_applied_once_boots :
    ∃ done : List (Migration Nat),
      (runTo step boots (fresh 0)).db.records = (done.map fun m => (m.name, m.checksum)) ∧
      (done.map Migration.name).Nodup ∧
      done.foldlM (fun d m => runBlock m.ddl d) 0 = some (runTo step boots (fresh 0)).db.schema :=
  migrations_applied_once (reaches_runTo (by decide +kernel) (by decide +kernel)) (by decide +kernel)

open MigrationExample in
/-- A stop between the file's own commit and the record: the next boot executes it again. -/
example : (runTo step [.boot () [scopes], .next (), .stop (), .boot () [scopes], .next (), .next ()]
    (fresh 0 : System Nat Unit)).db.schema = 2 := by decide

end Lumogis.Migrations
