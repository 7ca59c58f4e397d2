import Mathlib.Logic.Function.Basic
import TableRebuild.Plan

/-!
# A database to run statements on

A plan is data, and what it is for is only said by running it. This is a database with as much in it
as the four statements of a plan can tell apart: tables by folded name, each with its columns and
its rows, and rows with a value for each folded name of a column. What a value is does not matter,
and neither does how the database comes by the value of a column that a row is put in without; both
are parameters.

A statement either fails or gives the next database. The failures are those of a database that
checks names and nothing else: a table to be created or a name to be renamed to that is there
already, and a table or a column that is not there. A plan runs its statements in order, and fails
where one does.
-/

namespace TableRebuild

variable {V : Type}

/-- The values of a row, by folded names of columns. -/
abbrev Row (V : Type) := String → Option V

/-- A table as it is stored. -/
structure StoredTable (V : Type) where
  columns : List Column
  rows : List (Row V)

namespace StoredTable

def column? (t : StoredTable V) (key : String) : Option Column :=
  t.columns.find? (·.name.folded == key)

def hasColumn (t : StoredTable V) (n : Name) : Bool := (t.column? n.folded).isSome

/-- The row of `t` that is put in with the `listed` values of another row. The other columns get
    their defaults. -/
def fill (default : Column → V) (t : StoredTable V) (listed : List Name) (row : Row V) : Row V :=
  fun key =>
    match t.column? key with
    | none => none
    | some c => if listed.any (·.folded == key) then row key else some (default c)

end StoredTable

/-- Tables by folded name. -/
abbrev Database (V : Type) := String → Option (StoredTable V)

/-- Runs one statement, if the names in it allow it. -/
def Statement.run (default : Column → V) (db : Database V) : Statement → Option (Database V)
  | createTable name columns _ _ =>
    match db name.folded with
    | some _ => none
    | none => some (Function.update db name.folded (some ⟨columns, []⟩))
  | copyRows into source columns =>
    match db into.folded, db source.folded with
    | some new, some old =>
      if columns.all fun n => new.hasColumn n && old.hasColumn n then
        let rows := new.rows ++ old.rows.map (new.fill default columns)
        some (Function.update db into.folded (some { new with rows }))
      else none
    | _, _ => none
  | dropTable name =>
    match db name.folded with
    | some _ => some (Function.update db name.folded none)
    | none => none
  | renameTable source target =>
    match db source.folded, db target.folded with
    | some t, none =>
      some (Function.update (Function.update db source.folded none) target.folded (some t))
    | _, _ => none

/-- Runs the statements in order. -/
def Plan.run (default : Column → V) (db : Database V) (p : Plan) : Option (Database V) :=
  p.foldlM (Statement.run default) db

/-! ## One statement -/

section

variable {default : Column → V} {db : Database V}

theorem run_createTable {name : Name} (hfree : db name.folded = none) (columns : List Column)
    (constraints : List Fragment) (options : Fragment) :
    Statement.run default db (.createTable name columns constraints options) =
      some (Function.update db name.folded (some ⟨columns, []⟩)) := by
  simp only [Statement.run, hfree]

theorem run_copyRows {into source : Name} {columns : List Name} {new old : StoredTable V}
    (hinto : db into.folded = some new) (hsource : db source.folded = some old)
    (hcolumns : ∀ n ∈ columns, new.hasColumn n = true ∧ old.hasColumn n = true) :
    Statement.run default db (.copyRows into source columns) =
      some (Function.update db into.folded
        (some { new with rows := new.rows ++ old.rows.map (new.fill default columns) })) := by
  have hall : (columns.all fun n => new.hasColumn n && old.hasColumn n) = true := by
    rw [List.all_eq_true]
    intro n hn
    rw [(hcolumns n hn).1, (hcolumns n hn).2]
    rfl
  simp only [Statement.run, hinto, hsource, hall, ↓reduceIte]

theorem run_dropTable {name : Name} {t : StoredTable V} (hthere : db name.folded = some t) :
    Statement.run default db (.dropTable name) = some (Function.update db name.folded none) := by
  simp only [Statement.run, hthere]

theorem run_renameTable {source target : Name} {t : StoredTable V}
    (hsource : db source.folded = some t) (htarget : db target.folded = none) :
    Statement.run default db (.renameTable source target) =
      some (Function.update (Function.update db source.folded none) target.folded (some t)) := by
  simp only [Statement.run, hsource, htarget]

end

/-! ## Statements in order -/

@[simp] theorem Plan.run_nil (default : Column → V) (db : Database V) :
    run default db [] = some db := rfl

theorem Plan.run_cons {default : Column → V} {db db' : Database V} {s : Statement}
    (h : s.run default db = some db') (p : Plan) :
    run default db (s :: p) = run default db' p := by
  rw [run, List.foldlM_cons, h]
  rfl

end TableRebuild
