import TableRebuild.Plan
import TableRebuild.Table.Parse

/-!
# From two statements to a migration

The library in one call: given the statement that an existing table was created with and the one
that the table should have been created with, the SQL that leads from one to the other. The
statements have to run in order and should run in one transaction.
-/

namespace TableRebuild

inductive Side where
  | actual
  | target
deriving DecidableEq, Repr

/-- A statement that could not be read, and which of the two it is. -/
structure InputError where
  side : Side
  error : DefinitionError
deriving DecidableEq, Repr

namespace InputError

def message (e : InputError) : String :=
  let side := match e.side with
    | .actual => "actual"
    | .target => "target"
  s!"Failed to parse {side} table DDL: {e.error.message}"

end InputError

/-- The SQL that turns the table of one statement into the table of another. It is empty when the
    tables are equivalent; of two faulty statements the actual one is reported. -/
def migrationSql (actual target : String) : Except InputError (List String) := do
  let a ← (Table.parse actual).mapError fun e => ⟨.actual, e⟩
  let t ← (Table.parse target).mapError fun e => ⟨.target, e⟩
  return (Plan.between {} a t).sql

end TableRebuild
