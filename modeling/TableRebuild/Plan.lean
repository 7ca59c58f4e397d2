import TableRebuild.Delta
import TableRebuild.Statement

/-!
# Rebuilding a table

The database cannot change a table's columns and constraints in place, so whatever the difference
is, the table is rebuilt: create the target table under a temporary name, copy the columns that
both tables have, drop the actual table, and give the new one the target's name. Nothing of the
old table is touched before the copy is made.

Two equivalent tables need no plan, and theirs is empty.
-/

namespace TableRebuild

/-- Statements in the order in which they have to run. -/
abbrev Plan := List Statement

structure RebuildOptions where
  /-- What the temporary name has in front of the target's name. -/
  tempPrefix : String := "__temp_"
  copyRows : Bool := true
deriving DecidableEq, Repr

namespace Plan

def sql (p : Plan) : List String := p.map Statement.sql

/-- The statements that rebuild `actual` as `target`, carrying over the columns that `delta` says
    both have. Where there are none, there is nothing to copy. -/
def rebuild (o : RebuildOptions) (actual target : Table) (delta : Delta) : Plan :=
  let temp := target.name.prepend o.tempPrefix
  let copy : Plan :=
    if o.copyRows && !delta.shared.isEmpty then [.copyRows temp actual.name delta.shared] else []
  [.createTable temp target.columns target.constraints target.options] ++ copy ++
    [.dropTable actual.name, .renameTable temp target.name]

def between (o : RebuildOptions) (actual target : Table) : Plan :=
  match Comparison.of actual target with
  | .equivalent => []
  | .divergent delta => rebuild o actual target delta

end Plan
end TableRebuild
