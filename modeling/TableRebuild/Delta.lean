import TableRebuild.Table.Basic

/-!
# What differs between two tables

A comparison has two sides: the *actual* table, as it is, and the *target* table, as it should be.
Either they are equivalent and nothing is to be done, or they diverge by a delta.

A delta lists what only the target has (`added`), what only the actual table has (`removed`) and
the columns that both have (`shared`), of which some have a different definition (`changed`).
Where both tables have a say in the order, the target decides; names that both have are spelled as
in the target. `shared` is not a difference, and a delta is empty whatever is shared.
-/

namespace TableRebuild

/-- A column that both tables have, with different definitions. -/
structure Redefinition where
  actual : Column
  target : Column
deriving BEq, Repr

namespace Redefinition

/-- The name of the column, as the target spells it. -/
def name (c : Redefinition) : Name := c.target.name

def typeChanged (c : Redefinition) : Bool := !c.actual.sameType c.target

def constraintsChanged (c : Redefinition) : Bool := !c.actual.sameConstraints c.target

end Redefinition

structure Delta where
  /-- The two names of the table, if they differ: actual, then target. -/
  renamed : Option (Name × Name) := none
  added : List Column := []
  removed : List Column := []
  /-- The columns of both that have different types or constraints, in the target's order. -/
  changed : List Redefinition := []
  /-- The names of the columns of both, in the target's order. -/
  shared : List Name := []
  addedConstraints : List Fragment := []
  removedConstraints : List Fragment := []
deriving BEq, Repr

namespace Delta

def isEmpty (d : Delta) : Bool :=
  d.renamed.isNone && d.added.isEmpty && d.removed.isEmpty && d.changed.isEmpty &&
    d.addedConstraints.isEmpty && d.removedConstraints.isEmpty

/-- The shared columns that have the same definition in both tables. -/
def unchanged (d : Delta) : List Name :=
  d.shared.filter fun n => !d.changed.any (·.name == n)

/-- How a column of the target has changed, if the actual table has it with another definition. -/
def changeOf? (actual : Table) (target : Column) : Option Redefinition :=
  match actual.column? target.name with
  | some old => if old.sameDefinition target then none else some ⟨old, target⟩
  | none => none

def between (actual target : Table) : Delta where
  renamed := if actual.name == target.name then none else some (actual.name, target.name)
  added := target.columns.filter fun c => !actual.hasColumn c.name
  removed := actual.columns.filter fun c => !target.hasColumn c.name
  changed := target.columns.filterMap (changeOf? actual)
  shared := (target.columns.filter fun c => actual.hasColumn c.name).map (·.name)
  addedConstraints := target.constraints.filter fun f => !actual.constraints.contains f
  removedConstraints := actual.constraints.filter fun f => !target.constraints.contains f

end Delta

inductive Comparison where
  /-- The tables are the same; nothing is to be done. -/
  | equivalent
  | divergent (delta : Delta)
deriving BEq, Repr

namespace Comparison

def of (actual target : Table) : Comparison :=
  let delta := Delta.between actual target
  if delta.isEmpty then .equivalent else .divergent delta

end Comparison
end TableRebuild
