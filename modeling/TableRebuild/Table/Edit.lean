import TableRebuild.Table.Basic

/-!
# Building a table step by step

Besides being read from a statement, a table can be put together: start from a name and make one
edit after the other. The edits are values, so that a whole history of a table can be spoken of.

Only adding a column can fail, and then the table is what it was before; the rest of the history
goes on from there.
-/

namespace TableRebuild

inductive Edit where
  | setSchema (schema : Name)
  | setTemporary (value : Bool)
  | setIfNotExists (value : Bool)
  | addColumn (column : Column)
  | addConstraint (constraint : Fragment)
  | setOptions (options : Fragment)
deriving Repr

namespace Table

/-- Makes one edit; a column whose name is taken is given back. -/
def edit (t : Table) : Edit → Except Column Table
  | .setSchema schema => .ok { t with schema := some schema }
  | .setTemporary value => .ok { t with temporary := value }
  | .setIfNotExists value => .ok { t with ifNotExists := value }
  | .addColumn column => t.addColumn column
  | .addConstraint constraint => .ok (t.addConstraint constraint)
  | .setOptions options => .ok { t with options }

/-- Makes one edit, or leaves the table alone where the edit is refused. -/
def attempt (t : Table) (e : Edit) : Table :=
  match t.edit e with
  | .ok u => u
  | .error _ => t

/-- Makes edits in order, passing over those that are refused. -/
def edits (t : Table) (es : List Edit) : Table := es.foldl attempt t

end Table
end TableRebuild
