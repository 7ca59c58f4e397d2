import TableRebuild.Definition.Clause
import TableRebuild.Definition.Item
import TableRebuild.Table.Basic

/-!
# Reading a table from a statement

The last step of reading: an outline and its items become a table. What can go wrong here concerns
single columns (an item that begins with something other than a name, or with a name that is
taken) and the list as a whole, which may hold constraints only.

`Table.parse` is the whole way from a text to a table.
-/

namespace TableRebuild

def Column.ofItem (source : String) (item : Item) : Except DefinitionError Column :=
  if item.first.isWord then
    let (type, constraints) := splitType 0 item.others
    .ok {
      name := .ofToken item.first
      type := .ofTokens type source
      clauses := (Clause.split constraints).map (Fragment.ofTokens · source) }
  else .error (.unexpected .columnName item.first.text item.first.span)

namespace Table

def addItem (source : String) (t : Table) (item : Item) : Except DefinitionError Table :=
  if item.isConstraint then .ok (t.addConstraint (.ofTokens item.tokens source))
  else do
    let column ← Column.ofItem source item
    match t.addColumn column with
    | .ok u => return u
    | .error refused => throw (.duplicateColumn refused.name.spelling item.first.span)

/-- The table that the statement says to create, before any item of the column list. -/
def ofHeader (source : String) (header : Header) (options : List Token) : Table :=
  { new (.ofToken header.name) with
    schema := header.schema.map .ofToken
    temporary := header.temporary
    ifNotExists := header.ifNotExists
    options := .ofTokens options source }

/-- The table that an outline of `source` defines. -/
def ofOutline (source : String) (o : Outline) : Except DefinitionError Table := do
  let items ← o.body.items
  let table ← items.foldlM (addItem source) (ofHeader source o.header o.options)
  if table.columns.isEmpty then
    throw (.noColumns (o.body.opening.span.join o.body.closing.span))
  return table

/-- The table that a text, a single `CREATE TABLE` statement, defines. -/
def parse (text : String) : Except DefinitionError Table := do
  let outline ← Outline.ofText text
  ofOutline text outline

end Table
end TableRebuild
