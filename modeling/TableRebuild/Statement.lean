import TableRebuild.Column

/-!
# Statements

The four statements that a rebuild is made of, as data. A statement becomes SQL only in `sql`,
which puts every name in double quotes and writes types, constraints and options as they were
written where they came from. There is no semicolon at the end.
-/

namespace TableRebuild

inductive Statement where
  | createTable (name : Name) (columns : List Column) (constraints : List Fragment)
      (options : Fragment)
  /-- Copies columns of all rows, each column to the one of the same name. -/
  | copyRows (into source : Name) (columns : List Name)
  | dropTable (name : Name)
  | renameTable (source target : Name)
deriving BEq, Repr

namespace Statement

def commaSeparated (texts : List String) : String := ", ".intercalate texts

def sql : Statement → String
  | createTable name columns constraints options =>
    let items := commaSeparated (columns.map (·.render) ++ constraints.map (·.text))
    let create := s!"CREATE TABLE {name.quoted} ({items})"
    if options.isEmpty then create else s!"{create} {options.text}"
  | copyRows into source columns =>
    let list := commaSeparated (columns.map (·.quoted))
    s!"INSERT INTO {into.quoted} ({list}) SELECT {list} FROM {source.quoted}"
  | dropTable name => s!"DROP TABLE {name.quoted}"
  | renameTable source target => s!"ALTER TABLE {source.quoted} RENAME TO {target.quoted}"

end Statement
end TableRebuild
