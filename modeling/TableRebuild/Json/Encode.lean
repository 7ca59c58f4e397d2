import TableRebuild.Json.Basic
import TableRebuild.Plan

/-!
# Tables, comparisons and plans as JSON

The form in which results are handed to other programs. A record is an object with a field for
each part; a value that is one of several cases is an object whose one field is the case, or the
name of the case alone where nothing goes with it. Names are given by their spelling without
quotes, and everything else keeps its tokens, places included.
-/

namespace TableRebuild

/-- A word in small letters but for the first. -/
def capitalized (word : String) : String :=
  match word.toList with
  | [] => ""
  | c :: cs => String.ofList (c.toUpper :: cs.map Char.toLower)

def Keyword.caseName (k : Keyword) : String := capitalized k.text

def Delimiter.caseName : Delimiter → String
  | .leftParen => "LeftParen"
  | .rightParen => "RightParen"
  | .comma => "Comma"
  | .semicolon => "Semicolon"
  | .dot => "Dot"

def Kind.toJson : Kind → Json
  | .keyword k => .tagged "Keyword" (.string k.caseName)
  | .quotedName => .string "QuotedName"
  | .bareName => .string "BareName"
  | .delimiter d => .tagged "Punctuation" (.string d.caseName)
  | .verbatim => .string "Other"

def Span.toJson (s : Span) : Json :=
  .object [("start", .number s.start), ("end", .number s.stop)]

def Token.toJson (t : Token) : Json :=
  .object [("kind", t.kind.toJson), ("text", .string t.text), ("span", t.span.toJson)]

def Name.toJson (n : Name) : Json := .string n.spelling

def Fragment.toJson (f : Fragment) : Json :=
  .object [("tokens", .ofList Token.toJson f.tokens), ("text", .string f.text)]

def Column.toJson (c : Column) : Json :=
  .object [("name", c.name.toJson), ("type_tokens", c.type.toJson),
    ("constraints", .ofList Fragment.toJson c.clauses)]

def Table.toJson (t : Table) : Json :=
  .object [("name", t.name.toJson), ("schema", .ofOption Name.toJson t.schema),
    ("temporary", .bool t.temporary), ("if_not_exists", .bool t.ifNotExists),
    ("columns", .ofList Column.toJson t.columns),
    ("constraints", .ofList Fragment.toJson t.constraints), ("options", t.options.toJson)]

def Redefinition.toJson (c : Redefinition) : Json :=
  .object [("actual", c.actual.toJson), ("target", c.target.toJson)]

def Delta.toJson (d : Delta) : Json :=
  .object [
    ("renamed", .ofOption (fun (a, t) => .array [a.toJson, t.toJson]) d.renamed),
    ("added_columns", .ofList Column.toJson d.added),
    ("removed_columns", .ofList Column.toJson d.removed),
    ("changed_columns", .ofList Redefinition.toJson d.changed),
    ("shared_columns", .ofList Name.toJson d.shared),
    ("added_constraints", .ofList Fragment.toJson d.addedConstraints),
    ("removed_constraints", .ofList Fragment.toJson d.removedConstraints)]

def Comparison.toJson : Comparison → Json
  | .equivalent => .string "Equivalent"
  | .divergent d => .tagged "Divergent" d.toJson

def Statement.caseName : Statement → String
  | .createTable .. => "CreateTable"
  | .copyRows .. => "CopyRows"
  | .dropTable .. => "DropTable"
  | .renameTable .. => "RenameTable"

def Statement.toJson (s : Statement) : Json :=
  .tagged s.caseName <| .object <|
    match s with
    | .createTable name columns constraints options =>
      [("name", name.toJson), ("columns", .ofList Column.toJson columns),
        ("constraints", .ofList Fragment.toJson constraints), ("options", options.toJson)]
    | .copyRows into source columns =>
      [("into", into.toJson), ("from", source.toJson), ("columns", .ofList Name.toJson columns)]
    | .dropTable name => [("name", name.toJson)]
    | .renameTable source target => [("from", source.toJson), ("to", target.toJson)]

def Plan.toJson (p : Plan) : Json := .tagged "statements" (.ofList Statement.toJson p)

end TableRebuild
