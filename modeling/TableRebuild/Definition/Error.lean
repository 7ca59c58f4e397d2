import TableRebuild.Token.Placed

/-!
# What can be wrong with a statement

Why a text is not the definition of a table, and where. The reasons are data; what a user is told
is a function of them, `DefinitionError.message`, and nothing else in the library words an error.

Each error has a span, and the span is where the reader should look: the token that does not
belong, the parenthesis without a partner, the comma behind nothing.
-/

namespace TableRebuild

/-- What the grammar has at a place where the text has something else. -/
inductive Expected where
  | keyword (k : Keyword)
  | tableName
  | openingParen
  | columnName
  | tableOption
  | endOfOptions
deriving DecidableEq, Repr

namespace Expected

def text : Expected → String
  | keyword k => k.text
  | tableName => "table name"
  | openingParen => "("
  | columnName => "column name"
  | tableOption => "WITHOUT ROWID or STRICT"
  | endOfOptions => ", or ;"

end Expected

inductive DefinitionError where
  | lexical (error : LexicalError)
  /-- A token stands where the grammar has something else. -/
  | unexpected (expected : Expected) (found : String) (span : Span)
  /-- The text ends where the grammar has more. -/
  | unexpectedEnd (expected : Expected) (offset : Nat)
  | unbalanced (paren : Span)
  | noColumns (list : Span)
  /-- Nothing stands before the comma or parenthesis that ends an item of the column list. -/
  | emptyItem (ender : Span)
  | duplicateColumn (name : String) (span : Span)
  | trailing (span : Span)
deriving DecidableEq, Repr

namespace DefinitionError

def span : DefinitionError → Span
  | lexical error => error.span
  | unexpected _ _ span => span
  | unexpectedEnd _ offset => .point offset
  | unbalanced paren => paren
  | noColumns list => list
  | emptyItem ender => ender
  | duplicateColumn _ span => span
  | trailing span => span

def reason : DefinitionError → String
  | lexical ⟨.quote q, _⟩ => s!"Unterminated {q.opener} quote"
  | lexical ⟨.comment, _⟩ => "Unterminated block comment"
  | unexpected expected found _ =>
    s!"Unexpected token: expected {expected.text}, found " ++ "`" ++ found ++ "`"
  | unexpectedEnd expected _ => s!"Unexpected end of input: expected {expected.text}"
  | unbalanced _ => "Unbalanced parentheses"
  | noColumns _ => "Table has no columns"
  | emptyItem _ => "Empty column definition"
  | duplicateColumn name _ => "Duplicate column `" ++ name ++ "`"
  | trailing _ => "Unexpected input after statement"

/-- Whether the error is about one place and not about a stretch of text. -/
def isAtPoint : DefinitionError → Bool
  | unexpectedEnd .. | emptyItem .. => true
  | _ => false

def message (e : DefinitionError) : String :=
  let place := if e.isAtPoint then s!"{e.span.start}" else s!"{e.span.start}..{e.span.stop}"
  s!"{e.reason} at position {place}"

end DefinitionError
end TableRebuild
