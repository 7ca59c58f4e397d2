import TableRebuild.Definition.Nesting
import TableRebuild.Definition.Reading

/-!
# The outline of a statement

    CREATE [TEMP | TEMPORARY] TABLE [IF NOT EXISTS] [schema .] name ( body ) [options] [;]

An `Outline` is a statement cut along this line: the words before the column list as what they
say, the column list as the tokens between its parentheses, the options as tokens. Nothing inside
the column list has been looked at, apart from its parentheses.

The order in which the parts are read is the order in which their faults are found: a fault of the
options is reported before any fault inside the column list.
-/

namespace TableRebuild

/-- What stands before the column list. -/
structure Header where
  temporary : Bool
  ifNotExists : Bool
  schema : Option Token
  name : Token
deriving Repr

/-- The column list: its parentheses, and the tokens between them. -/
structure Body where
  opening : Token
  inner : List Token
  closing : Token
deriving Repr

structure Outline where
  header : Header
  body : Body
  options : List Token
deriving Repr

/-! ## The header -/

namespace Header

def readTemporary (r : Reading) : Bool × Reading :=
  match r.next? fun t => t.isKeyword .temp || t.isKeyword .temporary with
  | some (_, r) => (true, r)
  | none => (false, r)

/-- Takes `IF NOT EXISTS` if it is there. A bare `IF` after `TABLE` always begins it, and is never
    the name of the table. -/
def readIfNotExists (r : Reading) : Except DefinitionError (Bool × Reading) :=
  match r.keyword? .if_ with
  | some (_, r) => do
    let (_, r) ← r.keyword .not
    let (_, r) ← r.keyword .exists_
    return (true, r)
  | none => .ok (false, r)

/-- Takes the name of the table, and before it the schema's if there are two. -/
def readName (r : Reading) : Except DefinitionError (Option Token × Token × Reading) := do
  let (first, r) ← r.tableName
  match r.delimiter? .dot with
  | some (_, r) => do
    let (second, r) ← r.tableName
    return (some first, second, r)
  | none => return (none, first, r)

def read (r : Reading) : Except DefinitionError (Header × Reading) := do
  let (_, r) ← r.keyword .create
  let (temporary, r) := readTemporary r
  let (_, r) ← r.keyword .table
  let (ifNotExists, r) ← readIfNotExists r
  let (schema, name, r) ← readName r
  return ({ temporary, ifNotExists, schema, name }, r)

end Header

/-! ## The column list -/

namespace Body

/-- Takes the column list. One that is never closed is reported at its opening parenthesis. -/
def read (r : Reading) : Except DefinitionError (Body × Reading) := do
  let (opening, r) ← r.expect .openingParen (·.isDelimiter .leftParen)
  match Nesting.closing 0 r.tokens with
  | some (inner, closing, rest) => return ({ opening, inner, closing }, { r with tokens := rest })
  | none => throw (.unbalanced opening.span)

end Body

/-! ## Behind the column list -/

namespace Options

def readOne (r : Reading) : Except DefinitionError (List Token × Reading) :=
  match r.keyword? .without with
  | some (without, r) => do
    let (rowid, r) ← r.keyword .rowid
    return ([without, rowid], r)
  | none =>
    match r.keyword? .strict with
    | some (strict, r) => .ok ([strict], r)
    | none =>
      match r.delimiter? .rightParen with
      | some (paren, _) => .error (.unbalanced paren.span)
      | none => .error (r.mismatch .tableOption)

theorem readOne_eq_ok {r r' : Reading} {ts : List Token} (h : readOne r = .ok (ts, r')) :
    r.tokens = ts ++ r'.tokens ∧ r.stop = r'.stop ∧ ts ≠ [] := by
  unfold readOne at h
  split at h
  · rename_i without r₁ h₁
    obtain ⟨_, h₁, hs₁⟩ := Reading.next?_eq_some_iff.1 h₁
    cases h₂ : r₁.keyword .rowid with
    | error e => simp [h₂, bind, Except.bind] at h
    | ok found =>
      obtain ⟨rowid, r₂⟩ := found
      simp [h₂, bind, Except.bind, pure, Except.pure] at h
      obtain ⟨rfl, rfl⟩ := h
      obtain ⟨_, h₂, hs₂⟩ := Reading.next?_eq_some_iff.1 (Reading.expect_eq_ok_iff.1 h₂)
      simp [h₁, h₂, hs₁, hs₂]
  · split at h
    · rename_i strict r₁ h₁
      obtain ⟨_, h₁, hs₁⟩ := Reading.next?_eq_some_iff.1 h₁
      simp at h
      obtain ⟨rfl, rfl⟩ := h
      simp [h₁, hs₁]
    · split at h <;> simp at h

/-- Takes one table option or more, with commas between them. -/
def readSome (r : Reading) : Except DefinitionError (List Token × Reading) :=
  match h : readOne r with
  | .error e => .error e
  | .ok (ts, r₁) =>
    match h₁ : r₁.delimiter? .comma with
    | none => .ok (ts, r₁)
    | some (comma, r₂) =>
      have : r₂.tokens.length < r.tokens.length := by
        rw [(readOne_eq_ok h).1, (Reading.next?_eq_some_iff.1 h₁).2.1]
        simp; omega
      (readSome r₂).map fun (more, r₃) => (ts ++ comma :: more, r₃)
termination_by r.tokens.length

/-- Takes the table options, of which there may be none. -/
def read (r : Reading) : Except DefinitionError (List Token × Reading) :=
  if r.tokens.isEmpty || (r.delimiter? .semicolon).isSome then .ok ([], r) else readSome r

/-- Makes sure that nothing is left but a semicolon. -/
def finish (r : Reading) : Except DefinitionError Unit :=
  match r.delimiter? .semicolon with
  | some (_, r) =>
    match r.tokens with
    | [] => .ok ()
    | t :: _ => .error (.trailing t.span)
  | none =>
    match r.tokens with
    | [] => .ok ()
    | t :: _ =>
      if t.isDelimiter .rightParen then .error (.unbalanced t.span)
      else .error (r.mismatch .endOfOptions)

end Options

namespace Outline

/-- Cuts a statement, which has to be all there is to read. -/
def read (r : Reading) : Except DefinitionError Outline := do
  let (header, r) ← Header.read r
  let (body, r) ← Body.read r
  let (options, r) ← Options.read r
  Options.finish r
  return { header, body, options }

def ofText (text : String) : Except DefinitionError Outline := do
  let tokens ← (tokenize text).mapError .lexical
  read { tokens, stop := Text.byteLength text.toList }

end Outline
end TableRebuild
