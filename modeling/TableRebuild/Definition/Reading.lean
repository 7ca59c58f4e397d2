import TableRebuild.Definition.Error

/-!
# Reading a statement from the front

A statement is read as a list of tokens from the front. What is read either succeeds, with the
tokens that are left, or fails at the first token that is left: that token, or the end of the
text, is where the grammar wanted something else. So a `Reading` has all that an error needs.
-/

namespace TableRebuild

/-- The tokens that are still to be read, of a text that ends at byte `stop`. -/
structure Reading where
  tokens : List Token
  stop : Nat
deriving Repr

namespace Reading

/-- The error that something else stands here, or nothing. -/
def mismatch (r : Reading) (expected : Expected) : DefinitionError :=
  match r.tokens with
  | t :: _ => .unexpected expected t.text t.span
  | [] => .unexpectedEnd expected r.stop

def next? (test : Token → Bool) (r : Reading) : Option (Token × Reading) :=
  match r.tokens with
  | t :: rest => if test t then some (t, ⟨rest, r.stop⟩) else none
  | [] => none

def expect (expected : Expected) (test : Token → Bool) (r : Reading) :
    Except DefinitionError (Token × Reading) :=
  match r.next? test with
  | some found => .ok found
  | none => .error (r.mismatch expected)

def keyword? (k : Keyword) (r : Reading) : Option (Token × Reading) := r.next? (·.isKeyword k)

def delimiter? (d : Delimiter) (r : Reading) : Option (Token × Reading) := r.next? (·.isDelimiter d)

def keyword (k : Keyword) (r : Reading) : Except DefinitionError (Token × Reading) :=
  r.expect (.keyword k) (·.isKeyword k)

/-- Takes the name of a table or schema. Keywords are names here. -/
def tableName (r : Reading) : Except DefinitionError (Token × Reading) :=
  r.expect .tableName (·.isWord)

theorem next?_eq_some_iff {test : Token → Bool} {r r' : Reading} {t : Token} :
    r.next? test = some (t, r') ↔ test t = true ∧ r.tokens = t :: r'.tokens ∧ r.stop = r'.stop := by
  obtain ⟨tokens, stop⟩ := r
  obtain ⟨tokens', stop'⟩ := r'
  cases tokens with
  | nil => simp [next?]
  | cons u rest =>
    simp only [next?, Option.ite_none_right_eq_some, Option.some.injEq, Prod.mk.injEq,
      Reading.mk.injEq, List.cons.injEq]
    constructor
    · rintro ⟨h, rfl, rfl, rfl⟩
      exact ⟨h, ⟨rfl, rfl⟩, rfl⟩
    · rintro ⟨h, ⟨rfl, rfl⟩, rfl⟩
      exact ⟨h, rfl, rfl, rfl⟩

theorem expect_eq_ok_iff {expected : Expected} {test : Token → Bool} {r r' : Reading} {t : Token} :
    r.expect expected test = .ok (t, r') ↔ r.next? test = some (t, r') := by
  unfold expect
  split <;> simp_all

end Reading
end TableRebuild
