import TableRebuild.Token.Placed

/-!
# Fragments

A stretch of a statement whose grammar is not looked into: the type of a column, a constraint, the
options of a table. A fragment has its tokens, by which it is compared, and its text as written,
by which it is printed. So `UNIQUE (a)` and `unique("A")` are equal fragments, and each is printed
as it was written, with the comments inside it.
-/

namespace TableRebuild

/-- Tokens that follow each other, and the text they are written as. -/
structure Fragment where
  tokens : List Token := []
  text : String := ""
deriving Repr

namespace Fragment

def empty : Fragment := {}

def spanOf? (tokens : List Token) : Option Span :=
  match tokens.head?, tokens.getLast? with
  | some first, some last => some (first.span.join last.span)
  | _, _ => none

/-- The fragment that tokens of a source are, with the source's text from the first to the last.
    The text is empty when the stretch is not one of the source. -/
def ofTokens (tokens : List Token) (source : String) : Fragment :=
  ⟨tokens, ((spanOf? tokens).map (·.textIn source)).getD ""⟩

def ofText (text : String) : Except LexicalError Fragment :=
  (tokenize text).map (ofTokens · text)

def isEmpty (f : Fragment) : Bool := f.tokens.isEmpty

/-- Where the fragment stands in its source. -/
def span? (f : Fragment) : Option Span := spanOf? f.tokens

/-- Token by token; neither text nor place counts. -/
instance : BEq Fragment where
  beq a b := a.tokens == b.tokens

theorem beq_def (a b : Fragment) : (a == b) = (a.tokens == b.tokens) := rfl

instance : EquivBEq Fragment where
  rfl := by simp [beq_def]
  symm h := by rw [beq_def] at h ⊢; exact PartialEquivBEq.symm h
  trans h h' := by rw [beq_def] at h h' ⊢; exact PartialEquivBEq.trans h h'

@[simp] theorem tokens_ofTokens (tokens : List Token) (source : String) :
    (ofTokens tokens source).tokens = tokens := rfl

end Fragment
end TableRebuild
