import TableRebuild.Token.Basic

/-!
# Names

The name of a table, a column or a schema. A name remembers how it is spelled, without quotes, and
is compared by its folded spelling: `todo`, `TODO`, `"todo"` and `[Todo]` are one name.

When a name is written it is always put between double quotes, whatever it was read from. That is
what makes writing safe: whatever characters a name has, the text that `quoted` gives is one token.
-/

namespace TableRebuild

/-- A name, by its spelling without quotes. -/
structure Name where
  spelling : String
deriving Repr

namespace Name

/-- The name that a piece of text is, in quotes or bare. -/
def ofText (text : String) : Name := ⟨String.ofList (Quote.unquote text.toList)⟩

def ofToken (t : Token) : Name := ⟨t.spelling⟩

def folded (n : Name) : String := Text.fold n.spelling

def quoted (n : Name) : String := String.ofList (Quote.double.enclose n.spelling.toList)

/-- The name with more in front of its spelling. -/
def prepend (front : String) (n : Name) : Name := ⟨front ++ n.spelling⟩

/-- Up to the case of ASCII letters. -/
instance : BEq Name where
  beq a b := a.folded == b.folded

instance : ToString Name where
  toString := quoted

theorem beq_eq_true_iff {a b : Name} : (a == b) = true ↔ a.folded = b.folded := by
  show (a.folded == b.folded) = true ↔ _
  simp

instance : EquivBEq Name where
  rfl := beq_eq_true_iff.2 rfl
  symm h := beq_eq_true_iff.2 (beq_eq_true_iff.1 h).symm
  trans h h' := beq_eq_true_iff.2 ((beq_eq_true_iff.1 h).trans (beq_eq_true_iff.1 h'))

end Name
end TableRebuild
