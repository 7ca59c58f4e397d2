import TableRebuild.Fragment
import TableRebuild.Name

/-!
# Columns

A column has a name, a type and constraint clauses. The clauses are kept apart, because each is
printed as it was written, but they are compared joined: where one clause ends and the next begins
is a matter of reading, not of meaning.
-/

namespace TableRebuild

structure Column where
  name : Name
  /-- The type, empty for a column without one. -/
  type : Fragment
  clauses : List Fragment
deriving Repr

namespace Column

def clauseTokens (c : Column) : List Token := c.clauses.flatMap (·.tokens)

def sameType (a b : Column) : Bool := a.type == b.type

/-- Whether two columns have the same constraints, however they are cut into clauses. -/
def sameConstraints (a b : Column) : Bool := a.clauseTokens == b.clauseTokens

def sameDefinition (a b : Column) : Bool := a.sameType b && a.sameConstraints b

instance : BEq Column where
  beq a b := a.name == b.name && a.sameDefinition b

theorem beq_def (a b : Column) : (a == b) = (a.name == b.name && a.sameDefinition b) := rfl

/-- The column as it is written in a statement: name, type if there is one, and clauses. -/
def render (c : Column) : String :=
  let typeText := if c.type.isEmpty then [] else [c.type.text]
  " ".intercalate (c.name.quoted :: (typeText ++ c.clauses.map (·.text)))

theorem sameDefinition_refl (a : Column) : a.sameDefinition a = true := by
  simp [sameDefinition, sameType, sameConstraints]

theorem sameDefinition_symm {a b : Column} (h : a.sameDefinition b = true) :
    b.sameDefinition a = true := by
  simp only [sameDefinition, sameType, sameConstraints, Bool.and_eq_true] at h ⊢
  exact ⟨PartialEquivBEq.symm h.1, PartialEquivBEq.symm h.2⟩

theorem sameDefinition_trans {a b c : Column} (h : a.sameDefinition b = true)
    (h' : b.sameDefinition c = true) : a.sameDefinition c = true := by
  simp only [sameDefinition, sameType, sameConstraints, Bool.and_eq_true] at h h' ⊢
  exact ⟨PartialEquivBEq.trans h.1 h'.1, PartialEquivBEq.trans h.2 h'.2⟩

instance : EquivBEq Column where
  rfl := by simp [beq_def, sameDefinition_refl]
  symm h := by
    simp only [beq_def, Bool.and_eq_true] at h ⊢
    exact ⟨PartialEquivBEq.symm h.1, sameDefinition_symm h.2⟩
  trans h h' := by
    simp only [beq_def, Bool.and_eq_true] at h h' ⊢
    exact ⟨PartialEquivBEq.trans h.1 h'.1, sameDefinition_trans h.2 h'.2⟩

end Column
end TableRebuild
