/-!
# Ranges of code points

A character class given by a standard is a table of ranges, and the only question ever asked of
it is whether a character lies in one of them. The tables live in modules of their own; this one
holds the range, the question, and the order that a well-formed table keeps (`ascending`: no range
is empty, none overlaps or touches the next one), which each table checks of itself. An order
that is checked is what makes a typing slip in a long table visible.
-/

namespace TableRebuild
namespace Text

/-- All code points from `first` to `last`, both included. -/
structure CodeRange where
  first : Nat
  last : Nat
deriving DecidableEq, Repr

namespace CodeRange

def contains (r : CodeRange) (c : Char) : Bool :=
  decide (r.first ≤ c.toNat) && decide (c.toNat ≤ r.last)

def anyContains (table : List CodeRange) (c : Char) : Bool :=
  table.any (·.contains c)

/-- Whether every range is non-empty and ends at least one code point before the next one. -/
def ascending : List CodeRange → Bool
  | [] => true
  | [r] => decide (r.first ≤ r.last)
  | r :: s :: rest =>
    decide (r.first ≤ r.last) && decide (r.last + 1 < s.first) && ascending (s :: rest)

theorem anyContains_eq_true_iff {table : List CodeRange} {c : Char} :
    anyContains table c = true ↔ ∃ r ∈ table, r.first ≤ c.toNat ∧ c.toNat ≤ r.last := by
  simp [anyContains, contains]

end CodeRange
end Text
end TableRebuild
