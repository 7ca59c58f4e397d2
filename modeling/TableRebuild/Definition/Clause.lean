import TableRebuild.Definition.Nesting

/-!
# Type and clauses of a column

Behind its name a column has a type and then constraint clauses, without anything between them.
The type ends at the first word that begins a constraint. Where a clause ends and the next one
begins has to be told from the words, because some words that begin a clause also occur inside
one: `NULL` in `NOT NULL` and `SET NULL`, `DEFAULT` in `SET DEFAULT`, `AS` in `GENERATED ALWAYS
AS`, `NOT` in `NOT DEFERRABLE`. `Clause.opens` is that rule.

All of it looks at words outside parentheses only; what stands in parentheses belongs to the
clause around them.
-/

namespace TableRebuild

def Token.opensColumnConstraint (t : Token) : Bool := t.keyword?.any (·.opensColumnConstraint)

/-- Cuts the tokens behind a column's name, inside `depth` open parentheses, into the type and the
    constraints. -/
def splitType (depth : Nat) : List Token → List Token × List Token
  | [] => ([], [])
  | t :: rest =>
    if t.opensColumnConstraint ∧ depth = 0 then ([], t :: rest)
    else
      let (type, constraints) := splitType (Nesting.after depth t) rest
      (t :: type, constraints)

namespace Clause

/-- Whether a clause consists of `CONSTRAINT` and a name so far, and so has yet to say what it
    constrains. The clause is given last token first. -/
def isNameOnly : List Token → Bool
  | [_, c] => c.isKeyword .constraint
  | _ => false

/-- Whether a word that may begin a clause does not, because of the token before it or after it. -/
def continues (k : Keyword) (before : Token) (next : Option Token) : Bool :=
  match k with
  | .null =>
    before.isKeyword .not || before.isKeyword .default || before.spells "SET" || before.spells "IS"
  | .not => !next.any (·.isKeyword .null)
  | .default => before.spells "SET"
  | .as => before.isKeyword .generated || before.spells "ALWAYS"
  | _ => false

/-- Whether a token begins a new clause. `soFar` is the clause before it, last token first, and
    `next` the token behind it. The first token of all is not the beginning of a *new* clause. -/
def opens (soFar : List Token) (t : Token) (next : Option Token) : Bool :=
  match soFar, t.keyword? with
  | before :: _, some k =>
    k.opensColumnConstraint && !isNameOnly soFar && !continues k before next
  | _, _ => false

/-- Cuts tokens, inside `depth` open parentheses and behind the clause `soFar` (last token first),
    into the rest of that clause and the clauses after it. -/
def cut (depth : Nat) (soFar : List Token) : List Token → List Token × List (List Token)
  | [] => ([], [])
  | t :: rest =>
    if opens soFar t rest.head? ∧ depth = 0 then
      let (clause, more) := cut 0 [t] rest
      ([], (t :: clause) :: more)
    else
      let (clause, more) := cut (Nesting.after depth t) (t :: soFar) rest
      (t :: clause, more)

/-- The clauses that the constraints of a column fall into. -/
def split (ts : List Token) : List (List Token) :=
  match ts with
  | [] => []
  | _ =>
    let (clause, more) := cut 0 [] ts
    clause :: more

theorem flatten_cut (depth : Nat) (soFar ts : List Token) :
    (cut depth soFar ts).1 ++ (cut depth soFar ts).2.flatten = ts := by
  fun_induction cut depth soFar ts with
  | case1 => rfl
  | case2 depth soFar t rest h clause more hr ih => simpa [hr] using ih
  | case3 depth soFar t rest h clause more hr ih => simpa [hr] using ih

@[simp] theorem flatten_split (ts : List Token) : (split ts).flatten = ts := by
  cases ts with
  | nil => rfl
  | cons t rest => simpa [split] using flatten_cut 0 [] (t :: rest)

end Clause

/-- Cutting the type off loses nothing. -/
theorem splitType_append (depth : Nat) (ts : List Token) :
    (splitType depth ts).1 ++ (splitType depth ts).2 = ts := by
  fun_induction splitType depth ts with
  | case1 => rfl
  | case2 => rfl
  | case3 depth t rest h type constraints hr ih => simpa [hr] using ih

end TableRebuild
