import TableRebuild.Definition.Outline

/-!
# Items of a column list

The tokens between the parentheses of a column list, cut at the commas that stand outside any
further parentheses. Every piece has to hold something; an empty one is reported at the comma or
parenthesis that ends it, and the first one in the list is the one reported.

Cutting comes before anything is made of the pieces. So a list with an empty item is wrong in that
way, whatever else is wrong with the items before it.
-/

namespace TableRebuild

/-- An item of a column list: its first token and the others. -/
structure Item where
  first : Token
  others : List Token
deriving Repr

namespace Item

def tokens (i : Item) : List Token := i.first :: i.others

/-- Whether the item constrains the table. Any other item is a column. -/
def isConstraint (i : Item) : Bool := i.first.keyword?.any (·.opensTableConstraint)

/-- Cuts tokens, inside `depth` open parentheses, at the commas outside them: the tokens up to the
    first such comma, and then each comma with the tokens up to the next one. -/
def cut (depth : Nat) : List Token → List Token × List (Token × List Token)
  | [] => ([], [])
  | t :: rest =>
    if t.isDelimiter .comma ∧ depth = 0 then
      let (piece, more) := cut 0 rest
      ([], (t, piece) :: more)
    else
      let (piece, more) := cut (Nesting.after depth t) rest
      (t :: piece, more)

/-- Each piece with the token that ends it, which is the next comma or, for the last one, `last`. -/
def withEnders (last : Token) (piece : List Token) : List (Token × List Token) →
    List (List Token × Token)
  | [] => [(piece, last)]
  | (comma, next) :: more => (piece, comma) :: withEnders last next more

def ofPiece : List Token × Token → Except DefinitionError Item
  | (t :: rest, _) => .ok ⟨t, rest⟩
  | ([], ender) => .error (.emptyItem ender.span)

theorem flatten_cut (depth : Nat) (ts : List Token) :
    (cut depth ts).1 ++ (cut depth ts).2.flatMap (fun (comma, piece) => comma :: piece) = ts := by
  fun_induction cut depth ts with
  | case1 => rfl
  | case2 depth t rest h piece more hr ih => simpa [hr] using ih
  | case3 depth t rest h piece more hr ih => simpa [hr] using ih

end Item

def Body.items (b : Body) : Except DefinitionError (List Item) :=
  if b.inner.isEmpty then .error (.noColumns b.closing.span)
  else
    let (piece, more) := Item.cut 0 b.inner
    (Item.withEnders b.closing piece more).mapM Item.ofPiece

end TableRebuild
