/-!
# Folding case

Names and keywords are compared without regard to the case of ASCII letters and of no others:
`É` and `é` are two different characters here, and so are the Kelvin sign and `k`. Folding is
therefore a map over the characters, and it never changes the number of them.
-/

namespace TableRebuild
namespace Text

/-- The text with every ASCII capital replaced by its small letter. -/
def fold (s : String) : String :=
  String.ofList (s.toList.map Char.toLower)

/-- Whether two texts differ in the case of ASCII letters at most. -/
def sameFold (a b : String) : Bool :=
  fold a == fold b

@[simp] theorem toList_fold (s : String) : (fold s).toList = s.toList.map Char.toLower := by
  simp [fold]

@[simp] theorem fold_append (a b : String) : fold (a ++ b) = fold a ++ fold b := by
  simp [fold]

@[simp] theorem sameFold_eq_true_iff {a b : String} : sameFold a b = true ↔ fold a = fold b := by
  simp [sameFold]

end Text
end TableRebuild
