import TableRebuild.Name

/-!
# Names with something in front

The temporary name of a table is the table's name with a prefix. Folding goes letter by letter, so
the prefix is folded by itself and makes the name longer by as many letters as it has. A prefix that
is not empty therefore always gives another name, also up to case. Nothing else about the prefix is
used, so it may hold quotes, spaces or whatever it likes.
-/

namespace TableRebuild
namespace Name

theorem folded_prepend (front : String) (n : Name) :
    (n.prepend front).folded = Text.fold front ++ n.folded := by
  rw [folded, prepend, Text.fold_append, folded]

/-- **A name with something in front is another name.** -/
theorem prepend_beq_self {front : String} (h : front ≠ "") (n : Name) :
    (n.prepend front == n) = false := by
  rw [Bool.eq_false_iff]
  intro heq
  have hlength := congrArg (fun s => s.toList.length) (beq_eq_true_iff.1 heq)
  simp only [folded_prepend, String.toList_append, List.length_append, Text.toList_fold,
    List.length_map] at hlength
  have hnil : front.toList = [] := List.length_eq_zero_iff.1 (by omega)
  exact h (String.toList_eq_nil_iff.1 hnil)

end Name
end TableRebuild
