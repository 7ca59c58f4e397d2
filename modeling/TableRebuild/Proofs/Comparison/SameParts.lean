import TableRebuild.Proofs.Plan.Congruence
import TableRebuild.Proofs.Table.Agree

/-!
# Comparing two spellings of a table

Tables that are equal need not compare alike with a third: what is removed is listed in the order
of the actual table. Tables that have equal parts in the same order do, on either side of the
comparison (`Comparison.beq_of_sameParts`). Such are the tables that two spellings of one statement
define, so comparing cannot tell these apart at all.
-/

namespace TableRebuild

/-- Lists of equal elements are equal. -/
theorem list_beq_of_same {α : Type} [BEq α] {as bs : List α} (h : List.Forall₂ Same as bs) :
    (as == bs) = true := by
  induction h with
  | nil => rfl
  | cons hab _ ih => exact Bool.and_eq_true_iff.2 ⟨hab, ih⟩

namespace Table.SameParts

variable {a a' b b' : Table}

theorem refl (t : Table) : t.SameParts t where
  name := ReflBEq.rfl
  schema := by
    cases t.schema with
    | none => exact .none
    | some schema => exact .some ReflBEq.rfl
  temporary := rfl
  ifNotExists := rfl
  columns := List.forall₂_same.2 fun _ _ => ReflBEq.rfl
  constraints := List.forall₂_same.2 fun _ _ => ReflBEq.rfl
  options := ReflBEq.rfl

/-- Equal names are taken in both tables or in neither. -/
theorem hasColumn (h : a.SameParts a') {n m : Name} (hname : Same n m) :
    a.hasColumn n = a'.hasColumn m :=
  (h.sameSchema.hasColumn n).trans (hasColumn_congr hname)

/-- Equal names have the same column in both tables, if they have one. -/
theorem rel_column? (h : a.SameParts a') {n m : Name} (hname : Same n m) :
    Option.Rel Same (a.column? n) (a'.column? m) := by
  have hspelling : a.column? n = a.column? m := by
    simp only [column?_eq_find?, BEq.congr_right hname]
  rw [hspelling]
  exact h.sameSchema.rel_column? m

end Table.SameParts

theorem Column.same_name {c d : Column} (h : Same c d) : Same c.name d.name := by
  have hboth : (c.name == d.name && c.sameDefinition d) = true := h
  exact (Bool.and_eq_true_iff.1 hboth).1

theorem Column.sameDefinition_congr_right {c d : Column} (e : Column) (h : Same c d) :
    e.sameDefinition c = e.sameDefinition d := by
  have hboth : (c.name == d.name && c.sameDefinition d) = true := h
  have hsame := (Bool.and_eq_true_iff.1 hboth).2
  rw [Bool.eq_iff_iff]
  constructor
  · exact fun hc => sameDefinition_trans hc hsame
  · exact fun hd => sameDefinition_trans hd (sameDefinition_symm hsame)

/-! ## Deltas -/

namespace Delta

variable {a a' b b' : Table}

/-- The columns that one table has and the other does, or does not, are equal one by one. -/
theorem same_columns (h : a.SameParts a') (h' : b.SameParts b') (p : Bool → Bool) :
    List.Forall₂ Same (a.columns.filter fun c => p (b.hasColumn c.name))
      (a'.columns.filter fun c => p (b'.hasColumn c.name)) := by
  refine List.rel_filter ?_ h.columns
  intro c d hcd
  show p (b.hasColumn c.name) = true ↔ p (b'.hasColumn d.name) = true
  rw [h'.hasColumn (Column.same_name hcd)]

/-- The constraints that one table has and the other does not are equal one by one. -/
theorem same_constraints (h : a.SameParts a') (h' : b.SameParts b') :
    List.Forall₂ Same (a.constraints.filter fun f => !b.constraints.contains f)
      (a'.constraints.filter fun f => !b'.constraints.contains f) := by
  refine List.rel_filter ?_ h.constraints
  intro f g hfg
  have hcontains : b.constraints.contains f = b'.constraints.contains g := by
    rw [h'.sameSchema.contains_constraints, List.contains_congr hfg]
  show (!b.constraints.contains f) = true ↔ (!b'.constraints.contains g) = true
  rw [hcontains]

theorem same_changeOf? (h : a.SameParts a') {c d : Column} (hcd : Same c d) :
    Option.Rel Same (changeOf? a c) (changeOf? a' d) := by
  have hfind := h.rel_column? (Column.same_name hcd)
  unfold changeOf?
  generalize a.column? c.name = x at hfind
  generalize a'.column? d.name = y at hfind
  cases hfind with
  | none => exact .none
  | @some old old' hold =>
    have hdefinition : old.sameDefinition c = old'.sameDefinition d :=
      (Column.sameDefinition_congr hold c).trans (Column.sameDefinition_congr_right old' hcd)
    simp only [hdefinition]
    cases old'.sameDefinition d with
    | true => exact .none
    | false =>
      refine .some ?_
      show (old == old' && c == d) = true
      rw [hold, hcd]
      rfl

theorem same_renamed (h : Same a.name a'.name) (h' : Same b.name b'.name) :
    Same (between a b).renamed (between a' b').renamed := by
  have hiff : (a.name == b.name) = (a'.name == b'.name) :=
    (BEq.congr_left h).trans (BEq.congr_right h')
  simp only [between, hiff]
  cases a'.name == b'.name with
  | true => rfl
  | false =>
    show (a.name == a'.name && b.name == b'.name) = true
    rw [h, h']
    rfl

/-- **Tables with equal parts differ from tables with equal parts by equal deltas.** -/
theorem same_between (h : a.SameParts a') (h' : b.SameParts b') :
    Same (between a b) (between a' b') := by
  have hchanged : List.Forall₂ Same (between a b).changed (between a' b').changed :=
    List.rel_filterMap (fun c d hcd => same_changeOf? h hcd) h'.columns
  have hshared : List.Forall₂ Same (between a b).shared (between a' b').shared :=
    List.rel_map (fun c d hcd => Column.same_name hcd) (same_columns h' h id)
  show (_ == _ && (_ == _ && (_ == _ && (_ == _ && (_ == _ && (_ == _ && _ == _)))))) = true
  simp only [Bool.and_eq_true_iff]
  exact ⟨same_renamed h.name h'.name, list_beq_of_same (same_columns h' h not),
    list_beq_of_same (same_columns h h' not), list_beq_of_same hchanged,
    list_beq_of_same hshared, list_beq_of_same (same_constraints h' h),
    list_beq_of_same (same_constraints h h')⟩

end Delta

/-- **Comparing cannot tell tables with equal parts apart**, on neither side. -/
theorem Comparison.same_of {a a' b b' : Table} (h : a.SameParts a') (h' : b.SameParts b') :
    Same (Comparison.of a b) (Comparison.of a' b') := by
  by_cases hequal : a.SameSchema b
  · have hequal' := h.sameSchema.symm.trans (hequal.trans h'.sameSchema)
    rw [of_eq_equivalent_iff.2 hequal, of_eq_equivalent_iff.2 hequal']
    rfl
  · have hequal' : ¬a'.SameSchema b' := fun heq =>
      hequal (h.sameSchema.trans (heq.trans h'.sameSchema.symm))
    rw [of_eq_divergent_iff.2 ⟨hequal, rfl⟩, of_eq_divergent_iff.2 ⟨hequal', rfl⟩]
    exact Delta.same_between h h'

end TableRebuild
