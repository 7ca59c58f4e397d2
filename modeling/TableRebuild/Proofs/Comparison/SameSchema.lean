import Mathlib.Tactic.TFAE
import TableRebuild.Proofs.Plan.Rebuild
import TableRebuild.Proofs.Table.Lookup

/-!
# When two tables are the same

There are three ways to ask whether two tables are the same, and they are three different programs:
`==` compares numbers of columns and looks the columns of one table up in the other; a comparison
computes seven lists of differences and asks whether six of them are empty; a plan is empty or is
not. None of them is written symmetrically.

`Table.SameSchema` is what they are all about: the same name, and columns and constraints that are
the same sets. It is an equivalence because `==` is one on names, columns and fragments, and this
is the only place where that has to be used. The programs are then compared with it, one by one.
-/

namespace TableRebuild
namespace Table

/-- Both tables hold the same data in the same way: equal names, and columns and constraints that
    are the same in any order and number. -/
structure SameSchema (a b : Table) : Prop where
  name : (a.name == b.name) = true
  columns : b.Includes a
  columns' : a.Includes b
  constraints : ∀ f ∈ a.constraints, ∃ g ∈ b.constraints, (f == g) = true
  constraints' : ∀ g ∈ b.constraints, ∃ f ∈ a.constraints, (g == f) = true

namespace SameSchema

variable {a b c : Table}

theorem refl (a : Table) : a.SameSchema a where
  name := ReflBEq.rfl
  columns := .refl a
  columns' := .refl a
  constraints f hf := ⟨f, hf, ReflBEq.rfl⟩
  constraints' f hf := ⟨f, hf, ReflBEq.rfl⟩

theorem symm (h : a.SameSchema b) : b.SameSchema a where
  name := PartialEquivBEq.symm h.name
  columns := h.columns'
  columns' := h.columns
  constraints := h.constraints'
  constraints' := h.constraints

theorem trans (h : a.SameSchema b) (h' : b.SameSchema c) : a.SameSchema c where
  name := PartialEquivBEq.trans h.name h'.name
  columns := h.columns.trans h'.columns
  columns' := h'.columns'.trans h.columns'
  constraints f hf := by
    obtain ⟨g, hg, hfg⟩ := h.constraints f hf
    obtain ⟨k, hk, hgk⟩ := h'.constraints g hg
    exact ⟨k, hk, PartialEquivBEq.trans hfg hgk⟩
  constraints' k hk := by
    obtain ⟨g, hg, hkg⟩ := h'.constraints' k hk
    obtain ⟨f, hf, hgf⟩ := h.constraints' g hg
    exact ⟨f, hf, PartialEquivBEq.trans hkg hgf⟩

/-- Tables with the same columns have columns of the same names. -/
theorem mem_keys_iff (h : a.SameSchema b) {key : String} : key ∈ a.keys ↔ key ∈ b.keys :=
  ⟨fun hkey => h.columns.keys_subset hkey, fun hkey => h.columns'.keys_subset hkey⟩

theorem hasColumn (h : a.SameSchema b) (n : Name) : a.hasColumn n = b.hasColumn n := by
  rw [Bool.eq_iff_iff, hasColumn_iff_mem_keys, hasColumn_iff_mem_keys]
  exact h.mem_keys_iff

end SameSchema

/-! ## Equality -/

theorem sameElements_eq_true_iff {α : Type} [BEq α] {as bs : List α} :
    sameElements as bs = true ↔
      (∀ a ∈ as, ∃ b ∈ bs, (a == b) = true) ∧ ∀ b ∈ bs, ∃ a ∈ as, (b == a) = true := by
  simp only [sameElements, Bool.and_eq_true_iff, List.all_eq_true, List.contains_iff_exists_mem_beq]

/-- **Equality of tables is equality of sets.** Comparing the numbers of columns is as good as
    looking in the other direction too, because no name occurs twice. -/
theorem beq_eq_true_iff {a b : Table} : (a == b) = true ↔ a.SameSchema b := by
  simp only [beq_def, Bool.and_eq_true_iff, beq_iff_eq, columnsWithin_eq_true_iff,
    sameElements_eq_true_iff]
  constructor
  · rintro ⟨⟨⟨hname, hlength⟩, hcolumns⟩, hconstraints⟩
    have hcolumns' := hcolumns.symm_of_length_le (Nat.le_of_eq hlength.symm)
    exact ⟨hname, hcolumns, hcolumns', hconstraints.1, hconstraints.2⟩
  · intro h
    have hlength := Nat.le_antisymm h.columns.length_le h.columns'.length_le
    exact ⟨⟨⟨h.name, hlength⟩, h.columns⟩, h.constraints, h.constraints'⟩

end Table

/-! ## Comparison -/

namespace Delta

variable {a b : Table}

theorem renamed_between_isNone : (between a b).renamed.isNone = (a.name == b.name) := by
  rw [between]
  cases a.name == b.name <;> rfl

theorem changeOf?_eq_some_iff {d : Column} {r : Redefinition} : changeOf? a d = some r ↔
    r.target = d ∧ r.actual ∈ a.columns ∧ (r.actual.name == d.name) = true ∧
      r.actual.sameDefinition d = false := by
  constructor
  · intro hchange
    unfold changeOf? at hchange
    split at hchange
    · rename_i old hold
      obtain ⟨hmem, hname⟩ := Table.column?_eq_some_iff.1 hold
      split at hchange
      · exact absurd hchange (by simp)
      · rename_i hdef
        obtain rfl := Option.some.inj hchange
        exact ⟨rfl, hmem, hname, by simpa using hdef⟩
    · exact absurd hchange (by simp)
  · rintro ⟨rfl, hactual, hname, hdef⟩
    have hfind := Table.column?_eq_some_iff.2 ⟨hactual, hname⟩
    simp [changeOf?, hfind, hdef]

/-- A column is changed if both tables have it, and not in the same way. -/
theorem mem_changed_between {c : Redefinition} : c ∈ (between a b).changed ↔
    c.actual ∈ a.columns ∧ c.target ∈ b.columns ∧ (c.actual.name == c.target.name) = true ∧
      c.actual.sameDefinition c.target = false := by
  simp only [between, List.mem_filterMap, changeOf?_eq_some_iff]
  constructor
  · rintro ⟨d, hd, rfl, hactual, hname, hdef⟩
    exact ⟨hactual, hd, hname, hdef⟩
  · rintro ⟨hactual, htarget, hname, hdef⟩
    exact ⟨c.target, htarget, rfl, hactual, hname, hdef⟩

theorem addedConstraints_between_eq_nil_iff : (between a b).addedConstraints = [] ↔
    ∀ g ∈ b.constraints, ∃ f ∈ a.constraints, (g == f) = true := by
  simp only [between, List.filter_eq_nil_iff, Bool.not_eq_true', Bool.not_eq_false,
    List.contains_iff_exists_mem_beq]

theorem removedConstraints_between_eq_nil_iff : (between a b).removedConstraints = [] ↔
    ∀ f ∈ a.constraints, ∃ g ∈ b.constraints, (f == g) = true := by
  simp only [between, List.filter_eq_nil_iff, Bool.not_eq_true', Bool.not_eq_false,
    List.contains_iff_exists_mem_beq]

theorem added_between_eq_nil_iff : (between a b).added = [] ↔
    ∀ d ∈ b.columns, a.hasColumn d.name = true := by
  simp [between]

theorem removed_between_eq_nil_iff : (between a b).removed = [] ↔
    ∀ c ∈ a.columns, b.hasColumn c.name = true := by
  simp [between]

/-- With nothing added and nothing changed, the target has no column of its own. -/
theorem includes_of_between (hadded : (between a b).added = [])
    (hchanged : (between a b).changed = []) : a.Includes b := by
  intro d hd
  obtain ⟨c, hc, hname⟩ :=
    Table.hasColumn_eq_true_iff.1 (added_between_eq_nil_iff.1 hadded d hd)
  refine ⟨c, hc, ?_⟩
  have hdef : c.sameDefinition d = true := by
    by_contra hno
    have hmem : ⟨c, d⟩ ∈ (between a b).changed :=
      mem_changed_between.2 ⟨hc, hd, hname, by simpa using hno⟩
    rw [hchanged] at hmem
    exact absurd hmem (by simp)
  rw [Column.beq_def, Bool.and_eq_true_iff]
  exact ⟨PartialEquivBEq.symm hname, Column.sameDefinition_symm hdef⟩

theorem changed_between_of_includes (h : a.Includes b) : (between a b).changed = [] := by
  rw [List.eq_nil_iff_forall_not_mem]
  intro r hmem
  obtain ⟨hactual, htarget, hname, hdef⟩ := mem_changed_between.1 hmem
  have hsame := h.beq_of_name htarget hactual (PartialEquivBEq.symm hname)
  rw [Column.beq_def, Bool.and_eq_true_iff] at hsame
  rw [Column.sameDefinition_symm hsame.2] at hdef
  exact absurd hdef (by simp)

/-- **Nothing differs exactly between tables that are the same.** -/
theorem isEmpty_between : (between a b).isEmpty = true ↔ a.SameSchema b := by
  simp only [isEmpty, Bool.and_eq_true_iff, renamed_between_isNone, List.isEmpty_iff]
  constructor
  · rintro ⟨⟨⟨⟨⟨hname, hadded⟩, hremoved⟩, hchanged⟩, haddedConstraints⟩, hremovedConstraints⟩
    have hincludes := includes_of_between hadded hchanged
    exact ⟨hname, hincludes.symm_of_hasColumn (removed_between_eq_nil_iff.1 hremoved), hincludes,
      removedConstraints_between_eq_nil_iff.1 hremovedConstraints,
      addedConstraints_between_eq_nil_iff.1 haddedConstraints⟩
  · intro h
    refine ⟨⟨⟨⟨⟨h.name, ?_⟩, ?_⟩, changed_between_of_includes h.columns'⟩,
      addedConstraints_between_eq_nil_iff.2 h.constraints'⟩,
      removedConstraints_between_eq_nil_iff.2 h.constraints⟩
    · exact added_between_eq_nil_iff.2 h.columns'.hasColumn
    · exact removed_between_eq_nil_iff.2 h.columns.hasColumn

end Delta

namespace Comparison

variable {a b : Table}

theorem of_eq_equivalent_iff : Comparison.of a b = .equivalent ↔ a.SameSchema b := by
  rw [← Delta.isEmpty_between, Comparison.of]
  cases (Delta.between a b).isEmpty <;> simp

theorem of_eq_divergent_iff {d : Delta} :
    Comparison.of a b = .divergent d ↔ ¬a.SameSchema b ∧ d = Delta.between a b := by
  rw [← Delta.isEmpty_between, Comparison.of]
  cases (Delta.between a b).isEmpty <;> simp [eq_comm]

end Comparison

theorem Plan.between_eq_nil_iff {o : RebuildOptions} {a b : Table} :
    between o a b = [] ↔ a.SameSchema b := by
  rw [← Comparison.of_eq_equivalent_iff]
  cases h : Comparison.of a b with
  | equivalent => simp [between_of_equivalent h]
  | divergent d =>
    rw [between_of_divergent h]
    simp [rebuild]

/-! ## All the same -/

/-- **Equality, comparison and planning agree**, with each other, with themselves in the other
    direction and with equality of sets; and so all of them are equivalences. -/
theorem Table.sameSchema_tfae :
    (∀ (o : RebuildOptions) (a b : Table), List.TFAE [
      Comparison.of a b = .equivalent,
      (a == b) = true,
      (b == a) = true,
      a.SameSchema b,
      Plan.between o a b = []]) ∧
    Equivalence fun a b : Table => (a == b) = true := by
  constructor
  · intro o a b
    tfae_have 1 ↔ 4 := Comparison.of_eq_equivalent_iff
    tfae_have 2 ↔ 4 := Table.beq_eq_true_iff
    tfae_have 3 ↔ 4 := by
      rw [Table.beq_eq_true_iff]
      exact ⟨SameSchema.symm, SameSchema.symm⟩
    tfae_have 5 ↔ 4 := Plan.between_eq_nil_iff
    tfae_finish
  · simp only [Table.beq_eq_true_iff]
    exact ⟨SameSchema.refl, SameSchema.symm, SameSchema.trans⟩

end TableRebuild
