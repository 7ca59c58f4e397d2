import TableRebuild.Proofs.Comparison.Delta
import TableRebuild.Proofs.Migration
import TableRebuild.Proofs.Table.Entry

/-!
# Applying a delta

A delta is what there is to do. `Delta.apply` does it: it takes the actual table and builds another
one, with the new name, without what is removed, with the new definition of what is changed and with
what is added behind the rest. What comes out is the target (`Delta.exists_apply`), though not in
the order of the target.

So nothing is missing in a delta and nothing is in a wrong list. A column that were in no list would
be missing in the table that is built, and a column in two lists would be there twice. The second
could not happen silently, as no table has two columns of one name: the table would not be built at
all. That it is built is half of the result.
-/

namespace TableRebuild
namespace Delta

/-- What becomes of a column of the actual table, if it is not removed. -/
def redefine (d : Delta) (c : Column) : Column :=
  match d.changed.find? (·.name == c.name) with
  | some r => r.target
  | none => c

def nameAfter (d : Delta) (a : Table) : Name :=
  match d.renamed with
  | some (_, new) => new
  | none => a.name

/-- The columns that are kept, then those that are added. -/
def columnsAfter (d : Delta) (a : Table) : List Column :=
  (a.columns.filter fun c => !d.removed.any (·.name == c.name)).map d.redefine ++ d.added

/-- The constraints that are kept, then those that are added. -/
def constraintsAfter (d : Delta) (a : Table) : List Fragment :=
  (a.constraints.filter fun f => !d.removedConstraints.contains f) ++ d.addedConstraints

/-- The table that the delta makes of `a`, or the first column that was refused on the way. -/
def apply (d : Delta) (a : Table) : Except Column Table := do
  let t ← (d.columnsAfter a).foldlM Table.addColumn (.new (d.nameAfter a))
  return (d.constraintsAfter a).foldl Table.addConstraint t

/-- A table is built if the columns that it is to have can stand in one table. -/
theorem exists_apply_of_distinct {d : Delta} {a : Table}
    (hdistinct : (d.columnsAfter a).Pairwise fun c e => (c.name == e.name) = false) :
    ∃ u, d.apply a = .ok u ∧ u.name = d.nameAfter a ∧ u.columns = d.columnsAfter a ∧
      u.constraints = d.constraintsAfter a := by
  obtain ⟨t, ht⟩ : ∃ t, (Table.new (d.nameAfter a)).Extends ((d.columnsAfter a).map .column) t := by
    apply Table.exists_extends
    rw [Entry.columns_map_column]
    exact hdistinct
  have hu := ht.trans (Table.extends_foldl_addConstraint t (d.constraintsAfter a))
  refine ⟨(d.constraintsAfter a).foldl Table.addConstraint t, ?_, hu.name, ?_, ?_⟩
  · rw [apply, Table.foldlM_addColumn_eq_ok_iff.2 ht]
    rfl
  · rw [hu.columns, List.filterMap_append, Entry.columns_map_column,
      Entry.columns_map_constraint, List.append_nil]
    rfl
  · rw [hu.constraints, List.filterMap_append, Entry.constraints_map_column,
      Entry.constraints_map_constraint]
    rfl

variable {a b : Table} {c e : Column}

/-! ## The name -/

theorem nameAfter_between : ((between a b).nameAfter a == b.name) = true := by
  cases hname : a.name == b.name with
  | true =>
    simp only [nameAfter, between, hname]
    exact hname
  | false =>
    simp only [nameAfter, between, hname]
    exact ReflBEq.rfl

/-! ## The columns -/

/-- A column is replaced by the new definition of a changed column of its name, or there is no such
    column and it stays what it is. -/
theorem redefine_cases (d : Delta) (c : Column) :
    (∃ r ∈ d.changed, (r.name == c.name) = true ∧ d.redefine c = r.target) ∨
      (∀ r ∈ d.changed, (r.name == c.name) = false) ∧ d.redefine c = c := by
  unfold redefine
  split
  · rename_i r hr
    have hname := List.find?_some hr
    exact .inl ⟨r, List.mem_of_find?_eq_some hr, hname, rfl⟩
  · rename_i hnone
    refine .inr ⟨?_, rfl⟩
    intro r hr
    exact Bool.eq_false_iff.2 (List.find?_eq_none.1 hnone r hr)

/-- A column keeps its name, whatever the delta says of it. -/
theorem name_redefine (d : Delta) (c : Column) : ((d.redefine c).name == c.name) = true := by
  rcases redefine_cases d c with ⟨r, -, hname, hr⟩ | ⟨-, hc⟩
  · rw [hr]
    exact hname
  · rw [hc]
    exact ReflBEq.rfl

/-- **A column that both tables have becomes that of the target.** -/
theorem redefine_between (hc : c ∈ a.columns) (he : e ∈ b.columns)
    (hname : (c.name == e.name) = true) : ((between a b).redefine c == e) = true := by
  rcases redefine_cases (between a b) c with ⟨r, hr, hrc, hredefine⟩ | ⟨hnone, hredefine⟩
  · -- There is one column of that name in the target.
    obtain ⟨-, htarget, -, -⟩ := mem_changed_between.1 hr
    rw [hredefine, Table.eq_of_name htarget he (PartialEquivBEq.trans hrc hname)]
    exact ReflBEq.rfl
  · -- It is not changed, and so it has the definition that it has in the target.
    have hdef : c.sameDefinition e = true := by
      by_contra hno
      have hmem : ⟨c, e⟩ ∈ (between a b).changed :=
        mem_changed_between.2 ⟨hc, he, hname, Bool.eq_false_iff.2 hno⟩
      exact Bool.eq_false_iff.1 (hnone _ hmem) (PartialEquivBEq.symm hname)
    rw [hredefine, Column.beq_def, hname, hdef]
    rfl

theorem any_removed_between (hc : c ∈ a.columns) :
    (between a b).removed.any (·.name == c.name) = !b.hasColumn c.name := by
  rw [Bool.eq_iff_iff, Bool.not_eq_true', List.any_eq_true]
  constructor
  · intro h
    obtain ⟨e, he, hname⟩ := h
    rw [← Table.hasColumn_congr hname]
    exact (mem_removed_between.1 he).2
  · intro h
    exact ⟨c, mem_removed_between.2 ⟨hc, h⟩, ReflBEq.rfl⟩

theorem mem_columnsAfter_between : e ∈ (between a b).columnsAfter a ↔
    (∃ c ∈ a.columns, b.hasColumn c.name = true ∧ (between a b).redefine c = e) ∨
      e ∈ b.columns ∧ a.hasColumn e.name = false := by
  rw [columnsAfter, List.mem_append, List.mem_map, mem_added_between]
  apply or_congr_left
  apply exists_congr
  intro c
  rw [List.mem_filter, and_assoc]
  apply and_congr_right
  intro hc
  rw [any_removed_between hc, Bool.not_not]

/-- No two of the columns have one name. -/
theorem distinct_columnsAfter_between : ((between a b).columnsAfter a).Pairwise
    fun c e => (c.name == e.name) = false := by
  rw [columnsAfter, List.pairwise_append, List.pairwise_map]
  refine ⟨?_, b.distinct.filter _, ?_⟩
  · refine (a.distinct.filter _).imp ?_
    intro c e hce
    rw [Bool.eq_false_iff] at hce ⊢
    intro hsame
    apply hce
    have hc := name_redefine (between a b) c
    have he := name_redefine (between a b) e
    exact PartialEquivBEq.trans (PartialEquivBEq.symm hc) (PartialEquivBEq.trans hsame he)
  · intro c hc e he
    obtain ⟨k, hk, rfl⟩ := List.mem_map.1 hc
    rw [Bool.eq_false_iff]
    intro hsame
    -- The added column would have the name of a column of the actual table.
    have hname := PartialEquivBEq.trans (PartialEquivBEq.symm (name_redefine (between a b) k)) hsame
    have hhas := Table.hasColumn_of_mem (List.mem_of_mem_filter hk)
    rw [Table.hasColumn_congr hname, (mem_added_between.1 he).2] at hhas
    exact absurd hhas Bool.false_ne_true

/-- Every column that there is after the delta is one of the target. -/
theorem columnsAfter_between_subset (hc : c ∈ (between a b).columnsAfter a) :
    ∃ e ∈ b.columns, (c == e) = true := by
  rcases mem_columnsAfter_between.1 hc with ⟨k, hk, hhas, rfl⟩ | ⟨hmem, -⟩
  · obtain ⟨e, he, hname⟩ := Table.hasColumn_eq_true_iff.1 hhas
    exact ⟨e, he, redefine_between hk he (PartialEquivBEq.symm hname)⟩
  · exact ⟨c, hmem, ReflBEq.rfl⟩

/-- Every column of the target is there after the delta. -/
theorem subset_columnsAfter_between (he : e ∈ b.columns) :
    ∃ c ∈ (between a b).columnsAfter a, (e == c) = true := by
  cases hhas : a.hasColumn e.name with
  | false => exact ⟨e, mem_columnsAfter_between.2 (.inr ⟨he, hhas⟩), ReflBEq.rfl⟩
  | true =>
    obtain ⟨k, hk, hname⟩ := Table.hasColumn_eq_true_iff.1 hhas
    have hkept : b.hasColumn k.name = true :=
      Table.hasColumn_eq_true_iff.2 ⟨e, he, PartialEquivBEq.symm hname⟩
    exact ⟨(between a b).redefine k, mem_columnsAfter_between.2 (.inl ⟨k, hk, hkept, rfl⟩),
      PartialEquivBEq.symm (redefine_between hk he hname)⟩

/-! ## The constraints -/

/-- The constraints after the delta are those of the target, in any order and number. -/
theorem contains_constraintsAfter_between (f : Fragment) :
    ((between a b).constraintsAfter a).contains f = b.constraints.contains f := by
  have hkept : (a.constraints.filter fun g => !(between a b).removedConstraints.contains g).contains
      f = (a.constraints.contains f && !(between a b).removedConstraints.contains f) := by
    apply contains_filter
    intro g hfg
    rw [List.contains_congr hfg]
  rw [constraintsAfter, List.contains_append, hkept, contains_removedConstraints_between,
    contains_addedConstraints_between]
  cases a.constraints.contains f <;> cases b.constraints.contains f <;> rfl

/-! ## The table -/

/-- **The delta between two tables makes the second of the first.** -/
theorem exists_apply_between (a b : Table) :
    ∃ u, (between a b).apply a = .ok u ∧ u.SameSchema b := by
  obtain ⟨u, hu, hname, hcolumns, hconstraints⟩ :=
    exists_apply_of_distinct (distinct_columnsAfter_between (a := a) (b := b))
  have hsame : sameElements u.constraints b.constraints = true := by
    rw [hconstraints, sameElements_iff_contains]
    exact contains_constraintsAfter_between
  obtain ⟨hthere, hback⟩ := Table.sameElements_eq_true_iff.1 hsame
  refine ⟨u, hu, ?_, ?_, ?_, hthere, hback⟩
  · rw [hname]
    exact nameAfter_between
  · intro c hc
    rw [hcolumns] at hc
    exact columnsAfter_between_subset hc
  · intro e he
    rw [hcolumns]
    exact subset_columnsAfter_between he

/-- **A delta is complete.** Where two tables differ, what differs can be applied to the actual table
    without a column being refused on the way, and the table that comes out is the target. -/
theorem exists_apply {d : Delta} (h : Comparison.of a b = .divergent d) :
    ∃ u, d.apply a = .ok u ∧ (u == b) = true ∧ Comparison.of u b = .equivalent ∧
      Comparison.of b u = .equivalent := by
  obtain ⟨-, rfl⟩ := Comparison.of_eq_divergent_iff.1 h
  obtain ⟨u, hu, hsame⟩ := exists_apply_between a b
  exact ⟨u, hu, Table.beq_eq_true_iff.2 hsame, Comparison.of_eq_equivalent_iff.2 hsame,
    Comparison.of_eq_equivalent_iff.2 hsame.symm⟩

/-- Two tables that differ in everything that a delta lists, with a column that is only spelled in
    another way, a constraint that is there twice and one that is kept. -/
theorem exists_apply_of_all_lists : ∃ a b d,
    Table.parse "CREATE TABLE t (a INT, b TEXT, c, UNIQUE (a), CHECK (a > 0), unique(\"A\"))" =
      .ok a ∧
    Table.parse "CREATE TABLE u (d, B TEXT UNIQUE, [A] int, check (A > 0), UNIQUE (b))" = .ok b ∧
    Comparison.of a b = .divergent d ∧
    ∃ u, d.apply a = .ok u ∧ (u == b) = true ∧ Comparison.of u b = .equivalent ∧
      Comparison.of b u = .equivalent := by
  have hsql : migrationSql
      "CREATE TABLE t (a INT, b TEXT, c, UNIQUE (a), CHECK (a > 0), unique(\"A\"))"
      "CREATE TABLE u (d, B TEXT UNIQUE, [A] int, check (A > 0), UNIQUE (b))" = .ok [
      "CREATE TABLE \"__temp_u\" (\"d\", \"B\" TEXT UNIQUE, \"A\" int, check (A > 0), UNIQUE (b))",
      "INSERT INTO \"__temp_u\" (\"B\", \"A\") SELECT \"B\", \"A\" FROM \"t\"",
      "DROP TABLE \"t\"",
      "ALTER TABLE \"__temp_u\" RENAME TO \"u\""] := by decide +kernel
  obtain ⟨a, b, d, ha, hb, hdiffer, -⟩ := exists_of_migrationSql hsql
  exact ⟨a, b, d, ha, hb, hdiffer, exists_apply hdiffer⟩

end Delta
end TableRebuild
