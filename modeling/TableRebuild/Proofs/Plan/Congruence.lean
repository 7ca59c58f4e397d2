import TableRebuild.Proofs.Comparison.Delta
import TableRebuild.Proofs.Migration

/-!
# Equal tables have equal plans

Tables that are equal may differ in much: in the order of columns and constraints, in how often a
constraint is there, in case and quotes, in where one clause ends and the next begins, and in all
that equality does not look at. A plan that starts from one of them is equal to the plan that starts
from the other (`Plan.between_congr`), so it does not matter which of two descriptions of the live
table one has.

The reason is that of the actual table only its name and its columns' names get into a plan, and of
these the target decides order and spelling. The delta between the tables says more, and there the
difference can be seen: what is removed is listed as the actual table has it, that is, in another
order and, for constraints, perhaps another number of times (`Delta.Matches`).

Everything the comparison does with the actual table is looking something up in it, and each of
these look-ups has its own lemma here.
-/

namespace TableRebuild

/-! ## What is looked up in an actual table -/

theorem Column.sameDefinition_congr {c d : Column} (h : (c == d) = true) (e : Column) :
    c.sameDefinition e = d.sameDefinition e := by
  rw [beq_def, Bool.and_eq_true_iff] at h
  rw [Bool.eq_iff_iff]
  exact ⟨sameDefinition_trans (sameDefinition_symm h.2), sameDefinition_trans h.2⟩

theorem Redefinition.beq_def (r s : Redefinition) :
    (r == s) = (r.actual == s.actual && r.target == s.target) := rfl

namespace Table.SameSchema

variable {a a' : Table}

/-- The same is found under a name, or nothing is. -/
theorem rel_column? (h : a.SameSchema a') (n : Name) :
    Option.Rel (fun c d => (c == d) = true) (a.column? n) (a'.column? n) := by
  have hhas := h.hasColumn n
  rw [Table.hasColumn_eq_isSome, Table.hasColumn_eq_isSome] at hhas
  cases hfind : a.column? n with
  | none =>
    rw [hfind] at hhas
    rw [Option.isNone_iff_eq_none.1 (Option.isSome_eq_false_iff.1 hhas.symm)]
    exact .none
  | some c =>
    rw [hfind] at hhas
    obtain ⟨d, hfind'⟩ := Option.isSome_iff_exists.1 hhas.symm
    obtain ⟨hc, hname⟩ := column?_eq_some_iff.1 hfind
    obtain ⟨hd, hname'⟩ := column?_eq_some_iff.1 hfind'
    rw [hfind']
    have hcd := PartialEquivBEq.trans hname (PartialEquivBEq.symm hname')
    exact .some (h.columns.beq_of_name hc hd hcd)

theorem contains_constraints (h : a.SameSchema a') (f : Fragment) :
    a.constraints.contains f = a'.constraints.contains f :=
  sameElements_iff_contains.1 (sameElements_eq_true_iff.2 ⟨h.constraints, h.constraints'⟩) f

end Table.SameSchema

/-! ## Deltas -/

namespace Delta

/-- The deltas are equal, list by list and in order, except for what they list as the actual table
    has it: the removed columns are equal in some order, and the removed constraints as sets. -/
structure Matches (d e : Delta) : Prop where
  renamed : (d.renamed == e.renamed) = true
  added : d.added = e.added
  removed : SameUpToOrder d.removed e.removed
  changed : List.Forall₂ (fun r s => (r == s) = true) d.changed e.changed
  shared : d.shared = e.shared
  addedConstraints : d.addedConstraints = e.addedConstraints
  removedConstraints : sameElements d.removedConstraints e.removedConstraints = true

variable {a a' b : Table}

theorem renamed_congr (h : (a.name == a'.name) = true) :
    ((between a b).renamed == (between a' b).renamed) = true := by
  have hiff : (a.name == b.name) = (a'.name == b.name) := by
    rw [Bool.eq_iff_iff]
    exact ⟨PartialEquivBEq.trans (PartialEquivBEq.symm h), PartialEquivBEq.trans h⟩
  simp only [between, hiff]
  cases a'.name == b.name with
  | true => rfl
  | false =>
    show (a.name == a'.name && b.name == b.name) = true
    rw [h, ReflBEq.rfl]
    rfl

/-- A column of the target is changed from equal columns, or from none. -/
theorem changeOf?_congr (h : a.SameSchema a') (e : Column) :
    Option.Rel (fun r s => (r == s) = true) (changeOf? a e) (changeOf? a' e) := by
  have hfind := h.rel_column? e.name
  unfold changeOf?
  generalize a.column? e.name = x at hfind
  generalize a'.column? e.name = y at hfind
  cases hfind with
  | none => exact .none
  | @some c d hcd =>
    simp only [Column.sameDefinition_congr hcd e]
    cases d.sameDefinition e with
    | true => exact .none
    | false =>
      refine .some ?_
      rw [Redefinition.beq_def, hcd, ReflBEq.rfl]
      rfl

theorem changed_congr (h : a.SameSchema a') :
    List.Forall₂ (fun r s => (r == s) = true) (between a b).changed (between a' b).changed := by
  have hstep : Relator.LiftFun Eq (Option.Rel fun r s => (r == s) = true) (changeOf? a)
      (changeOf? a') := by
    intro e e' heq
    rw [← heq]
    exact changeOf?_congr h e
  exact List.rel_filterMap hstep (List.forall₂_refl b.columns)

theorem removed_congr (h : a.SameSchema a') :
    SameUpToOrder (between a b).removed (between a' b).removed := by
  apply sameUpToOrder_of_keys (·.name.folded)
  · apply (List.perm_ext_iff_of_nodup nodup_removed_between nodup_removed_between).2
    intro key
    rw [mem_keys_removed_between, mem_keys_removed_between, h.mem_keys_iff]
  · intro c hc d hd hkey
    exact h.columns.beq_of_name (mem_removed_between.1 hc).1 (mem_removed_between.1 hd).1
      (Name.beq_eq_true_iff.2 hkey)

/-- **Equal actual tables have matching deltas.** -/
theorem matches_between (h : a.SameSchema a') (b : Table) :
    (between a b).Matches (between a' b) where
  renamed := renamed_congr h.name
  added := by simp only [between, h.hasColumn]
  removed := removed_congr h
  changed := changed_congr h
  shared := by simp only [between, h.hasColumn]
  addedConstraints := by simp only [between, h.contains_constraints]
  removedConstraints := by
    rw [sameElements_iff_contains]
    intro f
    rw [contains_removedConstraints_between, contains_removedConstraints_between,
      h.contains_constraints]

end Delta

/-- The comparisons have the same outcome, and if they have deltas, these match. -/
inductive Comparison.Matches : Comparison → Comparison → Prop
  | equivalent : Matches .equivalent .equivalent
  | divergent {d e : Delta} (h : d.Matches e) : Matches (.divergent d) (.divergent e)

/-! ## Plans -/

theorem Statement.createTable_beq_self (name : Name) (columns : List Column)
    (constraints : List Fragment) (options : Fragment) :
    (createTable name columns constraints options ==
      createTable name columns constraints options) = true := by
  show (name == name && (columns == columns && (constraints == constraints &&
    options == options))) = true
  simp

theorem Statement.copyRows_beq (into source into' source' : Name) (columns columns' : List Name) :
    (copyRows into source columns == copyRows into' source' columns') =
      (into == into' && (source == source' && columns == columns')) := rfl

theorem Statement.dropTable_beq (name name' : Name) :
    (dropTable name == dropTable name') = (name == name') := rfl

theorem Statement.renameTable_beq (source target source' target' : Name) :
    (renameTable source target == renameTable source' target') =
      (source == source' && target == target') := rfl

namespace Plan

/-- Of the actual table and the delta only the name and the shared columns get into a plan. -/
theorem rebuild_congr {a a' : Table} {d e : Delta} (hname : (a.name == a'.name) = true)
    (hshared : d.shared = e.shared) (o : RebuildOptions) (b : Table) :
    (rebuild o a b d == rebuild o a' b e) = true := by
  unfold rebuild
  rw [hshared]
  split <;> simp [Statement.createTable_beq_self, Statement.copyRows_beq, Statement.dropTable_beq,
    Statement.renameTable_beq, hname]

/-- **Planning cannot tell equal actual tables apart**, and comparing can do so only by the order
    and number of what is removed. -/
theorem between_congr {a a' : Table} (h : (a == a') = true) (o : RebuildOptions) (b : Table) :
    (between o a b == between o a' b) = true ∧
      Comparison.Matches (Comparison.of a b) (Comparison.of a' b) := by
  have hsame := Table.beq_eq_true_iff.1 h
  by_cases hequal : a.SameSchema b
  · have hab := Comparison.of_eq_equivalent_iff.2 hequal
    have hab' := Comparison.of_eq_equivalent_iff.2 (hsame.symm.trans hequal)
    rw [between_of_equivalent hab, between_of_equivalent hab', hab, hab']
    exact ⟨rfl, .equivalent⟩
  · have hequal' : ¬a'.SameSchema b := fun h' => hequal (hsame.trans h')
    have hab := Comparison.of_eq_divergent_iff.2 ⟨hequal, rfl⟩
    have hab' := Comparison.of_eq_divergent_iff.2 ⟨hequal', rfl⟩
    have hmatches := Delta.matches_between hsame b
    rw [between_of_divergent hab, between_of_divergent hab', hab, hab']
    exact ⟨rebuild_congr hsame.name hmatches.shared o b, .divergent hmatches⟩

/-- Two statements for one table, of which the second has the columns and constraints in another
    order, one constraint twice, other letters and quotes, and what equality does not look at. -/
theorem between_congr_of_reordered : ∃ a a' b d,
    Table.parse "CREATE TABLE t (a INT, b TEXT NOT NULL, UNIQUE (a))" = .ok a ∧
    Table.parse "create temp table [T] (unique (a), \"B\" text not /**/ null, A int, UNIQUE(A))
      strict" = .ok a' ∧
    Table.parse "CREATE TABLE t (c, b TEXT)" = .ok b ∧
    (a == a') = true ∧ Comparison.of a b = .divergent d ∧
    (between {} a b == between {} a' b) = true ∧
      Comparison.Matches (Comparison.of a b) (Comparison.of a' b) := by
  have hsame : migrationSql "CREATE TABLE t (a INT, b TEXT NOT NULL, UNIQUE (a))"
      "create temp table [T] (unique (a), \"B\" text not /**/ null, A int, UNIQUE(A))
      strict" = .ok [] := by decide +kernel
  have hdiffer : migrationSql "CREATE TABLE t (a INT, b TEXT NOT NULL, UNIQUE (a))"
      "CREATE TABLE t (c, b TEXT)" = .ok [
      "CREATE TABLE \"__temp_t\" (\"c\", \"b\" TEXT)",
      "INSERT INTO \"__temp_t\" (\"b\") SELECT \"b\" FROM \"t\"",
      "DROP TABLE \"t\"",
      "ALTER TABLE \"__temp_t\" RENAME TO \"t\""] := by decide +kernel
  obtain ⟨a, a', ha, ha', hnone⟩ := migrationSql_eq_ok_iff.1 hsame
  obtain ⟨c, b, d, hc, hb, hdivergent, -⟩ := exists_of_migrationSql hdiffer
  obtain rfl : a = c := by
    rw [ha] at hc
    exact Except.ok.inj hc
  have hequal : (a == a') = true :=
    Table.beq_eq_true_iff.2 (between_eq_nil_iff.1 (List.map_eq_nil_iff.1 hnone))
  exact ⟨a, a', b, d, ha, ha', hb, hequal, hdivergent, between_congr hequal {} b⟩

end Plan
end TableRebuild
