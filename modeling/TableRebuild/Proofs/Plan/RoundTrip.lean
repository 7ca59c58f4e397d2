import TableRebuild.Proofs.Comparison.SameSchema
import TableRebuild.Proofs.Migration
import TableRebuild.Proofs.Name
import TableRebuild.Proofs.Statement.CreateTable

/-!
# The first statement of a plan, read again

A plan begins by creating the target under another name. This file reads that statement back. What
comes out is the target but for its name (`Table.IsCopy`): the same columns in the same order with
the same spelling, the same types and clauses, the same constraints, the same options, each with the
text it had in the statement that the target was read from.

It follows that one rebuild is enough. Compared with the target, the table that was created differs
in its name and in nothing else, and under the target's name it does not differ at all
(`Plan.parse_create`).
-/

namespace TableRebuild
namespace Table

/-- A table with the parts of `t`, another name, and nothing that a statement may say besides. -/
structure IsCopy (t : Table) (n : Name) (r : Table) : Prop where
  name : r.name = n
  schema : r.schema = none
  temporary : r.temporary = false
  ifNotExists : r.ifNotExists = false
  columns : r.columns.map Column.unplaced = t.columns.map Column.unplaced
  constraints : r.constraints.map Fragment.unplaced = t.constraints.map Fragment.unplaced
  options : r.options.unplaced = t.options.unplaced

variable {t r : Table} {n : Name}

/-- The entries of a table, columns first. -/
def entries (t : Table) : List Entry :=
  t.columns.map Entry.column ++ t.constraints.map Entry.constraint

theorem columns_entries (t : Table) : t.entries.filterMap Entry.column? = t.columns := by
  rw [entries, List.filterMap_append, Entry.columns_map_column, Entry.columns_map_constraint,
    List.append_nil]

theorem constraints_entries (t : Table) :
    t.entries.filterMap Entry.constraint? = t.constraints := by
  rw [entries, List.filterMap_append, Entry.constraints_map_column,
    Entry.constraints_map_constraint, List.nil_append]

theorem Printable.entries (h : t.Printable) : ∀ e ∈ t.entries, e.Printable := by
  intro e he
  rcases List.mem_append.1 he with he | he
  · obtain ⟨c, hc, rfl⟩ := List.mem_map.1 he
    exact h.columns c hc
  · obtain ⟨f, hf, rfl⟩ := List.mem_map.1 he
    exact h.constraints f hf

/-- What is printed of a table is read as the table, under whatever name it is printed. -/
theorem Printable.exists_parse (h : t.Printable) (n : Name) :
    ∃ r, parse ("CREATE TABLE " ++ n.quoted ++ Statement.definition t.entries t.options) = .ok r ∧
      t.IsCopy n r := by
  have hcolumns := columns_entries t
  have hconstraints := constraints_entries t
  obtain ⟨r, hr, hplain⟩ := exists_parse_create n h.entries (by rw [hcolumns]; exact t.distinct)
    (by rw [hcolumns]; exact h.ne_nil) h.options h.allowed
  refine ⟨r, hr, hplain.name, hplain.schema, hplain.temporary, hplain.ifNotExists, ?_, ?_,
    hplain.options⟩
  · rw [hplain.columns, hcolumns]
  · rw [hplain.constraints, hconstraints]

/-! ## A copy compared with its original -/

theorem exists_beq_of_map_perm {α β : Type} [BEq α] {f : α → β} {as bs : List α}
    (hbeq : ∀ {a b : α}, f a = f b → (a == b) = true) (h : (as.map f).Perm (bs.map f)) {a : α}
    (ha : a ∈ as) : ∃ b ∈ bs, (a == b) = true := by
  have hmem : f a ∈ bs.map f := h.mem_iff.1 (List.mem_map_of_mem ha)
  obtain ⟨b, hb, heq⟩ := List.mem_map.1 hmem
  exact ⟨b, hb, hbeq heq.symm⟩

/-- Tables with the same columns, but for order and places, include each other. -/
theorem includes_of_perm
    (h : (r.columns.map Column.unplaced).Perm (t.columns.map Column.unplaced)) :
    t.Includes r ∧ r.Includes t :=
  ⟨fun _ hc => exists_beq_of_map_perm Column.beq_of_unplaced_eq h hc,
    fun _ hc => exists_beq_of_map_perm Column.beq_of_unplaced_eq h.symm hc⟩

theorem sameConstraints_of_perm
    (h : (r.constraints.map Fragment.unplaced).Perm (t.constraints.map Fragment.unplaced)) :
    (∀ f ∈ r.constraints, ∃ g ∈ t.constraints, (f == g) = true) ∧
      ∀ g ∈ t.constraints, ∃ f ∈ r.constraints, (g == f) = true :=
  ⟨fun _ hf => exists_beq_of_map_perm Fragment.beq_of_unplaced_eq h hf,
    fun _ hg => exists_beq_of_map_perm Fragment.beq_of_unplaced_eq h.symm hg⟩

theorem IsCopy.includes (h : t.IsCopy n r) : t.Includes r ∧ r.Includes t :=
  includes_of_perm (.of_eq h.columns)

theorem IsCopy.sameConstraints (h : t.IsCopy n r) :
    (∀ f ∈ r.constraints, ∃ g ∈ t.constraints, (f == g) = true) ∧
      ∀ g ∈ t.constraints, ∃ f ∈ r.constraints, (g == f) = true :=
  sameConstraints_of_perm (.of_eq h.constraints)

theorem IsCopy.sameSchema (h : t.IsCopy n r) (hname : (n == t.name) = true) : r.SameSchema t where
  name := by
    rw [h.name]
    exact hname
  columns := h.includes.1
  columns' := h.includes.2
  constraints := h.sameConstraints.1
  constraints' := h.sameConstraints.2

end Table

/-- The two tables differ in their names and in nothing else. -/
structure Delta.IsRename (a b : Table) (d : Delta) : Prop where
  renamed : d.renamed = some (a.name, b.name)
  added : d.added = []
  removed : d.removed = []
  changed : d.changed = []
  addedConstraints : d.addedConstraints = []
  removedConstraints : d.removedConstraints = []

/-- A copy under another name differs from the original in the name. -/
theorem Table.IsCopy.exists_rename {t r : Table} {n : Name} (h : t.IsCopy n r)
    (hname : (n == t.name) = false) :
    ∃ d, Comparison.of r t = .divergent d ∧ d.IsRename r t := by
  have hr : (r.name == t.name) = false := by
    rw [h.name]
    exact hname
  have hnot : ¬r.SameSchema t := by
    intro hsame
    exact absurd hsame.name (by simp [hr])
  obtain ⟨hincludes, hincludes'⟩ := h.includes
  obtain ⟨hconstraints, hconstraints'⟩ := h.sameConstraints
  refine ⟨Delta.between r t, Comparison.of_eq_divergent_iff.2 ⟨hnot, rfl⟩, ?_, ?_, ?_, ?_, ?_, ?_⟩
  · simp [Delta.between, hr]
  · exact Delta.added_between_eq_nil_iff.2 hincludes'.hasColumn
  · exact Delta.removed_between_eq_nil_iff.2 hincludes.hasColumn
  · exact Delta.changed_between_of_includes hincludes'
  · exact Delta.addedConstraints_between_eq_nil_iff.2 hconstraints'
  · exact Delta.removedConstraints_between_eq_nil_iff.2 hconstraints

/-! ## The round trip -/

/-- **A rebuild creates the target.** The first statement of a plan is read as a copy of the target,
    under the temporary name. Compared with the target it has been renamed and nothing else, and
    with the target's name in place of the temporary one it is equivalent to the target. -/
theorem Plan.parse_create {o : RebuildOptions} {actual target : Table} {text : String} {d : Delta}
    (htarget : Table.parse text = .ok target)
    (hdiffer : Comparison.of actual target = .divergent d) :
    ∃ create rest tail r s, between o actual target = create :: rest ∧
      create.sql = "CREATE TABLE " ++ r.name.quoted ++ tail ∧
      Table.parse create.sql = .ok r ∧ target.IsCopy (target.name.prepend o.tempPrefix) r ∧
      (o.tempPrefix ≠ "" → ∃ e, Comparison.of r target = .divergent e ∧ e.IsRename r target) ∧
      Table.parse ("CREATE TABLE " ++ target.name.quoted ++ tail) = .ok s ∧
      Comparison.of s target = .equivalent := by
  have hprintable := Table.printable_of_parse htarget
  obtain ⟨r, hr, hcopy⟩ := hprintable.exists_parse (target.name.prepend o.tempPrefix)
  obtain ⟨s, hs, hcopy'⟩ := hprintable.exists_parse target.name
  have hsql := Statement.sql_createTable (target.name.prepend o.tempPrefix) target.columns
    target.constraints target.options
  refine ⟨_, _, Statement.definition target.entries target.options, r, s,
    between_of_divergent hdiffer, ?_, ?_, hcopy, ?_, hs, ?_⟩
  · rw [hcopy.name]
    exact hsql
  · rw [hsql]
    exact hr
  · intro hfront
    exact hcopy.exists_rename (Name.prepend_beq_self hfront _)
  · exact Comparison.of_eq_equivalent_iff.2 (hcopy'.sameSchema ReflBEq.rfl)

/-- A target with a comment in a clause, a quote in a name and much else that is not carried over,
    and a prefix that ends with a quote and a line break. -/
theorem Plan.parse_create_of_quoted_prefix : ∃ actual target d,
    Table.parse "CREATE TABLE todo (id INTEGER)" = .ok actual ∧
    Table.parse "create temp table if not exists main.[My todo] (id INTEGER PRIMARY KEY /* first */
      DESC, \"say\"\"so\" TEXT DEFAULT 'x' NOT NULL, UNIQUE (id)) WITHOUT ROWID" = .ok target ∧
    Comparison.of actual target = .divergent d ∧
    ∃ create rest tail r s,
      between { tempPrefix := "new \"\n" } actual target = create :: rest ∧
      create.sql = "CREATE TABLE " ++ r.name.quoted ++ tail ∧
      Table.parse create.sql = .ok r ∧ target.IsCopy (target.name.prepend "new \"\n") r ∧
      ("new \"\n" ≠ "" → ∃ e, Comparison.of r target = .divergent e ∧ e.IsRename r target) ∧
      Table.parse ("CREATE TABLE " ++ target.name.quoted ++ tail) = .ok s ∧
      Comparison.of s target = .equivalent := by
  have hsql : migrationSql "CREATE TABLE todo (id INTEGER)"
      "create temp table if not exists main.[My todo] (id INTEGER PRIMARY KEY /* first */
      DESC, \"say\"\"so\" TEXT DEFAULT 'x' NOT NULL, UNIQUE (id)) WITHOUT ROWID" = .ok [
      "CREATE TABLE \"__temp_My todo\" (\"id\" INTEGER PRIMARY KEY /* first */
      DESC, \"say\"\"so\" TEXT DEFAULT 'x' NOT NULL, UNIQUE (id)) WITHOUT ROWID",
      "INSERT INTO \"__temp_My todo\" (\"id\") SELECT \"id\" FROM \"todo\"",
      "DROP TABLE \"todo\"",
      "ALTER TABLE \"__temp_My todo\" RENAME TO \"My todo\""] := by decide +kernel
  obtain ⟨actual, target, d, hactual, htarget, hdiffer, -⟩ := exists_of_migrationSql hsql
  exact ⟨actual, target, d, hactual, htarget, hdiffer,
    parse_create (o := { tempPrefix := "new \"\n" }) htarget hdiffer⟩

end TableRebuild
