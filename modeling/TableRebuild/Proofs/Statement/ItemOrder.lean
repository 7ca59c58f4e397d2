import TableRebuild.Proofs.Plan.RoundTrip

/-!
# The order of the items

The items of a table, its columns and its constraints, can be written in a statement in any order,
and constraints can stand between columns. Whatever the order is, the statement is read as a table
that has the columns and the constraints in the order in which they are written, and that is
equivalent to the first one (`Table.exists_parse_of_perm`).

There are two reasons, and they have nothing to do with each other. The first is that an item that
was read is read again as what it was, next to whatever other item, since there is a comma between
them and what it is depends on its own tokens only. The second is that tables are compared as sets.
-/

namespace TableRebuild
namespace Table

variable {n : Name} {t r : Table} {items : List Entry} {options : Fragment}

/-! ## Entries in another order -/

theorem columns_perm (h : items.Perm t.entries) :
    (items.filterMap Entry.column?).Perm t.columns := by
  have hperm := h.filterMap Entry.column?
  rwa [columns_entries] at hperm

theorem constraints_perm (h : items.Perm t.entries) :
    (items.filterMap Entry.constraint?).Perm t.constraints := by
  have hperm := h.filterMap Entry.constraint?
  rwa [constraints_entries] at hperm

/-- In whatever order they are, the columns of a table have different names. -/
theorem distinct_of_perm (h : items.Perm t.entries) : (items.filterMap Entry.column?).Pairwise
    fun a b => (a.name == b.name) = false := by
  refine ((columns_perm h).pairwise_iff ?_).2 t.distinct
  intro a b hab
  rw [BEq.comm]
  exact hab

/-- A table with the entries of another one is the same, whatever their order is. -/
theorem IsPlain.sameSchema (h : IsPlain n items options r) (hitems : items.Perm t.entries)
    (hname : (n == t.name) = true) : r.SameSchema t := by
  have hcolumns : (r.columns.map Column.unplaced).Perm (t.columns.map Column.unplaced) := by
    rw [h.columns]
    exact (columns_perm hitems).map _
  have hconstraints :
      (r.constraints.map Fragment.unplaced).Perm (t.constraints.map Fragment.unplaced) := by
    rw [h.constraints]
    exact (constraints_perm hitems).map _
  obtain ⟨hincludes, hincludes'⟩ := includes_of_perm hcolumns
  obtain ⟨hthere, hback⟩ := sameConstraints_of_perm hconstraints
  refine ⟨?_, hincludes, hincludes', hthere, hback⟩
  rw [h.name]
  exact hname

/-! ## Statements -/

theorem definition_empty (items : List Entry) : Statement.definition items .empty =
    " (" ++ Statement.commaSeparated (items.map Entry.text) ++ ")" := by
  rw [Statement.definition]
  exact String.append_empty

/-- **The order of the items makes no difference.** The items of a table that was read can be written
    in any order. The statement is read as a table of the same name that has the columns and the
    constraints in the order of the items, and nothing that a statement may say besides; and in both
    directions there is nothing to do to get from the one table to the other. -/
theorem exists_parse_of_perm {text : String} (ht : parse text = .ok t)
    (hitems : items.Perm t.entries) :
    ∃ r, parse ("CREATE TABLE " ++ t.name.quoted ++
        " (" ++ Statement.commaSeparated (items.map Entry.text) ++ ")") = .ok r ∧
      IsPlain t.name items .empty r ∧ Comparison.of t r = .equivalent ∧
      Comparison.of r t = .equivalent := by
  have hprintable := printable_of_parse ht
  have hentries : ∀ e ∈ items, e.Printable := by
    intro e he
    exact hprintable.entries e (hitems.mem_iff.1 he)
  have hne : items.filterMap Entry.column? ≠ [] := by
    intro hnil
    have hperm := columns_perm hitems
    rw [hnil] at hperm
    exact hprintable.ne_nil hperm.symm.eq_nil
  obtain ⟨r, hr, hplain⟩ := exists_parse_create t.name hentries (distinct_of_perm hitems) hne
    Fragment.legible_empty (.inl rfl)
  have hsame := hplain.sameSchema hitems ReflBEq.rfl
  refine ⟨r, ?_, hplain, Comparison.of_eq_equivalent_iff.2 hsame.symm,
    Comparison.of_eq_equivalent_iff.2 hsame⟩
  rw [definition_empty, ← String.append_assoc, ← String.append_assoc] at hr
  exact hr

/-- The items of a table in reverse, so that the constraints come first, with a comment that holds a
    comma and a parenthesis. -/
theorem exists_parse_of_perm_reverse : ∃ text t,
    text = "CREATE TEMP TABLE main.t (a INT NOT NULL, [b c] DECIMAL(10, 2), UNIQUE (a),
      CHECK (a /* , ) */ > 0)) STRICT" ∧
    parse text = .ok t ∧ t.entries.reverse.Perm t.entries ∧
    ∃ r, parse ("CREATE TABLE " ++ t.name.quoted ++
        " (" ++ Statement.commaSeparated (t.entries.reverse.map Entry.text) ++ ")") = .ok r ∧
      IsPlain t.name t.entries.reverse .empty r ∧ Comparison.of t r = .equivalent ∧
      Comparison.of r t = .equivalent := by
  refine ⟨"CREATE TEMP TABLE main.t (a INT NOT NULL, [b c] DECIMAL(10, 2), UNIQUE (a),
      CHECK (a /* , ) */ > 0)) STRICT", ?_⟩
  generalize htext : "CREATE TEMP TABLE main.t (a INT NOT NULL, [b c] DECIMAL(10, 2), UNIQUE (a),
      CHECK (a /* , ) */ > 0)) STRICT" = text
  have hok : (parse text).isOk = true := by
    rw [← htext]
    decide +kernel
  cases hparse : parse text with
  | error e =>
    rw [hparse] at hok
    exact absurd hok Bool.false_ne_true
  | ok t =>
    have hreverse : t.entries.reverse.Perm t.entries := List.reverse_perm _
    exact ⟨t, rfl, rfl, hreverse, exists_parse_of_perm hparse hreverse⟩

end Table
end TableRebuild
