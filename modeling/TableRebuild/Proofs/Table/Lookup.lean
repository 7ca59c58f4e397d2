import Mathlib.Data.List.Nodup
import Mathlib.Data.List.Perm.Subperm
import TableRebuild.Table.Basic

/-!
# Columns by name

A look-up takes the first column of a name, and there is no second one. So looking a column up is
the same as having it (`column?_eq_some_iff`), and nothing that is said of columns by name depends
on their order.

The one argument here that is more than unfolding is about numbers. If every column of one table is
in another table that has no more columns than the first, then every column of the other is in the
first (`Includes.symm_of_length_le`): different columns are found at different places, and there are
no places left over.
-/

namespace TableRebuild
namespace Table

variable {t u v : Table} {n m : Name} {c d : Column}

/-- The folded names of the columns. -/
def keys (t : Table) : List String := t.columns.map (·.name.folded)

theorem nodup_keys (t : Table) : t.keys.Nodup := by
  refine List.pairwise_map.2 (t.distinct.imp ?_)
  intro a b hab heq
  rw [Name.beq_eq_true_iff.2 heq] at hab
  exact absurd hab (by simp)

theorem eq_of_name (hc : c ∈ t.columns) (hd : d ∈ t.columns) (h : (c.name == d.name) = true) :
    c = d :=
  List.inj_on_of_nodup_map t.nodup_keys hc hd (Name.beq_eq_true_iff.1 h)

theorem of_column?_eq_some (h : t.column? n = some c) :
    c ∈ t.columns ∧ (c.name == n) = true := by
  rw [column?_eq_find?] at h
  have hname := List.find?_some h
  exact ⟨List.mem_of_find?_eq_some h, hname⟩

theorem column?_eq_some_iff : t.column? n = some c ↔ c ∈ t.columns ∧ (c.name == n) = true := by
  refine ⟨of_column?_eq_some, ?_⟩
  rintro ⟨hc, hn⟩
  cases hfind : t.column? n with
  | none =>
    rw [column?_eq_find?] at hfind
    exact absurd hn (List.find?_eq_none.1 hfind c hc)
  | some d =>
    obtain ⟨hmem, hd⟩ := of_column?_eq_some hfind
    have hcd : (c.name == d.name) = true := PartialEquivBEq.trans hn (PartialEquivBEq.symm hd)
    rw [eq_of_name hc hmem hcd]

theorem hasColumn_eq_true_iff :
    t.hasColumn n = true ↔ ∃ c ∈ t.columns, (c.name == n) = true := by
  rw [hasColumn_eq_isSome, Option.isSome_iff_exists]
  exact exists_congr fun _ => column?_eq_some_iff

theorem hasColumn_of_mem (h : c ∈ t.columns) : t.hasColumn c.name = true :=
  hasColumn_eq_true_iff.2 ⟨c, h, ReflBEq.rfl⟩

theorem hasColumn_iff_mem_keys : t.hasColumn n = true ↔ n.folded ∈ t.keys := by
  rw [hasColumn_eq_true_iff, keys, List.mem_map]
  apply exists_congr
  intro c
  rw [Name.beq_eq_true_iff]

/-- Which spelling of a name is looked up makes no difference. -/
theorem hasColumn_congr (h : (n == m) = true) : t.hasColumn n = t.hasColumn m := by
  rw [Bool.eq_iff_iff, hasColumn_eq_true_iff, hasColumn_eq_true_iff]
  constructor
  · rintro ⟨c, hc, hn⟩
    exact ⟨c, hc, PartialEquivBEq.trans hn h⟩
  · rintro ⟨c, hc, hm⟩
    exact ⟨c, hc, PartialEquivBEq.trans hm (PartialEquivBEq.symm h)⟩

/-! ## Columns of one table in another -/

/-- Every column of `t` is a column of `u`, in the sense of `==`. -/
def Includes (u t : Table) : Prop := ∀ c ∈ t.columns, ∃ d ∈ u.columns, (c == d) = true

theorem columnsWithin_eq_true_iff : t.columnsWithin u = true ↔ u.Includes t := by
  rw [columnsWithin, List.all_eq_true]
  refine forall₂_congr ?_
  intro c _
  rw [Option.any_eq_true]
  constructor
  · rintro ⟨d, hd, hdef⟩
    obtain ⟨hmem, hname⟩ := column?_eq_some_iff.1 hd
    refine ⟨d, hmem, ?_⟩
    rw [Column.beq_def, Bool.and_eq_true_iff]
    exact ⟨PartialEquivBEq.symm hname, hdef⟩
  · rintro ⟨d, hmem, hcd⟩
    rw [Column.beq_def, Bool.and_eq_true_iff] at hcd
    exact ⟨d, column?_eq_some_iff.2 ⟨hmem, PartialEquivBEq.symm hcd.1⟩, hcd.2⟩

theorem Includes.refl (t : Table) : t.Includes t := fun c hc => ⟨c, hc, ReflBEq.rfl⟩

theorem Includes.trans (h : u.Includes t) (h' : v.Includes u) : v.Includes t := by
  intro c hc
  obtain ⟨d, hd, hcd⟩ := h c hc
  obtain ⟨e, he, hde⟩ := h' d hd
  exact ⟨e, he, PartialEquivBEq.trans hcd hde⟩

theorem Includes.hasColumn (h : u.Includes t) : ∀ c ∈ t.columns, u.hasColumn c.name = true := by
  intro c hc
  obtain ⟨d, hd, hcd⟩ := h c hc
  rw [Column.beq_def, Bool.and_eq_true_iff] at hcd
  exact hasColumn_eq_true_iff.2 ⟨d, hd, PartialEquivBEq.symm hcd.1⟩

theorem Includes.keys_subset (h : u.Includes t) : t.keys ⊆ u.keys := by
  intro k hk
  obtain ⟨c, hc, rfl⟩ := List.mem_map.1 hk
  obtain ⟨d, hd, hcd⟩ := h c hc
  rw [Column.beq_def, Bool.and_eq_true_iff] at hcd
  rw [Name.beq_eq_true_iff.1 hcd.1]
  exact List.mem_map_of_mem hd

theorem Includes.length_le (h : u.Includes t) : t.columns.length ≤ u.columns.length := by
  have hle := (List.subperm_of_subset t.nodup_keys h.keys_subset).length_le
  rwa [keys, keys, List.length_map, List.length_map] at hle

/-- A column and the column of its name in a table that includes it are equal. -/
theorem Includes.beq_of_name (h : u.Includes t) (hc : c ∈ t.columns) (hd : d ∈ u.columns)
    (hname : (c.name == d.name) = true) : (c == d) = true := by
  obtain ⟨e, he, hce⟩ := h c hc
  -- The column that `c` is found at has the name of `d`, and so it is `d`.
  have hde : (d.name == e.name) = true := by
    rw [Column.beq_def, Bool.and_eq_true_iff] at hce
    exact PartialEquivBEq.trans (PartialEquivBEq.symm hname) hce.1
  rw [eq_of_name hd he hde]
  exact hce

/-- Where names go both ways, columns do. -/
theorem Includes.symm_of_hasColumn (h : u.Includes t)
    (hnames : ∀ d ∈ u.columns, t.hasColumn d.name = true) : t.Includes u := by
  intro d hd
  obtain ⟨c, hc, hname⟩ := hasColumn_eq_true_iff.1 (hnames d hd)
  exact ⟨c, hc, PartialEquivBEq.symm (h.beq_of_name hc hd hname)⟩

/-- **No places are left over**: a table that includes another and is no longer is included. -/
theorem Includes.symm_of_length_le (h : u.Includes t)
    (hle : u.columns.length ≤ t.columns.length) : t.Includes u := by
  have hperm : t.keys.Perm u.keys := by
    refine (List.subperm_of_subset t.nodup_keys h.keys_subset).perm_of_length_le ?_
    rwa [keys, keys, List.length_map, List.length_map]
  apply h.symm_of_hasColumn
  intro d hd
  have hkey : d.name.folded ∈ t.keys := hperm.mem_iff.2 (List.mem_map_of_mem hd)
  obtain ⟨c, hc, hname⟩ := List.mem_map.1 hkey
  exact hasColumn_eq_true_iff.2 ⟨c, hc, Name.beq_eq_true_iff.2 hname⟩

end Table
end TableRebuild
