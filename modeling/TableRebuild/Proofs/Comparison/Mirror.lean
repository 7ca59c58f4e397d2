import TableRebuild.Proofs.Comparison.Delta

/-!
# A comparison from the other side

Two tables can be compared in both directions. The comparison is not written symmetrically: it goes
through the columns of the target and looks each of them up in the actual table, and goes through
the columns of the actual table only for those that are left. So the two deltas come from different
loops, and still the one is the mirror image of the other (`Delta.Mirrors`).

What only one table has is found in that table, in its order, from whichever side it is looked for.
These lists change places and are otherwise the same. What both tables have is listed in the order
of the target and spelled as there, and so it is the same in another order. For the names that are
shared that is equality of names only, but for the changed columns it is equality outright, since a
change keeps both of its columns as they are.
-/

namespace TableRebuild

/-- The change in the other direction. -/
def Redefinition.flip (r : Redefinition) : Redefinition := ⟨r.target, r.actual⟩

theorem Redefinition.flip_flip (r : Redefinition) : r.flip.flip = r := rfl

theorem Column.sameDefinition_comm (c d : Column) : c.sameDefinition d = d.sameDefinition c := by
  rw [Bool.eq_iff_iff]
  exact ⟨sameDefinition_symm, sameDefinition_symm⟩

namespace Delta

/-- `e` is what becomes of `d` if the two tables change places. -/
structure Mirrors (d e : Delta) : Prop where
  renamed : e.renamed = d.renamed.map Prod.swap
  added : e.added = d.removed
  removed : e.removed = d.added
  changed : e.changed.Perm (d.changed.map Redefinition.flip)
  shared : SameUpToOrder e.shared d.shared
  addedConstraints : e.addedConstraints = d.removedConstraints
  removedConstraints : e.removedConstraints = d.addedConstraints

/-- The delta accounts for every column of the actual table `a` and the target `b`: each of them is
    in one list only or is shared, and what is shared is changed or unchanged. -/
structure Accounts (d : Delta) (a b : Table) : Prop where
  changed : (d.changed.map Redefinition.name).Sublist d.shared
  unchanged : d.unchanged.Sublist d.shared
  disjoint : ∀ r ∈ d.changed, ∀ n ∈ d.unchanged, (r.name == n) = false
  covered : (d.changed.map Redefinition.name ++ d.unchanged).Perm d.shared
  differs : ∀ r ∈ d.changed, r.typeChanged = true ∨ r.constraintsChanged = true
  target : d.added.length + d.shared.length = b.columns.length
  actual : d.removed.length + d.shared.length = a.columns.length

variable {a b : Table}

/-! ## Changes from both sides -/

theorem flip_mem_changed_between {r : Redefinition} :
    r.flip ∈ (between b a).changed ↔ r ∈ (between a b).changed := by
  have hone : ∀ {a b : Table} {r : Redefinition}, r ∈ (between a b).changed →
      r.flip ∈ (between b a).changed := by
    intro a b r h
    obtain ⟨hactual, htarget, hname, hdef⟩ := mem_changed_between.1 h
    rw [Column.sameDefinition_comm] at hdef
    exact mem_changed_between.2 ⟨htarget, hactual, PartialEquivBEq.symm hname, hdef⟩
  exact ⟨fun h => hone h, fun h => hone h⟩

/-- No column is changed twice. -/
theorem nodup_changed_between : (between a b).changed.Nodup := by
  have hnames : ((between a b).changed.map Redefinition.name).Sublist (between a b).shared := by
    rw [names_changed_between]
    exact List.filter_sublist
  have hkeys := nodup_shared_between.sublist (hnames.map Name.folded)
  exact List.Nodup.of_map _ (List.Nodup.of_map _ hkeys)

theorem changed_between_perm_flip :
    (between b a).changed.Perm ((between a b).changed.map Redefinition.flip) := by
  have hflip : Function.Injective Redefinition.flip :=
    Function.LeftInverse.injective Redefinition.flip_flip
  apply (List.perm_ext_iff_of_nodup nodup_changed_between
    (nodup_changed_between.map hflip)).2
  intro r
  rw [List.mem_map]
  constructor
  · intro h
    exact ⟨r.flip, flip_mem_changed_between.2 h, r.flip_flip⟩
  · intro h
    obtain ⟨s, hs, rfl⟩ := h
    exact flip_mem_changed_between.2 hs

/-! ## The mirror image -/

theorem renamed_between_swap :
    (between b a).renamed = (between a b).renamed.map Prod.swap := by
  have hcomm : (b.name == a.name) = (a.name == b.name) := BEq.comm
  simp only [between, hcomm]
  cases a.name == b.name with
  | false => rfl
  | true => rfl

/-- **The delta in the other direction is the mirror image.** -/
theorem mirrors_between (a b : Table) : (between a b).Mirrors (between b a) where
  renamed := renamed_between_swap
  added := rfl
  removed := rfl
  changed := changed_between_perm_flip
  shared := shared_between_comm
  addedConstraints := rfl
  removedConstraints := rfl

/-- **A delta accounts for all columns.** -/
theorem accounts_between (a b : Table) : (between a b).Accounts a b where
  changed := by
    rw [names_changed_between]
    exact List.filter_sublist
  unchanged := List.filter_sublist
  disjoint := by
    intro r hr n hn
    have hnone := (List.mem_filter.1 hn).2
    rw [Bool.not_eq_true', List.any_eq_false] at hnone
    exact Bool.eq_false_iff.2 (hnone r hr)
  covered := by
    rw [names_changed_between]
    exact List.filter_append_perm _ _
  differs := by
    intro r hr
    obtain ⟨-, -, -, hdef⟩ := mem_changed_between.1 hr
    rw [Column.sameDefinition, Bool.and_eq_false_iff] at hdef
    rw [Redefinition.typeChanged, Redefinition.constraintsChanged, Bool.not_eq_true',
      Bool.not_eq_true']
    exact hdef
  target := length_target_between
  actual := length_actual_between

end Delta

namespace Comparison

/-- The comparisons of `a` with `b` and of `b` with `a` have the same outcome. If there are deltas,
    they are mirror images, and each accounts for all columns of the tables it is between. -/
inductive Mirrored (a b : Table) : Comparison → Comparison → Prop
  | equivalent : Mirrored a b .equivalent .equivalent
  | divergent {d e : Delta} (hmirrors : d.Mirrors e) (hthere : d.Accounts a b)
      (hback : e.Accounts b a) : Mirrored a b (.divergent d) (.divergent e)

/-- **Comparing in the other direction gives the mirror image.** -/
theorem mirrored_of (a b : Table) : Mirrored a b (of a b) (of b a) := by
  by_cases hsame : a.SameSchema b
  · rw [of_eq_equivalent_iff.2 hsame, of_eq_equivalent_iff.2 hsame.symm]
    exact .equivalent
  · have hsame' : ¬b.SameSchema a := fun h => hsame h.symm
    rw [of_eq_divergent_iff.2 ⟨hsame, rfl⟩, of_eq_divergent_iff.2 ⟨hsame', rfl⟩]
    exact .divergent (Delta.mirrors_between a b) (Delta.accounts_between a b)
      (Delta.accounts_between b a)

end Comparison
end TableRebuild
