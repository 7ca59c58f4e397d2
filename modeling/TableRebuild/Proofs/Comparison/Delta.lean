import Mathlib.Data.List.Forall2
import TableRebuild.Proofs.Comparison.SameSchema

/-!
# What a delta lists

A delta between two tables has seven lists, and each of them is a selection: from the columns of one
table, by whether the other has a column of that name, or from the constraints of one table, by
whether the other has an equal one. This file says what is selected, list by list, and how the
lists fit together. The columns of the target are the added and the shared ones, the columns of the
actual table are the removed and the shared ones, and of the shared ones some are changed and the
others are not (`Delta.names_changed_between`).

Which columns are shared is a question about two sets of names, and it has the same answer from
both sides. In which order they are listed and how they are spelled depends on the side. So lists
that come from different sides can only be compared up to order (`SameUpToOrder`).
-/

namespace TableRebuild

/-! ## Lists up to order and number -/

/-- The lists hold equal elements, if perhaps in another order. -/
def SameUpToOrder {α : Type} [BEq α] (as bs : List α) : Prop :=
  ∃ cs, as.Perm cs ∧ List.Forall₂ (fun c b => (c == b) = true) cs bs

theorem SameUpToOrder.length_eq {α : Type} [BEq α] {as bs : List α} (h : SameUpToOrder as bs) :
    as.length = bs.length := by
  obtain ⟨cs, hperm, hcs⟩ := h
  exact hperm.length_eq.trans hcs.length_eq

/-- Two lists can be compared by keys: if they have the same keys, and elements with one key are
    equal, the one can be brought into the order of the other. -/
theorem sameUpToOrder_of_keys {α κ : Type} [BEq α] {as bs : List α} (key : α → κ)
    (hkeys : (as.map key).Perm (bs.map key))
    (hsame : ∀ a ∈ as, ∀ b ∈ bs, key a = key b → (a == b) = true) : SameUpToOrder as bs := by
  have hgraph : List.Forall₂ (fun a k => key a = k) as (as.map key) := by
    rw [List.forall₂_map_right_iff, List.forall₂_same]
    intro a _
    rfl
  have hcomp : Relation.Comp (List.Forall₂ fun a k => key a = k) List.Perm as (bs.map key) :=
    ⟨as.map key, hgraph, hkeys⟩
  rw [List.forall₂_comp_perm_eq_perm_comp_forall₂] at hcomp
  obtain ⟨cs, hperm, hcs⟩ := hcomp
  rw [List.forall₂_map_right_iff] at hcs
  refine ⟨cs, hperm, ?_⟩
  -- What is paired are elements of the two lists, and these are equal if their keys are.
  have hmem : List.Forall₂ (fun c b => c ∈ as ∧ key c = key b) cs bs :=
    (List.forall₂_and_left _ _).2 ⟨fun c hc => hperm.mem_iff.2 hc, hcs⟩
  have hmem' : List.Forall₂ (fun b c => b ∈ bs ∧ c ∈ as ∧ key c = key b) bs cs :=
    (List.forall₂_and_left _ _).2 ⟨fun b hb => hb, hmem.flip⟩
  refine hmem'.flip.imp ?_
  intro c b h
  exact hsame c h.2.1 b h.1 h.2.2

/-- A selection that goes by `==` has, up to `==`, what is in the list and is selected. -/
theorem contains_filter {α : Type} [BEq α] [EquivBEq α] {p : α → Bool} {xs : List α} {x : α}
    (hp : ∀ {y : α}, (x == y) = true → p x = p y) :
    (xs.filter p).contains x = (xs.contains x && p x) := by
  rw [Bool.eq_iff_iff, Bool.and_eq_true_iff, List.contains_iff_exists_mem_beq,
    List.contains_iff_exists_mem_beq]
  constructor
  · intro h
    obtain ⟨y, hy, hxy⟩ := h
    obtain ⟨hmem, hpy⟩ := List.mem_filter.1 hy
    exact ⟨⟨y, hmem, hxy⟩, (hp hxy).trans hpy⟩
  · intro h
    obtain ⟨⟨y, hy, hxy⟩, hpx⟩ := h
    exact ⟨y, List.mem_filter.2 ⟨hy, (hp hxy).symm.trans hpx⟩, hxy⟩

theorem forall_mem_contains_iff {α : Type} [BEq α] [EquivBEq α] {as bs : List α} :
    (∀ a ∈ as, bs.contains a = true) ↔ ∀ x, as.contains x = true → bs.contains x = true := by
  constructor
  · intro h x hx
    obtain ⟨a, ha, hxa⟩ := List.contains_iff_exists_mem_beq.1 hx
    rw [List.contains_congr hxa]
    exact h a ha
  · intro h a ha
    exact h a (List.contains_iff_exists_mem_beq.2 ⟨a, ha, ReflBEq.rfl⟩)

/-- Lists are the same sets if they contain the same. -/
theorem sameElements_iff_contains {α : Type} [BEq α] [EquivBEq α] {as bs : List α} :
    sameElements as bs = true ↔ ∀ x, as.contains x = bs.contains x := by
  rw [sameElements, Bool.and_eq_true_iff, List.all_eq_true, List.all_eq_true,
    forall_mem_contains_iff, forall_mem_contains_iff, ← forall_and]
  apply forall_congr'
  intro x
  exact iff_iff_implies_and_implies.symm.trans Bool.eq_iff_iff.symm

namespace Delta

variable {a b : Table} {n : Name} {c : Column} {f : Fragment}

/-! ## Columns of one table only -/

theorem mem_added_between :
    c ∈ (between a b).added ↔ c ∈ b.columns ∧ a.hasColumn c.name = false := by
  simp [between]

theorem mem_removed_between :
    c ∈ (between a b).removed ↔ c ∈ a.columns ∧ b.hasColumn c.name = false := by
  simp [between]

/-- No column is removed twice, up to case. -/
theorem nodup_removed_between : ((between a b).removed.map (·.name.folded)).Nodup :=
  a.nodup_keys.sublist (List.filter_sublist.map _)

/-- The names of the removed columns are those that only the actual table has. -/
theorem mem_keys_removed_between {key : String} :
    key ∈ (between a b).removed.map (·.name.folded) ↔ key ∈ a.keys ∧ key ∉ b.keys := by
  rw [List.mem_map, Table.keys, List.mem_map, ← exists_and_right]
  apply exists_congr
  intro c
  rw [mem_removed_between, Bool.eq_false_iff, ne_eq, Table.hasColumn_iff_mem_keys]
  constructor
  · intro h
    obtain ⟨⟨hc, hno⟩, hkey⟩ := h
    exact ⟨⟨hc, hkey⟩, hkey ▸ hno⟩
  · intro h
    obtain ⟨⟨hc, hkey⟩, hno⟩ := h
    exact ⟨⟨hc, hkey.symm ▸ hno⟩, hkey⟩

/-! ## Columns of both tables -/

theorem mem_shared_between : n ∈ (between a b).shared ↔
    ∃ c ∈ b.columns, a.hasColumn c.name = true ∧ c.name = n := by
  simp [between, and_assoc]

theorem shared_between_ne_nil_iff : (between a b).shared ≠ [] ↔
    ∃ c ∈ b.columns, a.hasColumn c.name = true := by
  simp [between]

/-- No column is shared twice, up to case. -/
theorem nodup_shared_between : ((between a b).shared.map Name.folded).Nodup := by
  have hsublist : ((between a b).shared.map Name.folded).Sublist b.keys := by
    rw [between, List.map_map]
    exact List.filter_sublist.map _
  exact b.nodup_keys.sublist hsublist

theorem hasColumn_of_mem_shared (h : n ∈ (between a b).shared) :
    b.hasColumn n = true ∧ a.hasColumn n = true := by
  obtain ⟨c, hc, hactual, rfl⟩ := mem_shared_between.1 h
  exact ⟨Table.hasColumn_of_mem hc, hactual⟩

/-- The names that are shared are those that both tables have. -/
theorem mem_keys_shared_between {key : String} :
    key ∈ (between a b).shared.map Name.folded ↔ key ∈ a.keys ∧ key ∈ b.keys := by
  rw [List.mem_map]
  constructor
  · intro h
    obtain ⟨n, hn, hkey⟩ := h
    obtain ⟨htarget, hactual⟩ := hasColumn_of_mem_shared hn
    rw [Table.hasColumn_iff_mem_keys, hkey] at htarget hactual
    exact ⟨hactual, htarget⟩
  · intro h
    obtain ⟨c, hc, hkey⟩ := List.mem_map.1 h.2
    have hactual : a.hasColumn c.name = true := by
      rw [Table.hasColumn_iff_mem_keys, hkey]
      exact h.1
    exact ⟨c.name, mem_shared_between.2 ⟨c, hc, hactual, rfl⟩, hkey⟩

/-- **What is shared does not depend on the side** from which the two tables are compared. -/
theorem shared_between_comm : SameUpToOrder (between b a).shared (between a b).shared := by
  apply sameUpToOrder_of_keys Name.folded
  · apply (List.perm_ext_iff_of_nodup nodup_shared_between nodup_shared_between).2
    intro key
    rw [mem_keys_shared_between, mem_keys_shared_between]
    exact and_comm
  · intro n _ m _ hkey
    exact Name.beq_eq_true_iff.2 hkey

/-! ## Numbers of columns -/

theorem length_target_between :
    (between a b).added.length + (between a b).shared.length = b.columns.length := by
  rw [between, List.length_map, Nat.add_comm]
  exact (List.length_eq_length_filter_add fun c : Column => a.hasColumn c.name).symm

theorem length_actual_between :
    (between a b).removed.length + (between a b).shared.length = a.columns.length := by
  rw [← shared_between_comm.length_eq]
  exact length_target_between

/-! ## Columns that are changed -/

/-- The names of the columns that are changed are listed in the order of the target. -/
theorem names_filterMap_changeOf? (cs : List Column) :
    (cs.filterMap (changeOf? a)).map Redefinition.name =
      (cs.filter fun c => (changeOf? a c).isSome).map Column.name := by
  induction cs with
  | nil => rfl
  | cons c cs ih =>
    cases hchange : changeOf? a c with
    | none =>
      have hno : ¬(changeOf? a c).isSome = true := by simp [hchange]
      rw [List.filterMap_cons_none hchange, List.filter_cons, if_neg hno, ih]
    | some r =>
      have hyes : (changeOf? a c).isSome = true := by simp [hchange]
      have hname : r.name = c.name := congrArg Column.name (changeOf?_eq_some_iff.1 hchange).1
      rw [List.filterMap_cons_some hchange, List.filter_cons, if_pos hyes, List.map_cons,
        List.map_cons, ih, hname]

/-- A column of the target is changed if the delta has a change of a column of that name. -/
theorem isSome_changeOf? (hc : c ∈ b.columns) : (changeOf? a c).isSome =
    (a.hasColumn c.name && (between a b).changed.any (·.name == c.name)) := by
  rw [Bool.eq_iff_iff, Bool.and_eq_true_iff, Option.isSome_iff_exists, List.any_eq_true]
  constructor
  · intro h
    obtain ⟨r, hr⟩ := h
    obtain ⟨rfl, hactual, hname, hdef⟩ := changeOf?_eq_some_iff.1 hr
    exact ⟨Table.hasColumn_eq_true_iff.2 ⟨r.actual, hactual, hname⟩, r,
      mem_changed_between.2 ⟨hactual, hc, hname, hdef⟩, ReflBEq.rfl⟩
  · intro h
    obtain ⟨-, r, hr, hname⟩ := h
    obtain ⟨hactual, htarget, hboth, hdef⟩ := mem_changed_between.1 hr
    -- There is one column of that name in the target, so it is this one that is changed.
    obtain rfl := Table.eq_of_name htarget hc hname
    exact ⟨r, changeOf?_eq_some_iff.2 ⟨rfl, hactual, hboth, hdef⟩⟩

/-- **The shared columns are the changed and the unchanged ones.** The names of the changed columns
    are selected from the shared names by the same test by which the unchanged ones are left out. -/
theorem names_changed_between : (between a b).changed.map Redefinition.name =
    (between a b).shared.filter fun n => (between a b).changed.any (·.name == n) := by
  have hnames := names_filterMap_changeOf? (a := a) b.columns
  have hselect : b.columns.filter (fun c => (changeOf? a c).isSome) =
      (b.columns.filter fun c => a.hasColumn c.name).filter
        fun c => (between a b).changed.any (·.name == c.name) := by
    rw [List.filter_filter]
    apply List.filter_congr
    intro c hc
    rw [isSome_changeOf? hc, Bool.and_comm]
  rw [hselect] at hnames
  refine hnames.trans ?_
  show _ = List.filter _ ((b.columns.filter fun c => a.hasColumn c.name).map Column.name)
  rw [List.filter_map]
  rfl

/-! ## Constraints -/

theorem contains_addedConstraints_between : (between a b).addedConstraints.contains f =
    (b.constraints.contains f && !a.constraints.contains f) := by
  apply contains_filter
  intro g hfg
  rw [List.contains_congr hfg]

theorem contains_removedConstraints_between : (between a b).removedConstraints.contains f =
    (a.constraints.contains f && !b.constraints.contains f) := by
  apply contains_filter
  intro g hfg
  rw [List.contains_congr hfg]

end Delta
end TableRebuild
