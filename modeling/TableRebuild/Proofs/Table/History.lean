import TableRebuild.Proofs.Table.Lookup
import TableRebuild.Table.Edit

/-!
# What a history leaves behind

A table that is put together by hand is the outcome of a history of edits, and some of these may
have been refused. This file says what the table is, from the edits alone: its constraints are all
that were added, and its columns are those that were added, of each name the first
(`Edit.accepted`). Whether a column was refused can thus be told without looking at any table.

A refused column leaves no trace. That is more than that the table stays as it is: the index stays
as it is too, so no later column is refused because of the refused one (`edits_of_refused`).

The other half is the index. It is kept beside the list of columns and is asked for every look-up,
and at the end of every history it knows the name of each column, and where the column is, and
nothing else (`Table.IndexAgrees`).
-/

namespace TableRebuild

/-! ## Histories -/

namespace Edit

/-- The column that the edit is to add. -/
def column? : Edit → Option Column
  | addColumn c => some c
  | _ => none

/-- The constraint that the edit is to add. -/
def constraint? : Edit → Option Fragment
  | addConstraint f => some f
  | _ => none

theorem eq_addColumn_of_column? {e : Edit} {c : Column} (h : e.column? = some c) :
    e = addColumn c := by
  cases e with
  | addColumn d => rw [Option.some.inj h]
  | setSchema | setTemporary | setIfNotExists | addConstraint | setOptions =>
    exact absurd h (by simp [column?])

/-- The columns that come through: of each name the first. -/
def accepted (es : List Edit) : List Column :=
  (es.filterMap column?).eraseDupsBy fun c d => c.name == d.name

end Edit

namespace Table

/-- The index and the list of columns say the same, and a look-up goes by it. -/
structure IndexAgrees (t : Table) : Prop where
  distinct : t.columns.Pairwise fun a b => (a.name == b.name) = false
  place : ∀ n i, t.index.lookup n = some i ↔ ∃ c, t.columns[i]? = some c ∧ (c.name == n) = true
  has : ∀ n, t.hasColumn n = true ↔ ∃ c ∈ t.columns, (c.name == n) = true
  found : ∀ n c, t.column? n = some c ↔ c ∈ t.columns ∧ (c.name == n) = true
  missing : ∀ n, t.column? n = none ↔ ∀ c ∈ t.columns, (c.name == n) = false

variable {t : Table} {c : Column}

/-! ## The index -/

/-- **The index knows where each column is.** A name has one place at most, since no other column
    has it. -/
theorem index_lookup_eq_some_iff {n : Name} {i : Nat} :
    t.index.lookup n = some i ↔ ∃ c, t.columns[i]? = some c ∧ (c.name == n) = true := by
  rw [t.inStep, Column.lookup_places, List.findIdx?_eq_some_iff_getElem]
  constructor
  · rintro ⟨hi, hname, -⟩
    exact ⟨t.columns[i], List.getElem?_eq_getElem hi, hname⟩
  · rintro ⟨c, hc, hname⟩
    obtain ⟨hi, rfl⟩ := List.getElem?_eq_some_iff.1 hc
    refine ⟨hi, hname, ?_⟩
    intro j hj hbefore
    -- A column before it of the same name would make two of them.
    have hne := List.pairwise_iff_getElem.1 t.distinct j i (Nat.lt_trans hj hi) hi hj
    rw [PartialEquivBEq.trans hbefore (PartialEquivBEq.symm hname)] at hne
    exact absurd hne (by simp)

theorem column?_eq_none_iff {n : Name} :
    t.column? n = none ↔ ∀ c ∈ t.columns, (c.name == n) = false := by
  rw [column?_eq_find?, List.find?_eq_none]
  simp only [Bool.not_eq_true]

theorem indexAgrees (t : Table) : t.IndexAgrees where
  distinct := t.distinct
  place _ _ := index_lookup_eq_some_iff
  has _ := hasColumn_eq_true_iff
  found _ _ := column?_eq_some_iff
  missing _ := column?_eq_none_iff

/-! ## One edit -/

theorem attempt_addColumn_of_hasColumn (h : t.hasColumn c.name = true) :
    t.attempt (.addColumn c) = t := by
  have hedit : t.edit (.addColumn c) = .error c := addColumn_eq_error_iff.2 ⟨h, rfl⟩
  rw [attempt, hedit]

theorem columns_attempt_addColumn (h : t.hasColumn c.name = false) :
    (t.attempt (.addColumn c)).columns = t.columns ++ [c] ∧
      (t.attempt (.addColumn c)).constraints = t.constraints := by
  cases hadd : t.addColumn c with
  | error d =>
    rw [(addColumn_eq_error_iff.1 hadd).1] at h
    exact absurd h (by simp)
  | ok u =>
    have hattempt : t.attempt (.addColumn c) = u := by
      rw [attempt, edit, hadd]
    obtain ⟨hcolumns, -, -, -, -, hconstraints, -⟩ := columns_of_addColumn hadd
    rw [hattempt]
    exact ⟨hcolumns, hconstraints⟩

theorem columns_attempt_of_column?_eq_none {e : Edit} (h : e.column? = none) :
    (t.attempt e).columns = t.columns := by
  cases e with
  | addColumn c => exact absurd h (by simp [Edit.column?])
  | setSchema | setTemporary | setIfNotExists | addConstraint | setOptions => rfl

theorem constraints_attempt (t : Table) (e : Edit) :
    (t.attempt e).constraints = t.constraints ++ e.constraint?.toList := by
  cases e with
  | addColumn c =>
    show _ = t.constraints ++ []
    rw [List.append_nil]
    cases h : t.hasColumn c.name with
    | true => rw [attempt_addColumn_of_hasColumn h]
    | false => exact (columns_attempt_addColumn h).2
  | addConstraint => rfl
  | setSchema | setTemporary | setIfNotExists | setOptions => exact (List.append_nil _).symm

theorem hasColumn_eq_any (t : Table) (n : Name) :
    t.hasColumn n = t.columns.any (·.name == n) := by
  rw [hasColumn_eq_isSome, column?_eq_find?, List.isSome_find?]

/-! ## A run of edits -/

theorem edits_append (t : Table) (es fs : List Edit) :
    t.edits (es ++ fs) = (t.edits es).edits fs :=
  List.foldl_append

theorem constraints_edits (t : Table) (es : List Edit) :
    (t.edits es).constraints = t.constraints ++ es.filterMap Edit.constraint? := by
  induction es generalizing t with
  | nil => exact (List.append_nil _).symm
  | cons e es ih =>
    rw [edits, List.foldl_cons, ← edits, ih, constraints_attempt, List.append_assoc]
    cases h : e.constraint? with
    | none => rw [List.filterMap_cons_none h, Option.toList_none, List.nil_append]
    | some f => rw [List.filterMap_cons_some h, Option.toList_some, List.singleton_append]

/-- The columns that a run of edits adds to a table are those of names that the table does not have,
    of each name the first. -/
theorem columns_edits (t : Table) (es : List Edit) : (t.edits es).columns = t.columns ++
    ((es.filterMap Edit.column?).filter fun c => !t.hasColumn c.name).eraseDupsBy
      fun c d => c.name == d.name := by
  induction es generalizing t with
  | nil => exact (List.append_nil _).symm
  | cons e es ih =>
    rw [edits, List.foldl_cons, ← edits, ih]
    cases hcolumn : e.column? with
    | none =>
      have hcolumns := columns_attempt_of_column?_eq_none (t := t) hcolumn
      simp only [List.filterMap_cons_none hcolumn, hasColumn_eq_any, hcolumns]
    | some c =>
      obtain rfl := Edit.eq_addColumn_of_column? hcolumn
      rw [List.filterMap_cons_some hcolumn, List.filter_cons]
      cases hhas : t.hasColumn c.name with
      | true => simp [attempt_addColumn_of_hasColumn hhas]
      | false =>
        -- From here on the name of `c` is taken, besides those that were.
        have hcolumns := (columns_attempt_addColumn hhas).1
        have htaken : ∀ n, (t.attempt (.addColumn c)).hasColumn n =
            (t.hasColumn n || n == c.name) := by
          intro n
          rw [hasColumn_eq_any, hcolumns, List.any_append, ← hasColumn_eq_any, BEq.comm (a := n)]
          simp
        simp [hcolumns, htaken, List.eraseDupsBy_cons, List.filter_filter, Bool.and_comm]

/-- **A refused column leaves no trace**: the history goes on as if nobody had tried to add it. -/
theorem edits_of_refused {es : List Edit} (h : (t.edits es).hasColumn c.name = true)
    (more : List Edit) : t.edits (es ++ .addColumn c :: more) = t.edits (es ++ more) := by
  rw [edits_append, edits_append, edits, List.foldl_cons, attempt_addColumn_of_hasColumn h, ← edits]

/-- **What a history leaves behind.** The index and the list of columns say the same. The columns
    are those that were added, of each name the first, and the constraints are all that were added,
    both in the order in which they were. A further column is given back exactly if a column of its
    name is there already; then the table is what it was, and so is all that comes after. -/
theorem history_new (n : Name) (es : List Edit) :
    let t := (new n).edits es
    t.IndexAgrees ∧
      t.columns = Edit.accepted es ∧
      t.constraints = es.filterMap Edit.constraint? ∧
      (∀ c d, t.edit (.addColumn c) = .error d ↔
        (∃ b ∈ t.columns, (b.name == c.name) = true) ∧ d = c) ∧
      ∀ c, (∃ b ∈ t.columns, (b.name == c.name) = true) →
        t.attempt (.addColumn c) = t ∧
          ∀ more, (new n).edits (es ++ .addColumn c :: more) = (new n).edits (es ++ more) := by
  have hnone : ∀ m, (new n).hasColumn m = false := fun _ => rfl
  refine ⟨indexAgrees _, ?_, constraints_edits _ _, ?_, ?_⟩
  · rw [columns_edits, Edit.accepted]
    simp only [hnone, Bool.not_false, List.filter_true]
    rfl
  · intro c d
    rw [← hasColumn_eq_true_iff]
    exact addColumn_eq_error_iff
  · intro c hc
    rw [← hasColumn_eq_true_iff] at hc
    exact ⟨attempt_addColumn_of_hasColumn hc, edits_of_refused hc⟩

/-- `A` comes too late, because there is an `a`, and makes no difference to the `b` behind it. -/
theorem history_new_of_respelled :
    let late : Column := ⟨⟨"A"⟩, .empty, []⟩
    let es : List Edit := [.addColumn ⟨⟨"a"⟩, .empty, []⟩, .addConstraint .empty]
    let more : List Edit := [.addColumn ⟨⟨"b"⟩, .empty, []⟩]
    (∃ b ∈ ((new ⟨"t"⟩).edits es).columns, (b.name == late.name) = true) ∧
      (new ⟨"t"⟩).edits (es ++ .addColumn late :: more) = (new ⟨"t"⟩).edits (es ++ more) ∧
      ((new ⟨"t"⟩).edits (es ++ more)).columns.map (·.name.spelling) = ["a", "b"] := by
  intro late es more
  have htaken : ∃ b ∈ ((new ⟨"t"⟩).edits es).columns, (b.name == late.name) = true :=
    ⟨_, List.mem_cons_self, by decide +kernel⟩
  obtain ⟨-, -, -, -, hrefused⟩ := history_new ⟨"t"⟩ es
  exact ⟨htaken, (hrefused late htaken).2 more, by decide +kernel⟩

end Table
end TableRebuild
