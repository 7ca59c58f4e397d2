import Mathlib.Data.List.Forall2
import TableRebuild.Table.Parse
import TableRebuild.Proofs.Definition.ColumnList

/-!
# What the items of a column list make of a table

An item is read as a column or as a constraint. `Entry` is the one or the other, in the order of the
list, which a table does not keep: it has its columns in one list and its constraints in another.

Reading a list is a fold that can be refused at every item. What it comes to is said without the
fold (`Table.foldlM_addItem_eq_ok_iff`): every item is read as some entry, and the table has the
entries behind what it had before. Names that occur twice do not have to be mentioned. There is no
table with two columns of one name, so where there is a table, nothing was refused.
-/

namespace TableRebuild

/-- What an item of a column list defines. -/
inductive Entry where
  | column (c : Column)
  | constraint (f : Fragment)

namespace Entry

def column? : Entry → Option Column
  | column c => some c
  | constraint _ => none

def constraint? : Entry → Option Fragment
  | column _ => none
  | constraint f => some f

@[simp] theorem column?_column (c : Column) : (column c).column? = some c := rfl

@[simp] theorem column?_constraint (f : Fragment) : (constraint f).column? = none := rfl

@[simp] theorem constraint?_column (c : Column) : (column c).constraint? = none := rfl

@[simp] theorem constraint?_constraint (f : Fragment) : (constraint f).constraint? = some f := rfl

theorem columns_map_column (cs : List Column) : (cs.map column).filterMap column? = cs := by
  simp [List.filterMap_map, Function.comp_def]

theorem columns_map_constraint (fs : List Fragment) :
    (fs.map constraint).filterMap column? = [] := by
  simp [List.filterMap_map, Function.comp_def]

theorem constraints_map_column (cs : List Column) :
    (cs.map column).filterMap constraint? = [] := by
  simp [List.filterMap_map, Function.comp_def]

theorem constraints_map_constraint (fs : List Fragment) :
    (fs.map constraint).filterMap constraint? = fs := by
  simp [List.filterMap_map, Function.comp_def]

/-- The text that the entry is written as. -/
def text : Entry → String
  | column c => c.render
  | constraint f => f.text

def unplaced : Entry → Entry
  | column c => .column c.unplaced
  | constraint f => .constraint f.unplaced

theorem column?_unplaced (e : Entry) : e.unplaced.column? = e.column?.map Column.unplaced := by
  cases e <;> rfl

theorem constraint?_unplaced (e : Entry) :
    e.unplaced.constraint? = e.constraint?.map Fragment.unplaced := by
  cases e <;> rfl

theorem map_unplaced_columns (es : List Entry) :
    (es.filterMap column?).map Column.unplaced = (es.map unplaced).filterMap column? := by
  rw [List.map_filterMap, List.filterMap_map]
  exact congrArg (List.filterMap · es) (funext fun e => (column?_unplaced e).symm)

theorem map_unplaced_constraints (es : List Entry) :
    (es.filterMap constraint?).map Fragment.unplaced =
      (es.map unplaced).filterMap constraint? := by
  rw [List.map_filterMap, List.filterMap_map]
  exact congrArg (List.filterMap · es) (funext fun e => (constraint?_unplaced e).symm)

end Entry

/-- What the item is read as in a source. -/
inductive Item.ReadsAs (source : String) (i : Item) : Entry → Prop
  | column {c : Column} (hi : i.isConstraint = false) (hc : Column.ofItem source i = .ok c) :
      ReadsAs source i (.column c)
  | constraint (hi : i.isConstraint = true) :
      ReadsAs source i (.constraint (.ofTokens i.tokens source))

/-- What is in the second of two related lists is related to something in the first. -/
theorem exists_mem_of_forall₂ {α β : Type} {R : α → β → Prop} {as : List α} {bs : List β}
    (h : List.Forall₂ R as bs) {b : β} (hb : b ∈ bs) : ∃ a ∈ as, R a b := by
  induction h with
  | nil => exact absurd hb List.not_mem_nil
  | cons hab _ ih =>
    rcases List.mem_cons.1 hb with rfl | hb
    · exact ⟨_, List.mem_cons_self, hab⟩
    · obtain ⟨a, hmem, hab⟩ := ih hb
      exact ⟨a, List.mem_cons_of_mem _ hmem, hab⟩

namespace Table

variable {source : String} {t u v : Table} {es fs : List Entry}

theorem ext_of {t u : Table} (hname : t.name = u.name) (hschema : t.schema = u.schema)
    (htemporary : t.temporary = u.temporary) (hexists : t.ifNotExists = u.ifNotExists)
    (hcolumns : t.columns = u.columns) (hconstraints : t.constraints = u.constraints)
    (hoptions : t.options = u.options) : t = u := by
  -- The places of the columns are those of the other table, because the columns are.
  have hindex : t.index = u.index := by rw [t.inStep, u.inStep, hcolumns]
  cases t
  cases u
  simp only [mk.injEq]
  exact ⟨hname, hschema, htemporary, hexists, hcolumns, hindex, hconstraints, hoptions⟩

/-- `u` is `t` with the entries behind the columns and the constraints that it has. -/
structure Extends (t : Table) (es : List Entry) (u : Table) : Prop where
  name : u.name = t.name
  schema : u.schema = t.schema
  temporary : u.temporary = t.temporary
  ifNotExists : u.ifNotExists = t.ifNotExists
  options : u.options = t.options
  columns : u.columns = t.columns ++ es.filterMap Entry.column?
  constraints : u.constraints = t.constraints ++ es.filterMap Entry.constraint?

theorem Extends.refl (t : Table) : t.Extends [] t :=
  ⟨rfl, rfl, rfl, rfl, rfl, (List.append_nil _).symm, (List.append_nil _).symm⟩

theorem Extends.eq_of_nil (h : t.Extends [] u) : u = t :=
  ext_of h.name h.schema h.temporary h.ifNotExists (by simpa using h.columns)
    (by simpa using h.constraints) h.options

theorem Extends.trans (h : t.Extends es u) (h' : u.Extends fs v) : t.Extends (es ++ fs) v where
  name := h'.name.trans h.name
  schema := h'.schema.trans h.schema
  temporary := h'.temporary.trans h.temporary
  ifNotExists := h'.ifNotExists.trans h.ifNotExists
  options := h'.options.trans h.options
  columns := by
    rw [h'.columns, h.columns, List.filterMap_append, List.append_assoc]
  constraints := by
    rw [h'.constraints, h.constraints, List.filterMap_append, List.append_assoc]

/-- There is a table with more entries if no two columns would have the same name. -/
theorem exists_extends (hdistinct : (t.columns ++ es.filterMap Entry.column?).Pairwise
    fun a b => (a.name == b.name) = false) : ∃ u, t.Extends es u :=
  ⟨{ t with
    columns := t.columns ++ es.filterMap Entry.column?
    index := Column.places (t.columns ++ es.filterMap Entry.column?)
    constraints := t.constraints ++ es.filterMap Entry.constraint?
    distinct := hdistinct
    inStep := rfl }, rfl, rfl, rfl, rfl, rfl, rfl, rfl⟩

/-- A table that has more entries than one can be reached by way of that one. -/
theorem Extends.exists_of_cons {e : Entry} (h : t.Extends (e :: es) v) :
    ∃ u, t.Extends [e] u ∧ u.Extends es v := by
  have hcolumns : v.columns = (t.columns ++ [e].filterMap Entry.column?) ++
      es.filterMap Entry.column? := by
    rw [h.columns, List.append_assoc, ← List.filterMap_append]
    rfl
  have hdistinct : (t.columns ++ [e].filterMap Entry.column?).Pairwise
      fun a b => (a.name == b.name) = false := by
    have hv := v.distinct
    rw [hcolumns] at hv
    exact (List.pairwise_append.1 hv).1
  obtain ⟨u, hu⟩ := exists_extends hdistinct
  refine ⟨u, hu, h.name.trans hu.name.symm, h.schema.trans hu.schema.symm,
    h.temporary.trans hu.temporary.symm, h.ifNotExists.trans hu.ifNotExists.symm,
    h.options.trans hu.options.symm, ?_, ?_⟩
  · rw [hcolumns, hu.columns]
  · rw [h.constraints, hu.constraints, List.append_assoc, ← List.filterMap_append]
    rfl

/-- A column is added exactly where there is a table that has it besides. -/
theorem addColumn_eq_ok_iff {c : Column} : t.addColumn c = .ok u ↔ t.Extends [.column c] u := by
  constructor
  · intro h
    obtain ⟨hcolumns, hname, hschema, htemporary, hexists, hconstraints, hoptions⟩ :=
      columns_of_addColumn h
    exact ⟨hname, hschema, htemporary, hexists, hoptions, hcolumns,
      hconstraints.trans (List.append_nil _).symm⟩
  · intro h
    have hcolumns : u.columns = t.columns ++ [c] := h.columns
    have hfree : t.hasColumn c.name = false := by
      have hu := u.distinct
      rw [hcolumns, List.pairwise_append] at hu
      rw [hasColumn, Option.isSome_eq_false_iff, Option.isNone_iff_eq_none,
        index_lookup_eq_none_iff]
      exact fun d hd => hu.2.2 d hd c List.mem_cons_self
    cases hadd : t.addColumn c with
    | error d =>
      rw [(addColumn_eq_error_iff.1 hadd).1] at hfree
      exact absurd hfree (by simp)
    | ok w =>
      obtain ⟨wcolumns, wname, wschema, wtemporary, wexists, wconstraints, woptions⟩ :=
        columns_of_addColumn hadd
      have hconstraints : u.constraints = t.constraints :=
        h.constraints.trans (List.append_nil _)
      rw [ext_of (wname.trans h.name.symm) (wschema.trans h.schema.symm)
        (wtemporary.trans h.temporary.symm) (wexists.trans h.ifNotExists.symm)
        (wcolumns.trans hcolumns.symm) (wconstraints.trans hconstraints.symm)
        (woptions.trans h.options.symm)]

/-- One item: it is read as an entry, and the table has the entry besides. -/
theorem addItem_eq_ok_iff {i : Item} :
    addItem source t i = .ok u ↔ ∃ e, i.ReadsAs source e ∧ t.Extends [e] u := by
  unfold addItem
  cases hi : i.isConstraint with
  | true =>
    simp only [↓reduceIte, Except.ok.injEq]
    constructor
    · rintro rfl
      exact ⟨_, .constraint hi, rfl, rfl, rfl, rfl, rfl, (List.append_nil _).symm, rfl⟩
    · rintro ⟨e, he, hu⟩
      cases he with
      | column hi' => exact absurd hi' (by simp [hi])
      | constraint _ =>
        exact ext_of hu.name.symm hu.schema.symm hu.temporary.symm hu.ifNotExists.symm
          (hu.columns.trans (List.append_nil _)).symm hu.constraints.symm
          hu.options.symm
  | false =>
    simp only [Bool.false_eq_true, ↓reduceIte]
    constructor
    · intro h
      obtain ⟨c, hc, h⟩ := Except.bind_eq_ok_iff.1 h
      refine ⟨.column c, .column hi hc, addColumn_eq_ok_iff.1 ?_⟩
      split at h
      · rename_i w hw
        simp only [pure, Except.pure, Except.ok.injEq] at h
        rw [hw, h]
      · exact absurd h (by simp [throw, throwThe, MonadExceptOf.throw])
    · rintro ⟨e, he, hu⟩
      cases he with
      | column _ hc =>
        rw [hc]
        simp only [bind, Except.bind, addColumn_eq_ok_iff.2 hu]
        rfl
      | constraint hi' => exact absurd hi' (by simp [hi])

/-- A run of steps, each of which is to put one entry behind the others, puts one entry for each
    step behind them. -/
theorem foldlM_eq_ok_iff {α ε : Type} {step : Table → α → Except ε Table} {R : α → Entry → Prop}
    (hstep : ∀ (t u : Table) (x : α), step t x = .ok u ↔ ∃ e, R x e ∧ t.Extends [e] u)
    {xs : List α} : xs.foldlM step t = .ok u ↔ ∃ es, List.Forall₂ R xs es ∧ t.Extends es u := by
  induction xs generalizing t with
  | nil =>
    constructor
    · intro h
      obtain rfl : t = u := by simpa [pure, Except.pure] using h
      exact ⟨[], .nil, .refl t⟩
    · rintro ⟨es, hes, hu⟩
      cases hes
      rw [hu.eq_of_nil]
      rfl
  | cons x xs ih =>
    rw [List.foldlM_cons, Except.bind_eq_ok_iff]
    constructor
    · rintro ⟨w, hw, h⟩
      obtain ⟨e, he, hext⟩ := (hstep _ _ _).1 hw
      obtain ⟨es, hes, hrest⟩ := ih.1 h
      exact ⟨e :: es, .cons he hes, hext.trans hrest⟩
    · rintro ⟨_, hes, hu⟩
      cases hes with
      | cons he hes =>
        obtain ⟨w, hext, hrest⟩ := hu.exists_of_cons
        exact ⟨w, (hstep _ _ _).2 ⟨_, he, hext⟩, ih.2 ⟨_, hes, hrest⟩⟩

/-- **A list of items**: each is read as an entry, and the table has the entries besides. -/
theorem foldlM_addItem_eq_ok_iff {items : List Item} : items.foldlM (addItem source) t = .ok u ↔
    ∃ es, List.Forall₂ (Item.ReadsAs source) items es ∧ t.Extends es u := by
  apply foldlM_eq_ok_iff
  intro t u i
  exact addItem_eq_ok_iff

/-- A list of columns: they are added exactly where there is a table that has all of them. -/
theorem foldlM_addColumn_eq_ok_iff {cs : List Column} :
    cs.foldlM addColumn t = .ok u ↔ t.Extends (cs.map .column) u := by
  have hstep : ∀ (t u : Table) (c : Column),
      t.addColumn c = .ok u ↔ ∃ e, Entry.column c = e ∧ t.Extends [e] u := by
    intro t u c
    rw [exists_eq_left']
    exact addColumn_eq_ok_iff
  have hmap : ∀ {es : List Entry},
      List.Forall₂ (fun c e => Entry.column c = e) cs es ↔ cs.map .column = es := by
    intro es
    rw [← List.forall₂_map_left_iff, List.forall₂_eq_eq_eq]
  rw [foldlM_eq_ok_iff hstep]
  simp only [hmap, exists_eq_left']

theorem extends_foldl_addConstraint (t : Table) (fs : List Fragment) :
    t.Extends (fs.map .constraint) (fs.foldl addConstraint t) := by
  induction fs generalizing t with
  | nil => exact .refl t
  | cons f fs ih =>
    have hone : t.Extends [.constraint f] (t.addConstraint f) :=
      ⟨rfl, rfl, rfl, rfl, rfl, (List.append_nil _).symm, rfl⟩
    exact hone.trans (ih (t.addConstraint f))

/-- What a table is that an outline defines: the entries that the items are read as, of which one
    at least is a column. -/
theorem ofOutline_eq_ok_iff {o : Outline} : ofOutline source o = .ok u ↔
    u.columns ≠ [] ∧ ∃ items es, Item.pieces o.body.inner = items.map Item.tokens ∧
      List.Forall₂ (Item.ReadsAs source) items es ∧
        (ofHeader source o.header o.options).Extends es u := by
  unfold ofOutline
  constructor
  · intro h
    obtain ⟨items, hitems, h⟩ := Except.bind_eq_ok_iff.1 h
    obtain ⟨w, hw, h⟩ := Except.bind_eq_ok_iff.1 h
    split at h
    · exact absurd h (by simp [throw, throwThe, MonadExceptOf.throw, bind, Except.bind])
    · rename_i hcolumns
      simp only [pure, Except.pure, Except.ok.injEq] at h
      subst h
      obtain ⟨es, hes, hext⟩ := foldlM_addItem_eq_ok_iff.1 hw
      refine ⟨?_, items, es, Body.items_eq_ok_iff.1 hitems, hes, hext⟩
      simpa using hcolumns
  · rintro ⟨hcolumns, items, es, hitems, hes, hext⟩
    have hsome : u.columns.isEmpty = false := by simpa using hcolumns
    rw [Body.items_eq_ok_iff.2 hitems]
    simp only [bind, Except.bind, foldlM_addItem_eq_ok_iff.2 ⟨es, hes, hext⟩, hsome]
    rfl

end Table
end TableRebuild
