import TableRebuild.Proofs.Table.Printable

/-!
# Which texts define a table

Reading a statement stops at the first thing that is wrong, and what is wrong is found in four
places: by the readers of the outline, by the cutter of the column list, item by item, and at the
end for the list as a whole. So the code does not say in one place which texts it takes. This file
does, and it says so without mentioning any order: the tokens are an outline
(`Outline.Written`), and the column list of the outline is a list of items (`Item.Listed`).

`Table.exists_parse_iff_grammatical` is the equivalence. That nothing has been forgotten in the
grammar is one direction of it; that the grammar promises nothing the readers do not keep is the
other. The reading is unique, and the table has from it everything that is not in the column list.
-/

namespace TableRebuild

open Nesting

/-! ## Items as entries -/

namespace Item

variable {source : String} {items : List Item} {es : List Entry}

theorem isWord_of_isConstraint {i : Item} (h : i.isConstraint = true) : i.first.isWord = true := by
  obtain ⟨k, hk, -⟩ := (Option.any_eq_true _ _).1 h
  exact Token.isWord_of_keyword? hk

theorem ReadsAs.isWord {i : Item} {e : Entry} (h : i.ReadsAs source e) :
    i.first.isWord = true := by
  cases h with
  | column _ hc => exact (Column.ofItem_eq_ok_iff.1 hc).1
  | constraint hi => exact isWord_of_isConstraint hi

/-- A word in front is all that an item needs. -/
theorem exists_readsAs (source : String) {i : Item} (h : i.first.isWord = true) :
    ∃ e, i.ReadsAs source e := by
  cases hi : i.isConstraint with
  | true => exact ⟨_, .constraint hi⟩
  | false => exact ⟨_, .column hi (Column.ofItem_eq_ok_iff.2 ⟨h, rfl⟩)⟩

theorem exists_entries_iff (source : String) :
    (∃ es, List.Forall₂ (ReadsAs source) items es) ↔ ∀ i ∈ items, i.first.isWord = true := by
  constructor
  · rintro ⟨es, hes⟩
    induction hes with
    | nil => exact fun i hi => absurd hi List.not_mem_nil
    | cons he _ ih => exact List.forall_mem_cons.2 ⟨he.isWord, ih⟩
  · intro h
    induction items with
    | nil => exact ⟨[], .nil⟩
    | cons i items ih =>
      obtain ⟨hi, hitems⟩ := List.forall_mem_cons.1 h
      obtain ⟨e, he⟩ := exists_readsAs source hi
      obtain ⟨es, hes⟩ := ih hitems
      exact ⟨e :: es, .cons he hes⟩

/-- The columns, in the order of the items that are not constraints. -/
theorem columns_of_entries (h : List.Forall₂ (ReadsAs source) items es) :
    List.Forall₂ (fun i c => Column.ofItem source i = .ok c)
      (items.filter (!·.isConstraint)) (es.filterMap Entry.column?) := by
  induction h with
  | nil => exact .nil
  | cons he _ ih =>
    cases he with
    | column hi hc =>
      rw [List.filter_cons_of_pos (by simp [hi]),
        List.filterMap_cons_some (Entry.column?_column _)]
      exact .cons hc ih
    | constraint hi =>
      rw [List.filter_cons_of_neg (by simp [hi]), List.filterMap_cons_none rfl]
      exact ih

/-- The constraints, in the order of the items that are constraints. -/
theorem constraints_of_entries (h : List.Forall₂ (ReadsAs source) items es) :
    es.filterMap Entry.constraint? =
      (items.filter (·.isConstraint)).map fun i => .ofTokens i.tokens source := by
  induction h with
  | nil => rfl
  | cons he _ ih =>
    cases he with
    | column hi _ =>
      rw [List.filter_cons_of_neg (by simp [hi]), List.filterMap_cons_none rfl, ih]
    | constraint hi =>
      rw [List.filter_cons_of_pos (by simp [hi]),
        List.filterMap_cons_some (Entry.constraint?_constraint _), ih, List.map_cons]

/-- The columns have the names that the first tokens of their items give them. -/
theorem names_of_entries (h : List.Forall₂ (ReadsAs source) items es) :
    (es.filterMap Entry.column?).map (·.name) =
      (items.filter (!·.isConstraint)).map fun i => Name.ofToken i.first := by
  rw [← List.forall₂_eq_eq_eq, List.forall₂_map_left_iff, List.forall₂_map_right_iff]
  refine (columns_of_entries h).flip.imp ?_
  intro c i hc
  rw [(Column.ofItem_eq_ok_iff.1 hc).2]

/-- What the tokens of a column list have to be: items with commas between them, each balanced and
    with no comma outside parentheses, each with a word in front. One of them at least is a column,
    and no two columns have the same name. -/
structure Listed (items : List Item) (inner : List Token) : Prop where
  separated : Separated (items.map tokens) inner
  balanced : ∀ i ∈ items, Balanced 0 i.tokens
  whole : ∀ i ∈ items, OnlyInside 0 (·.isDelimiter .comma) i.tokens
  isWord : ∀ i ∈ items, i.first.isWord = true
  exists_column : ∃ i ∈ items, i.isConstraint = false
  distinct : (items.filter (!·.isConstraint)).Pairwise
    fun a b => (Name.ofToken a.first == Name.ofToken b.first) = false

theorem pieces_eq_map_tokens_iff {inner : List Token} (hinner : Balanced 0 inner) :
    pieces inner = items.map tokens ↔ Separated (items.map tokens) inner ∧
      (∀ i ∈ items, Balanced 0 i.tokens) ∧
        ∀ i ∈ items, OnlyInside 0 (·.isDelimiter .comma) i.tokens := by
  rw [pieces_eq_iff hinner, List.forall_mem_map, ← forall₂_and]

end Item

/-! ## Outlines that define a table -/

namespace Table

variable {o : Outline}

/-- **An outline defines a table exactly if its column list is a list of items.** -/
theorem exists_ofOutline_iff (source : String) (hinner : Balanced 0 o.body.inner) :
    (∃ t, ofOutline source o = .ok t) ↔ ∃ items, Item.Listed items o.body.inner := by
  constructor
  · rintro ⟨t, ht⟩
    obtain ⟨hne, items, es, hpieces, hes, hext⟩ := ofOutline_eq_ok_iff.1 ht
    obtain ⟨hseparated, hbalanced, hwhole⟩ := (Item.pieces_eq_map_tokens_iff hinner).1 hpieces
    have hcolumns : t.columns = es.filterMap Entry.column? := hext.columns
    have hnames := Item.names_of_entries hes
    rw [← hcolumns] at hnames
    have hitems := (Item.exists_entries_iff source).1 ⟨es, hes⟩
    refine ⟨items, hseparated, hbalanced, hwhole, hitems, ?_, ?_⟩
    · -- The columns of the table are as many as the items that are columns.
      by_contra hnone
      have hfilter : items.filter (!·.isConstraint) = [] := by
        rw [List.filter_eq_nil_iff]
        intro i hi hcolumn
        exact hnone ⟨i, hi, by simpa using hcolumn⟩
      rw [hfilter, List.map_nil] at hnames
      exact hne (List.map_eq_nil_iff.1 hnames)
    · have hdistinct : (t.columns.map (·.name)).Pairwise fun a b => (a == b) = false :=
        List.pairwise_map.2 t.distinct
      rw [hnames] at hdistinct
      exact List.pairwise_map.1 hdistinct
  · -- Every item is read as something, and different names make the columns fit into a table.
    rintro ⟨items, h⟩
    obtain ⟨es, hes⟩ := (Item.exists_entries_iff source).2 h.isWord
    have hnames := Item.names_of_entries hes
    have hdistinct : ((es.filterMap Entry.column?).map (·.name)).Pairwise
        fun a b => (a == b) = false := by
      rw [hnames]
      exact List.pairwise_map.2 h.distinct
    obtain ⟨t, hext⟩ : ∃ t, (ofHeader source o.header o.options).Extends es t :=
      exists_extends (List.pairwise_map.1 hdistinct)
    have hcolumns : t.columns = es.filterMap Entry.column? := hext.columns
    refine ⟨t, ofOutline_eq_ok_iff.2 ⟨?_, items, es, ?_, hes, hext⟩⟩
    · intro hnil
      rw [← hcolumns, hnil, List.map_nil] at hnames
      obtain ⟨i, hi, hcolumn⟩ := h.exists_column
      have hmem : i ∈ items.filter (!·.isConstraint) := List.mem_filter.2 ⟨hi, by simp [hcolumn]⟩
      rw [List.map_eq_nil_iff.1 hnames.symm] at hmem
      exact List.not_mem_nil hmem
    · exact (Item.pieces_eq_map_tokens_iff hinner).2 ⟨h.separated, h.balanced, h.whole⟩

end Table

/-- The tokens are a statement that defines a table, with the parts of the outline. -/
def Outline.Grammatical (o : Outline) (ts : List Token) : Prop :=
  o.Written ts ∧ ∃ items, Item.Listed items o.body.inner

/-- What a table has from a statement besides the column list. -/
structure Table.HasHeader (t : Table) (o : Outline) : Prop where
  temporary : t.temporary = o.header.temporary
  ifNotExists : t.ifNotExists = o.header.ifNotExists
  schema : t.schema = o.header.schema.map .ofToken
  name : t.name = .ofToken o.header.name
  options : t.options.tokens = o.options

theorem Table.hasHeader_of_ofOutline {source : String} {o : Outline} {t : Table}
    (h : ofOutline source o = .ok t) : t.HasHeader o := by
  obtain ⟨-, items, es, -, -, hext⟩ := ofOutline_eq_ok_iff.1 h
  refine ⟨hext.temporary, hext.ifNotExists, hext.schema, hext.name, ?_⟩
  rw [hext.options]
  rfl

theorem Table.parse_eq_ok_iff {text : String} {t : Table} : parse text = .ok t ↔
    ∃ ts o, tokenize text = .ok ts ∧ o.Written ts ∧ ofOutline text o = .ok t := by
  rw [parse, Except.bind_eq_ok_iff]
  constructor
  · rintro ⟨o, ho, h⟩
    obtain ⟨ts, hts, hwritten⟩ := Outline.ofText_eq_ok_iff.1 ho
    exact ⟨ts, o, hts, hwritten, h⟩
  · rintro ⟨ts, o, hts, hwritten, h⟩
    exact ⟨o, Outline.ofText_eq_ok_iff.2 ⟨ts, hts, hwritten⟩, h⟩

/-- **A text defines a table exactly if it falls into the tokens of a statement**, as the grammar
    has it. There is one way to read these tokens, and the table has from it what it does not have
    from the column list. -/
theorem Table.exists_parse_iff_grammatical (text : String) :
    ((∃ t, parse text = .ok t) ↔
        ∃ ts, tokenize text = .ok ts ∧ ∃ o : Outline, o.Grammatical ts) ∧
      ∀ t, parse text = .ok t → ∃ ts, tokenize text = .ok ts ∧ ∃ o : Outline,
        o.Grammatical ts ∧ (∀ o' : Outline, o'.Written ts → o' = o) ∧ t.HasHeader o := by
  constructor
  · constructor
    · rintro ⟨t, ht⟩
      obtain ⟨ts, o, hts, hwritten, h⟩ := parse_eq_ok_iff.1 ht
      exact ⟨ts, hts, o, hwritten, (exists_ofOutline_iff text hwritten.balanced).1 ⟨t, h⟩⟩
    · rintro ⟨ts, hts, o, hwritten, hlisted⟩
      obtain ⟨t, ht⟩ := (exists_ofOutline_iff text hwritten.balanced).2 hlisted
      exact ⟨t, parse_eq_ok_iff.2 ⟨ts, o, hts, hwritten, ht⟩⟩
  · intro t ht
    obtain ⟨ts, o, hts, hwritten, h⟩ := parse_eq_ok_iff.1 ht
    refine ⟨ts, hts, o, ⟨hwritten, (exists_ofOutline_iff text hwritten.balanced).1 ⟨t, h⟩⟩, ?_,
      hasHeader_of_ofOutline h⟩
    intro o' hwritten'
    exact hwritten'.unique hwritten

example : (Table.parse "create table if not exists if (x)").isOk = true := by decide +kernel

example : (Table.parse "create table if (x)").isOk = false := by decide +kernel

end TableRebuild
