import TableRebuild.Proofs.Definition.Clause
import TableRebuild.Proofs.Table.Entry
import TableRebuild.Proofs.Token.Legible

/-!
# Tables that can be printed

A table can be put together by hand from any fragments, and then what is printed need not be a
statement at all: a column type may hold a comma, a constraint may hold half a parenthesis. A table
that was read from a statement has nothing of the kind. `Table.Printable` collects what is needed
for the way back, part by part, and `Table.printable_of_parse` shows that every table that was read
has it.

The conditions on a column are about its type and its clauses *together*. That a clause is a clause
when it stands alone would not be enough, since a type and clauses are printed in a row and have to
be told apart again.
-/

namespace TableRebuild

/-- Type and clauses can be told apart and read again. -/
structure Column.Printable (c : Column) : Prop where
  type : c.type.Legible
  clauses : ∀ f ∈ c.clauses, f.Legible
  ne_nil : ∀ f ∈ c.clauses, f.tokens ≠ []
  splitType : splitType 0 (c.type.tokens ++ c.clauseTokens) = (c.type.tokens, c.clauseTokens)
  split : Clause.split c.clauseTokens = c.clauses.map (·.tokens)
  isPiece : Item.isPiece (c.type.tokens ++ c.clauseTokens) = true

/-- The fragment can be read again, as a constraint of a table. -/
structure Fragment.IsConstraint (f : Fragment) : Prop where
  legible : f.Legible
  isPiece : Item.isPiece f.tokens = true
  opens : f.tokens.head?.any (fun t => t.keyword?.any (·.opensTableConstraint)) = true

/-- The entry can be read again as what it is. -/
def Entry.Printable : Entry → Prop
  | column c => c.Printable
  | constraint f => f.IsConstraint

/-- All parts of the table can be read again, and there is a column. -/
structure Table.Printable (t : Table) : Prop where
  columns : ∀ c ∈ t.columns, c.Printable
  constraints : ∀ f ∈ t.constraints, f.IsConstraint
  options : t.options.Legible
  allowed : Options.Allowed t.options.tokens
  ne_nil : t.columns ≠ []

/-! ## Items that were read -/

/-- A column is its name, its type and its clauses, cut from the source. -/
theorem Column.ofItem_eq_ok_iff {source : String} {i : Item} {c : Column} :
    ofItem source i = .ok c ↔ i.first.isWord = true ∧ c = {
      name := .ofToken i.first
      type := .ofTokens (TableRebuild.splitType 0 i.others).1 source
      clauses := (Clause.split (TableRebuild.splitType 0 i.others).2).map
        (Fragment.ofTokens · source) } := by
  unfold ofItem
  split
  · rename_i hword
    simp only [Except.ok.injEq, hword, true_and]
    exact eq_comm
  · rename_i hword
    simp [hword]

section

variable {source : String} {ts : List Token} {i : Item}

/-- What stands behind the name of an item is the type and the clauses of the column. -/
theorem Column.tokens_of_ofItem {c : Column} (h : Column.ofItem source i = .ok c) :
    c.type.tokens = (TableRebuild.splitType 0 i.others).1 ∧
      c.clauseTokens = (TableRebuild.splitType 0 i.others).2 ∧
        c.type.tokens ++ c.clauseTokens = i.others := by
  obtain ⟨-, hc⟩ := ofItem_eq_ok_iff.1 h
  have htype : c.type.tokens = (TableRebuild.splitType 0 i.others).1 := by
    rw [hc, Fragment.tokens_ofTokens]
  have hclauses : c.clauseTokens = (TableRebuild.splitType 0 i.others).2 := by
    rw [hc, clauseTokens, List.flatMap_map]
    simp [List.flatMap_id']
  refine ⟨htype, hclauses, ?_⟩
  rw [htype, hclauses]
  exact splitType_append 0 i.others

theorem Column.printable_of_ofItem {c : Column} (h : Column.ofItem source i = .ok c)
    (hts : tokenize source = .ok ts) (hsub : i.tokens <:+: ts)
    (hpiece : Item.isPiece i.tokens = true) : c.Printable := by
  obtain ⟨htype, hclauses, hothers⟩ := tokens_of_ofItem h
  obtain ⟨hword, rfl⟩ := ofItem_eq_ok_iff.1 h
  obtain ⟨htypeIn, hclauseIn⟩ := Clause.isInfix_parts i.others
  have hin : i.others <:+: ts := (List.suffix_cons _ _).isInfix.trans hsub
  constructor
  · exact Fragment.legible_of_infix hts (htypeIn.trans hin)
  · intro f hf
    obtain ⟨clause, hmem, rfl⟩ := List.mem_map.1 hf
    exact Fragment.legible_of_infix hts ((hclauseIn clause hmem).trans hin)
  · intro f hf
    obtain ⟨clause, hmem, rfl⟩ := List.mem_map.1 hf
    exact Clause.ne_nil_of_mem_split hmem
  · rw [hothers, htype, hclauses]
  · rw [hclauses, List.map_map]
    exact (List.map_id _).symm
  · rw [hothers]
    rw [Item.tokens, Item.isPiece_cons hword] at hpiece
    exact hpiece

/-- Whatever an item is read as can be printed. -/
theorem Item.ReadsAs.printable {e : Entry} (h : i.ReadsAs source e)
    (hts : tokenize source = .ok ts) (hsub : i.tokens <:+: ts)
    (hpiece : Item.isPiece i.tokens = true) : e.Printable := by
  cases h with
  | column hi hc => exact Column.printable_of_ofItem hc hts hsub hpiece
  | constraint hi => exact ⟨Fragment.legible_of_infix hts hsub, hpiece, hi⟩

end

/-! ## Tables that were read -/

namespace Table

theorem Extends.printable_of_new {t u : Table} {es : List Entry} (h : t.Extends es u)
    (hcolumns : t.columns = []) (hconstraints : t.constraints = [])
    (hes : ∀ e ∈ es, e.Printable) :
    (∀ c ∈ u.columns, c.Printable) ∧ ∀ f ∈ u.constraints, f.IsConstraint := by
  constructor
  · intro c hc
    rw [h.columns, hcolumns, List.nil_append] at hc
    obtain ⟨e, he, hec⟩ := List.mem_filterMap.1 hc
    cases e with
    | column d =>
      obtain rfl : d = c := Option.some.inj hec
      exact hes _ he
    | constraint f => exact absurd hec (by simp)
  · intro f hf
    rw [h.constraints, hconstraints, List.nil_append] at hf
    obtain ⟨e, he, hef⟩ := List.mem_filterMap.1 hf
    cases e with
    | column d => exact absurd hef (by simp)
    | constraint g =>
      obtain rfl : g = f := Option.some.inj hef
      exact hes _ he

/-- **Every table that was read can be printed.** -/
theorem printable_of_parse {text : String} {t : Table} (h : parse text = .ok t) :
    t.Printable := by
  obtain ⟨o, ho, h⟩ := Except.bind_eq_ok_iff.1 h
  obtain ⟨ts, htokenize, hwritten⟩ := Outline.ofText_eq_ok_iff.1 ho
  obtain ⟨hne, items, es, hitems, hes, hext⟩ := ofOutline_eq_ok_iff.1 h
  obtain ⟨hinner, hoptions⟩ := hwritten.isInfix
  have hbal := Nesting.balanced_eq_true_iff.2 hwritten.balanced
  have hprintable : ∀ e ∈ es, e.Printable := by
    intro e he
    obtain ⟨i, hi, hie⟩ := exists_mem_of_forall₂ hes he
    have hpiece : i.tokens ∈ Item.pieces o.body.inner := by
      rw [hitems]
      exact List.mem_map_of_mem hi
    exact hie.printable htokenize ((Item.isInfix_of_mem_pieces hpiece).trans hinner)
      (Item.isPiece_of_mem_pieces hbal hpiece)
  obtain ⟨hcolumns, hconstraints⟩ := hext.printable_of_new rfl rfl hprintable
  refine ⟨hcolumns, hconstraints, ?_, ?_, hne⟩
  · rw [hext.options]
    exact Fragment.legible_of_infix htokenize hoptions
  · rw [hext.options]
    exact hwritten.allowed

end Table
end TableRebuild
