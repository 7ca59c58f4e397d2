import TableRebuild.Migration
import TableRebuild.Proofs.Indexed.Column
import TableRebuild.Proofs.Indexed.Lexer
import TableRebuild.Proofs.Table.History

/-!
# From two statements to a migration, by position

The whole way, from two texts to the statements that lead from one table to the other, with every
slice, index and subtraction checked. `Performs x y` says that the run `x` has the outcome of the
reader `y` and does not end in a trap, and `performs_migrationSql` says it of each part that is of
use by itself: the tokens of a text, the table of a text, the migration, a name out of its quotes
and a column looked up in the index of a table.
-/

namespace TableRebuild
namespace Indexed

open Text (byteLength)

/-! ## The reader -/

/-- The table that a statement says to create, before any item of the column list. -/
def ofHeader (source : String) (header : Header) (options : List Token) :
    Run DefinitionError Table := do
  let name ← nameOf header.name
  let schema ← header.schema.mapM nameOf
  let options ← fragment source options
  return { Table.new name with
    schema
    temporary := header.temporary
    ifNotExists := header.ifNotExists
    options }

/-- The table that the tokens of `source` define where they are cut like this. -/
def ofCut (source : String) (ts : List Token) (c : Cut) : Run DefinitionError Table := do
  let closing ← element ts c.body.2
  let inner ← elements ts c.body.1 c.body.2
  let items ← splitItems inner closing.span
  let options ← elements ts c.options.1 c.options.2
  let table ← items.foldlM (addItem source) (← ofHeader source c.header options)
  if table.columns.isEmpty then
    let opening ← element ts (← minus c.body.1 1)
    refuse (.noColumns (opening.span.join closing.span))
  else return table

def parse (text : String) : Run DefinitionError Table := do
  let ts ← (Lexer.tokenize text.toList).mapError (.map .lexical)
  let cut ← readOutline ts (byteLength text.toList)
  ofCut text ts cut

def migrationSql (actual target : String) : Run InputError (List String) := do
  let a ← (parse actual).mapError (.map fun e => ⟨.actual, e⟩)
  let t ← (parse target).mapError (.map fun e => ⟨.target, e⟩)
  return (Plan.between {} a t).sql

/-- A column by its name: the index says where it is. -/
def column? {ε : Type} (t : Table) (n : Name) : Run ε (Option Column) :=
  match t.index.lookup n with
  | some i => do return some (← element t.columns i)
  | none => return none

/-! ## Its outcome -/

section

variable {source : String} {ts : List Token}

theorem ofHeader_eq {options : List Token} (hts : tokenize source = .ok ts)
    (hsub : options <:+: ts) (header : Header) :
    ofHeader source header options = .ok (Table.ofHeader source header options) := by
  obtain ⟨temporary, ifNotExists, schema, name⟩ := header
  cases schema with
  | none => simp [ofHeader, nameOf_eq, fragment_eq hts hsub, Table.ofHeader]
  | some t => simp [ofHeader, nameOf_eq, fragment_eq hts hsub, Table.ofHeader]

theorem ofCut_eq {c : Cut} {o : Outline} (hts : tokenize source = .ok ts) (h : c.Matches ts o) :
    ofCut source ts c = (Table.ofOutline source o).mapError .refused := by
  obtain ⟨hinner, hoptions⟩ := h.isInfix
  have hpieces : ∀ items, o.body.items = .ok items →
      ∀ i ∈ items, i.tokens <:+: ts ∧ Item.isPiece i.tokens = true := by
    intro items hitems i hi
    have hpiece : i.tokens ∈ Item.pieces o.body.inner := by
      rw [Body.items_eq_ok_iff.1 hitems]
      exact List.mem_map_of_mem hi
    exact ⟨(Item.isInfix_of_mem_pieces hpiece).trans hinner,
      Item.isPiece_of_mem_pieces h.balanced hpiece⟩
  rw [← refines_eq_iff, ofCut, Table.ofOutline, h.closing_eq, ok_bind, h.inner_eq, ok_bind]
  refine ((refines_splitItems h.balanced).and hpieces).bind ?_
  rintro _ items ⟨rfl, hpieces⟩
  rw [h.options_eq, ok_bind, ofHeader_eq hts hoptions, ok_bind, h.header,
    foldlM_addItem_eq _ hts hpieces, refines_eq_iff]
  cases items.foldlM (Table.addItem source) (Table.ofHeader source o.header o.options) with
  | error e => rfl
  | ok t =>
    obtain ⟨hminus, hopening⟩ := @Cut.Matches.opening_eq _ DefinitionError _ _ h
    simp only [hminus, hopening, Except.mapError, ok_bind]
    cases t.columns.isEmpty with
    | false => rfl
    | true => rfl

end

theorem parse_eq (text : String) : parse text = (Table.parse text).mapError .refused := by
  rw [parse, Table.parse, Outline.ofText, Lexer.tokenize_eq]
  cases hts : tokenize text with
  | error e => rfl
  | ok ts =>
    rw [← refines_eq_iff]
    refine (refines_readOutline ts (byteLength text.toList)).bind ?_
    intro c o h
    rw [refines_eq_iff]
    exact ofCut_eq hts h

theorem migrationSql_eq (actual target : String) :
    migrationSql actual target = (TableRebuild.migrationSql actual target).mapError .refused := by
  rw [migrationSql, TableRebuild.migrationSql, parse_eq, parse_eq]
  cases Table.parse actual with
  | error e => rfl
  | ok a =>
    cases Table.parse target with
    | error e => rfl
    | ok t => rfl

theorem column?_eq {ε : Type} (t : Table) (n : Name) :
    (column? t n : Run ε (Option Column)) = .ok (t.column? n) := by
  unfold column? Table.column?
  cases hi : t.index.lookup n with
  | none => rfl
  | some i =>
    obtain ⟨c, hc, -⟩ := Table.index_lookup_eq_some_iff.1 hi
    simp [element_of_getElem? hc, hc]

/-- **No text makes a program by position go wrong.** Whatever the texts are, every slice begins and
    ends between two characters, every index is in bounds, no number is taken from a smaller one and
    every loop comes to its end; and what comes out is what the library says. -/
theorem performs_migrationSql (ε : Type) :
    (∀ text, Performs (Lexer.tokenize text.toList) (TableRebuild.tokenize text)) ∧
      (∀ text, Performs (parse text) (Table.parse text)) ∧
      (∀ actual target,
        Performs (migrationSql actual target) (TableRebuild.migrationSql actual target)) ∧
      (∀ raw, Performs (unquote raw : Run ε (List Char)) (.ok (Quote.unquote raw))) ∧
      ∀ t n, Performs (column? t n : Run ε (Option Column)) (.ok (t.column? n)) := by
  refine ⟨?tokens, ?table, ?migration, ?name, ?lookup⟩
  case tokens => exact fun text => performs_of_eq (Lexer.tokenize_eq text)
  case table => exact fun text => performs_of_eq (parse_eq text)
  case migration => exact fun actual target => performs_of_eq (migrationSql_eq actual target)
  case name => exact fun raw => performs_of_eq (unquote_eq raw)
  case lookup => exact fun t n => performs_of_eq (column?_eq t n)

end Indexed
end TableRebuild
