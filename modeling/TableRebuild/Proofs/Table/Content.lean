import TableRebuild.Proofs.Definition.Refusal
import TableRebuild.Proofs.Table.Grammar

/-!
# Where the tokens of a column list go

Between the two parentheses of a column list and the table that is read from it there are four loops
that count parentheses: the one that finds the closing parenthesis, the one that cuts at commas, the
one that looks for the end of a type and the one that cuts clauses. Each has its own counter, and
each goes over a part of what another one has found. A token would be lost if two of them did not
agree on where a part ends.

They agree because every part is balanced by itself, so that each loop may start from zero, and
because cutting is all they do: what a loop cuts apart, put together again, is what it was given.
`Table.holds_of_parse` follows the tokens all the way. Each is in the name, the type, a clause or a
constraint of the table, where the statement has it, or it is a comma between two items.
-/

namespace TableRebuild

open Nesting

/-! ## Parts of a column list -/

/-- The text is the stretch of the source from the first of the tokens to the last, and empty where
    there are no tokens. -/
def Fragment.IsSlice (f : Fragment) (source : String) : Prop :=
  match f.tokens.head?, f.tokens.getLast? with
  | some first, some last =>
    Text.slice? first.span.start last.span.stop source.toList = some f.text.toList
  | _, _ => f.text = ""

/-- The fragment is balanced and has no comma outside parentheses, and its text is where its tokens
    are. -/
structure Fragment.IsPart (f : Fragment) (source : String) : Prop where
  balanced : Balanced 0 f.tokens
  whole : OnlyInside 0 (·.isDelimiter .comma) f.tokens
  isSlice : f.IsSlice source

/-- The column has the tokens of an item, one behind the other: its name, its type, its clauses. -/
structure Column.IsItem (c : Column) (i : Item) : Prop where
  isWord : i.first.isWord = true
  name : c.name = .ofToken i.first
  tokens : i.tokens = i.first :: (c.type.tokens ++ c.clauseTokens)

/-- Type and clauses are parts, each of which begins where it should: no word outside parentheses in
    the type begins a constraint, and every clause begins with such a word. And the counters of the
    two loops that tell them apart are never asked to go below zero. -/
structure Column.WellCut (c : Column) (source : String) : Prop where
  type : c.type.IsPart source
  type_inside : OnlyInside 0 Token.opensColumnConstraint c.type.tokens
  clauses : ∀ f ∈ c.clauses, f.IsPart source
  clauses_ne_nil : ∀ f ∈ c.clauses, f.tokens ≠ []
  clauses_open : ∀ f ∈ c.clauses, f.tokens.head?.any Token.opensColumnConstraint = true
  neverClips_type : NeverClips 0 (c.type.tokens ++ c.clauseTokens)
  neverClips_clauses : NeverClips 0 c.clauseTokens

/-- The tokens stand between the first opening parenthesis and the one that closes it. -/
def IsColumnList (inner ts : List Token) : Prop :=
  ∃ front opening closing back, ts = front ++ opening :: (inner ++ closing :: back) ∧
    (∀ t ∈ front, t.isDelimiter .leftParen = false) ∧ opening.isDelimiter .leftParen = true ∧
      Balanced 0 inner ∧ closing.isDelimiter .rightParen = true

/-- The columns and constraints of the table have the tokens of the items, in order, and of nothing
    else. -/
structure Table.Holds (t : Table) (source : String) (items : List Item) : Prop where
  constraints : t.constraints.map (·.tokens) = (items.filter (·.isConstraint)).map Item.tokens
  columns : List.Forall₂ Column.IsItem t.columns (items.filter (!·.isConstraint))
  constraints_isPart : ∀ f ∈ t.constraints, f.IsPart source
  columns_wellCut : ∀ c ∈ t.columns, c.WellCut source

/-! ## The stretch of a part -/

theorem Fragment.isSlice_ofTokens {source : String} {ts sub : List Token}
    (h : tokenize source = .ok ts) (hsub : sub <:+: ts) : (ofTokens sub source).IsSlice source := by
  obtain ⟨pre, ls, post, hsource, rfl, -⟩ := Lexeme.exists_of_infix h hsub
  have htext := toList_text_ofTokens hsource
  cases ls with
  | nil => exact String.toList_eq_nil_iff.1 htext
  | cons l ls =>
    obtain ⟨last, hlast, -, -, hstop⟩ :=
      Lexeme.exists_getLast?_placeAll (Text.byteLength pre) l ls
    have hcut : source.toList =
        (pre ++ l.gap) ++ (l.text ++ ls.flatMap Lexeme.written) ++ post := by
      rw [hsource]
      simp [Lexeme.written]
    have hend : last.span.stop = Text.byteLength (pre ++ l.gap) +
        Text.byteLength (l.text ++ ls.flatMap Lexeme.written) := by
      rw [hstop]
      simp [Lexeme.written]
      omega
    simp only [IsSlice, tokens_ofTokens, hlast, htext]
    simp only [Lexeme.placeAll, List.head?_cons, Lexeme.place, ← Text.byteLength_append]
    rw [hend, hcut, Text.slice?_middle]
    simp [Lexeme.withGap, Lexeme.written]

/-- A piece that is cut from a text is a part of it. -/
theorem Fragment.isPart_ofTokens {source : String} {ts sub : List Token}
    (hts : tokenize source = .ok ts) (hsub : sub <:+: ts) (h : Item.isPiece sub = true) :
    (ofTokens sub source).IsPart source := by
  obtain ⟨hbal, hwhole⟩ := Item.isPiece_iff.1 h
  exact ⟨hbal, hwhole, isSlice_ofTokens hts hsub⟩

/-! ## One column -/

/-- **Type and clauses of a piece are pieces**, and each begins where it should. -/
theorem Item.isPiece_parts {ts : List Token} (h : isPiece ts = true) :
    isPiece (splitType 0 ts).1 = true ∧ Balanced 0 (splitType 0 ts).2 ∧
      ∀ clause ∈ Clause.split (splitType 0 ts).2,
        isPiece clause = true ∧ clause.head?.any Token.opensColumnConstraint = true := by
  obtain ⟨hbal, hwhole⟩ := isPiece_iff.1 h
  obtain ⟨htype, hconstraints⟩ := balanced_splitType (balanced_eq_true_iff.2 hbal)
  rw [balanced_eq_true_iff] at htype
  rw [← splitType_append 0 ts] at hwhole
  obtain ⟨htypeWhole, hconstraintsWhole⟩ := hwhole.of_append htype
  -- Each clause is balanced, so what is outside parentheses in it is so in all of them together.
  have hclause : ∀ clause ∈ Clause.split (splitType 0 ts).2,
      Balanced 0 clause ∧ clause.head?.any Token.opensColumnConstraint = true := by
    intro clause hmem
    rw [← balanced_eq_true_iff]
    exact Clause.of_mem_split hconstraints opens_of_head?_splitType hmem
  rw [← Clause.flatten_split (splitType 0 ts).2] at hconstraintsWhole
  have hclauseWhole := hconstraintsWhole.of_flatten fun clause hmem => (hclause clause hmem).1
  refine ⟨isPiece_iff.2 ⟨htype, htypeWhole⟩, balanced_eq_true_iff.1 hconstraints, ?_⟩
  intro clause hmem
  obtain ⟨hclauseBal, hopens⟩ := hclause clause hmem
  exact ⟨isPiece_iff.2 ⟨hclauseBal, hclauseWhole clause hmem⟩, hopens⟩

namespace Column

variable {source : String} {i : Item} {c : Column}

theorem isItem_of_ofItem (h : ofItem source i = .ok c) : c.IsItem i := by
  obtain ⟨hword, hc⟩ := ofItem_eq_ok_iff.1 h
  refine ⟨hword, by rw [hc], ?_⟩
  rw [(tokens_of_ofItem h).2.2, Item.tokens]

theorem wellCut_of_ofItem {ts : List Token} (h : ofItem source i = .ok c)
    (hts : tokenize source = .ok ts) (hsub : i.tokens <:+: ts)
    (hpiece : Item.isPiece i.tokens = true) : c.WellCut source := by
  obtain ⟨htokens, hclauseTokens, happend⟩ := tokens_of_ofItem h
  obtain ⟨hword, rfl⟩ := ofItem_eq_ok_iff.1 h
  rw [Item.tokens, Item.isPiece_cons hword] at hpiece
  have hin : i.others <:+: ts := (List.suffix_cons _ _).isInfix.trans hsub
  have hbal := (Bool.and_eq_true_iff.1 hpiece).1
  obtain ⟨htype, hconstraints, hclauses⟩ := Item.isPiece_parts hpiece
  obtain ⟨htypeIn, hclausesIn⟩ := Clause.isInfix_parts i.others
  constructor
  · exact Fragment.isPart_ofTokens hts (htypeIn.trans hin) htype
  · exact onlyInside_splitType hbal
  · intro f hf
    obtain ⟨clause, hmem, rfl⟩ := List.mem_map.1 hf
    exact Fragment.isPart_ofTokens hts ((hclausesIn clause hmem).trans hin) (hclauses clause hmem).1
  · intro f hf
    obtain ⟨clause, hmem, rfl⟩ := List.mem_map.1 hf
    exact Clause.ne_nil_of_mem_split hmem
  · intro f hf
    obtain ⟨clause, hmem, rfl⟩ := List.mem_map.1 hf
    exact (hclauses clause hmem).2
  · rw [happend]
    exact neverClips_of_balanced hbal
  · rw [hclauseTokens]
    exact neverClips_of_balanced (balanced_eq_true_iff.2 hconstraints)

end Column

/-! ## The whole list -/

theorem Outline.Written.isColumnList {o : Outline} {ts : List Token} (h : o.Written ts) :
    IsColumnList o.body.inner ts := by
  cases h with
  | intro hheader hopening hinner hclosing _ _ =>
    exact ⟨_, _, _, _, rfl, fun t ht => (hheader.noParens t ht).1, hopening, hinner, hclosing⟩

namespace Table

theorem holds_of_entries {source : String} {ts : List Token} {t u : Table} {items : List Item}
    {es : List Entry} (hext : t.Extends es u) (hcolumns : t.columns = [])
    (hconstraints : t.constraints = []) (hes : List.Forall₂ (Item.ReadsAs source) items es)
    (hts : tokenize source = .ok ts) (hsub : ∀ i ∈ items, i.tokens <:+: ts)
    (hpieces : ∀ i ∈ items, Item.isPiece i.tokens = true) : u.Holds source items := by
  have hucolumns := hext.columns
  have huconstraints := hext.constraints
  rw [hcolumns, List.nil_append] at hucolumns
  rw [hconstraints, List.nil_append, Item.constraints_of_entries hes] at huconstraints
  have hread := Item.columns_of_entries hes
  rw [← hucolumns] at hread
  constructor
  · rw [huconstraints, List.map_map]
    rfl
  · exact hread.flip.imp fun c i hc => Column.isItem_of_ofItem hc
  · intro f hf
    rw [huconstraints] at hf
    obtain ⟨i, hi, rfl⟩ := List.mem_map.1 hf
    have hmem := (List.mem_filter.1 hi).1
    exact Fragment.isPart_ofTokens hts (hsub i hmem) (hpieces i hmem)
  · intro c hc
    obtain ⟨i, hi, hic⟩ := exists_mem_of_forall₂ hread hc
    have hmem := (List.mem_filter.1 hi).1
    exact Column.wellCut_of_ofItem hic hts (hsub i hmem) (hpieces i hmem)

/-- **No token of a column list is lost**, and none is in two places. What stands between the
    parentheses is items with commas between them; the items that are constraints are the
    constraints of the table, and the others are its columns, token by token and in order. Every
    part of the table is balanced and is written where its tokens are, and no loop that counts
    parentheses on the way is asked to go below zero. -/
theorem holds_of_parse {text : String} {t : Table} (h : parse text = .ok t) :
    ∃ ts inner items, tokenize text = .ok ts ∧ IsColumnList inner ts ∧ NeverClips 0 inner ∧
      Item.Separated (items.map Item.tokens) inner ∧
      (∀ i ∈ items, Balanced 0 i.tokens ∧ OnlyInside 0 (·.isDelimiter .comma) i.tokens) ∧
      t.Holds text items := by
  obtain ⟨ts, o, hts, hwritten, houtline⟩ := parse_eq_ok_iff.1 h
  obtain ⟨-, items, es, hpieces, hes, hext⟩ := ofOutline_eq_ok_iff.1 houtline
  have hbal := balanced_eq_true_iff.2 hwritten.balanced
  obtain ⟨hseparated, hbalanced, hwhole⟩ :=
    (Item.pieces_eq_map_tokens_iff hwritten.balanced).1 hpieces
  have hmem : ∀ i ∈ items, i.tokens ∈ Item.pieces o.body.inner := by
    intro i hi
    rw [hpieces]
    exact List.mem_map_of_mem hi
  refine ⟨ts, o.body.inner, items, hts, hwritten.isColumnList, neverClips_of_balanced hbal,
    hseparated, fun i hi => ⟨hbalanced i hi, hwhole i hi⟩, ?_⟩
  apply holds_of_entries hext rfl rfl hes hts
  · intro i hi
    exact (Item.isInfix_of_mem_pieces (hmem i hi)).trans hwritten.isInfix.1
  · intro i hi
    exact Item.isPiece_of_mem_pieces hbal (hmem i hi)

/-- A list with commas and closing parentheses at every depth, a column without a type and a
    constraint between two columns. -/
theorem holds_of_parse_nested : ∃ text t,
    text = "create table t (a DECIMAL(10, 2) NOT NULL DEFAULT ((1)), CHECK (a IN (0, (1))), b)" ∧
    parse text = .ok t ∧
    ∃ ts inner items, tokenize text = .ok ts ∧ IsColumnList inner ts ∧ NeverClips 0 inner ∧
      Item.Separated (items.map Item.tokens) inner ∧
      (∀ i ∈ items, Balanced 0 i.tokens ∧ OnlyInside 0 (·.isDelimiter .comma) i.tokens) ∧
      t.Holds text items := by
  refine ⟨"create table t (a DECIMAL(10, 2) NOT NULL DEFAULT ((1)), CHECK (a IN (0, (1))), b)", ?_⟩
  generalize htext :
    "create table t (a DECIMAL(10, 2) NOT NULL DEFAULT ((1)), CHECK (a IN (0, (1))), b)" = text
  have hok : (parse text).isOk = true := by
    rw [← htext]
    decide +kernel
  cases hparse : parse text with
  | error e =>
    rw [hparse] at hok
    exact absurd hok Bool.false_ne_true
  | ok t => exact ⟨t, rfl, rfl, holds_of_parse hparse⟩

end Table
end TableRebuild
