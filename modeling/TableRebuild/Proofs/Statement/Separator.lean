import TableRebuild.Proofs.Migration
import TableRebuild.Proofs.Plan.Rebuild
import TableRebuild.Proofs.Statement.Wording
import TableRebuild.Proofs.Table.Content

/-!
# Semicolons in what is emitted

Whoever runs the strings of a migration one by one takes each for one statement. A semicolon that is
a token of such a string would end a statement in the middle of it. This file says which semicolons
there are: names have none, however they are spelled, and neither do options; a type, a clause or a
constraint has those that it had in the column list it was read from.

So the semicolons of a migration are all in its first statement, and inside the parentheses there
(`semicolons_migrationSql`). A column list with a semicolon in it is no list that a database
accepts, but it is accepted here, and the semicolon is copied (`not_forall_isSingle`).
-/

namespace TableRebuild

open Nesting

def Token.isSemicolon (t : Token) : Bool := t.isDelimiter .semicolon

/-- How many of the tokens are semicolons. -/
def semicolons (ts : List Token) : Nat := ts.countP (·.isSemicolon)

/-- Whether the text is read as tokens and no semicolon is among them. -/
def isSingle (sql : String) : Bool := (tokenize sql).toOption.any (semicolons · == 0)

/-! ## Counting -/

theorem semicolons_cons_of_not {t : Token} (h : t.isSemicolon = false) (ts : List Token) :
    semicolons (t :: ts) = semicolons ts := by
  rw [semicolons, List.countP_cons_of_neg (by simp [h])]
  rfl

theorem semicolons_eq_zero_iff {ts : List Token} :
    semicolons ts = 0 ↔ ∀ t ∈ ts, t.isSemicolon = false := by
  simp [semicolons, List.countP_eq_zero]

theorem semicolons_append (as bs : List Token) :
    semicolons (as ++ bs) = semicolons as + semicolons bs := List.countP_append

theorem semicolons_of_unplaced {as bs : List Token}
    (h : as.map Token.unplaced = bs.map Token.unplaced) : semicolons as = semicolons bs := by
  have hmap : ∀ ts : List Token, semicolons (ts.map Token.unplaced) = semicolons ts := by
    intro ts
    rw [semicolons, List.countP_map]
    rfl
  rw [← hmap as, ← hmap bs, h]

theorem Token.isSemicolon_of_isWord {t : Token} (h : t.isWord = true) : t.isSemicolon = false :=
  isDelimiter_of_isWord h .semicolon

theorem Token.isSemicolon_of_isDelimiter {t : Token} {d : Delimiter} (h : t.isDelimiter d = true)
    (hd : d ≠ .semicolon) : t.isSemicolon = false := by
  simp [isSemicolon, isDelimiter, eq_of_beq h, hd]

/-- The pieces of a list have its semicolons between them. -/
theorem Item.Separated.semicolons {ps : List (List Token)} {ts : List Token}
    (h : Item.Separated ps ts) : semicolons ts = semicolons ps.flatten := by
  induction h with
  | last piece => simp
  | comma hcomma _ ih =>
    have hnot := Token.isSemicolon_of_isDelimiter hcomma (by simp)
    rw [semicolons_append, semicolons_cons_of_not hnot, ih, List.flatten_cons, semicolons_append]

namespace Statement

theorem separated_commaTokens (ts : List Token) (groups : List (List Token)) :
    Item.Separated (ts :: groups) (commaTokens (ts :: groups)) := by
  induction groups generalizing ts with
  | nil => simpa [commaTokens] using Item.Separated.last ts
  | cons us groups ih =>
    have hcomma : (Token.ofDelimiter .comma).isDelimiter .comma = true := rfl
    have hsep := @Item.Separated.comma ts _ _ _ hcomma (ih us)
    rw [commaTokens, List.intercalate_cons_cons]
    simpa [commaTokens] using hsep

theorem semicolons_commaTokens (groups : List (List Token)) :
    semicolons (commaTokens groups) = semicolons groups.flatten := by
  cases groups with
  | nil => rfl
  | cons ts groups => exact (separated_commaTokens ts groups).semicolons

end Statement

/-! ## Tables that were read -/

theorem Options.semicolons_of_allowed {ts : List Token} (h : Options.Allowed ts) :
    semicolons ts = 0 := by
  have hkeyword : ∀ {t : Token} {k : Keyword}, t.isKeyword k = true → t.isSemicolon = false := by
    intro t k hk
    simp [Token.isSemicolon, Token.isDelimiter, eq_of_beq hk]
  have hsingle : ∀ {us : List Token}, Options.Single us → semicolons us = 0 := by
    intro us hus
    cases hus with
    | withoutRowid hw hr =>
      rw [semicolons_cons_of_not (hkeyword hw), semicolons_cons_of_not (hkeyword hr)]
      rfl
    | strict hs =>
      rw [semicolons_cons_of_not (hkeyword hs)]
      rfl
  rcases h with rfl | h
  · rfl
  · induction h with
    | last h => exact hsingle h
    | comma h hcomma _ ih =>
      have hnot := Token.isSemicolon_of_isDelimiter hcomma (by simp)
      rw [semicolons_append, semicolons_cons_of_not hnot, ih, hsingle h]

namespace Entry

/-- The tokens that the entry is written as. -/
def tokens : Entry → List Token
  | column c => c.tokens
  | constraint f => f.tokens

/-- Entries are columns and constraints, which may stand in any order. -/
theorem perm_parts (es : List Entry) : es.Perm
    ((es.filterMap column?).map column ++ (es.filterMap constraint?).map constraint) := by
  induction es with
  | nil => exact .nil
  | cons e es ih =>
    cases e with
    | column c => exact ih.cons (column c)
    | constraint f => exact (ih.cons (constraint f)).trans List.perm_middle.symm

end Entry

/-- What an item is read as has the semicolons of the item: the name of a column is none. -/
theorem Item.ReadsAs.semicolons {source : String} {i : Item} {e : Entry}
    (h : i.ReadsAs source e) : semicolons e.tokens = semicolons i.tokens := by
  cases h with
  | @column c hi hc =>
    have hword := (Column.ofItem_eq_ok_iff.1 hc).1
    have hname : (Token.ofName c.name).isSemicolon = false := rfl
    have hothers := (Column.tokens_of_ofItem hc).2.2
    rw [Entry.tokens, Column.tokens, List.cons_append, semicolons_cons_of_not hname, hothers,
      Item.tokens, semicolons_cons_of_not (Token.isSemicolon_of_isWord hword)]
  | constraint hi => rfl

namespace Table

/-- The tokens of the columns and constraints, as they stand in a statement. -/
def itemTokens (t : Table) : List (List Token) :=
  t.columns.map Column.tokens ++ t.constraints.map Fragment.tokens

/-- **The semicolons of a table are those of its column list.** -/
theorem semicolons_of_parse {text : String} {t : Table} (h : parse text = .ok t) :
    ∃ ts inner, tokenize text = .ok ts ∧ IsColumnList inner ts ∧
      semicolons (Statement.commaTokens t.itemTokens) = semicolons inner := by
  obtain ⟨ts, o, hts, hwritten, houtline⟩ := parse_eq_ok_iff.1 h
  obtain ⟨-, items, es, hpieces, hes, hext⟩ := ofOutline_eq_ok_iff.1 houtline
  refine ⟨ts, o.body.inner, hts, hwritten.isColumnList, ?_⟩
  have hseparated := ((Item.pieces_eq_iff hwritten.balanced).1 hpieces).1
  have hcolumns : t.columns = es.filterMap Entry.column? := hext.columns
  have hconstraints : t.constraints = es.filterMap Entry.constraint? := hext.constraints
  have hitems : semicolons (items.map Item.tokens).flatten =
      semicolons (es.map Entry.tokens).flatten := by
    clear hpieces hseparated hext hcolumns hconstraints
    induction hes with
    | nil => rfl
    | cons hie _ ih =>
      simp only [List.map_cons, List.flatten_cons, semicolons_append, ih, hie.semicolons]
  have hparts : t.itemTokens.flatten.Perm (es.map Entry.tokens).flatten := by
    have hperm := (Entry.perm_parts es).map Entry.tokens
    rw [List.map_append, List.map_map, List.map_map, ← hcolumns, ← hconstraints] at hperm
    exact hperm.symm.flatten
  rw [Statement.semicolons_commaTokens, hseparated.semicolons, hitems]
  exact hparts.countP_eq _

theorem Printable.legible_fragments {n : Name} {t : Table} (h : t.Printable) :
    ∀ f ∈ (Statement.createTable n t.columns t.constraints t.options).fragments, f.Legible := by
  simp only [Statement.fragments, List.mem_append, List.mem_singleton, List.mem_flatMap]
  rintro f ((⟨c, hc, hf⟩ | hf) | rfl)
  · rcases List.mem_cons.1 hf with rfl | hf
    · exact (h.columns c hc).type
    · exact (h.columns c hc).clauses f hf
  · exact (h.constraints f hf).legible
  · exact h.options

theorem balanced_itemTokens {t : Table} (h : t.Printable) :
    ∀ ts ∈ t.itemTokens, balanced 0 ts = true := by
  intro ts hts
  rcases List.mem_append.1 hts with hts | hts
  · obtain ⟨c, hc, rfl⟩ := List.mem_map.1 hts
    have hpiece := (h.columns c hc).isPiece
    have hword : (Token.ofName c.name).isWord = true := rfl
    rw [← Item.isPiece_cons hword] at hpiece
    exact (Bool.and_eq_true_iff.1 hpiece).1
  · obtain ⟨f, hf, rfl⟩ := List.mem_map.1 hts
    exact (Bool.and_eq_true_iff.1 (h.constraints f hf).isPiece).1

end Table

/-! ## Statements -/

namespace Statement

theorem balanced_commaTokens {groups : List (List Token)}
    (h : ∀ ts ∈ groups, balanced 0 ts = true) : balanced 0 (commaTokens groups) = true := by
  induction groups with
  | nil => rfl
  | cons ts groups ih =>
    obtain ⟨hts, hgroups⟩ := List.forall_mem_cons.1 h
    cases groups with
    | nil => simpa [commaTokens] using hts
    | cons us groups =>
      have htail : balanced 0 (.ofDelimiter .comma :: commaTokens (us :: groups)) = true :=
        balanced_cons_iff.2 ⟨by simp [Token.isDelimiter, Token.ofDelimiter], ih hgroups⟩
      have hall := balanced_append hts htail
      rw [commaTokens, List.intercalate_cons_cons]
      simpa [commaTokens] using hall

/-- **A statement that creates a table** has the semicolons of its list, inside its parentheses. -/
theorem semicolons_createTable (n : Name) {t : Table} (h : t.Printable) :
    OnlyInside 0 (·.isSemicolon) (createTable n t.columns t.constraints t.options).tokens ∧
      semicolons (createTable n t.columns t.constraints t.options).tokens =
        semicolons (commaTokens t.itemTokens) := by
  have hlist := balanced_eq_true_iff.1 (balanced_commaTokens (Table.balanced_itemTokens h))
  have hoptions := Options.semicolons_of_allowed h.allowed
  have hback : semicolons (.ofDelimiter .rightParen :: t.options.tokens) = 0 := by
    rw [semicolons_cons_of_not rfl, hoptions]
  have hfront : semicolons [Token.ofKeyword .create, .ofKeyword .table, .ofName n,
      .ofDelimiter .leftParen] = 0 := rfl
  rw [tokens, ← Table.itemTokens, List.append_assoc]
  constructor
  · -- One parenthesis is open behind the name.
    rw [onlyInside_append_iff (Nat.zero_le _), onlyInside_append_iff]
    · refine ⟨onlyInside_of_none (semicolons_eq_zero_iff.1 hfront), ?_, ?_⟩
      · exact hlist.onlyInside 0 _
      · exact onlyInside_of_none (semicolons_eq_zero_iff.1 hback)
    · have heq := hlist.closed_eq
      omega
  · rw [semicolons_append, semicolons_append, hfront, hback]
    omega

/-- The other statements are made of names. -/
theorem semicolons_of_fragments_eq_nil {s : Statement} (h : s.fragments = []) :
    semicolons s.tokens = 0 := by
  cases s with
  | createTable n columns constraints options => simp [fragments] at h
  | copyRows into source columns =>
    have hlist : semicolons (commaTokens (columns.map fun n => [Token.ofName n])) = 0 := by
      rw [semicolons_commaTokens, semicolons_eq_zero_iff]
      intro t ht
      obtain ⟨group, hgroup, ht⟩ := List.mem_flatten.1 ht
      obtain ⟨n, -, rfl⟩ := List.mem_map.1 hgroup
      rw [List.mem_singleton.1 ht]
      rfl
    simp only [tokens, semicolons_append, hlist]
    rfl
  | dropTable n => rfl
  | renameTable source target => rfl

end Statement

/-! ## Migrations -/

/-- A text that says what a statement says has its semicolons where the statement has them. -/
theorem exists_tokenize_of_says {sql : String} {ts : List Token}
    (h : Says sql.toList (ts.map Token.unplaced)) (hinside : OnlyInside 0 (·.isSemicolon) ts) :
    ∃ us, tokenize sql = .ok us ∧ OnlyInside 0 (·.isSemicolon) us ∧
      semicolons us = semicolons ts := by
  obtain ⟨us, hus, hsame⟩ := wording_eq_ok_iff.1 h.wording_eq
  exact ⟨us, hus, hinside.of_unplaced (fun _ => rfl) hsame, semicolons_of_unplaced hsame⟩

namespace Plan

/-- Behind the first statement of a rebuild there are only names. -/
theorem exists_rebuild_eq_cons (o : RebuildOptions) (actual target : Table) (d : Delta) :
    ∃ rest : Plan, rebuild o actual target d =
      .createTable (target.name.prepend o.tempPrefix) target.columns target.constraints
        target.options :: rest ∧ ∀ s ∈ rest, s.fragments = [] := by
  refine ⟨_, by rw [rebuild, List.append_assoc, List.singleton_append], ?_⟩
  intro s hs
  rcases List.mem_append.1 hs with hs | hs
  · split at hs
    · rw [List.mem_singleton.1 hs]
      rfl
    · exact absurd hs List.not_mem_nil
  · rcases List.mem_cons.1 hs with rfl | hs
    · rfl
    · rw [List.mem_singleton.1 hs]
      rfl

/-- The semicolons of the statements of a plan, one statement after the other. -/
theorem semicolons_between (o : RebuildOptions) (actual : Table) {target : Table}
    (h : target.Printable) (i : Nat) (s : Statement) (hs : (between o actual target)[i]? = some s) :
    ∃ us, tokenize s.sql = .ok us ∧ OnlyInside 0 (·.isSemicolon) us ∧
      semicolons us = if i = 0 then semicolons (Statement.commaTokens target.itemTokens) else 0 := by
  cases hdiffer : Comparison.of actual target with
  | equivalent =>
    rw [between_of_equivalent hdiffer] at hs
    exact absurd hs (by simp)
  | divergent d =>
    obtain ⟨rest, hrebuild, hnames⟩ := exists_rebuild_eq_cons o actual target d
    rw [between_of_divergent hdiffer, hrebuild] at hs
    cases i with
    | zero =>
      obtain rfl := Option.some.inj hs
      obtain ⟨hinside, hcount⟩ :=
        Statement.semicolons_createTable (target.name.prepend o.tempPrefix) h
      obtain ⟨us, hus, husInside, husCount⟩ :=
        exists_tokenize_of_says (Statement.says_sql _ h.legible_fragments) hinside
      exact ⟨us, hus, husInside, husCount.trans hcount⟩
    | succ i =>
      have hnil := hnames s (List.mem_of_getElem? hs)
      have hcount := Statement.semicolons_of_fragments_eq_nil hnil
      have hsays := Statement.says_sql s (by simp [hnil])
      obtain ⟨us, hus, husInside, husCount⟩ := exists_tokenize_of_says hsays
        (onlyInside_of_none (semicolons_eq_zero_iff.1 hcount))
      exact ⟨us, hus, husInside, husCount.trans hcount⟩

end Plan

theorem isSingle_iff {sql : String} :
    isSingle sql = true ↔ ∃ us, tokenize sql = .ok us ∧ semicolons us = 0 := by
  unfold isSingle
  cases tokenize sql with
  | error e => simp [Except.toOption]
  | ok us => simp [Except.toOption]

/-- **The semicolons of a migration** are those of the target's column list. They are in the first
    statement, and inside the parentheses there, and no other statement has any; so the statements
    are single ones exactly if the column list has no semicolon, or if there are no statements. -/
theorem semicolons_migrationSql {actual target : String} {sqls : List String}
    (h : migrationSql actual target = .ok sqls) : ∃ ts inner, tokenize target = .ok ts ∧
      IsColumnList inner ts ∧
      (∀ i sql, sqls[i]? = some sql → ∃ us, tokenize sql = .ok us ∧
        OnlyInside 0 (·.isSemicolon) us ∧ semicolons us = if i = 0 then semicolons inner else 0) ∧
      ((∀ sql ∈ sqls, isSingle sql = true) ↔ sqls = [] ∨ semicolons inner = 0) := by
  obtain ⟨a, t, -, ht, rfl⟩ := migrationSql_eq_ok_iff.1 h
  obtain ⟨ts, inner, hts, hlist, hcount⟩ := Table.semicolons_of_parse ht
  have heach : ∀ i sql, (Plan.between {} a t).sql[i]? = some sql → ∃ us, tokenize sql = .ok us ∧
      OnlyInside 0 (·.isSemicolon) us ∧
        semicolons us = if i = 0 then semicolons inner else 0 := by
    intro i sql hsql
    rw [Plan.sql, List.getElem?_map] at hsql
    obtain ⟨s, hs, rfl⟩ := Option.map_eq_some_iff.1 hsql
    rw [← hcount]
    exact Plan.semicolons_between {} a (Table.printable_of_parse ht) i s hs
  refine ⟨ts, inner, hts, hlist, heach, ?_⟩
  constructor
  · intro hsingle
    cases hsqls : (Plan.between {} a t).sql with
    | nil => exact .inl rfl
    | cons first rest =>
      right
      obtain ⟨us, hus, -, husCount⟩ := heach 0 first (by rw [hsqls]; rfl)
      obtain ⟨us', hus', hnone⟩ := isSingle_iff.1 (hsingle first (by simp [hsqls]))
      obtain rfl : us = us' := Except.ok.inj (hus.symm.trans hus')
      exact husCount.symm.trans hnone
  · rintro hnone sql hsql
    obtain ⟨i, hi⟩ := List.mem_iff_getElem?.1 hsql
    obtain ⟨us, hus, -, husCount⟩ := heach i sql hi
    refine isSingle_iff.2 ⟨us, hus, ?_⟩
    rcases hnone with hnil | hnone
    · rw [hnil] at hsql
      exact absurd hsql List.not_mem_nil
    · rw [husCount, hnone, ite_self]

/-- A target with semicolons in a name, in a string, at its end and, one, between other tokens. -/
theorem semicolons_migrationSql_of_four : ∃ sqls,
    migrationSql "CREATE TABLE t (a)" "CREATE TABLE \";\" (a DEFAULT ';', b CHECK (1;2));" =
      .ok sqls ∧ ∃ ts inner,
        tokenize "CREATE TABLE \";\" (a DEFAULT ';', b CHECK (1;2));" = .ok ts ∧
        IsColumnList inner ts ∧
        (∀ i sql, sqls[i]? = some sql → ∃ us, tokenize sql = .ok us ∧
          OnlyInside 0 (·.isSemicolon) us ∧
            semicolons us = if i = 0 then semicolons inner else 0) ∧
        ((∀ sql ∈ sqls, isSingle sql = true) ↔ sqls = [] ∨ semicolons inner = 0) := by
  have hsql : migrationSql "CREATE TABLE t (a)"
      "CREATE TABLE \";\" (a DEFAULT ';', b CHECK (1;2));" = .ok [
        "CREATE TABLE \"__temp_;\" (\"a\" DEFAULT ';', \"b\" CHECK (1;2))",
        "INSERT INTO \"__temp_;\" (\"a\") SELECT \"a\" FROM \"t\"",
        "DROP TABLE \"t\"",
        "ALTER TABLE \"__temp_;\" RENAME TO \";\""] := by decide +kernel
  exact ⟨_, hsql, semicolons_migrationSql hsql⟩

/-- Not all that is emitted is a single statement: a column list is accepted with a second statement
    in it. -/
theorem not_forall_isSingle : ¬∀ (actual target : String) (sqls : List String),
    migrationSql actual target = .ok sqls → ∀ sql ∈ sqls, isSingle sql = true := by
  intro hall
  have hsql : migrationSql "CREATE TABLE t (a)" "CREATE TABLE t (a; DROP TABLE x)" = .ok [
      "CREATE TABLE \"__temp_t\" (\"a\" ; DROP TABLE x)",
      "INSERT INTO \"__temp_t\" (\"a\") SELECT \"a\" FROM \"t\"",
      "DROP TABLE \"t\"",
      "ALTER TABLE \"__temp_t\" RENAME TO \"t\""] := by decide +kernel
  have hsingle := hall _ _ _ hsql _ List.mem_cons_self
  have hnot : isSingle "CREATE TABLE \"__temp_t\" (\"a\" ; DROP TABLE x)" = false := by
    decide +kernel
  exact absurd hsingle (by simp [hnot])

end TableRebuild
