import TableRebuild.Proofs.Comparison.Delta
import TableRebuild.Proofs.Plan.RoundTrip
import TableRebuild.Proofs.Statement.Separator

/-!
# The strings of a migration, read again

A migration is a list of strings, and whoever runs it sees nothing else. This file reads the strings
as anybody would: a string is tokenized, and names are the quoted names between two marks in it, as
between `SELECT` and `FROM`. A name cannot be mistaken for a mark however it is spelled, because it
is written in quotes and a mark is not (`Token.spells_ofName`).

What is read is this. There are no strings exactly if the tables are equal. Otherwise the first
creates a table, the last but one drops the actual table and the last gives the created table the
name of the target. In between, if a column name is in both tables, is one that copies from the
table that is dropped to the one that was created, and in it the same names stand in the same order
on both sides: those of the target's columns that the actual table has too
(`Plan.exists_isRebuild`). So no value can end up in a column of another name.
-/

namespace TableRebuild

/-! ## Reading names -/

/-- The name that a token is, if it is a name in quotes. -/
def Token.quotedName? (t : Token) : Option Name :=
  if t.kind = .quotedName then some (.ofToken t) else none

/-- The quoted names behind the first token that opens, up to the next one that closes. -/
def namesBetween (opens closes : Token → Bool) (ts : List Token) : List Name :=
  (((ts.dropWhile (!opens ·)).drop 1).takeWhile (!closes ·)).filterMap Token.quotedName?

/-- The quoted names behind the first token that opens. -/
def namesBehind (opens : Token → Bool) (ts : List Token) : List Name :=
  namesBetween opens (fun _ => false) ts

theorem namesBetween_append {opens closes : Token → Bool} {front inside back : List Token}
    {o c : Token} (hfront : ∀ t ∈ front, opens t = false) (ho : opens o = true)
    (hinside : ∀ t ∈ inside, closes t = false) (hc : closes c = true) :
    namesBetween opens closes (front ++ o :: (inside ++ c :: back)) =
      inside.filterMap Token.quotedName? := by
  have hdrop : (front ++ o :: (inside ++ c :: back)).dropWhile (!opens ·) =
      o :: (inside ++ c :: back) := by
    rw [List.dropWhile_append_of_pos fun t ht => by simp [hfront t ht],
      List.dropWhile_cons_of_neg (by simp [ho])]
  have htake : (inside ++ c :: back).takeWhile (!closes ·) = inside := by
    rw [List.takeWhile_append_of_pos fun t ht => by simp [hinside t ht],
      List.takeWhile_cons_of_neg (by simp [hc]), List.append_nil]
  rw [namesBetween, hdrop, List.drop_one, List.tail_cons, htake]

theorem namesBehind_append {opens : Token → Bool} {front inside : List Token} {o : Token}
    (hfront : ∀ t ∈ front, opens t = false) (ho : opens o = true) :
    namesBehind opens (front ++ o :: inside) = inside.filterMap Token.quotedName? := by
  have hdrop : (front ++ o :: inside).dropWhile (!opens ·) = o :: inside := by
    rw [List.dropWhile_append_of_pos fun t ht => by simp [hfront t ht],
      List.dropWhile_cons_of_neg (by simp [ho])]
  have htake : inside.takeWhile (!(fun _ : Token => false) ·) = inside :=
    List.takeWhile_eq_self_iff.2 fun _ _ => rfl
  rw [namesBehind, namesBetween, hdrop, List.drop_one, List.tail_cons, htake]

/-- Where the tokens stand makes no difference to the names, as long as it makes none to the
    marks. -/
theorem namesBetween_unplaced {opens closes : Token → Bool}
    (hopens : ∀ t : Token, opens t.unplaced = opens t)
    (hcloses : ∀ t : Token, closes t.unplaced = closes t) (ts : List Token) :
    namesBetween opens closes (ts.map Token.unplaced) = namesBetween opens closes ts := by
  have hcomp : (!opens ·) ∘ Token.unplaced = (!opens ·) := funext fun t => by simp [hopens]
  have hcomp' : (!closes ·) ∘ Token.unplaced = (!closes ·) := funext fun t => by simp [hcloses]
  rw [namesBetween, List.dropWhile_map, hcomp, ← List.map_drop, List.takeWhile_map, hcomp',
    List.filterMap_map]
  rfl

theorem namesBetween_of_unplaced {as bs : List Token} {opens closes : Token → Bool}
    (hopens : ∀ t : Token, opens t.unplaced = opens t)
    (hcloses : ∀ t : Token, closes t.unplaced = closes t)
    (h : as.map Token.unplaced = bs.map Token.unplaced) :
    namesBetween opens closes as = namesBetween opens closes bs := by
  rw [← namesBetween_unplaced hopens hcloses as, h, namesBetween_unplaced hopens hcloses bs]

theorem head?_any_spells_of_unplaced {as bs : List Token} {word : String}
    (h : as.map Token.unplaced = bs.map Token.unplaced) :
    as.head?.any (·.spells word) = bs.head?.any (·.spells word) := by
  have hmap : ∀ ts : List Token, (ts.map Token.unplaced).head?.any (·.spells word) =
      ts.head?.any (·.spells word) := by
    intro ts
    cases ts <;> rfl
  rw [← hmap as, ← hmap bs, h]

/-! ## The tokens of a statement -/

namespace Token

/-- A name in quotes is no word of the language. -/
theorem spells_ofName (n : Name) {word : String} {c : Char} {cs : List Char}
    (hword : word.toList = c :: cs) (hc : c.toLower ≠ '"') : (ofName n).spells word = false := by
  rw [spells, Bool.and_eq_false_iff, Bool.eq_false_iff (b := Text.sameFold _ _), ne_eq,
    Text.sameFold_eq_true_iff]
  right
  intro h
  have hlist := congrArg String.toList h
  rw [Text.toList_fold, Text.toList_fold, hword] at hlist
  have hquoted : (ofName n).text.toList = '"' :: (Quote.double.escape n.spelling.toList ++ ['"']) :=
    String.toList_ofList
  rw [hquoted, List.map_cons, List.map_cons] at hlist
  exact hc (List.cons.inj hlist).1.symm

theorem quotedName?_ofName (n : Name) : (ofName n).quotedName? = some n :=
  congrArg some (n.ofToken_quoted ⟨0, 0⟩)

end Token

namespace Statement

open Token

/-- The tokens are a statement that copies the columns of a table to those of another. Each part is
    what is read between the marks around it. -/
structure CopiesRows (into source : Name) (listed selected : List Name) (ts : List Token) :
    Prop where
  begins : ts.head?.any (·.spells "INSERT") = true
  into : namesBetween (·.spells "INTO") (·.isDelimiter .leftParen) ts = [into]
  listed : namesBetween (·.isDelimiter .leftParen) (·.isDelimiter .rightParen) ts = listed
  selected : namesBetween (·.spells "SELECT") (·.spells "FROM") ts = selected
  source : namesBehind (·.spells "FROM") ts = [source]

/-- The tokens are a statement that drops the table. -/
structure DropsTable (n : Name) (ts : List Token) : Prop where
  begins : ts.head?.any (·.spells "DROP") = true
  name : namesBehind (·.spells "TABLE") ts = [n]

/-- The tokens are a statement that renames a table. -/
structure RenamesTable (source target : Name) (ts : List Token) : Prop where
  begins : ts.head?.any (·.spells "ALTER") = true
  source : namesBetween (·.spells "TABLE") (·.spells "RENAME") ts = [source]
  target : namesBehind (·.spells "TO") ts = [target]

/-- In a list of names there are names and commas. -/
theorem mem_commaTokens_names {ns : List Name} {t : Token}
    (h : t ∈ commaTokens (ns.map fun n => [ofName n])) :
    t = ofDelimiter .comma ∨ ∃ n, t = ofName n := by
  induction ns with
  | nil => exact absurd h List.not_mem_nil
  | cons n ns ih =>
    cases ns with
    | nil => exact .inr ⟨n, by simpa [commaTokens] using h⟩
    | cons m ns =>
      rw [commaTokens, List.map_cons, List.map_cons, List.intercalate_cons_cons, List.mem_append,
        List.mem_append, List.mem_singleton, List.mem_singleton] at h
      rcases h with (h | h) | h
      · exact .inr ⟨n, h⟩
      · exact .inl h
      · exact ih h

/-- The names of a list of names are these names. -/
theorem quotedNames_commaTokens (ns : List Name) :
    (commaTokens (ns.map fun n => [ofName n])).filterMap quotedName? = ns := by
  induction ns with
  | nil => rfl
  | cons n ns ih =>
    cases ns with
    | nil => rw [commaTokens, List.map_singleton, List.intercalate_singleton,
        List.filterMap_cons_some (quotedName?_ofName n), List.filterMap_nil]
    | cons m ns =>
      rw [commaTokens, List.map_cons, List.map_cons, List.intercalate_cons_cons,
        List.filterMap_append, List.filterMap_append,
        List.filterMap_cons_some (quotedName?_ofName n)]
      exact congrArg (n :: ·) ih

theorem quotedNames_singleton (n : Name) : [ofName n].filterMap quotedName? = [n] :=
  List.filterMap_cons_some (quotedName?_ofName n)

theorem copiesRows_tokens (into source : Name) (columns : List Name) :
    CopiesRows into source columns columns (copyRows into source columns).tokens := by
  set list := commaTokens (columns.map fun n => [ofName n]) with hlist
  set opening := [ofBare "INSERT", ofBare "INTO", ofName into] with hopening
  set listing := opening ++ ofDelimiter .leftParen :: list ++ [ofDelimiter .rightParen]
    with hlisting
  have hnames : list.filterMap quotedName? = columns := quotedNames_commaTokens columns
  have htokens : (copyRows into source columns).tokens =
      opening ++ ofDelimiter .leftParen :: (list ++ ofDelimiter .rightParen :: ofBare "SELECT" ::
        (list ++ [ofBare "FROM", ofName source])) := by
    simp [tokens, hlist, hopening]
  have hselect : (copyRows into source columns).tokens =
      listing ++ ofBare "SELECT" :: (list ++ ofBare "FROM" :: [ofName source]) := by
    simp [htokens, hlisting]
  have hfrom : (copyRows into source columns).tokens =
      (listing ++ ofBare "SELECT" :: list) ++ ofBare "FROM" :: [ofName source] := by
    simp [htokens, hlisting]
  -- What marks the parts of the statement is neither a name nor in a list of names.
  have hname : ∀ n : Name, (ofName n).spells "SELECT" = false ∧ (ofName n).spells "FROM" = false :=
    fun n => ⟨spells_ofName n rfl (by decide), spells_ofName n rfl (by decide)⟩
  have hinside : ∀ t ∈ list, (t.spells "SELECT" = false ∧ t.spells "FROM" = false) ∧
      t.isDelimiter .rightParen = false := by
    intro t ht
    rcases mem_commaTokens_names ht with rfl | ⟨n, rfl⟩
    · exact ⟨⟨rfl, rfl⟩, rfl⟩
    · exact ⟨hname n, rfl⟩
  have hinsert : ∀ t ∈ [ofBare "INSERT"], t.spells "INTO" = false :=
    List.forall_mem_singleton.2 rfl
  have hinto : ∀ t ∈ [ofName into], t.isDelimiter .leftParen = false :=
    List.forall_mem_singleton.2 rfl
  have hunopened : ∀ t ∈ opening, t.isDelimiter .leftParen = false := by
    simp only [hopening, List.forall_mem_cons]
    exact ⟨rfl, rfl, rfl, by simp⟩
  have hlisted : ∀ t ∈ listing, t.spells "SELECT" = false ∧ t.spells "FROM" = false := by
    simp only [hlisting, hopening, List.forall_mem_append, List.forall_mem_cons]
    exact ⟨⟨⟨⟨rfl, rfl⟩, ⟨rfl, rfl⟩, hname into, by simp⟩, ⟨rfl, rfl⟩,
      fun t ht => (hinside t ht).1⟩, ⟨rfl, rfl⟩, by simp⟩
  have hselected : ∀ t ∈ listing ++ ofBare "SELECT" :: list, t.spells "FROM" = false := by
    rw [List.forall_mem_append, List.forall_mem_cons]
    exact ⟨fun t ht => (hlisted t ht).2, rfl, fun t ht => (hinside t ht).1.2⟩
  constructor
  · rfl
  · rw [htokens]
    exact (namesBetween_append hinsert rfl hinto rfl).trans (quotedNames_singleton into)
  · rw [htokens]
    exact (namesBetween_append hunopened rfl (fun t ht => (hinside t ht).2) rfl).trans hnames
  · rw [hselect]
    exact (namesBetween_append (fun t ht => (hlisted t ht).1) rfl
      (fun t ht => (hinside t ht).1.2) rfl).trans hnames
  · rw [hfrom]
    exact (namesBehind_append hselected rfl).trans (quotedNames_singleton source)

theorem dropsTable_tokens (n : Name) : DropsTable n (dropTable n).tokens := by
  have hdrop : ∀ t ∈ [ofBare "DROP"], t.spells "TABLE" = false := List.forall_mem_singleton.2 rfl
  exact ⟨rfl, (namesBehind_append hdrop rfl).trans (quotedNames_singleton n)⟩

theorem renamesTable_tokens (source target : Name) :
    RenamesTable source target (renameTable source target).tokens := by
  have hname : ∀ n : Name, (ofName n).spells "RENAME" = false ∧ (ofName n).spells "TO" = false :=
    fun n => ⟨spells_ofName n rfl (by decide), spells_ofName n rfl (by decide)⟩
  have halter : ∀ t ∈ [ofBare "ALTER"], t.spells "TABLE" = false :=
    List.forall_mem_singleton.2 rfl
  have hsource : ∀ t ∈ [ofName source], t.spells "RENAME" = false :=
    List.forall_mem_singleton.2 (hname source).1
  have hrename : ∀ t ∈ [ofBare "ALTER", ofKeyword .table, ofName source, ofBare "RENAME"],
      t.spells "TO" = false := by
    simp only [List.forall_mem_cons]
    exact ⟨rfl, rfl, (hname source).2, rfl, by simp⟩
  refine ⟨rfl, ?_, ?_⟩
  · exact (namesBetween_append halter rfl hsource rfl).trans (quotedNames_singleton source)
  · exact (namesBehind_append hrename rfl).trans (quotedNames_singleton target)

/-! ## The text of a statement -/

/-- Whatever is read of a statement's tokens without looking at places is read of its text. -/
theorem exists_tokenize_names {s : Statement} (h : s.fragments = []) :
    ∃ ts, tokenize s.sql = .ok ts ∧ ts.map Token.unplaced = s.tokens.map Token.unplaced :=
  wording_eq_ok_iff.1 (says_sql s (by simp [h])).wording_eq

variable {into source target n : Name} {listed selected : List Name} {as bs : List Token}

theorem CopiesRows.of_unplaced (h : CopiesRows into source listed selected bs)
    (hsame : as.map Token.unplaced = bs.map Token.unplaced) :
    CopiesRows into source listed selected as where
  begins := (head?_any_spells_of_unplaced hsame).trans h.begins
  into := (namesBetween_of_unplaced (fun _ => rfl) (fun _ => rfl) hsame).trans h.into
  listed := (namesBetween_of_unplaced (fun _ => rfl) (fun _ => rfl) hsame).trans h.listed
  selected := (namesBetween_of_unplaced (fun _ => rfl) (fun _ => rfl) hsame).trans h.selected
  source := (namesBetween_of_unplaced (fun _ => rfl) (fun _ => rfl) hsame).trans h.source

theorem DropsTable.of_unplaced (h : DropsTable n bs)
    (hsame : as.map Token.unplaced = bs.map Token.unplaced) : DropsTable n as where
  begins := (head?_any_spells_of_unplaced hsame).trans h.begins
  name := (namesBetween_of_unplaced (fun _ => rfl) (fun _ => rfl) hsame).trans h.name

theorem RenamesTable.of_unplaced (h : RenamesTable source target bs)
    (hsame : as.map Token.unplaced = bs.map Token.unplaced) : RenamesTable source target as where
  begins := (head?_any_spells_of_unplaced hsame).trans h.begins
  source := (namesBetween_of_unplaced (fun _ => rfl) (fun _ => rfl) hsame).trans h.source
  target := (namesBetween_of_unplaced (fun _ => rfl) (fun _ => rfl) hsame).trans h.target

/-- **A copying statement is read as it was meant.** -/
theorem exists_copiesRows (into source : Name) (columns : List Name) :
    ∃ ts, tokenize (copyRows into source columns).sql = .ok ts ∧
      CopiesRows into source columns columns ts := by
  obtain ⟨ts, hts, hsame⟩ := @exists_tokenize_names (copyRows into source columns) rfl
  exact ⟨ts, hts, (copiesRows_tokens into source columns).of_unplaced hsame⟩

theorem exists_dropsTable (n : Name) :
    ∃ ts, tokenize (dropTable n).sql = .ok ts ∧ DropsTable n ts := by
  obtain ⟨ts, hts, hsame⟩ := @exists_tokenize_names (dropTable n) rfl
  exact ⟨ts, hts, (dropsTable_tokens n).of_unplaced hsame⟩

theorem exists_renamesTable (source target : Name) :
    ∃ ts, tokenize (renameTable source target).sql = .ok ts ∧ RenamesTable source target ts := by
  obtain ⟨ts, hts, hsame⟩ := @exists_tokenize_names (renameTable source target) rfl
  exact ⟨ts, hts, (renamesTable_tokens source target).of_unplaced hsame⟩

end Statement

/-! ## The migration -/

/-- The names of the columns of a table that another table has too, in order and as spelled here. -/
def Table.namesSharedWith (target actual : Table) : List Name :=
  (target.columns.map (·.name)).filter fun n => actual.columns.any fun c => c.name == n

variable {actual target : Table}

theorem Delta.shared_between_eq (actual target : Table) :
    (Delta.between actual target).shared = target.namesSharedWith actual := by
  rw [Delta.between, Table.namesSharedWith, List.filter_map]
  refine congrArg (List.map _) (List.filter_congr ?_)
  intro c _
  rw [Function.comp_apply, Bool.eq_iff_iff, Table.hasColumn_eq_true_iff, List.any_eq_true]

theorem Table.namesSharedWith_ne_nil_iff : target.namesSharedWith actual ≠ [] ↔
    ∃ c ∈ actual.columns, ∃ d ∈ target.columns, (c.name == d.name) = true := by
  rw [← Delta.shared_between_eq, Delta.shared_between_ne_nil_iff]
  simp only [Table.hasColumn_eq_true_iff]
  constructor
  · rintro ⟨d, hd, c, hc, hname⟩
    exact ⟨c, hc, d, hd, hname⟩
  · rintro ⟨c, hc, d, hd, hname⟩
    exact ⟨d, hd, c, hc, hname⟩

/-- No name is shared twice, in whatever spelling. -/
theorem Table.pairwise_namesSharedWith (target actual : Table) :
    (target.namesSharedWith actual).Pairwise fun m n => (m == n) = false :=
  (List.pairwise_map.2 target.distinct).filter _

/-- Four texts, or three if there is nothing to copy, that turn one table into another under the
    name of the table `created`, as they are read. -/
structure Plan.IsRebuild (actual target created : Table) (create : String) (copy : Option String)
    (drop rename : String) : Prop where
  creates : Table.parse create = .ok created
  copies_iff : copy.isSome = true ↔
    ∃ c ∈ actual.columns, ∃ d ∈ target.columns, (c.name == d.name) = true
  copies : ∀ sql ∈ copy, ∃ ts, tokenize sql = .ok ts ∧ Statement.CopiesRows created.name
    actual.name (target.namesSharedWith actual) (target.namesSharedWith actual) ts
  drops : ∃ ts, tokenize drop = .ok ts ∧ Statement.DropsTable actual.name ts
  renames : ∃ ts, tokenize rename = .ok ts ∧ Statement.RenamesTable created.name target.name ts

theorem Plan.exists_isRebuild (actual : Table) (h : target.Printable) :
    ∃ create copy drop rename created,
      (rebuild {} actual target (.between actual target)).sql =
        create :: (copy.toList ++ [drop, rename]) ∧
          IsRebuild actual target created create copy drop rename := by
  set temp := target.name.prepend "__temp_"
  set shared := target.namesSharedWith actual with hshared
  obtain ⟨created, hcreated, hcopy⟩ := h.exists_parse temp
  refine ⟨(Statement.createTable temp target.columns target.constraints target.options).sql,
    if shared = [] then none else some (Statement.copyRows temp actual.name shared).sql,
    (Statement.dropTable actual.name).sql, (Statement.renameTable temp target.name).sql,
    created, ?_, ?_⟩
  · simp only [rebuild, Delta.shared_between_eq, ← hshared]
    by_cases hnil : shared = []
    · simp [hnil, sql, temp]
    · simp [hnil, sql, temp]
  · rw [← hcopy.name]
    constructor
    · rw [Statement.sql_createTable, hcopy.name]
      exact hcreated
    · rw [← Table.namesSharedWith_ne_nil_iff, ← hshared]
      by_cases hnil : shared = [] <;> simp [hnil]
    · intro sql hsql
      by_cases hnil : shared = []
      · simp [hnil] at hsql
      · simp only [hnil, ↓reduceIte, Option.mem_def, Option.some.injEq] at hsql
        rw [← hsql]
        exact Statement.exists_copiesRows _ _ _
    · exact Statement.exists_dropsTable _
    · exact Statement.exists_renamesTable _ _

/-- **What a migration says.** There is nothing to do exactly if the tables are equal. Otherwise the
    strings create a table, copy into it what both tables have, if there is anything, drop the
    actual table and put the created one in the place of the target. Copied are the columns of the
    target that the actual table has too, each once, in the order and spelling of the target, and
    each to the column of its name. -/
theorem readback_migrationSql {actualText targetText : String}
    (hactual : Table.parse actualText = .ok actual)
    (htarget : Table.parse targetText = .ok target) :
    ∃ sqls, migrationSql actualText targetText = .ok sqls ∧
      (sqls = [] ↔ (actual == target) = true) ∧
      (target.namesSharedWith actual).Pairwise (fun m n => (m == n) = false) ∧
      (sqls ≠ [] → ∃ create copy drop rename created,
        sqls = create :: (copy.toList ++ [drop, rename]) ∧
          Plan.IsRebuild actual target created create copy drop rename) := by
  have hprintable := Table.printable_of_parse htarget
  refine ⟨(Plan.between {} actual target).sql,
    migrationSql_eq_ok_iff.2 ⟨actual, target, hactual, htarget, rfl⟩, ?_,
    target.pairwise_namesSharedWith actual, ?_⟩
  · rw [Plan.sql, List.map_eq_nil_iff, Plan.between_eq_nil_iff, Table.beq_eq_true_iff]
  · intro hne
    cases hdiffer : Comparison.of actual target with
    | equivalent =>
      rw [Plan.between_of_equivalent hdiffer] at hne
      exact absurd rfl hne
    | divergent d =>
      obtain ⟨-, rfl⟩ := Comparison.of_eq_divergent_iff.1 hdiffer
      rw [Plan.between_of_divergent hdiffer]
      exact Plan.exists_isRebuild actual hprintable

/-- Names that are words of the language, or have marks in them, in another order and another case
    on the other side; a table that is given another name on the way. -/
theorem readback_migrationSql_of_odd_names : ∃ actualText targetText actual target,
    actualText = "create table [from] (\"FROM\" int, gone, `select`, [a\"b)] text, é)" ∧
    targetText = "CREATE TABLE \"to\"\"\" (é, \"A\"\"B)\" TEXT, \"Select\", more, from_)" ∧
    Table.parse actualText = .ok actual ∧ Table.parse targetText = .ok target ∧
    ∃ sqls, migrationSql actualText targetText = .ok sqls ∧
      (sqls = [] ↔ (actual == target) = true) ∧
      (target.namesSharedWith actual).Pairwise (fun m n => (m == n) = false) ∧
      (sqls ≠ [] → ∃ create copy drop rename created,
        sqls = create :: (copy.toList ++ [drop, rename]) ∧
          Plan.IsRebuild actual target created create copy drop rename) := by
  refine ⟨"create table [from] (\"FROM\" int, gone, `select`, [a\"b)] text, é)",
    "CREATE TABLE \"to\"\"\" (é, \"A\"\"B)\" TEXT, \"Select\", more, from_)", ?_⟩
  generalize hactualText :
    "create table [from] (\"FROM\" int, gone, `select`, [a\"b)] text, é)" = actualText
  generalize htargetText :
    "CREATE TABLE \"to\"\"\" (é, \"A\"\"B)\" TEXT, \"Select\", more, from_)" = targetText
  have hactualOk : (Table.parse actualText).isOk = true := by
    rw [← hactualText]
    decide +kernel
  have htargetOk : (Table.parse targetText).isOk = true := by
    rw [← htargetText]
    decide +kernel
  cases hactual : Table.parse actualText with
  | error e =>
    rw [hactual] at hactualOk
    exact absurd hactualOk Bool.false_ne_true
  | ok actual =>
    cases htarget : Table.parse targetText with
    | error e =>
      rw [htarget] at htargetOk
      exact absurd htargetOk Bool.false_ne_true
    | ok target =>
      exact ⟨actual, target, rfl, rfl, rfl, rfl, readback_migrationSql hactual htarget⟩

end TableRebuild
