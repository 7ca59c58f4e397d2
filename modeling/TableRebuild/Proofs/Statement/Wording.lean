import TableRebuild.Proofs.Token.Row
import TableRebuild.Proofs.Token.Wording
import TableRebuild.Statement

/-!
# What a statement says

A statement becomes text, and text is all that a database sees of it. `Statement.tokens` is what the
text ought to say, token by token: the fixed words and the punctuation, each name in its place as
one token, and each type, clause, constraint and option as the tokens that it has. The main result
is that reading the text gives exactly this, for all four statements (`Statement.tokenize_sql`).

Nothing is assumed of names. Of fragments it is assumed that they were cut from some text
(`Fragment.IsCut`), not that they are types or constraints in any sense, and they may be empty; a
clause that is empty is written as nothing and leaves a second space.

So the argument is about characters only. A fragment may end in any kind of token, and each kind
could go on with some characters or begin a comment together with others. But behind a fragment
stands a space, a comma or a parenthesis, and these are breaks.
-/

namespace TableRebuild

/-! ## The tokens of a statement -/

def Column.tokens (c : Column) : List Token := .ofName c.name :: c.type.tokens ++ c.clauseTokens

/-- The fragment is a run of tokens of some text, with their text. -/
def Fragment.IsCut (f : Fragment) : Prop :=
  ∃ source ts sub, tokenize source = .ok ts ∧ sub <:+: ts ∧ f = ofTokens sub source

theorem Fragment.IsCut.legible {f : Fragment} (h : f.IsCut) : f.Legible := by
  obtain ⟨source, ts, sub, hts, hsub, rfl⟩ := h
  exact legible_of_infix hts hsub

/-- A text that is taken whole is cut from itself. -/
theorem Fragment.isCut_of_ofText {text : String} {f : Fragment} (h : ofText text = .ok f) :
    f.IsCut := by
  unfold ofText at h
  cases htokenize : tokenize text with
  | error e =>
    rw [htokenize] at h
    exact absurd h (by simp [Except.map])
  | ok ts =>
    rw [htokenize] at h
    exact ⟨text, ts, ts, htokenize, List.infix_rfl, (Except.ok.inj h).symm⟩

namespace Statement

open Token

/-- Groups of tokens with one comma between each two. -/
def commaTokens (groups : List (List Token)) : List Token := [ofDelimiter .comma].intercalate groups

/-- What the statement says. -/
def tokens : Statement → List Token
  | createTable n columns constraints options =>
    [ofKeyword .create, ofKeyword .table, ofName n, ofDelimiter .leftParen] ++
      commaTokens (columns.map Column.tokens ++ constraints.map Fragment.tokens) ++
      ofDelimiter .rightParen :: options.tokens
  | copyRows into source columns =>
    let list := commaTokens (columns.map fun n => [ofName n])
    [ofBare "INSERT", ofBare "INTO", ofName into, ofDelimiter .leftParen] ++ list ++
      [ofDelimiter .rightParen, ofBare "SELECT"] ++ list ++ [ofBare "FROM", ofName source]
  | dropTable n => [ofBare "DROP", ofKeyword .table, ofName n]
  | renameTable source target =>
    [ofBare "ALTER", ofKeyword .table, ofName source, ofBare "RENAME", ofBare "TO", ofName target]

/-- Everything in the statement that is neither a name nor fixed. -/
def fragments : Statement → List Fragment
  | createTable _ columns constraints options =>
    columns.flatMap (fun c => c.type :: c.clauses) ++ constraints ++ [options]
  | copyRows _ _ _ | dropTable _ | renameTable _ _ => []

end Statement

/-! ## The parts -/

namespace Says

open Token

variable {as bs : List Char} {ts us : List Token}

/-- With a space between them two texts say what they say. -/
theorem spaced (h : Says as ts) (h' : Says bs us) : Says (as ++ ' ' :: bs) (ts ++ us) :=
  h.append h'.space (.of_break List.mem_cons_self _)

/-- Fragments with a space before each say their tokens. -/
theorem row {fs : List Fragment} (h : ∀ f ∈ fs, f.Legible) :
    Says (fs.flatMap fun f => ' ' :: f.text.toList)
      ((fs.flatMap (·.tokens)).map Token.unplaced) := by
  induction fs with
  | nil => exact nil
  | cons f fs ih =>
    obtain ⟨hf, hfs⟩ := List.forall_mem_cons.1 h
    rw [List.flatMap_cons, List.flatMap_cons, List.map_append]
    refine (fragment hf).space.append (ih hfs) ?_
    cases fs with
    | nil => exact .refl []
    | cons g gs => exact .of_break List.mem_cons_self _

/-- A column says its name, its type and its clauses. -/
theorem column {c : Column} (htype : c.type.Legible) (hclauses : ∀ f ∈ c.clauses, f.Legible) :
    Says c.render.toList (c.tokens.map Token.unplaced) := by
  -- A type that is not there is not written, and says nothing.
  obtain ⟨parts, hparts, htexts, htokens⟩ : ∃ parts : List Fragment, (∀ f ∈ parts, f.Legible) ∧
      (if c.type.isEmpty then [] else [c.type.text]) ++ c.clauses.map (·.text) =
        parts.map (·.text) ∧ parts.flatMap (·.tokens) = c.type.tokens ++ c.clauseTokens := by
    cases hempty : c.type.isEmpty with
    | true =>
      refine ⟨c.clauses, hclauses, rfl, ?_⟩
      rw [List.isEmpty_iff.1 hempty, List.nil_append, Column.clauseTokens]
    | false => exact ⟨c.type :: c.clauses, List.forall_mem_cons.2 ⟨htype, hclauses⟩, rfl, rfl⟩
  have hsays : Says (c.name.quoted.toList ++ parts.flatMap fun f => ' ' :: f.text.toList)
      ([ofName c.name] ++ (parts.flatMap (·.tokens)).map Token.unplaced) := by
    refine (name c.name).append (row hparts) ?_
    cases parts with
    | nil => exact .refl []
    | cons f fs => exact .of_break List.mem_cons_self _
  have hrender : c.render.toList =
      c.name.quoted.toList ++ parts.flatMap fun f => ' ' :: f.text.toList := by
    rw [Column.render, htexts, toList_intercalate_cons, List.flatMap_map]
    rfl
  rw [hrender, Column.tokens, List.cons_append, List.map_cons, ← htokens]
  exact hsays

/-- Texts with a comma between each two say their tokens, with the comma between them. -/
theorem commaSeparated {texts : List String} {groups : List (List Token)}
    (h : List.Forall₂ (fun s ts => Says s.toList ts) texts groups) :
    Says (Statement.commaSeparated texts).toList (Statement.commaTokens groups) := by
  unfold Statement.commaSeparated Statement.commaTokens
  rw [String.toList_intercalate]
  induction h with
  | nil => exact nil
  | @cons text ts texts groups hs hrest ih =>
    cases hrest with
    | nil => simpa using hs
    | cons hs' hrest' =>
      have hcomma : Delimiter.comma ≠ .dot := by simp
      have hbreak : ',' ∈ breaks := by simp [breaks]
      have htail := hs.append (ih.space.delimiter hcomma) (.of_break hbreak _)
      rw [List.map_cons, List.map_cons, List.intercalate_cons_cons, List.intercalate_cons_cons]
      simpa [Delimiter.char] using htail

theorem names (ns : List Name) :
    Says (Statement.commaSeparated (ns.map (·.quoted))).toList
      (Statement.commaTokens (ns.map fun n => [ofName n])) := by
  apply commaSeparated
  induction ns with
  | nil => exact .nil
  | cons n ns ih => exact .cons (name n) ih

end Says

/-! ## The statements -/

namespace Statement

open Token Says

variable {n : Name} {columns : List Column} {constraints : List Fragment} {options : Fragment}

theorem says_items (hcolumns : ∀ c ∈ columns, c.type.Legible ∧ ∀ f ∈ c.clauses, f.Legible)
    (hconstraints : ∀ f ∈ constraints, f.Legible) :
    Says (commaSeparated (columns.map (·.render) ++ constraints.map (·.text))).toList
      (commaTokens ((columns.map Column.tokens ++ constraints.map Fragment.tokens).map
        (List.map Token.unplaced))) := by
  apply Says.commaSeparated
  rw [List.map_append]
  apply List.rel_append
  · rw [List.forall₂_map_left_iff, List.forall₂_map_right_iff, List.forall₂_map_right_iff,
      List.forall₂_same]
    exact fun c hc => column (hcolumns c hc).1 (hcolumns c hc).2
  · rw [List.forall₂_map_left_iff, List.forall₂_map_right_iff, List.forall₂_map_right_iff,
      List.forall₂_same]
    exact fun f hf => fragment (hconstraints f hf)

/-- The options behind the closing parenthesis, with a space before them if there are any. -/
theorem says_options (h : options.Legible) :
    Says (if options.isEmpty then [] else ' ' :: options.text.toList)
      (options.tokens.map Token.unplaced) := by
  cases hempty : options.isEmpty with
  | true => rw [List.isEmpty_iff.1 hempty]; exact nil
  | false => exact (fragment h).space

theorem map_unplaced_commaTokens (groups : List (List Token)) :
    (commaTokens groups).map Token.unplaced = commaTokens (groups.map (List.map Token.unplaced)) := by
  unfold commaTokens
  induction groups with
  | nil => rfl
  | cons ts groups ih =>
    cases groups with
    | nil => simp
    | cons us groups =>
      rw [List.map_cons, List.map_cons, List.intercalate_cons_cons, List.intercalate_cons_cons,
        List.map_append, List.map_append, ih]
      rfl

theorem toString_string (text : String) : toString text = text := rfl

theorem says_createTable (h : ∀ f ∈ (createTable n columns constraints options).fragments,
      f.Legible) :
    Says (createTable n columns constraints options).sql.toList
      ((createTable n columns constraints options).tokens.map Token.unplaced) := by
  simp only [fragments, List.mem_append, List.mem_singleton] at h
  have hcolumns : ∀ c ∈ columns, c.type.Legible ∧ ∀ f ∈ c.clauses, f.Legible := by
    intro c hc
    apply List.forall_mem_cons.1
    exact fun f hf => h f (.inl (.inl (List.mem_flatMap.2 ⟨c, hc, hf⟩)))
  have hconstraints : ∀ f ∈ constraints, f.Legible := fun f hf => h f (.inl (.inr hf))
  have hbreak : ')' ∈ breaks := by simp [breaks]
  have hclosed := (says_options (h options (.inr rfl))).delimiter (d := .rightParen) (by simp)
  have hlist := (says_items hcolumns hconstraints).append hclosed (.of_break hbreak _)
  have hopened := hlist.delimiter (d := .leftParen) (by simp)
  have hsays := (keyword .create).spaced ((keyword .table).spaced ((name n).spaced hopened))
  have htext : (createTable n columns constraints options).sql.toList =
      Keyword.create.text.toList ++ ' ' :: (Keyword.table.text.toList ++ ' ' :: (n.quoted.toList ++
        ' ' :: '(' :: ((commaSeparated
          (columns.map (·.render) ++ constraints.map (·.text))).toList ++
            ')' :: if options.isEmpty then [] else ' ' :: options.text.toList))) := by
    unfold sql
    cases hempty : options.isEmpty with
    | true => simp only [hempty, ↓reduceIte]; simp [toString_string, Keyword.text]
    | false => simp only [hempty, Bool.false_eq_true, ↓reduceIte]; simp [toString_string, Keyword.text]
  rw [htext]
  simpa [tokens, map_unplaced_commaTokens, Delimiter.char] using hsays

theorem says_copyRows (into source : Name) (columns : List Name) :
    Says (copyRows into source columns).sql.toList
      ((copyRows into source columns).tokens.map Token.unplaced) := by
  have hinsert : Says "INSERT".toList [ofBare "INSERT"] := bare rfl rfl rfl rfl
  have hinto : Says "INTO".toList [ofBare "INTO"] := bare rfl rfl rfl rfl
  have hselect : Says "SELECT".toList [ofBare "SELECT"] := bare rfl rfl rfl rfl
  have hfrom : Says "FROM".toList [ofBare "FROM"] := bare rfl rfl rfl rfl
  have hbreak : ')' ∈ breaks := by simp [breaks]
  have hlist := names columns
  have hselected := hselect.spaced (hlist.spaced (hfrom.spaced (name source)))
  have hclosed := hselected.space.delimiter (d := .rightParen) (by simp)
  have hopened := (hlist.append hclosed (.of_break hbreak _)).delimiter (d := .leftParen) (by simp)
  have hsays := hinsert.spaced (hinto.spaced ((name into).spaced hopened))
  have htext : (copyRows into source columns).sql.toList =
      "INSERT".toList ++ ' ' :: ("INTO".toList ++ ' ' :: (into.quoted.toList ++ ' ' :: '(' ::
        ((commaSeparated (columns.map (·.quoted))).toList ++ ')' :: ' ' :: ("SELECT".toList ++
          ' ' :: ((commaSeparated (columns.map (·.quoted))).toList ++ ' ' :: ("FROM".toList ++
            ' ' :: source.quoted.toList)))))) := by
    unfold sql
    simp [toString_string]
  have hnames : (columns.map fun n => [ofName n]).map (List.map Token.unplaced) =
      columns.map fun n => [ofName n] := by
    rw [List.map_map]
    rfl
  rw [htext]
  simpa [tokens, map_unplaced_commaTokens, hnames, Delimiter.char] using hsays

theorem says_dropTable (n : Name) :
    Says (dropTable n).sql.toList ((dropTable n).tokens.map Token.unplaced) := by
  have hdrop : Says "DROP".toList [ofBare "DROP"] := bare rfl rfl rfl rfl
  have hsays := hdrop.spaced ((keyword .table).spaced (name n))
  have htext : (dropTable n).sql.toList =
      "DROP".toList ++ ' ' :: (Keyword.table.text.toList ++ ' ' :: n.quoted.toList) := by
    unfold sql
    simp [toString_string, Keyword.text]
  rw [htext]
  simpa [tokens] using hsays

theorem says_renameTable (source target : Name) :
    Says (renameTable source target).sql.toList
      ((renameTable source target).tokens.map Token.unplaced) := by
  have halter : Says "ALTER".toList [ofBare "ALTER"] := bare rfl rfl rfl rfl
  have hrename : Says "RENAME".toList [ofBare "RENAME"] := bare rfl rfl rfl rfl
  have hto : Says "TO".toList [ofBare "TO"] := bare rfl rfl rfl rfl
  have hsays := halter.spaced ((keyword .table).spaced ((name source).spaced
    (hrename.spaced (hto.spaced (name target)))))
  have htext : (renameTable source target).sql.toList =
      "ALTER".toList ++ ' ' :: (Keyword.table.text.toList ++ ' ' :: (source.quoted.toList ++ ' ' ::
        ("RENAME".toList ++ ' ' :: ("TO".toList ++ ' ' :: target.quoted.toList)))) := by
    unfold sql
    simp [toString_string, Keyword.text]
  rw [htext]
  simpa [tokens] using hsays

theorem says_sql (s : Statement) (h : ∀ f ∈ s.fragments, f.Legible) :
    Says s.sql.toList (s.tokens.map Token.unplaced) := by
  cases s with
  | createTable n columns constraints options => exact says_createTable h
  | copyRows into source columns => exact says_copyRows into source columns
  | dropTable n => exact says_dropTable n
  | renameTable source target => exact says_renameTable source target

/-- **A statement is read back token for token**, whatever names are in it and whatever its
    fragments were cut from. And a name is one token in it, from which the name can be read. -/
theorem tokenize_sql (s : Statement) (h : ∀ f ∈ s.fragments, f.IsCut) :
    (∃ ts, tokenize s.sql = .ok ts ∧ ts.map Token.unplaced = s.tokens.map Token.unplaced) ∧
      ∀ n : Name, (ofName n).kind = .quotedName ∧ (ofName n).spelling = n.spelling := by
  constructor
  · have hsays := says_sql s fun f hf => (h f hf).legible
    exact wording_eq_ok_iff.1 hsays.wording_eq
  · intro n
    exact ⟨rfl, congrArg Name.spelling (n.ofToken_quoted ⟨0, 0⟩)⟩

/-- Names with quotes and a comment mark in them, and fragments that end in a number with a sign
    at its end, or are empty. -/
theorem tokenize_sql_of_odd_parts : ∃ f s, Fragment.ofText "x/**/1e-" = .ok f ∧
    s = createTable ⟨"t\"; --"⟩ [⟨⟨""⟩, f, [.empty, f]⟩] [.empty] f ∧
      (∀ g ∈ s.fragments, g.IsCut) ∧
        (∃ ts, tokenize s.sql = .ok ts ∧ ts.map Token.unplaced = s.tokens.map Token.unplaced) ∧
          ∀ n : Name, (ofName n).kind = .quotedName ∧ (ofName n).spelling = n.spelling := by
  have hok : (Fragment.ofText "x/**/1e-").isOk = true := by decide +kernel
  have hempty : Fragment.empty.IsCut :=
    ⟨"", [], [], @Lexeme.tokenize_of_allRead "" [] trivial rfl, List.infix_rfl, rfl⟩
  cases hf : Fragment.ofText "x/**/1e-" with
  | error e =>
    rw [hf] at hok
    exact absurd hok Bool.false_ne_true
  | ok f =>
    have hcut := Fragment.isCut_of_ofText hf
    have hall : ∀ g ∈ (createTable ⟨"t\"; --"⟩ [⟨⟨""⟩, f, [.empty, f]⟩] [.empty] f).fragments,
        g.IsCut := by
      simp [fragments, hcut, hempty]
    exact ⟨f, _, rfl, rfl, hall, tokenize_sql _ hall⟩

end Statement
end TableRebuild
