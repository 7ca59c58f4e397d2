import TableRebuild.Proofs.Table.Printable
import TableRebuild.Proofs.Token.QuotedName
import TableRebuild.Proofs.Token.Row

/-!
# Entries written and read

What a printable entry is written as is read as the entry again, wherever in a column list it
stands. `Entry.Written e ls` says that the lexemes `ls` are what the text of `e` falls into and that
an item made of them is `e`, but for places. `Entry.exists_written` finds the lexemes: for a
constraint those of its text, for a column its name and then the parts behind it in a row.

The two sides of `Written` speak of two different things. That the text falls into certain tokens is
about characters; that tokens are read as a column of a certain type and certain clauses is about
keywords. They meet in the lexemes.
-/

namespace TableRebuild

open Lexeme

/-- The lexemes are what the entry is written as, and are read as the entry. -/
structure Entry.Written (e : Entry) (ls : List Lexeme) : Prop where
  spelled : Spelled ls e.text.toList
  ne_nil : ls ≠ []
  isPiece : Item.isPiece (ls.map token) = true
  readsAs : ∀ {source : String} {gap pre post : List Char} {i : Item},
    source.toList = pre ++ (withGap gap ls).flatMap written ++ post →
      i.tokens = placeAll (Text.byteLength pre) (withGap gap ls) →
        ∃ e', i.ReadsAs source e' ∧ e'.unplaced = e.unplaced

/-- Where the lexemes of an entry stand, there is an item, and it is the entry. -/
theorem Entry.Written.exists_item {e : Entry} {ls : List Lexeme} (h : e.Written ls)
    {source : String} {gap pre post : List Char}
    (hsource : source.toList = pre ++ (withGap gap ls).flatMap written ++ post) :
    Item.isPiece (placeAll (Text.byteLength pre) (withGap gap ls)) = true ∧
      ∃ (i : Item) (e' : Entry), placeAll (Text.byteLength pre) (withGap gap ls) = i.tokens ∧
        i.ReadsAs source e' ∧ e'.unplaced = e.unplaced := by
  constructor
  · rw [← Item.isPiece_map_unplaced, map_unplaced_placeAll, map_token_withGap]
    exact h.isPiece
  · obtain ⟨l, more, hls⟩ : ∃ l more, withGap gap ls = l :: more := by
      cases hls : ls with
      | nil => exact absurd hls h.ne_nil
      | cons l more => exact ⟨_, _, rfl⟩
    have htokens : placeAll (Text.byteLength pre) (withGap gap ls) =
        Item.tokens ⟨l.place (Text.byteLength pre),
          placeAll (Text.byteLength pre + Text.byteLength l.written) more⟩ := by
      rw [hls, placeAll, Item.tokens]
    obtain ⟨e', he', hsame⟩ := h.readsAs hsource htokens.symm
    exact ⟨_, e', htokens, he', hsame⟩

/-! ## Columns -/

namespace Column

variable {c : Column} {groups : List (List Lexeme)}

/-- The parts of a column behind its name. -/
def parts (c : Column) : List Fragment := c.type :: c.clauses

theorem tokens_parts (c : Column) :
    c.parts.flatMap (·.tokens) = c.type.tokens ++ c.clauseTokens := by
  rw [parts, List.flatMap_cons, clauseTokens]

/-- A column without empty clauses is its name and its parts, with a space before each part. -/
theorem toList_render (hne : ∀ f ∈ c.clauses, f.tokens ≠ []) : c.render.toList =
    c.name.quoted.toList ++
      c.parts.flatMap fun f => if f.isEmpty then [] else ' ' :: f.text.toList := by
  have hclauses : (c.clauses.map (·.text)).flatMap (fun s => " ".toList ++ s.toList) =
      c.clauses.flatMap fun f => if f.isEmpty then [] else ' ' :: f.text.toList := by
    rw [List.flatMap_map]
    apply List.flatMap_congr
    intro f hf
    have hempty : f.isEmpty = false := by simpa [Fragment.isEmpty] using hne f hf
    simp [hempty]
  rw [render, toList_intercalate_cons, List.flatMap_append, hclauses, parts, List.flatMap_cons]
  congr 2
  cases htype : c.type.isEmpty with
  | true => rfl
  | false => simp

theorem spelled_row (hne : ∀ f ∈ c.clauses, f.tokens ≠ [])
    (h : List.Forall₂ Fragment.Spells c.parts groups) :
    Spelled (c.name.lexeme [] :: row groups) c.render.toList := by
  constructor
  · rw [List.flatMap_cons, Fragment.written_row h, toList_render hne, written, Name.lexeme,
      List.nil_append]
  · rw [Name.withGap_lexeme]
  · refine ⟨Name.reads_lexeme _ .nil ?_, allRead_row (Fragment.allRead_of_spells h) (.nil _)⟩
    -- What follows the closing mark is a space or nothing, and in no case a second mark.
    have hedge := sameEdge_row groups (SameEdge.nil [])
    exact hedge.head_ne (by simp [breaks]) (by simp)

/-- Tokens that are those of a printable column but for their places fall into type and clauses as
    they did in the column. -/
theorem split_of_unplaced (h : c.Printable) {type : List Token} {clauses : List (List Token)}
    (htype : type.map Token.unplaced = c.type.tokens.map Token.unplaced)
    (hclauses : clauses.map (List.map Token.unplaced) =
      (c.clauses.map (·.tokens)).map (List.map Token.unplaced)) :
    splitType 0 (type ++ clauses.flatten) = (type, clauses.flatten) ∧
      Clause.split clauses.flatten = clauses := by
  have hflat : clauses.flatten.map Token.unplaced = c.clauseTokens.map Token.unplaced := by
    rw [List.map_flatten, hclauses, ← List.map_flatten]
    rfl
  exact ⟨splitType_of_unplaced h.splitType htype hflat, Clause.split_of_unplaced h.split hclauses⟩

/-- **A column that is written is read as the column.** -/
theorem readsAs_row (hc : c.Printable) (h : List.Forall₂ Fragment.Spells c.parts groups)
    {source : String} {gap pre post : List Char} {i : Item}
    (hsource : source.toList =
      pre ++ (withGap gap (c.name.lexeme [] :: row groups)).flatMap written ++ post)
    (hi : i.tokens =
      placeAll (Text.byteLength pre) (withGap gap (c.name.lexeme [] :: row groups))) :
    ∃ e, i.ReadsAs source e ∧ e.unplaced = (Entry.column c).unplaced := by
  rw [Name.withGap_lexeme, List.flatMap_cons] at hsource
  rw [Name.withGap_lexeme, placeAll, ← Text.byteLength_append] at hi
  have hrest : source.toList = (pre ++ (c.name.lexeme gap).written) ++
      (row groups).flatMap written ++ post := by simpa using hsource
  obtain ⟨cut, hcut, hsame⟩ := Fragment.exists_of_row h hrest
  obtain ⟨type, clauses, rfl, htype, hclauses⟩ := by
    rw [parts, List.map_map, List.map_cons] at hsame
    exact List.map_eq_cons_iff.1 hsame
  obtain ⟨first, others⟩ := i
  simp only [Item.tokens, List.cons.injEq] at hi
  obtain ⟨rfl, hothers⟩ := hi
  rw [hcut, List.flatten_cons] at hothers
  -- The rest of the item, cut anew, is the type and the clauses.
  have htypeTokens : type.map Token.unplaced = c.type.tokens.map Token.unplaced := by
    simpa using congrArg Fragment.tokens htype
  have hclauseTokens : clauses.map (List.map Token.unplaced) =
      (c.clauses.map (·.tokens)).map (List.map Token.unplaced) := by
    simpa [Function.comp_def] using congrArg (List.map Fragment.tokens) hclauses
  obtain ⟨hsplitType, hsplit⟩ := split_of_unplaced hc htypeTokens hclauseTokens
  -- Its first token is a quoted name, and so no word that opens a constraint.
  have hkind : ((c.name.lexeme gap).place (Text.byteLength pre)).kind = .quotedName := by
    rw [place, Name.lexeme]
  have hitem :
      Item.isConstraint ⟨(c.name.lexeme gap).place (Text.byteLength pre), others⟩ = false := by
    simp only [Item.isConstraint, Token.keyword?, hkind, Option.any_none]
  have hword : ((c.name.lexeme gap).place (Text.byteLength pre)).isWord = true := by
    rw [Token.isWord, hkind, Kind.isWord]
  refine ⟨.column ⟨c.name, .ofTokens type source, clauses.map (Fragment.ofTokens · source)⟩,
    .column hitem (ofItem_eq_ok_iff.2 ⟨hword, ?_⟩), ?_⟩
  · rw [hothers, hsplitType, hsplit, Name.ofToken_place_lexeme]
  · simp only [Entry.unplaced, unplaced, Entry.column.injEq, mk.injEq, true_and]
    exact ⟨htype, by rw [← hclauses, List.map_map]⟩

theorem Printable.exists_written (h : c.Printable) : ∃ ls, (Entry.column c).Written ls := by
  have hlegible : ∀ f ∈ c.parts, f.Legible := List.forall_mem_cons.2 ⟨h.type, h.clauses⟩
  obtain ⟨groups, hgroups⟩ := Fragment.exists_groups hlegible
  refine ⟨c.name.lexeme [] :: row groups, spelled_row h.ne_nil hgroups, List.cons_ne_nil _ _, ?_,
    readsAs_row h hgroups⟩
  rw [List.map_cons, Item.isPiece_cons rfl, Fragment.map_token_row hgroups, tokens_parts,
    Item.isPiece_map_unplaced]
  exact h.isPiece

end Column

/-! ## Constraints -/

theorem Fragment.IsConstraint.exists_written {f : Fragment} (h : f.IsConstraint) :
    ∃ ls, (Entry.constraint f).Written ls := by
  obtain ⟨ls, hspell, htokens⟩ := h.legible
  obtain ⟨t, more, hf, hopens⟩ : ∃ t more, f.tokens = t :: more ∧
      t.keyword?.any (·.opensTableConstraint) = true := by
    have hopens := h.opens
    cases hf : f.tokens with
    | nil => exact absurd hopens (by simp [hf])
    | cons t more => exact ⟨t, more, rfl, by simpa [hf] using hopens⟩
  refine ⟨ls, hspell, ?_, ?_, ?_⟩
  · rintro rfl
    exact absurd htokens (by simp [hf])
  · rw [htokens, Item.isPiece_map_unplaced]
    exact h.isPiece
  · intro source gap pre post i hsource hi
    have hsame := Fragment.unplaced_ofTokens hspell htokens hsource
    have hfirst : i.first.unplaced = t.unplaced := by
      have hmap := congrArg (List.map Token.unplaced) hi
      rw [map_unplaced_placeAll, map_token_withGap, htokens, hf] at hmap
      exact (List.cons.inj hmap).1
    have hconstraint : i.isConstraint = true := by
      rw [Item.isConstraint, ← Token.keyword?_unplaced, hfirst]
      exact hopens
    refine ⟨_, .constraint hconstraint, ?_⟩
    rw [Entry.unplaced, Entry.unplaced, hi, hsame]

theorem Entry.Printable.exists_written {e : Entry} (h : e.Printable) : ∃ ls, e.Written ls := by
  cases e with
  | column c => exact Column.Printable.exists_written h
  | constraint f => exact Fragment.IsConstraint.exists_written h

end TableRebuild
