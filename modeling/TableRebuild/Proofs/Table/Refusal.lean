import TableRebuild.Proofs.Definition.Refusal
import TableRebuild.Proofs.Table.Lookup
import TableRebuild.Proofs.Table.Printable
import TableRebuild.Proofs.Token.Marked

/-!
# What an error speaks of

A text that defines no table gives one error, with a span, and this file says what is under the span
(`Table.reports_of_parse`): always a stretch of the text between two characters, and always the
thing that the error is about. That is a token, the end of the text, a parenthesis without a
partner, the comma or parenthesis behind an item that is empty, the name of a column that is there
twice, or the column list as a whole.

There are three passes that can fail. The text may not fall into tokens, the tokens may not be a
statement (`Outline.refused_of_read`), and the items of the column list may not be a table. The last
pass is the one of this file. It has spans from tokens that were passed long before, the closing
parenthesis and the first token of an item, and these are tokens of the same text.
-/

namespace TableRebuild

open Nesting

/-! ## Items -/

namespace Item

variable {last ender : Token} {piece : List Token} {more : List (Token × List Token)}

theorem exists_of_mapM_ofPiece {ps : List (List Token × Token)} {e : DefinitionError}
    (h : ps.mapM ofPiece = .error e) : ∃ ender, ([], ender) ∈ ps ∧ e = .emptyItem ender.span := by
  induction ps with
  | nil => exact absurd h (by simp [pure, Except.pure])
  | cons p ps ih =>
    rw [List.mapM_cons] at h
    rcases Except.bind_eq_error_iff.1 h with hp | ⟨i, -, hrest⟩
    · obtain ⟨ts, ender⟩ := p
      cases ts with
      | nil => exact ⟨ender, List.mem_cons_self, (Except.error.inj hp).symm⟩
      | cons t ts => exact absurd hp (by simp [ofPiece])
    · rcases Except.bind_eq_error_iff.1 hrest with hps | ⟨is, -, hdone⟩
      · obtain ⟨ender, hmem, he⟩ := ih hps
        exact ⟨ender, List.mem_cons_of_mem p hmem, he⟩
      · exact absurd hdone (by simp [pure, Except.pure])

/-- The tokens are a list up to and including the parenthesis that closes it, and in them `ender`
    ends an item that is empty: it stands outside any parentheses, at the beginning or right behind
    a comma, and is a comma itself or the parenthesis. -/
def EndsEmpty (ender : Token) (ts : List Token) : Prop :=
  ∃ front rest, ts = front ++ ender :: rest ∧ balanced 0 front = true ∧
    (∀ t ∈ front.getLast?, t.isDelimiter .comma = true) ∧
    (ender.isDelimiter .comma = true ∨ rest = [])

/-- Behind an item and a comma an item that is empty is empty. -/
theorem EndsEmpty.append {comma : Token} {ts : List Token} (hpiece : isPiece piece = true)
    (hcomma : comma.isDelimiter .comma = true) (h : EndsEmpty ender ts) :
    EndsEmpty ender (piece ++ comma :: ts) := by
  obtain ⟨front, rest, rfl, hbal, hlast, hender⟩ := h
  refine ⟨piece ++ comma :: front, rest, by simp, ?_, ?_, hender⟩
  · exact balanced_append_comma hpiece hcomma hbal
  · cases front with
    | nil => simpa using hcomma
    | cons t front => simpa [List.getLast?_append] using hlast

/-- A piece that is empty has nothing before what ends it. -/
theorem endsEmpty_of_mem_withEnders (hpiece : isPiece piece = true)
    (hmore : ∀ p ∈ more, p.1.isDelimiter .comma = true ∧ isPiece p.2 = true)
    (h : ([], ender) ∈ withEnders last piece more) : EndsEmpty ender
      (piece ++ more.flatMap (fun (comma, piece) => comma :: piece) ++ [last]) := by
  induction more generalizing piece with
  | nil =>
    rw [withEnders, List.mem_singleton, Prod.mk.injEq] at h
    obtain ⟨rfl, rfl⟩ := h
    exact ⟨[], [], rfl, rfl, by simp, .inr rfl⟩
  | cons p more ih =>
    obtain ⟨comma, next⟩ := p
    obtain ⟨⟨hcomma, hnext⟩, hmore⟩ := List.forall_mem_cons.1 hmore
    rw [withEnders, List.mem_cons, Prod.mk.injEq] at h
    rcases h with ⟨rfl, rfl⟩ | h
    · exact ⟨[], _, rfl, rfl, by simp, .inl hcomma⟩
    · have htail := (ih hnext hmore h).append hpiece hcomma
      simpa using htail

end Item

/-- A column list without items is empty, or has an item that is empty. -/
theorem Body.of_items_eq_error {b : Body} {e : DefinitionError} (hbal : balanced 0 b.inner = true)
    (h : b.items = .error e) : e = .noColumns b.closing.span ∨
      ∃ ender, Item.EndsEmpty ender (b.inner ++ [b.closing]) ∧ e = .emptyItem ender.span := by
  unfold Body.items at h
  split at h
  · exact .inl (Except.error.inj h).symm
  · obtain ⟨hfirst, hwhole, hmore⟩ := Item.balanced_cut hbal
    obtain ⟨ender, hmem, he⟩ := Item.exists_of_mapM_ofPiece h
    have hpiece : Item.isPiece (Item.cut 0 b.inner).1 = true := by
      rw [Item.isPiece, hfirst, hwhole]
      rfl
    have hends := Item.endsEmpty_of_mem_withEnders hpiece hmore hmem
    rw [Item.flatten_cut] at hends
    exact .inr ⟨ender, hends, he⟩

namespace Table

variable {source : String} {t u : Table} {e : DefinitionError}

/-- A run of steps that fails, fails at one of them. -/
theorem exists_of_foldlM_eq_error {α β ε : Type} {step : β → α → Except ε β} {b : β} {e : ε}
    {xs : List α} (h : xs.foldlM step b = .error e) : ∃ front x back c, xs = front ++ x :: back ∧
      front.foldlM step b = .ok c ∧ step c x = .error e := by
  induction xs generalizing b with
  | nil => exact absurd h (by simp [pure, Except.pure])
  | cons x xs ih =>
    rw [List.foldlM_cons] at h
    rcases Except.bind_eq_error_iff.1 h with hx | ⟨b', hb', hrest⟩
    · exact ⟨[], x, xs, b, rfl, rfl, hx⟩
    · obtain ⟨front, y, back, c, rfl, hfront, hy⟩ := ih hrest
      refine ⟨x :: front, y, back, c, rfl, ?_, hy⟩
      rw [List.foldlM_cons, hb']
      exact hfront

/-- An item that is refused is a column without a name, or with a name that is taken. -/
theorem of_addItem_eq_error {i : Item} (h : addItem source t i = .error e) :
    i.isConstraint = false ∧ (e = .unexpected .columnName i.first.text i.first.span ∨
      i.first.isWord = true ∧ t.hasColumn (.ofToken i.first) = true ∧
        e = .duplicateColumn i.first.spelling i.first.span) := by
  unfold addItem at h
  split at h
  · exact absurd h (by simp)
  · rename_i hcolumn
    refine ⟨by simpa using hcolumn, ?_⟩
    rcases Except.bind_eq_error_iff.1 h with hread | ⟨c, hread, hadd⟩
    · unfold Column.ofItem at hread
      split at hread
      · exact absurd hread (by simp)
      · exact .inl (Except.error.inj hread).symm
    · obtain ⟨hword, rfl⟩ := Column.ofItem_eq_ok_iff.1 hread
      split at hadd
      · exact absurd hadd (by simp [pure, Except.pure])
      · rename_i refused hrefused
        obtain ⟨htaken, rfl⟩ := addColumn_eq_error_iff.1 hrefused
        simp only [throw, throwThe, MonadExceptOf.throw, Except.error.injEq] at hadd
        exact .inr ⟨hword, htaken, hadd.symm⟩

/-- The columns that items have made have the names of items that are columns. -/
theorem exists_of_hasColumn {items : List Item} {n : Name}
    (h : items.foldlM (addItem source) t = .ok u) (hnone : t.columns = [])
    (hn : u.hasColumn n = true) :
    ∃ i ∈ items, i.isConstraint = false ∧ (Name.ofToken i.first == n) = true := by
  obtain ⟨es, hes, hext⟩ := foldlM_addItem_eq_ok_iff.1 h
  obtain ⟨c, hc, hname⟩ := hasColumn_eq_true_iff.1 hn
  rw [hext.columns, hnone, List.nil_append] at hc
  obtain ⟨entry, hentry, hcolumn⟩ := List.mem_filterMap.1 hc
  obtain ⟨i, hi, hread⟩ := exists_mem_of_forall₂ hes hentry
  cases hread with
  | constraint _ => exact absurd hcolumn (by simp)
  | column hi' hread =>
    obtain rfl := Option.some.inj hcolumn
    obtain ⟨-, rfl⟩ := Column.ofItem_eq_ok_iff.1 hread
    exact ⟨i, hi, hi', hname⟩

end Table

/-! ## Errors and what they report -/

/-- What an error says of the text, where `marked` is the text under its span. -/
inductive DefinitionError.Reports (text : String) (marked : List Char) : DefinitionError → Prop
  /-- Something is left open, up to the end of the text. -/
  | lexical {error : LexicalError} (htext : tokenize text = .error error)
      (hstop : error.span.stop = Text.byteLength text.toList) : Reports text marked (.lexical error)
  /-- It is a token of the text, and the one that was found. -/
  | unexpected {ts : List Token} {t : Token} {expected : Expected} (hts : tokenize text = .ok ts)
      (ht : t ∈ ts) (hmarked : marked = t.text.toList) :
      Reports text marked (.unexpected expected t.text t.span)
  /-- It is the end of the text. -/
  | unexpectedEnd (expected : Expected) (hmarked : marked = []) :
      Reports text marked (.unexpectedEnd expected (Text.byteLength text.toList))
  /-- It is a parenthesis of the text, and has no partner among the others. -/
  | unbalanced {ts : List Token} {paren : Token} (hts : tokenize text = .ok ts)
      (hparen : paren ∈ unpartnered [] ts) (hmarked : marked = ['('] ∨ marked = [')'])
      (htext : marked = paren.text.toList) : Reports text marked (.unbalanced paren.span)
  /-- It ends an item of the column list, and the item is empty. -/
  | emptyItem {ts : List Token} {o : Outline} {ender : Token} (hts : tokenize text = .ok ts)
      (ho : o.Written ts) (hender : Item.EndsEmpty ender (o.body.inner ++ [o.body.closing]))
      (hmarked : marked = [','] ∨ marked = [')']) (htext : marked = ender.text.toList) :
      Reports text marked (.emptyItem ender.span)
  /-- It is the end of the column list. -/
  | noColumns {ts : List Token} {o : Outline} {list : Span} (hts : tokenize text = .ok ts)
      (ho : o.Written ts) (hstop : list.stop = o.body.closing.span.stop)
      (hmarked : ∃ front, marked = front ++ [')']) : Reports text marked (.noColumns list)
  /-- It is the name of a column, and a column before has it too. -/
  | duplicateColumn {ts : List Token} {o : Outline} {before between after : List Item} {i j : Item}
      (hts : tokenize text = .ok ts) (ho : o.Written ts)
      (hitems : Item.pieces o.body.inner =
        (before ++ i :: (between ++ j :: after)).map Item.tokens)
      (hi : i.isConstraint = false) (hj : j.isConstraint = false) (hword : j.first.isWord = true)
      (hname : (Name.ofToken i.first == Name.ofToken j.first) = true)
      (hmarked : marked = j.first.text.toList) :
      Reports text marked (.duplicateColumn j.first.spelling j.first.span)
  /-- It is the token behind the semicolon that ends the statement. -/
  | trailing {o : Outline} {front rest : List Token} {semicolon t : Token}
      (hts : tokenize text = .ok (front ++ semicolon :: t :: rest))
      (hsemicolon : semicolon.isDelimiter .semicolon = true)
      (ho : o.Written (front ++ [semicolon])) (hmarked : marked = t.text.toList) :
      Reports text marked (.trailing t.span)

namespace Outline

variable {o : Outline} {ts : List Token}

/-- The column list, with its two parentheses, is a stretch of the statement. -/
theorem Written.isInfix_list (h : o.Written ts) :
    o.body.opening :: o.body.inner ++ [o.body.closing] <:+: ts := by
  cases h with
  | @intro front rest => exact ⟨front, o.options ++ rest, by simp⟩

theorem Written.closing (h : o.Written ts) : o.body.closing.isDelimiter .rightParen = true := by
  cases h
  assumption

end Outline

namespace Table

variable {text : String} {ts : List Token} {o : Outline} {e : DefinitionError}

open Lexeme

/-- A statement that is not read is reported at a token or at the end. -/
theorem reports_of_refused (hts : tokenize text = .ok ts)
    (h : Outline.Refused ts (Text.byteLength text.toList) e) :
    ∃ marked, e.span.Marks text marked ∧ e.Reports text marked := by
  cases h with
  | unexpected ht => exact ⟨_, marks_of_mem hts ht, .unexpected hts ht rfl⟩
  | unexpectedEnd expected => exact ⟨[], Span.marks_point text, .unexpectedEnd expected rfl⟩
  | @unbalanced paren hparen =>
    rcases of_mem_unpartnered hparen with hnil | ⟨hmem, hdelimiter⟩
    · exact absurd hnil List.not_mem_nil
    refine ⟨_, marks_of_mem hts hmem, .unbalanced hts hparen ?_ rfl⟩
    exact hdelimiter.imp (text_of_isDelimiter hts hmem) (text_of_isDelimiter hts hmem)
  | @trailing o front rest semicolon t hsplit hsemicolon hwritten =>
    subst hsplit
    exact ⟨_, marks_of_mem hts (by simp), .trailing hts hsemicolon hwritten rfl⟩

/-- The span of a column list ends with the parenthesis that closes it, whether it is that of the
    parenthesis or of the whole list. -/
theorem reports_noColumns (hts : tokenize text = .ok ts) (ho : o.Written ts) :
    ∀ list ∈ [o.body.closing.span, o.body.opening.span.join o.body.closing.span],
      ∃ marked, list.Marks text marked ∧
        (DefinitionError.noColumns list).Reports text marked := by
  have hlist := ho.isInfix_list
  have hclosing : o.body.closing ∈ ts := hlist.subset (by simp)
  have hparen := text_of_isDelimiter hts hclosing ho.closing
  rw [List.forall_mem_cons, List.forall_mem_singleton]
  constructor
  · refine ⟨_, marks_of_mem hts hclosing, .noColumns hts ho rfl ⟨[], ?_⟩⟩
    simp [hparen, Delimiter.char]
  · have hspan : Fragment.spanOf? (o.body.opening :: o.body.inner ++ [o.body.closing]) =
        some (o.body.opening.span.join o.body.closing.span) := by
      rw [Fragment.spanOf?, List.getLast?_concat]
      rfl
    obtain ⟨front, hfront⟩ := exists_text_ofTokens_concat hts hlist
    refine ⟨_, marks_of_spanOf? hts hlist hspan,
      .noColumns hts ho (stop_of_spanOf? hts hlist hspan) ⟨front, ?_⟩⟩
    rw [hfront, hparen]
    rfl

/-- A list without items is reported at its end, or at the end of an item that is empty. -/
theorem reports_of_items (hts : tokenize text = .ok ts) (ho : o.Written ts)
    (h : o.body.items = .error e) : ∃ marked, e.span.Marks text marked ∧ e.Reports text marked := by
  rcases Body.of_items_eq_error (balanced_eq_true_iff.2 ho.balanced) h with
    rfl | ⟨ender, hender, rfl⟩
  · exact reports_noColumns hts ho _ List.mem_cons_self
  · have hmem : ender ∈ ts := by
      obtain ⟨front, rest, hsplit, -⟩ := hender
      have hin : ender ∈ o.body.inner ++ [o.body.closing] := by simp [hsplit]
      exact ho.isInfix_list.subset (List.mem_cons_of_mem _ hin)
    have hmarked : ender.text.toList = [','] ∨ ender.text.toList = [')'] := by
      obtain ⟨front, rest, hsplit, -, -, hcomma | rfl⟩ := hender
      · exact .inl (text_of_isDelimiter hts hmem hcomma)
      · obtain ⟨-, hclosing⟩ := List.append_inj' hsplit rfl
        rw [← List.singleton_inj.1 hclosing] at hmem ⊢
        exact .inr (text_of_isDelimiter hts hmem ho.closing)
    exact ⟨_, marks_of_mem hts hmem, .emptyItem hts ho hender hmarked rfl⟩

/-- A list of items that is no table is reported at an item or at its end. -/
theorem reports_of_ofOutline (hts : tokenize text = .ok ts) (ho : o.Written ts)
    (h : ofOutline text o = .error e) :
    ∃ marked, e.span.Marks text marked ∧ e.Reports text marked := by
  rcases Except.bind_eq_error_iff.1 h with hitems | ⟨items, hitems, hrest⟩
  · exact reports_of_items hts ho hitems
  have hpieces := Body.items_eq_ok_iff.1 hitems
  rcases Except.bind_eq_error_iff.1 hrest with hfold | ⟨u, hfold, hempty⟩
  · obtain ⟨front, j, after, u, rfl, hfront, hj⟩ := exists_of_foldlM_eq_error hfold
    have hmem : j.first ∈ ts := by
      have hpiece : j.tokens ∈ Item.pieces o.body.inner := by
        rw [hpieces]
        exact List.mem_map_of_mem (by simp)
      exact ((Item.isInfix_of_mem_pieces hpiece).trans ho.isInfix.1).subset List.mem_cons_self
    obtain ⟨hjcolumn, rfl | ⟨hword, htaken, rfl⟩⟩ := of_addItem_eq_error hj
    · exact ⟨_, marks_of_mem hts hmem, .unexpected hts hmem rfl⟩
    · obtain ⟨i, hi, hicolumn, hname⟩ := exists_of_hasColumn hfront rfl htaken
      obtain ⟨before, between, rfl⟩ := List.append_of_mem hi
      rw [List.append_assoc, List.cons_append] at hpieces
      exact ⟨_, marks_of_mem hts hmem,
        .duplicateColumn hts ho hpieces hicolumn hjcolumn hword hname rfl⟩
  · split at hempty
    · simp only [throw, throwThe, MonadExceptOf.throw, bind, Except.bind,
        Except.error.injEq] at hempty
      rw [← hempty]
      exact reports_noColumns hts ho (o.body.opening.span.join o.body.closing.span) (by simp)
    · exact absurd hempty (by simp [pure, Except.pure])

/-- **Every error points at what it reports.** The span of an error is a place in the text, and what
    is there is what the error says. -/
theorem reports_of_parse (h : parse text = .error e) :
    ∃ marked, e.span.Marks text marked ∧ e.Reports text marked := by
  rcases Except.bind_eq_error_iff.1 h with houtline | ⟨o, houtline, htable⟩
  · rcases Except.bind_eq_error_iff.1 houtline with htokens | ⟨ts, htokens, hread⟩
    · obtain ⟨error, herror, rfl⟩ := Except.mapError_eq_error_iff.1 htokens
      obtain ⟨hstop, marked, hmarks⟩ := LexicalError.marks herror
      exact ⟨marked, hmarks, .lexical herror hstop⟩
    · exact reports_of_refused (Except.mapError_eq_ok_iff.1 htokens) (Outline.refused_of_read hread)
  · obtain ⟨ts, hts, ho⟩ := Outline.ofText_eq_ok_iff.1 houtline
    exact reports_of_ofOutline hts ho htable

/-- A name that is there twice, in other quotes and another case, behind characters of two bytes. -/
theorem reports_of_parse_duplicate : ∃ text e,
    text = "CREATE TABLE é (\"ü(\"\"B\" x, y, [ü(\"b] z)" ∧
    e = .duplicateColumn "ü(\"b" ⟨32, 39⟩ ∧ parse text = .error e ∧
      ∃ marked, e.span.Marks text marked ∧ e.Reports text marked := by
  refine ⟨"CREATE TABLE é (\"ü(\"\"B\" x, y, [ü(\"b] z)", .duplicateColumn "ü(\"b" ⟨32, 39⟩, ?_⟩
  generalize htext : "CREATE TABLE é (\"ü(\"\"B\" x, y, [ü(\"b] z)" = text
  have herror : (parse text).map (fun _ => ()) = .error (.duplicateColumn "ü(\"b" ⟨32, 39⟩) := by
    rw [← htext]
    decide +kernel
  cases hparse : parse text with
  | error e =>
    rw [hparse] at herror
    obtain rfl := Except.error.inj herror
    exact ⟨rfl, rfl, rfl, reports_of_parse hparse⟩
  | ok t =>
    rw [hparse] at herror
    exact absurd herror (by simp [Except.map])

end Table
end TableRebuild
