import TableRebuild.Proofs.Table.Written
import TableRebuild.Proofs.Token.Fixed
import TableRebuild.Statement

/-!
# Statements that create a table, read again

A `CREATE TABLE` statement that is printed from printable entries is read as a table with these
entries (`Table.exists_parse_create`). The entries may be in any order, columns behind constraints
included, and the name may be any name.

The way there is the text as lexemes, the lexemes as tokens, the tokens as an outline, and the
outline as a table. At each station the text in the middle, the column list, is a list of entries
with commas between them, and each station has its induction over that list: it is read lexeme by
lexeme (`Lexeme.allRead_commaList`), and its pieces are items that are the entries
(`Entry.exists_items`).
-/

namespace TableRebuild

/-! ## Entries with commas between them -/

namespace Lexeme

/-- Groups of lexemes with a comma between them, and a space behind each comma. -/
def commaList (ls : List Lexeme) (groups : List (List Lexeme)) : List Lexeme :=
  ls ++ groups.flatMap fun more => delimiter [] .comma :: withGap [' '] more

theorem commaList_nil (ls : List Lexeme) : commaList ls [] = ls := List.append_nil _

theorem commaList_cons (ls more : List Lexeme) (groups : List (List Lexeme)) :
    commaList ls (more :: groups) =
      ls ++ delimiter [] .comma :: commaList (withGap [' '] more) groups := by
  rw [commaList, List.flatMap_cons, List.cons_append]
  rfl

theorem allRead_commaList {ls : List Lexeme} {groups : List (List Lexeme)} (hls : AllRead ls [])
    (hgroups : ∀ more ∈ groups, AllRead more []) {c : Char} (hc : c ∈ breaks) (rest : List Char) :
    AllRead (commaList ls groups) (c :: rest) := by
  induction groups generalizing ls with
  | nil =>
    rw [commaList_nil]
    exact hls.of_sameEdge (.cons hc _ _)
  | cons more groups ih =>
    obtain ⟨hmore, hgroups⟩ := List.forall_mem_cons.1 hgroups
    have hcomma : ',' ∈ breaks := by simp [breaks]
    rw [commaList_cons, allRead_append]
    refine ⟨hls.of_sameEdge (.cons hcomma _ _), ?_, ih (hmore.withGap Gap.closed_space) hgroups⟩
    exact reads_delimiter .nil (by simp) _

end Lexeme

namespace Entry

open Lexeme

variable {e : Entry} {es : List Entry} {ls : List Lexeme} {groups : List (List Lexeme)}

theorem exists_groups (h : ∀ e ∈ es, e.Printable) : ∃ groups, List.Forall₂ Written es groups := by
  induction es with
  | nil => exact ⟨[], .nil⟩
  | cons e es ih =>
    obtain ⟨he, hes⟩ := List.forall_mem_cons.1 h
    obtain ⟨ls, hls⟩ := he.exists_written
    obtain ⟨groups, hgroups⟩ := ih hes
    exact ⟨ls :: groups, .cons hls hgroups⟩

theorem allRead_of_written (h : List.Forall₂ Written es groups) :
    ∀ ls ∈ groups, AllRead ls [] := by
  induction h with
  | nil => simp
  | cons he _ ih => exact List.forall_mem_cons.2 ⟨he.spelled.allRead, ih⟩

/-- What the entries are written as. -/
theorem written_commaList (he : e.Written ls) (hes : List.Forall₂ Written es groups)
    (gap : List Char) : (commaList (withGap gap ls) groups).flatMap written =
      gap ++ (Statement.commaSeparated ((e :: es).map text)).toList := by
  induction hes generalizing e ls gap with
  | nil =>
    rw [commaList_nil, he.spelled.written_withGap he.ne_nil, Statement.commaSeparated,
      List.map_cons, toList_intercalate_cons]
    simp
  | @cons e' ls' es groups he' _ ih =>
    rw [commaList_cons, List.flatMap_append, List.flatMap_cons, ih he',
      he.spelled.written_withGap he.ne_nil, Statement.commaSeparated, Statement.commaSeparated,
      List.map_cons, List.map_cons, toList_intercalate_cons, toList_intercalate_cons]
    simp [delimiter, written, Delimiter.char]

/-- **The items of a list of entries are the entries.** -/
theorem exists_items (he : e.Written ls) (hes : List.Forall₂ Written es groups) {source : String}
    {gap pre post : List Char}
    (hsource : source.toList = pre ++ (commaList (withGap gap ls) groups).flatMap written ++ post) :
    let inner := placeAll (Text.byteLength pre) (commaList (withGap gap ls) groups)
    Nesting.balanced 0 inner = true ∧ ∃ items es', Item.pieces inner = items.map Item.tokens ∧
      List.Forall₂ (Item.ReadsAs source) items es' ∧
        es'.map unplaced = (e :: es).map unplaced := by
  induction hes generalizing e ls gap pre with
  | nil =>
    rw [commaList_nil] at hsource ⊢
    obtain ⟨hpiece, i, e', htokens, hi, hsame⟩ := he.exists_item hsource
    refine ⟨(Bool.and_eq_true_iff.1 hpiece).1, [i], [e'], ?_, .cons hi .nil, ?_⟩
    · rw [Item.pieces_of_isPiece hpiece, htokens, List.map_singleton]
    · rw [List.map_singleton, List.map_singleton, hsame]
  | @cons e₂ ls₂ es groups he₂ _ ih =>
    rw [commaList_cons] at hsource ⊢
    have hhead : source.toList = pre ++ (withGap gap ls).flatMap written ++
        ((delimiter [] .comma :: commaList (withGap [' '] ls₂) groups).flatMap written ++
          post) := by
      rw [hsource]
      simp
    have htail : source.toList =
        (pre ++ (withGap gap ls).flatMap written ++ (delimiter [] .comma).written) ++
          (commaList (withGap [' '] ls₂) groups).flatMap written ++ post := by
      rw [hsource]
      simp
    obtain ⟨hpiece, i, e', htokens, hi, hsame⟩ := he.exists_item hhead
    obtain ⟨hbal, items, es', hpieces, hitems, hrest⟩ := ih he₂ htail
    have hcomma : ∀ offset, ((delimiter [] .comma).place offset).isDelimiter .comma = true :=
      fun _ => rfl
    rw [placeAll_append, placeAll, ← Text.byteLength_append, ← Text.byteLength_append]
    refine ⟨Item.balanced_append_comma hpiece (hcomma _) hbal, i :: items, e' :: es', ?_,
      .cons hi hitems, ?_⟩
    · rw [Item.pieces_append hpiece (hcomma _), hpieces, htokens, List.map_cons]
    · rw [List.map_cons, hsame, hrest, ← List.map_cons]

end Entry

/-! ## The statement -/

namespace Statement

open Lexeme

variable {n : Name} {es : List Entry} {options : Fragment}

/-- What a statement says behind `CREATE TABLE` and the name. -/
def definition (es : List Entry) (options : Fragment) : String :=
  " (" ++ commaSeparated (es.map Entry.text) ++ ")" ++
    if options.isEmpty then "" else " " ++ options.text

theorem sql_createTable (n : Name) (columns : List Column) (constraints : List Fragment)
    (options : Fragment) : (createTable n columns constraints options).sql =
      "CREATE TABLE " ++ n.quoted ++
        definition (columns.map .column ++ constraints.map .constraint) options := by
  have htexts : (columns.map Entry.column ++ constraints.map Entry.constraint).map Entry.text =
      columns.map (·.render) ++ constraints.map (·.text) := by
    rw [List.map_append, List.map_map, List.map_map]
    rfl
  have htoString : ∀ s : String, toString s = s := fun _ => rfl
  rw [definition, htexts]
  unfold sql
  cases hempty : options.isEmpty with
  | true => simp only [hempty, htoString, ↓reduceIte, String.append_assoc, String.append_empty]
  | false =>
    simp only [hempty, htoString, Bool.false_eq_true, ↓reduceIte, String.append_assoc]

/-- The lexemes in front of the column list. -/
def opening (n : Name) : List Lexeme :=
  [word [] Keyword.create.text, word [' '] Keyword.table.text, n.lexeme [' '],
    delimiter [' '] .leftParen]

theorem allRead_opening (n : Name) (rest : List Char) : AllRead (opening n) rest := by
  have hspace : ' ' ∈ breaks := List.mem_cons_self
  refine ⟨?_, ?_, ?_, ?_, trivial⟩
  · exact reads_word .nil rfl rfl rfl (.cons hspace _ _)
  · exact reads_word Gap.closed_space rfl rfl rfl (.cons hspace _ _)
  · exact n.reads_lexeme Gap.closed_space (by simp [delimiter, written])
  · exact reads_delimiter Gap.closed_space (by simp) _

theorem written_opening (n : Name) :
    (opening n).flatMap written = ("CREATE TABLE " ++ n.quoted ++ " (").toList := by
  simp [opening, word, delimiter, Name.lexeme, written, Keyword.text, Delimiter.char]

/-- All lexemes of the statement, from those of the column list and those of the options. -/
def lexemes (n : Name) (list options : List Lexeme) : List Lexeme :=
  opening n ++ (list ++ delimiter [] .rightParen :: options)

section

variable {e : Entry} {first opts : List Lexeme} {groups : List (List Lexeme)}

theorem written_lexemes (n : Name) (he : e.Written first)
    (hes : List.Forall₂ Entry.Written es groups) (hopts : options.Spells opts) :
    (lexemes n (commaList (withGap [] first) groups) (row [opts])).flatMap written =
      ("CREATE TABLE " ++ n.quoted ++ definition (e :: es) options).toList := by
  have hrow : List.Forall₂ Fragment.Spells [options] [opts] := .cons hopts .nil
  have hclose : (delimiter [] .rightParen).written = [')'] := rfl
  rw [definition, lexemes, List.flatMap_append, List.flatMap_append, List.flatMap_cons,
    written_opening, Entry.written_commaList he hes, Fragment.written_row hrow, hclose]
  cases hempty : options.isEmpty with
  | true => simp [hempty]
  | false => simp [hempty]

theorem allRead_lexemes (n : Name) (he : e.Written first)
    (hes : List.Forall₂ Entry.Written es groups) (hopts : options.Spells opts) :
    AllRead (lexemes n (commaList (withGap [] first) groups) (row [opts])) [] := by
  have hrow : List.Forall₂ Fragment.Spells [options] [opts] := .cons hopts .nil
  have hparen : ')' ∈ breaks := by simp [breaks]
  have hfirst : AllRead (withGap [] first) [] := by
    rw [he.spelled.withGap_nil]
    exact he.spelled.allRead
  rw [lexemes, allRead_append, allRead_append]
  refine ⟨allRead_opening n _, ?_, reads_delimiter .nil (by simp) _, ?_⟩
  · exact allRead_commaList hfirst (Entry.allRead_of_written hes) hparen _
  · exact allRead_row (Fragment.allRead_of_spells hrow) (.nil _)

end

/-- **The outline of a statement that is put together so** is what it was put together from. -/
theorem exists_outline (n : Name) {list options : List Lexeme} {start stop : Nat}
    (hstart : start = Text.byteLength ((opening n).flatMap written))
    (hstop : stop = start + Text.byteLength (list.flatMap written) +
      Text.byteLength (delimiter [] .rightParen).written)
    (hlist : Nesting.balanced 0 (placeAll start list) = true)
    (hoptions : Options.Allowed (placeAll stop options)) :
    ∃ (o : Outline) (place : Nat), o.Written (placeAll 0 (lexemes n list options)) ∧
      o.header = ⟨false, false, none, (n.lexeme [' ']).place place⟩ ∧
        o.body.inner = placeAll start list ∧ o.options = placeAll stop options := by
  have hkeyword : ∀ (gap : List Char) (k : Keyword) (offset : Nat),
      ((word gap k.text).place offset).isKeyword k = true := by
    intro gap k offset
    rw [Token.isKeyword, place, word, Kind.ofWord_text]
    exact beq_self_eq_true _
  have htokens : placeAll 0 (lexemes n list options) = placeAll 0 (opening n) ++
      (placeAll start list ++
        (delimiter [] .rightParen).place (start + Text.byteLength (list.flatMap written)) ::
          placeAll stop options) := by
    rw [lexemes, placeAll_append, placeAll_append, placeAll, Nat.zero_add, ← hstart, ← hstop]
  have hopening : placeAll 0 (opening n) =
      [(word [] Keyword.create.text).place _, (word [' '] Keyword.table.text).place _,
        (n.lexeme [' ']).place _, (delimiter [' '] .leftParen).place _] := rfl
  rw [htokens, hopening]
  refine ⟨_, _, Outline.written_plain (hkeyword _ _ _) (hkeyword _ _ _) ?_ rfl hlist rfl hoptions,
    rfl, rfl, rfl⟩
  rw [place, Name.lexeme]

section

variable {e : Entry} {first ls : List Lexeme} {groups : List (List Lexeme)} {source : String}

/-- Options that close a text are the options they were written from. -/
theorem unplaced_options (hspells : options.Spells ls) {pre : List Char}
    (hsource : source.toList = pre ++ (row [ls]).flatMap written) :
    (Fragment.ofTokens (placeAll (Text.byteLength pre) (row [ls])) source).unplaced =
      options.unplaced := by
  have hrow : List.Forall₂ Fragment.Spells [options] [ls] := .cons hspells .nil
  have hsource' : source.toList = pre ++ (row [ls]).flatMap written ++ [] := by
    rw [hsource, List.append_nil]
  obtain ⟨parts, hparts, hoptions⟩ := Fragment.exists_of_row hrow hsource'
  rw [List.map_map, List.map_singleton] at hoptions
  obtain ⟨opts, rest, rfl, hopts, hnil⟩ := List.map_eq_cons_iff.1 hoptions
  rw [List.map_eq_nil_iff.1 hnil, List.flatten_singleton] at hparts
  rw [hparts]
  exact hopts

/-- **The outline of a statement** has the entries as its items, and the options behind them. -/
theorem exists_ofText (n : Name) (he : e.Written first)
    (hes : List.Forall₂ Entry.Written es groups) (hspells : options.Spells ls)
    (hallowed : Options.Allowed options.tokens)
    (hsource : source = "CREATE TABLE " ++ n.quoted ++ definition (e :: es) options) :
    ∃ o place items es', Outline.ofText source = .ok o ∧
      o.header = ⟨false, false, none, (n.lexeme [' ']).place place⟩ ∧
        Item.pieces o.body.inner = items.map Item.tokens ∧
          List.Forall₂ (Item.ReadsAs source) items es' ∧
            es'.map Entry.unplaced = (e :: es).map Entry.unplaced ∧
              (Fragment.ofTokens o.options source).unplaced = options.unplaced := by
  set list := commaList (withGap [] first) groups with hlist
  set pre := (opening n).flatMap written with hpre
  have hwritten : source.toList = (lexemes n list (row [ls])).flatMap written := by
    rw [hsource, hlist, written_lexemes n he hes hspells]
  -- The column list and the options, each where it stands.
  have hinner : source.toList = pre ++ list.flatMap written ++
      ((delimiter [] .rightParen).written ++ (row [ls]).flatMap written) := by
    rw [hwritten, lexemes]
    simp [hpre]
  have hbehind : source.toList = (pre ++ list.flatMap written ++
      (delimiter [] .rightParen).written) ++ (row [ls]).flatMap written := by
    rw [hinner, List.append_assoc _ _ ((row [ls]).flatMap written)]
  obtain ⟨hbal, items, es', hpieces, hitems, hsame⟩ := Entry.exists_items he hes hinner
  have hoptions := unplaced_options hspells hbehind
  have hallowed' := Options.allowed_unplaced hallowed (congrArg Fragment.tokens hoptions)
  obtain ⟨o, place, hwritten', hheader, hbody, hopt⟩ := exists_outline n rfl
    (by rw [Text.byteLength_append, Text.byteLength_append]) hbal hallowed'
  have htokenize := tokenize_of_allRead (allRead_lexemes n he hes hspells) hwritten
  refine ⟨o, place, items, es', Outline.ofText_eq_ok_iff.2 ⟨_, htokenize, hwritten'⟩, hheader, ?_,
    hitems, hsame, ?_⟩
  · rw [hbody]
    exact hpieces
  · rw [hopt]
    exact hoptions

end

end Statement

namespace Table

open Lexeme Statement

/-- A table with a name, entries and options, and nothing that a statement may say besides. -/
structure IsPlain (n : Name) (es : List Entry) (options : Fragment) (t : Table) : Prop where
  name : t.name = n
  schema : t.schema = none
  temporary : t.temporary = false
  ifNotExists : t.ifNotExists = false
  columns : t.columns.map Column.unplaced = (es.filterMap Entry.column?).map Column.unplaced
  constraints :
    t.constraints.map Fragment.unplaced = (es.filterMap Entry.constraint?).map Fragment.unplaced
  options : t.options.unplaced = options.unplaced

variable {n : Name} {es : List Entry} {options : Fragment}

/-- An outline whose items are the entries is a table with these entries. -/
theorem exists_ofOutline {source : String} {o : Outline} {items : List Item} {es' : List Entry}
    (hpieces : Item.pieces o.body.inner = items.map Item.tokens)
    (hitems : List.Forall₂ (Item.ReadsAs source) items es')
    (hsame : es'.map Entry.unplaced = es.map Entry.unplaced)
    (hdistinct : (es.filterMap Entry.column?).Pairwise fun a b => (a.name == b.name) = false)
    (hne : es.filterMap Entry.column? ≠ []) : ∃ t, ofOutline source o = .ok t ∧
      (ofHeader source o.header o.options).Extends es' t ∧
        t.columns.map Column.unplaced = (es.filterMap Entry.column?).map Column.unplaced ∧
          t.constraints.map Fragment.unplaced =
            (es.filterMap Entry.constraint?).map Fragment.unplaced := by
  have hcolumns : (es'.filterMap Entry.column?).map Column.unplaced =
      (es.filterMap Entry.column?).map Column.unplaced := by
    rw [Entry.map_unplaced_columns, hsame, Entry.map_unplaced_columns]
  have hconstraints : (es'.filterMap Entry.constraint?).map Fragment.unplaced =
      (es.filterMap Entry.constraint?).map Fragment.unplaced := by
    rw [Entry.map_unplaced_constraints, hsame, Entry.map_unplaced_constraints]
  -- Names do not have places, so they are as different as they were.
  have hdistinct' : (es'.filterMap Entry.column?).Pairwise
      fun a b => (a.name == b.name) = false := by
    have hmap : ((es.filterMap Entry.column?).map Column.unplaced).Pairwise
        fun a b => (a.name == b.name) = false := List.pairwise_map.2 hdistinct
    rw [← hcolumns] at hmap
    exact List.pairwise_map.1 hmap
  have hne' : es'.filterMap Entry.column? ≠ [] := by
    intro hnil
    rw [hnil, List.map_nil] at hcolumns
    exact hne (List.map_eq_nil_iff.1 hcolumns.symm)
  obtain ⟨t, hext⟩ : ∃ t, (ofHeader source o.header o.options).Extends es' t :=
    exists_extends hdistinct'
  have htcolumns : t.columns = es'.filterMap Entry.column? := hext.columns
  have htconstraints : t.constraints = es'.filterMap Entry.constraint? := hext.constraints
  rw [← htcolumns] at hcolumns hne'
  rw [← htconstraints] at hconstraints
  exact ⟨t, ofOutline_eq_ok_iff.2 ⟨hne', items, es', hpieces, hitems, hext⟩, hext, hcolumns,
    hconstraints⟩

/-- **A statement that is put together from printable entries is read as a table with these
    entries**, under whatever name. -/
theorem exists_parse_create (n : Name) (hes : ∀ e ∈ es, e.Printable)
    (hdistinct : (es.filterMap Entry.column?).Pairwise fun a b => (a.name == b.name) = false)
    (hne : es.filterMap Entry.column? ≠ []) (hlegible : options.Legible)
    (hallowed : Options.Allowed options.tokens) :
    ∃ t, parse ("CREATE TABLE " ++ n.quoted ++ definition es options) = .ok t ∧
      t.IsPlain n es options := by
  obtain ⟨groups, hgroups⟩ := Entry.exists_groups hes
  obtain ⟨ls, hspells⟩ := hlegible
  cases hgroups with
  | nil => exact absurd rfl hne
  | cons he hrest =>
    obtain ⟨o, place, items, es', htext, hheader, hpieces, hitems, hsame, hoptions⟩ :=
      exists_ofText n he hrest hspells hallowed rfl
    obtain ⟨t, ht, hext, hcolumns, hconstraints⟩ :=
      exists_ofOutline hpieces hitems hsame hdistinct hne
    rw [hheader, ofHeader, Name.ofToken_place_lexeme] at hext
    refine ⟨t, ?_, ?_⟩
    · rw [parse, htext]
      exact ht
    · refine ⟨hext.name, hext.schema, hext.temporary, hext.ifNotExists, hcolumns, hconstraints, ?_⟩
      rw [hext.options]
      exact hoptions

end Table
end TableRebuild
