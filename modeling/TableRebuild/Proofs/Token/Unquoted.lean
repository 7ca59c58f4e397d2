import TableRebuild.Proofs.Token.Cursor
import TableRebuild.Proofs.Token.Enclosed

/-!
# Names in quotes and out of them

There are three ways from a text to a name. A name that was written in double quotes is taken out of
them, a text that somebody hands in is taken out of whatever marks surround it, and a token that is
read from a statement knows by its kind whether there are marks. The last two look at different
things, the two ends of the text and the kind of the token, and the end of a quoted token was found
by a third rule, the pairing of marks.

That all of them agree is `Name.quotes_undone`. Quoting loses nothing and is done once: a name that
is quoted again is quoted as before. A cursor that comes to a quoted name takes it, all of it and
nothing else, unless a double quote stands directly behind. And a word that a cursor has taken is
the name that its text is.
-/

namespace TableRebuild

/-! ## Words that were read -/

/-- The text of the word is its spelling, or its spelling enclosed in marks. -/
inductive Token.Spelled (t : Token) : Prop
  | bare (hkind : t.kind ≠ .quotedName) (htext : t.text = t.spelling)
      (hunquote : Quote.unquote t.text.toList = t.text.toList)
  | quoted {q : Quote} (hkind : t.kind = .quotedName) (hname : q.quotesName = true)
      (htakes : q.Takes t.spelling.toList) (htext : t.text.toList = q.enclose t.spelling.toList)

/-- The name of a word is the name that its text is. -/
theorem Token.Spelled.ofToken_eq {t : Token} (h : t.Spelled) :
    Name.ofToken t = Name.ofText t.text := by
  rw [Name.ofToken, Name.ofText]
  cases h with
  | bare hkind htext hunquote => rw [hunquote, String.ofList_toList, htext]
  | quoted hkind hname htakes htext =>
    rw [htext, Quote.unquote_enclose hname, String.ofList_toList]

namespace Lexeme

theorem spelling_place_of_ne {l : Lexeme} (h : l.kind ≠ .quotedName) (offset : Nat) :
    (l.place offset).spelling = String.ofList l.text := by
  simp only [place, Token.spelling]

theorem spelling_place_of_enclose {l : Lexeme} {q : Quote} {body : List Char}
    (hkind : l.kind = .quotedName) (hname : q.quotesName = true) (htext : l.text = q.enclose body)
    (offset : Nat) : (l.place offset).spelling = String.ofList body := by
  simp only [place, Token.spelling, hkind, htext, String.toList_ofList,
    Quote.unquote_enclose hname]

/-- **A word that is read is spelled as it is written**, but for the marks around it. -/
theorem Reads.spelled {l : Lexeme} {rest : List Char} (h : l.Reads rest)
    (hword : l.kind.isWord = true) (offset : Nat) : (l.place offset).Spelled := by
  obtain ⟨-, -, hfront⟩ := reads_iff.1 h
  rcases Front.word_cases hfront hword with ⟨hkind, c, tail, htext, hopener⟩ |
    ⟨hkind, q, body, hname, htakes, htext, -⟩
  · refine .bare hkind (spelling_place_of_ne hkind offset).symm ?_
    simp only [place, String.toList_ofList, htext, Quote.unquote_of_ofOpener? hopener]
  · have hspelling := spelling_place_of_enclose hkind hname htext offset
    refine .quoted hkind hname ?_ ?_
    · rw [hspelling, String.toList_ofList]
      exact htakes
    · rw [hspelling, String.toList_ofList, ← htext, place, String.toList_ofList]

theorem exists_reads_of_mem_placeAll {ls : List Lexeme} {rest : List Char} {offset : Nat}
    {t : Token} (h : AllRead ls rest) (ht : t ∈ placeAll offset ls) :
    ∃ l rest' n, Reads l rest' ∧ t = l.place n := by
  induction ls generalizing offset with
  | nil => exact absurd ht List.not_mem_nil
  | cons l ls ih =>
    rcases List.mem_cons.1 ht with rfl | ht
    · exact ⟨l, _, offset, h.1, rfl⟩
    · exact ih h.2 ht

end Lexeme

namespace Cursor

variable {c : Cursor} {t : Token} {rest : List Char}

/-- Every token that a cursor gives is a lexeme that was read. -/
theorem exists_reads_of_mem_drain (h : .ok t ∈ c.drain) :
    ∃ l rest n, Lexeme.Reads l rest ∧ t = l.place n := by
  rw [(gives_of c).drain_eq, List.mem_append] at h
  rcases h with h | h
  · obtain ⟨t', ht', heq⟩ := List.mem_map.1 h
    rw [← Except.ok.inj heq]
    exact Lexeme.exists_reads_of_mem_placeAll (Lexing.allRead_of c.rest) ht'
  · obtain ⟨e, -, heq⟩ := List.mem_map.1 h
    exact absurd heq (by simp)

/-- A cursor gives a token and stands behind it just if it reads the token's lexeme. -/
theorem next_eq_iff : c.next = (.ok (some t), ⟨t.span.stop, rest⟩) ↔
    ∃ l, Lexeme.scan c.rest = .lexeme l rest ∧ t = l.place c.offset := by
  constructor
  · intro h
    cases hscan : Lexeme.scan c.rest with
    | lexeme l rest' =>
      rw [next_of_lexeme hscan, Prod.mk.injEq] at h
      simp only [advance, Except.ok.injEq, Option.some.injEq, mk.injEq] at h
      obtain ⟨rfl, -, rfl⟩ := h
      exact ⟨l, rfl, rfl⟩
    | ending e =>
      have hanswer := (next_of_ending hscan).2
      rw [h] at hanswer
      cases he : e.error? c.offset with
      | some err => simp [he] at hanswer
      | none => simp [he] at hanswer
  · rintro ⟨l, hscan, rfl⟩
    rw [next_of_lexeme hscan, Lexeme.stop_place, advance]

end Cursor

/-! ## Names that are quoted -/

namespace Name

/-- The token that a quoted name is, behind `offset` bytes. -/
def token (offset : Nat) (n : Name) : Token :=
  ⟨.quotedName, n.quoted, ⟨offset, offset + Text.byteLength n.quoted.toList⟩⟩

theorem place_lexeme (offset : Nat) (n : Name) : (n.lexeme []).place offset = n.token offset := by
  simp [Lexeme.place, lexeme, token]

theorem written_lexeme (n : Name) : (n.lexeme []).written = n.quoted.toList := by
  simp only [Lexeme.written, lexeme, List.nil_append]

theorem ofText_quoted (n : Name) : ofText n.quoted = n := by
  rw [ofText, toList_quoted, Quote.unquote_enclose (q := .double) rfl, String.ofList_toList]

/-- A quoted name is read as it is, unless a double quote stands behind. -/
theorem reads_lexeme_iff (n : Name) (rest : List Char) :
    (n.lexeme []).Reads rest ↔ rest.head? ≠ some '"' := by
  have hread : (n.lexeme []).Reads [] := n.reads_lexeme .nil (by simp)
  have hgoes : ∀ c, Front.goesOn (n.lexeme []).text c = (c == '"') := by
    intro c
    rw [text_lexeme]
    rfl
  rw [hread.iff_goesOn]
  cases rest with
  | nil => simp
  | cons c more => simp [hgoes]

/-- **A cursor takes a quoted name, all of it and nothing else**, just if no double quote stands
    behind. -/
theorem next_quoted_iff (n : Name) (offset : Nat) (rest : List Char) :
    Cursor.next ⟨offset, n.quoted.toList ++ rest⟩ =
        (.ok (some (n.token offset)), ⟨(n.token offset).span.stop, rest⟩) ↔
      rest.head? ≠ some '"' := by
  rw [← n.reads_lexeme_iff rest, Cursor.next_eq_iff]
  constructor
  · rintro ⟨⟨gap, kind, text⟩, hscan, hplace⟩
    simp only [token, Lexeme.place, Token.mk.injEq, Span.mk.injEq] at hplace
    obtain ⟨rfl, htext, hstart, -⟩ := hplace
    -- The token is in front of all the text, which leaves no place for a gap.
    have hgap : gap = [] := by
      by_contra hne
      have := Text.byteLength_pos hne
      omega
    rw [hgap] at hscan
    have hlexeme : n.lexeme [] = ⟨[], .quotedName, text⟩ := by
      rw [lexeme, htext, String.toList_ofList]
    rw [Lexeme.Reads, hlexeme]
    rw [htext, String.toList_ofList] at hscan
    exact hscan
  · intro hread
    rw [Lexeme.Reads, written_lexeme] at hread
    exact ⟨n.lexeme [], hread, (n.place_lexeme offset).symm⟩

/-- **Quotes are undone by whoever reads them.** Taking the quotes off gives back what was put in,
    so quoting is done once and gives the same name. A quoted name is one token for a cursor, with
    all of its text and nothing else, unless a double quote stands behind, and the token is that
    name. And a word that a cursor gives is spelled as it is written, but for the marks around it,
    and is the name that its text is. -/
theorem quotes_undone :
    (∀ cs : List Char, Quote.unquote (Quote.double.enclose cs) = cs) ∧
    (∀ n : Name, ofText n.quoted = n) ∧
    (∀ text : String, (ofText (ofText text).quoted).quoted = (ofText text).quoted ∧
      (ofText text == ofText (ofText text).quoted) = true) ∧
    (∀ (n : Name) (offset : Nat) (rest : List Char),
      (rest.head? ≠ some '"' ↔ Cursor.next ⟨offset, n.quoted.toList ++ rest⟩ =
        (.ok (some (n.token offset)), ⟨(n.token offset).span.stop, rest⟩)) ∧
      (n.token offset).spelling = n.spelling) ∧
    ∀ (c : Cursor) (t : Token), .ok t ∈ c.drain → t.isWord = true →
      t.Spelled ∧ ofToken t = ofText t.text := by
  refine ⟨Quote.unquote_enclose rfl, ofText_quoted, ?_, ?_, ?_⟩
  · intro text
    rw [ofText_quoted]
    exact ⟨rfl, ReflBEq.rfl⟩
  · intro n offset rest
    exact ⟨(next_quoted_iff n offset rest).symm, congrArg spelling (ofToken_quoted n _)⟩
  · intro c t ht hword
    obtain ⟨l, rest, offset, hread, rfl⟩ := Cursor.exists_reads_of_mem_drain ht
    have hspelled := hread.spelled hword offset
    exact ⟨hspelled, hspelled.ofToken_eq⟩

/-- A name of nothing but double quotes in front of a bracket, and a name between backticks with a
    doubled one inside. -/
theorem quotes_undone_of_marks :
    (∃ n rest, n = Name.mk "\"\"" ∧ rest.head? ≠ some '"' ∧
      Cursor.next ⟨7, n.quoted.toList ++ rest⟩ =
        (.ok (some (n.token 7)), ⟨(n.token 7).span.stop, rest⟩)) ∧
    ∃ c t, c = Cursor.start "[a`] -`b``\"`" ∧ t.text = "`b``\"`" ∧ .ok t ∈ c.drain ∧
      t.isWord = true ∧ t.Spelled ∧ ofToken t = ofText t.text := by
  obtain ⟨-, -, -, hquoted, hword⟩ := quotes_undone
  refine ⟨⟨⟨"\"\""⟩, ['['], rfl, by decide, (hquoted _ _ _).1.1 (by decide)⟩, ?_⟩
  -- Kinds and texts can be computed and compared; tokens are looked up by them.
  have hdrain : (Cursor.start "[a`] -`b``\"`").drain.map (fun a => a.toOption.map fun t =>
      (t.kind, t.text)) = [some (.quotedName, "[a`]"), some (.verbatim, "-"),
        some (.quotedName, "`b``\"`")] := by
    decide +kernel
  obtain ⟨a, ha, hlast⟩ : ∃ a ∈ (Cursor.start "[a`] -`b``\"`").drain,
      (a.toOption.map fun t => (t.kind, t.text)) = some (.quotedName, "`b``\"`") := by
    apply List.mem_map.1
    rw [hdrain]
    simp
  cases a with
  | error e => exact absurd hlast (by simp [Except.toOption])
  | ok t =>
    simp only [Except.toOption, Option.map_some, Option.some.injEq, Prod.mk.injEq] at hlast
    have hisWord : t.isWord = true := by
      rw [Token.isWord, hlast.1]
      rfl
    exact ⟨_, t, rfl, hlast.2, ha, hisWord, hword _ t ha hisWord⟩

end Name
end TableRebuild
