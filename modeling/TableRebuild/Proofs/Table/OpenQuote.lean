import TableRebuild.Proofs.Table.Refusal
import TableRebuild.Proofs.Token.Enclosed
import TableRebuild.Proofs.Token.Unclosed

/-!
# Where a quote was left open

The error about a quote that is never closed names the opening mark and has a span that reaches to
the end of the text. One would look for the mark where the span begins. This file says where it is
(`Table.exists_showsOpen`): there, or one character on. The span begins with the token, and the
token of a blob begins with a letter, `x`, that stands in front of the mark. So the reader who looks
at the beginning of the span finds the mark in every text but one that ends in an open blob, and
there finds the letter (`Table.not_forall_showsOpen_opener`).

What is behind the mark is in any case a text that does not close the quote.
-/

namespace TableRebuild
namespace Span

variable {s : Span} {text : String} {q : Quote}

/-- The span reaches to the end of the text and shows the characters `start`, and then the inside of
    a quote that is not closed. -/
def ShowsOpen (s : Span) (text : String) (q : Quote) (start : List Char) : Prop :=
  s.stop = Text.byteLength text.toList ∧
    ∃ inside, s.Marks text (start ++ inside) ∧ ¬q.Closes inside

/-- There is one text under a span. -/
theorem Marks.unique {marked marked' : List Char} (h : s.Marks text marked)
    (h' : s.Marks text marked') : marked = marked' := by
  rw [← String.ofList_inj, ← h.textIn, ← h'.textIn]

theorem showsOpen_of_cut {before start inside : List Char}
    (htext : text.toList = before ++ (start ++ inside)) (hopen : ¬q.Closes inside) :
    ShowsOpen ⟨Text.byteLength before, Text.byteLength text.toList⟩ text q start :=
  ⟨rfl, inside, ⟨before, [], by simp [htext], by simp [htext]⟩, hopen⟩

/-- The first character under a span is not a letter and a mark at once. -/
theorem ShowsOpen.eq_nil_of_leads {lead : List Char} (hlead : q.Leads lead)
    (h : s.ShowsOpen text q (lead ++ [q.opener])) (h' : s.ShowsOpen text q [q.opener]) :
    lead = [] := by
  obtain ⟨-, inside, hmarks, -⟩ := h
  obtain ⟨-, inside', hmarks', -⟩ := h'
  have hsame := hmarks.unique hmarks'
  cases hlead with
  | nothing => rfl
  | @blob c hc =>
    -- Then the letter would be the mark.
    obtain rfl : c = Quote.single.opener := (List.cons.inj hsame).1
    exact absurd hc (by decide)

end Span

/-- An error about a quote is at an opening mark, or at what leads it. -/
theorem LexicalError.exists_leads {text : String} {q : Quote} {s : Span}
    (h : tokenize text = .error ⟨.quote q, s⟩) : ∃ lead, q.Leads lead ∧
      s.ShowsOpen text q (lead ++ [q.opener]) ∧
      Span.ShowsOpen ⟨s.start + Text.byteLength lead, s.stop⟩ text q [q.opener] := by
  obtain ⟨ls, gap, opened, htext, -, -, hscan, hspan⟩ := Lexing.exists_of_tokenize_error h
  obtain ⟨lead, inside, rfl, hlead, hclose⟩ :=
    Front.exists_of_openQuote (Lexeme.of_scan_openQuote hscan).2
  have hopen := Quote.closing_eq_none_iff.1 hclose
  obtain rfl : s = _ := hspan
  refine ⟨lead, hlead, Span.showsOpen_of_cut ?_ hopen, ?_⟩
  · simpa using htext
  · rw [← Text.byteLength_append]
    exact Span.showsOpen_of_cut (by simpa using htext) hopen

namespace Table

variable {text : String} {q : Quote} {s : Span}

/-- A text that does not fall into tokens is no table, for the same reason. -/
theorem parse_eq_lexical_iff {e : LexicalError} :
    parse text = .error (.lexical e) ↔ tokenize text = .error e := by
  constructor
  · intro h
    rcases Except.bind_eq_error_iff.1 h with houtline | ⟨o, houtline, htable⟩
    · rcases Except.bind_eq_error_iff.1 houtline with htokens | ⟨ts, htokens, hread⟩
      · obtain ⟨error, herror, he⟩ := Except.mapError_eq_error_iff.1 htokens
        rw [herror, DefinitionError.lexical.inj he]
      · -- Behind the tokens nothing else is lexical.
        nomatch Outline.refused_of_read hread
    · obtain ⟨ts, hts, ho⟩ := Outline.ofText_eq_ok_iff.1 houtline
      obtain ⟨marked, -, hreports⟩ := reports_of_ofOutline hts ho htable
      cases hreports
      assumption
  · intro h
    simp [parse, Outline.ofText, h, Except.mapError, bind, Except.bind]

/-- **A quote that is left open is where its error is, but for what leads it.** The error that a
    text has when it is taken into tokens is the error it has when it is read as a table. It reaches
    to the end, and the quote that it names begins where it does, or one letter on. Behind the mark
    the quote is not closed. -/
theorem exists_showsOpen
    (h : tokenize text = .error ⟨.quote q, s⟩ ∨ parse text = .error (.lexical ⟨.quote q, s⟩)) :
    tokenize text = .error ⟨.quote q, s⟩ ∧ parse text = .error (.lexical ⟨.quote q, s⟩) ∧
    ∃ lead, q.Leads lead ∧ s.ShowsOpen text q (lead ++ [q.opener]) ∧
      Span.ShowsOpen ⟨s.start + Text.byteLength lead, s.stop⟩ text q [q.opener] ∧
      (s.ShowsOpen text q [q.opener] ↔ lead = []) := by
  rw [parse_eq_lexical_iff, or_self] at h
  obtain ⟨lead, hlead, hshows, hopener⟩ := LexicalError.exists_leads h
  refine ⟨h, parse_eq_lexical_iff.2 h, lead, hlead, hshows, hopener, ?_⟩
  constructor
  · exact hshows.eq_nil_of_leads hlead
  · rintro rfl
    exact hshows

/-- A name in brackets that has a bracket in it, and a blob that ends in a doubled mark. -/
theorem exists_showsOpen_of_blob :
    (∃ text, text = "CREATE TABLE é ( [[ü" ∧
      parse text = .error (.lexical ⟨.quote .bracket, ⟨18, 22⟩⟩) ∧ ∃ lead,
        Quote.bracket.Leads lead ∧ Span.ShowsOpen ⟨18, 22⟩ text .bracket (lead ++ ['['])) ∧
    ∃ text, text = "é x'0''" ∧ tokenize text = .error ⟨.quote .single, ⟨3, 8⟩⟩ ∧ ∃ lead,
      Quote.single.Leads lead ∧ Span.ShowsOpen ⟨3, 8⟩ text .single (lead ++ ['\'']) := by
  have hbracket : tokenize "CREATE TABLE é ( [[ü" = .error ⟨.quote .bracket, ⟨18, 22⟩⟩ :=
    tokenize_eq_error (by decide +kernel)
  have hblob : tokenize "é x'0''" = .error ⟨.quote .single, ⟨3, 8⟩⟩ :=
    tokenize_eq_error (by decide +kernel)
  obtain ⟨-, hparse, lead, hlead, hshows, -⟩ := exists_showsOpen (.inl hbracket)
  obtain ⟨-, -, lead', hlead', hshows', -⟩ :=
    exists_showsOpen (.inr (parse_eq_lexical_iff.2 hblob))
  exact ⟨⟨_, rfl, hparse, lead, hlead, hshows⟩, ⟨_, rfl, hblob, lead', hlead', hshows'⟩⟩

/-- **The mark is not always where the error begins**: an open blob is reported from its letter. -/
theorem not_forall_showsOpen_opener : ¬∀ (text : String) (q : Quote) (s : Span),
    tokenize text = .error ⟨.quote q, s⟩ ∨ parse text = .error (.lexical ⟨.quote q, s⟩) →
      s.ShowsOpen text q [q.opener] := by
  intro h
  have hblob : tokenize "x'00" = .error ⟨.quote .single, ⟨0, 4⟩⟩ :=
    tokenize_eq_error (by decide +kernel)
  obtain ⟨-, inside, hmarks, -⟩ := h _ _ _ (.inl hblob)
  have hunder : Span.Marks ⟨0, 4⟩ "x'00" "x'00".toList := ⟨[], [], by simp, by decide +kernel⟩
  exact absurd (List.cons.inj (hunder.unique hmarks)).1 (by decide)

end Table
end TableRebuild
