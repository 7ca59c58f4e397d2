import TableRebuild.Proofs.Token.Excerpt

/-!
# The text under a span

A span is two numbers, and most pairs of numbers are no place in a text. `Span.Marks s text marked`
says that `s` is one: the text falls into three parts, the second is `marked`, and the offsets of
the span are those between the parts. So they are in order, none is past the end, and none is inside
a character.

A token marks its own text. Tokens that follow each other, taken from the first to the last, mark
what is written between, which ends with the text of the last one. What is left open at the end of a
text is marked up to that end. With this, whoever has a span that was made from tokens knows what is
under it.
-/

namespace TableRebuild

/-- The span is a place in the text, and this is the text under it. -/
def Span.Marks (s : Span) (text : String) (marked : List Char) : Prop :=
  ∃ before behind, text.toList = before ++ marked ++ behind ∧
    s = ⟨Text.byteLength before, Text.byteLength (before ++ marked)⟩

/-- What is marked is what the span shows. -/
theorem Span.Marks.textIn {s : Span} {text : String} {marked : List Char}
    (h : s.Marks text marked) : s.textIn text = String.ofList marked := by
  obtain ⟨before, behind, htext, rfl⟩ := h
  rw [Span.textIn, htext, Text.byteLength_append, Text.slice?_middle, Option.getD_some]

theorem Span.marks_point (text : String) :
    (Span.point (Text.byteLength text.toList)).Marks text [] :=
  ⟨text.toList, [], by simp, by simp [Span.point]⟩

namespace Front

variable {cs text rest : List Char} {d : Delimiter}

theorem plain_ne_delimiter (c : Char) (cs : List Char) :
    plain c cs ≠ .token (.delimiter d) text rest := by
  have hword : ∀ s, Kind.ofWord s ≠ .delimiter d := by
    intro s
    unfold Kind.ofWord
    split <;> simp
  unfold plain
  split
  · simp [number]
  · split
    · simp [word, hword]
    · simp [operator]

theorem quoted_ne_delimiter (q : Quote) (start cs : List Char) :
    quoted q start cs ≠ .token (.delimiter d) text rest := by
  unfold quoted
  split
  · split <;> simp
  · simp

/-- The text of a delimiter is its character. -/
theorem text_of_delimiter (h : Front.of cs = .token (.delimiter d) text rest) :
    text = [d.char] := by
  cases cs with
  | nil => exact absurd h (by simp [Front.of])
  | cons c cs =>
    cases hc : Delimiter.ofChar? c with
    | some d' =>
      rw [of_of_delimiter hc] at h
      split at h
      · exact absurd h (by simp [number])
      · simp only [Front.token.injEq, Kind.delimiter.injEq] at h
        obtain ⟨rfl, rfl, -⟩ := h
        rw [Delimiter.ofChar?_eq_some_iff.1 hc]
    | none =>
      cases hq : Quote.ofOpener? c with
      | some q =>
        rw [of_of_opener hc hq] at h
        exact absurd h (quoted_ne_delimiter _ _ _)
      | none =>
        rw [of_of_other hc hq] at h
        split at h
        · exact absurd h (quoted_ne_delimiter _ _ _)
        · exact absurd h (plain_ne_delimiter _ _)

end Front

/-! ## Tokens -/

namespace Lexeme

variable {source : String} {ts sub : List Token} {t : Token}

/-- Tokens that follow each other mark the text from the first to the last. -/
theorem marks_of_spanOf? (h : tokenize source = .ok ts) (hsub : sub <:+: ts) {s : Span}
    (hs : Fragment.spanOf? sub = some s) :
    s.Marks source (Fragment.ofTokens sub source).text.toList := by
  obtain ⟨pre, ls, post, hsource, rfl, -⟩ := exists_of_infix h hsub
  rw [Fragment.toList_text_ofTokens hsource]
  cases ls with
  | nil => exact absurd hs (by simp [placeAll, Fragment.spanOf?])
  | cons l ls =>
    rw [spanOf?_placeAll, Option.some.injEq] at hs
    refine ⟨pre ++ l.gap, post, ?_, ?_⟩
    · rw [hsource]
      simp [withGap, written]
    · rw [← hs]
      simp [withGap, written]

/-- **A token marks its text.** -/
theorem marks_of_mem (h : tokenize source = .ok ts) (ht : t ∈ ts) :
    t.span.Marks source t.text.toList := by
  have hspan : Fragment.spanOf? [t] = some t.span := by simp [Fragment.spanOf?]
  have hmarks := marks_of_spanOf? h ((List.singleton_infix_iff t ts).2 ht) hspan
  rw [Fragment.text_ofTokens_singleton h ht] at hmarks
  exact hmarks

/-- The text of a token that is a delimiter is its character. -/
theorem text_of_isDelimiter {d : Delimiter} (h : tokenize source = .ok ts) (ht : t ∈ ts)
    (hd : t.isDelimiter d = true) : t.text.toList = [d.char] := by
  obtain ⟨pre, ls, post, -, hplace, hall⟩ :=
    exists_of_infix h ((List.singleton_infix_iff t ts).2 ht)
  obtain ⟨l, rfl, rfl⟩ := exists_of_placeAll_eq_singleton hplace.symm
  have hfront := (reads_iff.1 hall.1).2.2
  have hkind : l.kind = .delimiter d := eq_of_beq hd
  rw [hkind] at hfront
  simp [place, Front.text_of_delimiter hfront]

/-- Tokens that follow each other end where the last one does. -/
theorem stop_of_spanOf? (h : tokenize source = .ok ts) (hsub : sub ++ [t] <:+: ts) {s : Span}
    (hs : Fragment.spanOf? (sub ++ [t]) = some s) : s.stop = t.span.stop := by
  obtain ⟨pre, ls, post, -, hplace, -⟩ := exists_of_infix h hsub
  rw [hplace] at hs
  cases ls with
  | nil => exact absurd hs (by simp [placeAll, Fragment.spanOf?])
  | cons l ls =>
    obtain ⟨last, hlast, -, -, hstop⟩ := exists_getLast?_placeAll (Text.byteLength pre) l ls
    rw [← hplace, List.getLast?_concat, Option.some.injEq] at hlast
    rw [spanOf?_placeAll, Option.some.injEq] at hs
    rw [← hs, hlast, hstop]

/-- What is written from the first of some tokens to the last ends with the text of the last. -/
theorem exists_text_ofTokens_concat (h : tokenize source = .ok ts) (hsub : sub ++ [t] <:+: ts) :
    ∃ front, (Fragment.ofTokens (sub ++ [t]) source).text.toList = front ++ t.text.toList := by
  obtain ⟨pre, ls, post, hsource, hplace, -⟩ := exists_of_infix h hsub
  have htext := Fragment.toList_text_ofTokens hsource
  rw [← hplace] at htext
  obtain ⟨as, bs, rfl, -, hlast⟩ := exists_of_placeAll_eq_append hplace.symm
  obtain ⟨l, rfl, rfl⟩ := exists_of_placeAll_eq_singleton hlast.symm
  rw [htext]
  cases as with
  | nil => exact ⟨[], by simp [withGap, written, place]⟩
  | cons a as =>
    exact ⟨a.text ++ as.flatMap written ++ l.gap, by simp [withGap, written, place]⟩

end Lexeme

/-! ## What is left open -/

/-- **An error of a text marks the text from what is left open to the end.** -/
theorem LexicalError.marks {text : String} {e : LexicalError} (h : tokenize text = .error e) :
    e.span.stop = Text.byteLength text.toList ∧ ∃ marked, e.span.Marks text marked := by
  have hwhole := Lexing.whole_of text.toList
  simp only [tokenize] at h
  split at h
  · rename_i e' herror
    obtain rfl := Except.error.inj h
    rw [Lexing.error?] at herror
    rw [Lexing.whole] at hwhole
    cases hending : (Lexing.of text.toList).ending with
    | finished gap =>
      rw [hending] at herror
      exact absurd herror (by simp [Ending.error?])
    | unclosed gap what opened =>
      rw [hending] at herror hwhole
      simp only [Ending.error?, Option.some.injEq] at herror
      set front := (Lexing.of text.toList).lexemes.flatMap Lexeme.written ++ gap with hfront
      have htext : text.toList = front ++ opened ++ [] := by
        rw [← hwhole]
        simp [hfront, Ending.written]
      have hstart : Text.byteLength front = e'.span.start := by
        rw [← herror, hfront, Text.byteLength_append]
      have hstop : Text.byteLength (front ++ opened) = e'.span.stop := by
        rw [← herror, hfront, Text.byteLength_append, Text.byteLength_append]
      refine ⟨?_, opened, front, [], htext, ?_⟩
      · rw [← hstop, htext, List.append_nil]
      · rw [hstart, hstop]
  · exact absurd h (by simp)

end TableRebuild
