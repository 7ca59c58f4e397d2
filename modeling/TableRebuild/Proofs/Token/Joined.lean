import TableRebuild.Proofs.Token.Tiling
import TableRebuild.Proofs.Token.Wording

/-!
# Texts that are joined by a line break

Two statements in a file stand one below the other, and each is read as if the other were not there.
That is not so of texts in general: a token looks at the character behind it, and a line comment
goes on to the end of its line. A line break is a character that every token stops at and every line
comment ends with, so whatever is unfinished at the end of the first text is finished by it
(`Gap.Filler.closed_newline`), and what is left of it is a gap in front of the second.

`wording` has laws for putting lexemes and gaps in front of a text, and it knows nothing of places.
`Lexing.placed` has the same two laws with places, which are only moved. They give the tokens of the
joined text, and the error too where the second text has one (`tokenize_newline`).
-/

namespace TableRebuild

/-- The same error in a text that has `n` bytes put before it. -/
def LexicalError.shift (n : Nat) (e : LexicalError) : LexicalError :=
  { e with span := e.span.shift n }

theorem Ending.error?_add (n offset : Nat) (e : Ending) :
    e.error? (n + offset) = (e.error? offset).map (LexicalError.shift n) := by
  cases e with
  | finished gap => rfl
  | unclosed gap what text =>
    simp [error?, LexicalError.shift, Span.shift, Nat.add_assoc]

/-! ## A lexing in its place -/

namespace Lexing

open Lexeme

/-- What the lexing is when `offset` bytes are before it: its tokens, or what is left open in it. -/
def placed (offset : Nat) (l : Lexing) : Except LexicalError (List Token) :=
  match l.ending.error? (offset + Text.byteLength (l.lexemes.flatMap written)) with
  | some e => .error e
  | none => .ok (placeAll offset l.lexemes)

theorem placed_zero_of_toList (text : String) : (of text.toList).placed 0 = tokenize text := by
  rw [placed, Nat.zero_add]
  rfl

/-- Where a lexing is put makes no difference but to the places. -/
theorem placed_add (n offset : Nat) (l : Lexing) :
    l.placed (n + offset) = match l.placed offset with
      | .ok ts => .ok (ts.map (Token.shift n))
      | .error e => .error (e.shift n) := by
  unfold placed
  rw [Nat.add_assoc, Ending.error?_add, placeAll_add]
  cases l.ending.error? (offset + Text.byteLength (l.lexemes.flatMap written)) <;> rfl

/-- Lexemes that are read as they are give their tokens, and then the rest gives what it gives
    behind them. -/
theorem placed_append {ls : List Lexeme} {rest : List Char} (h : AllRead ls rest) (offset : Nat) :
    (of (ls.flatMap written ++ rest)).placed offset =
      ((of rest).placed (offset + Text.byteLength (ls.flatMap written))).map
        (placeAll offset ls ++ ·) := by
  rw [of_append h]
  simp only [placed, List.flatMap_append, Text.byteLength_append, Nat.add_assoc, placeAll_append]
  cases (of rest).ending.error? _ <;> rfl

/-- A closed gap in front moves what is behind it. -/
theorem placed_gap {gap : List Char} (h : Gap.Closed gap) (cs : List Char) (offset : Nat) :
    (of (gap ++ cs)).placed offset = (of cs).placed (offset + Text.byteLength gap) := by
  rw [of_gap_append h]
  obtain ⟨ls, e⟩ := of cs
  cases ls with
  | nil =>
    cases e with
    | finished gap' => rfl
    | unclosed gap' what text => simp [after, placed, Ending.error?, Nat.add_assoc]
  | cons l ls => simp [after, placed, placeAll, place, written, Nat.add_assoc]

theorem placed_of_nil (offset : Nat) : (of []).placed offset = .ok [] := by
  rw [of_nil]
  rfl

end Lexing

/-! ## The line break -/

/-- A line break ends every gap, and the comment at the end of it. -/
theorem Gap.Filler.closed_newline {atEnd : Bool} {gap : List Char} (h : Filler atEnd gap) :
    Closed (gap ++ ['\n']) := by
  induction h with
  | nil => exact .blank rfl .nil
  | blank hc _ ih => exact .blank hc ih
  | @line body gap hbody _ ih =>
    cases ih with
    | blank _ hgap => simpa using Closed.line hbody hgap
  | @block body gap hbody _ ih =>
    simpa using Closed.block (commentEnd_of_notInfix hbody) ih
  | lastLine _ hbody => exact .line hbody .nil

/-- **Texts one below the other are read one after the other.** The first has its tokens, whatever
    comes on the next line, and the second has its tokens or its error, whatever was above: only the
    places are counted from the beginning of the first. -/
theorem tokenize_newline {a : String} {ts : List Token} (h : tokenize a = .ok ts) (b : String) :
    tokenize (a ++ "\n" ++ b) = match tokenize b with
      | .ok us => .ok (ts ++ us.map (Token.shift (Text.byteLength a.toList + 1)))
      | .error e => .error (e.shift (Text.byteLength a.toList + 1)) := by
  obtain ⟨ls, gap, ha, hall, hfill, rfl⟩ := Lexing.exists_of_tokenize h
  have hbreak : Lexeme.AllRead ls (gap ++ ['\n'] ++ b.toList) := by
    apply hall.of_sameEdge
    cases gap with
    | nil => exact .cons (by simp [breaks]) _ _
    | cons c gap => exact .inl rfl
  have hlength : Text.byteLength (ls.flatMap Lexeme.written) + Text.byteLength (gap ++ ['\n']) =
      Text.byteLength a.toList + 1 := by
    rw [ha, Text.byteLength_append, Text.byteLength_append, Nat.add_assoc]
    rfl
  have hchars : (a ++ "\n" ++ b).toList =
      ls.flatMap Lexeme.written ++ (gap ++ ['\n'] ++ b.toList) := by
    simp [ha]
  rw [← Lexing.placed_zero_of_toList, hchars, Lexing.placed_append hbreak,
    Lexing.placed_gap hfill.closed_newline, Nat.zero_add, hlength, ← Nat.add_zero (_ + 1),
    Lexing.placed_add, Lexing.placed_zero_of_toList]
  cases tokenize b <;> rfl

/-- A number that waits for its sign and a comment that waits for the end of its line: the line
    break ends both. -/
theorem tokenize_newline_of_open_line : ∃ a ts,
    a = "1e --é" ∧ tokenize a = .ok ts ∧
      ∀ b, tokenize (a ++ "\n" ++ b) = match tokenize b with
        | .ok us => .ok (ts ++ us.map (Token.shift (Text.byteLength a.toList + 1)))
        | .error e => .error (e.shift (Text.byteLength a.toList + 1)) := by
  refine ⟨"1e --é", ?_⟩
  generalize ha : "1e --é" = a
  have hok : (tokenize a).isOk = true := by
    rw [← ha]
    decide +kernel
  cases htokens : tokenize a with
  | error e =>
    rw [htokens] at hok
    exact absurd hok Bool.false_ne_true
  | ok ts => exact ⟨ts, rfl, rfl, tokenize_newline htokens⟩

end TableRebuild
