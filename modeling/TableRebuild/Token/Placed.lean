import TableRebuild.Token.Lexeme

/-!
# Tokens in their places

Lexemes become tokens when they are laid end to end: a token starts where the bytes before it and
its own gap end, and stops where its own bytes end. So the place of a token is not something that
reading keeps track of; it follows from the pieces.

The one error that a text as such can have is something left open. It is reported from the first
character of what is open to the end of the text, which is as far as it reaches.
-/

namespace TableRebuild

/-- Something that is opened and never closed. -/
structure LexicalError where
  what : Opener
  /-- From its first character to the end of the text. -/
  span : Span
deriving DecidableEq, Repr

namespace Lexeme

/-- The token that the lexeme is when `offset` bytes are before it. -/
def place (offset : Nat) (l : Lexeme) : Token :=
  let start := offset + Text.byteLength l.gap
  ⟨l.kind, String.ofList l.text, ⟨start, start + Text.byteLength l.text⟩⟩

/-- The tokens that the lexemes are when they follow each other behind `offset` bytes. -/
def placeAll (offset : Nat) : List Lexeme → List Token
  | [] => []
  | l :: rest => l.place offset :: placeAll (offset + Text.byteLength l.written) rest

theorem stop_place (offset : Nat) (l : Lexeme) :
    (l.place offset).span.stop = offset + Text.byteLength l.written := by
  simp [place, written, Nat.add_assoc]

theorem placeAll_append (offset : Nat) (as bs : List Lexeme) :
    placeAll offset (as ++ bs) =
      placeAll offset as ++ placeAll (offset + Text.byteLength (as.flatMap written)) bs := by
  induction as generalizing offset with
  | nil => simp [placeAll]
  | cons l as ih => simp [placeAll, ih, Nat.add_assoc]

/-- Where lexemes are put makes no difference but to the places. -/
theorem placeAll_add (n offset : Nat) (ls : List Lexeme) :
    placeAll (n + offset) ls = (placeAll offset ls).map (Token.shift n) := by
  induction ls generalizing offset with
  | nil => rfl
  | cons l ls ih =>
    simp [placeAll, place, Token.shift, Span.shift, Nat.add_assoc, ih]

end Lexeme

namespace Ending

/-- The error that the ending is when `offset` bytes are before it. -/
def error? (offset : Nat) : Ending → Option LexicalError
  | finished _ => none
  | unclosed gap what text =>
    let start := offset + Text.byteLength gap
    some ⟨what, ⟨start, start + Text.byteLength text⟩⟩

end Ending

namespace Lexing

def tokens (l : Lexing) : List Token := Lexeme.placeAll 0 l.lexemes

def error? (l : Lexing) : Option LexicalError :=
  l.ending.error? (Text.byteLength (l.lexemes.flatMap Lexeme.written))

end Lexing

/-- All tokens of a text, or what is left open in it. -/
def tokenize (text : String) : Except LexicalError (List Token) :=
  let lexing := Lexing.of text.toList
  match lexing.error? with
  | some e => .error e
  | none => .ok lexing.tokens

end TableRebuild
