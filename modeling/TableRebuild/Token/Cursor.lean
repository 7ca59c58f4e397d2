import TableRebuild.Token.Placed

/-!
# Reading token by token

`tokenize` answers with all tokens or with an error. A reader who wants the tokens before an error
as well, or only the first few, holds a cursor and asks for the next one.

An error is about the rest of the text, so the cursor is at the end after it, and at the end there
is nothing more to read: `drain` asks until that is the answer, and always gets there.
-/

namespace TableRebuild

/-- A place in a text: how many bytes are before it, and the characters after it. -/
structure Cursor where
  offset : Nat
  rest : List Char
deriving DecidableEq, Repr

namespace Cursor

def start (text : String) : Cursor := ⟨0, text.toList⟩

def advance (c : Cursor) (passed rest : List Char) : Cursor :=
  ⟨c.offset + Text.byteLength passed, rest⟩

/-- The next token if there is one, or the error that stands in its place; and where to go on. -/
def next (c : Cursor) : Except LexicalError (Option Token) × Cursor :=
  match Lexeme.scan c.rest with
  | .lexeme l rest => (.ok (some (l.place c.offset)), c.advance l.written rest)
  | .ending e =>
    match e.error? c.offset with
    | some err => (.error err, c.advance e.written [])
    | none => (.ok none, c.advance e.written [])

/-- At the end there is no more. -/
theorem next_of_rest_eq_nil {c : Cursor} (h : c.rest = []) : c.next.1 = .ok none := by
  simp [next, h, Lexeme.scan, Gap.skip, Front.of, Ending.error?]

/-- Every other answer brings the cursor closer to the end. -/
theorem length_rest_next_lt {c : Cursor} (h : c.next.1 ≠ .ok none) :
    c.next.2.rest.length < c.rest.length := by
  have hrest : c.rest ≠ [] := fun h' => h (next_of_rest_eq_nil h')
  unfold next at h ⊢
  split
  · rename_i hs
    exact Lexeme.length_lt_of_scan hs
  · split <;> simpa [advance, List.length_pos_iff] using hrest

/-- The answers from here on, up to the first "no more". -/
def drain (c : Cursor) : List (Except LexicalError Token) :=
  match h : c.next.1 with
  | .ok none => []
  | .ok (some t) =>
    have := length_rest_next_lt (c := c) (by simp [h])
    .ok t :: drain c.next.2
  | .error e =>
    have := length_rest_next_lt (c := c) (by simp [h])
    .error e :: drain c.next.2
termination_by c.rest.length

end Cursor
end TableRebuild
