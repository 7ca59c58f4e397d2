import TableRebuild.Token.Basic
import TableRebuild.Token.Gap

/-!
# Lexemes

How a text falls into tokens, said without places. A text is a sequence of lexemes, each a gap
followed by the characters of one token, and then an ending: either a last gap, or something that
was opened and not closed. Nothing else can go wrong, because every character begins a token of
some kind.

`scan` takes the first lexeme off a text and `Lexing.of` takes them all. Both give back pieces of
the text and only pieces of it (`Lexing.whole_of`): put together again they are the text. Places
are then nothing but running lengths, and are added in `TableRebuild.Token.Placed`.

What a token is, is decided by its first character, with one more in two cases: a point before a
digit begins a number, and an `x` before a quote begins a blob.
-/

namespace TableRebuild

/-- What may be opened and left open. -/
inductive Opener where
  | quote (q : Quote)
  | comment
deriving DecidableEq, Repr

/-! ## The parts of tokens -/

namespace Lexeme

def isNumberChar (c : Char) : Bool :=
  c.isAlphanum || c == '.' || c == '_'

def isExponentMark (c : Char) : Bool :=
  c == 'e' || c == 'E'

def isSign (c : Char) : Bool :=
  c == '+' || c == '-'

/-- A character that continues a run of operator characters: one that could not belong to a word
    and does not begin a token or a gap of another kind. A comment mark inside a run is part of
    the run. -/
def isOperatorChar (c : Char) : Bool :=
  !(Text.isBlank c || Text.isWordChar c || (Delimiter.ofChar? c).isSome ||
    (Quote.ofOpener? c).isSome)

/-- The rest of a number, and what follows it. A sign belongs to the number only directly behind an
    exponent mark, which `afterMark` says. -/
def numberTail (afterMark : Bool) : List Char → List Char × List Char
  | [] => ([], [])
  | c :: rest =>
    if isNumberChar c || (afterMark && isSign c) then
      let (tail, after) := numberTail (isExponentMark c) rest
      (c :: tail, after)
    else ([], c :: rest)

theorem numberTail_append (afterMark : Bool) (cs : List Char) :
    (numberTail afterMark cs).1 ++ (numberTail afterMark cs).2 = cs := by
  fun_induction numberTail afterMark cs with
  | case1 => rfl
  | case2 _ _ _ _ _ _ h ih => simpa [h] using ih
  | case3 => rfl

end Lexeme

/-! ## One token -/

inductive Front where
  | ended
  | token (kind : Kind) (text rest : List Char)
  /-- A quote that is never closed, from its first character to the end. -/
  | openQuote (q : Quote) (text : List Char)
deriving Repr

namespace Front

open Lexeme

/-- A quoted token, of which `start` is what stands before the quoted text. -/
def quoted (q : Quote) (start rest : List Char) : Front :=
  match q.closing rest with
  | some (inside, after) =>
    .token (if q.quotesName then .quotedName else .verbatim) (start ++ inside) after
  | none => .openQuote q (start ++ rest)

def number (c : Char) (rest : List Char) : Front :=
  let (tail, after) := numberTail false rest
  .token .verbatim (c :: tail) after

def word (c : Char) (rest : List Char) : Front :=
  let text := c :: rest.takeWhile Text.isWordChar
  .token (Kind.ofWord (String.ofList text)) text (rest.dropWhile Text.isWordChar)

def operator (c : Char) (rest : List Char) : Front :=
  .token .verbatim (c :: rest.takeWhile isOperatorChar) (rest.dropWhile isOperatorChar)

/-- Reads the token at the front of a text that does not begin with a gap. -/
def of : List Char → Front
  | [] => .ended
  | c :: rest =>
    match Delimiter.ofChar? c, Quote.ofOpener? c with
    | some d, _ =>
      if d = .dot ∧ rest.head?.any Char.isDigit then number c rest
      else .token (.delimiter d) [c] rest
    | none, some q => quoted q [c] rest
    | none, none =>
      if (c == 'x' || c == 'X') && rest.head? == some Quote.single.opener then
        quoted .single [c, Quote.single.opener] rest.tail
      else if c.isDigit then number c rest
      else if Text.isWordStart c then word c rest
      else operator c rest

def whole : Front → List Char
  | ended => []
  | token _ text rest => text ++ rest
  | openQuote _ text => text

theorem whole_quoted (q : Quote) (start rest : List Char) :
    (quoted q start rest).whole = start ++ rest := by
  unfold quoted
  split
  · rename_i h
    simp [whole, (Quote.closing_eq_some h).1]
  · rfl

theorem whole_number (c : Char) (rest : List Char) : (number c rest).whole = c :: rest := by
  simp [number, whole, numberTail_append]

/-- Reading loses nothing. -/
theorem whole_of (cs : List Char) : (of cs).whole = cs := by
  cases cs with
  | nil => rfl
  | cons c rest =>
    rw [of]
    split
    · split
      · exact whole_number c rest
      · rfl
    · exact whole_quoted _ _ _
    · split
      · rename_i h
        rw [whole_quoted]
        cases rest with
        | nil => simp at h
        | cons d rest => simp at h; simp [h.2]
      · split
        · exact whole_number c rest
        · split <;> simp [word, operator, whole]

theorem text_ne_nil_of_eq {cs text rest : List Char} {kind : Kind}
    (h : of cs = .token kind text rest) : text ≠ [] := by
  have hquoted : ∀ q start cs', start ≠ [] → quoted q start cs' = .token kind text rest →
      text ≠ [] := by
    intro q start cs' hs hq
    unfold quoted at hq
    split at hq <;> simp at hq
    simp [← hq.2.1, hs]
  cases cs with
  | nil => simp [of] at h
  | cons c cs =>
    rw [of] at h
    split at h
    · split at h <;> simp [number] at h <;> simp [← h.2.1]
    · exact hquoted _ _ _ (by simp) h
    · split at h
      · exact hquoted _ _ _ (by simp) h
      · split at h
        · simp [number] at h; simp [← h.2.1]
        · split at h <;> simp [word, operator] at h <;> simp [← h.2.1]

end Front

/-! ## All tokens -/

/-- A token without its place, and the gap before it. -/
structure Lexeme where
  gap : List Char
  kind : Kind
  text : List Char
deriving DecidableEq, Repr

/-- What comes after the last lexeme of a text. -/
inductive Ending where
  | finished (gap : List Char)
  /-- A gap, and then something that was opened and not closed, to the end of the text. -/
  | unclosed (gap : List Char) (what : Opener) (text : List Char)
deriving DecidableEq, Repr

namespace Ending

def written : Ending → List Char
  | finished gap => gap
  | unclosed gap _ text => gap ++ text

end Ending

namespace Lexeme

def written (l : Lexeme) : List Char := l.gap ++ l.text

inductive Scanned where
  | lexeme (l : Lexeme) (rest : List Char)
  | ending (e : Ending)
deriving Repr

/-- Takes the first lexeme off a text. -/
def scan (cs : List Char) : Scanned :=
  match Gap.skip cs with
  | .openComment gap comment => .ending (.unclosed gap .comment comment)
  | .upTo gap rest =>
    match Front.of rest with
    | .ended => .ending (.finished gap)
    | .token kind text rest => .lexeme ⟨gap, kind, text⟩ rest
    | .openQuote q text => .ending (.unclosed gap (.quote q) text)

theorem scan_eq_lexeme {cs rest : List Char} {l : Lexeme} (h : scan cs = .lexeme l rest) :
    cs = l.written ++ rest ∧ l.text ≠ [] := by
  have hskip := Gap.whole_skip cs
  unfold scan at h
  split at h
  · simp at h
  · rename_i gap ahead hg
    rw [hg] at hskip
    have hfront := Front.whole_of ahead
    split at h <;> simp at h
    rename_i kind text after hf
    rw [hf] at hfront
    obtain ⟨rfl, rfl⟩ := h
    refine ⟨?_, Front.text_ne_nil_of_eq hf⟩
    rw [← hskip, Skipped.whole, ← hfront]
    simp [written, Front.whole]

theorem scan_eq_ending {cs : List Char} {e : Ending} (h : scan cs = .ending e) :
    cs = e.written := by
  have hskip := Gap.whole_skip cs
  unfold scan at h
  split at h
  · rename_i hg
    simp at h
    rw [hg] at hskip
    rw [← hskip, ← h, Skipped.whole, Ending.written]
  · rename_i gap ahead hg
    rw [hg] at hskip
    have hfront := Front.whole_of ahead
    split at h <;> simp at h <;> rename_i hf <;> rw [hf] at hfront <;>
      rw [← hskip, ← h, Skipped.whole, ← hfront] <;> simp [Front.whole, Ending.written]

theorem length_lt_of_scan {cs rest : List Char} {l : Lexeme} (h : scan cs = .lexeme l rest) :
    rest.length < cs.length := by
  obtain ⟨hcs, ht⟩ := scan_eq_lexeme h
  have : 0 < l.text.length := List.length_pos_iff.2 ht
  simp [hcs, written]
  omega

end Lexeme

structure Lexing where
  lexemes : List Lexeme
  ending : Ending
deriving DecidableEq, Repr

namespace Lexing

def cons (l : Lexeme) (rest : Lexing) : Lexing := { rest with lexemes := l :: rest.lexemes }

def of (cs : List Char) : Lexing :=
  match h : Lexeme.scan cs with
  | .lexeme l rest =>
    have := Lexeme.length_lt_of_scan h
    cons l (of rest)
  | .ending e => ⟨[], e⟩
termination_by cs.length

def whole (l : Lexing) : List Char :=
  l.lexemes.flatMap Lexeme.written ++ l.ending.written

/-- Taking a text apart loses nothing. -/
theorem whole_of (cs : List Char) : (of cs).whole = cs := by
  fun_induction of cs with
  | case1 cs l rest h _ ih =>
    rw [(Lexeme.scan_eq_lexeme h).1]
    simp only [whole, cons, List.flatMap_cons] at ih ⊢
    rw [List.append_assoc, ih]
  | case2 cs e h =>
    rw [Lexeme.scan_eq_ending h]
    simp [whole]

end Lexing
end TableRebuild
