import Mathlib.Tactic.SplitIfs
import TableRebuild.Proofs.Indexed.Run
import TableRebuild.Token.Cursor

/-!
# Tokens by position

`tokenize` takes lexemes off the front of a text. Here a text stays as it is and a position moves
over it: every look at a character slices the text from the position on, and every token is a slice
between two positions. A slice that begins or ends inside a character is a trap.

There is none. `At cs pos rest` says that a position is between two characters and what follows it,
and this is what every step keeps (`At.append`): a position moves by the characters that have been
looked at and by nothing else. Each loop is then described by what its reader takes off the front,
and `tokenize_eq` puts them together.
-/

namespace TableRebuild
namespace Indexed
namespace Lexer

open Lexeme
open Text (byteLength)

/-! ## The reader -/

section

variable (cs : List Char)

def peek (pos : Nat) : Run LexicalError (Option Char) := do
  return (← textFrom cs pos).head?

def peekNext (pos : Nat) : Run LexicalError (Option Char) := do
  return (← textFrom cs pos).tail.head?

/-- The character here and the position behind it. At the end the position stays. -/
def advance (pos : Nat) : Run LexicalError (Option Char × Nat) := do
  match ← peek cs pos with
  | some c => return (some c, pos + c.utf8Size)
  | none => return (none, pos)

/-- The bytes from the position on. Every step of a loop makes them fewer. -/
def left (pos : Nat) : Nat := byteLength cs - pos

def advanceWhile (test : Char → Bool) : Nat → Run LexicalError Nat :=
  loop (left cs) fun pos => do
    if (← peek cs pos).any test then
      let (_, next) ← advance cs pos
      return .inl next
    else return .inr pos

/-- From behind the mark that opens a comment at `start` to behind the mark that closes it. -/
def commentEnd (start : Nat) : Nat → Run LexicalError Nat :=
  loop (left cs) fun pos => do
    let (c, next) ← advance cs pos
    match c with
    | none => refuse ⟨.comment, ⟨start, next⟩⟩
    | some c =>
      let d ← peek cs next
      if c = '*' ∧ d = some '/' then
        let (_, behind) ← advance cs next
        return .inr behind
      else return .inl next

def skipGap : Nat → Run LexicalError Nat :=
  loop (left cs) fun pos => do
    let pos ← advanceWhile cs Text.isBlank pos
    let c ← peek cs pos
    let d ← peekNext cs pos
    if c = some '-' ∧ d = some '-' then
      return .inl (← advanceWhile cs (· != '\n') pos)
    else if c = some '/' ∧ d = some '*' then
      let (_, next) ← advance cs pos
      let (_, next) ← advance cs next
      return .inl (← commentEnd cs pos next)
    else return .inr pos

/-- From behind the mark that opens a quoted token at `start` to behind the one that closes it. -/
def quotedEnd (q : Quote) (start : Nat) : Nat → Run LexicalError Nat :=
  loop (left cs) fun pos => do
    let (c, next) ← advance cs pos
    match c with
    | none => refuse ⟨.quote q, ⟨start, next⟩⟩
    | some c =>
      let d ← peek cs next
      if c = q.closer then
        if q.doubles ∧ d = some q.closer then
          let (_, behind) ← advance cs next
          return .inl behind
        else return .inr next
      else return .inl next

def numberEnd : Nat → Run LexicalError Nat :=
  loop (left cs) fun pos => do
    let c ← peek cs pos
    if c.any isNumberChar then
      let (_, next) ← advance cs pos
      let d ← peek cs next
      if c.any isExponentMark ∧ d.any isSign then
        let (_, behind) ← advance cs next
        return .inl behind
      else return .inl next
    else return .inr pos

def quoted (q : Quote) (start pos : Nat) : Run LexicalError (Option Kind × Nat) := do
  return (some (if q.quotesName then .quotedName else .verbatim), ← quotedEnd cs q start pos)

def number (pos : Nat) : Run LexicalError (Option Kind × Nat) := do
  return (some .verbatim, ← numberEnd cs pos)

def word (start pos : Nat) : Run LexicalError (Option Kind × Nat) := do
  let stop ← advanceWhile cs Text.isWordChar pos
  let text ← textBetween cs start stop
  return (some (.ofWord (String.ofList text)), stop)

def operator (pos : Nat) : Run LexicalError (Option Kind × Nat) := do
  return (some .verbatim, ← advanceWhile cs isOperatorChar pos)

/-- The kind of the token here, if there is one, and the position behind it. -/
def front (start : Nat) : Run LexicalError (Option Kind × Nat) := do
  let (c, pos) ← advance cs start
  match c with
  | none => return (none, pos)
  | some c =>
    let d ← peek cs pos
    match Delimiter.ofChar? c, Quote.ofOpener? c with
    | some delimiter, _ =>
      if delimiter = .dot ∧ d.any Char.isDigit then number cs pos
      else return (some (.delimiter delimiter), pos)
    | none, some q => quoted cs q start pos
    | none, none =>
      if (c == 'x' || c == 'X') && d == some Quote.single.opener then
        let (_, pos) ← advance cs pos
        quoted cs .single start pos
      else if c.isDigit then number cs pos
      else if Text.isWordStart c then word cs start pos
      else operator cs pos

def nextToken (pos : Nat) : Run LexicalError (Option Token × Nat) := do
  let start ← skipGap cs pos
  let (kind, stop) ← front cs start
  match kind with
  | none => return (none, stop)
  | some kind =>
    let text ← textBetween cs start stop
    return (some ⟨kind, String.ofList text, ⟨start, stop⟩⟩, stop)

def tokensFrom : Nat × List Token → Run LexicalError (List Token) :=
  loop (fun s => left cs s.1) fun (pos, tokens) => do
    let (token, next) ← nextToken cs pos
    match token with
    | some t => return .inl (next, tokens ++ [t])
    | none => return .inr tokens

def tokenize : Run LexicalError (List Token) := tokensFrom cs (0, [])

end

/-! ## Positions -/

/-- The position is between two characters of the text, and `rest` is what follows it. -/
def At (cs : List Char) (pos : Nat) (rest : List Char) : Prop :=
  ∃ front, cs = front ++ rest ∧ pos = byteLength front

variable {cs rest : List Char} {pos : Nat}

theorem at_start (cs : List Char) : At cs 0 cs := ⟨[], rfl, rfl⟩

/-- **A position moves over whole characters.** -/
theorem At.append {passed : List Char} (h : At cs pos (passed ++ rest)) :
    At cs (pos + byteLength passed) rest := by
  obtain ⟨front, rfl, rfl⟩ := h
  exact ⟨front ++ passed, by simp, by simp⟩

theorem At.cons {c : Char} (h : At cs pos (c :: rest)) : At cs (pos + c.utf8Size) rest :=
  @At.append _ _ _ [c] h

theorem At.left_eq (h : At cs pos rest) : left cs pos = byteLength rest := by
  obtain ⟨front, rfl, rfl⟩ := h
  simp [left]

theorem At.end_eq (h : At cs pos rest) : byteLength cs = pos + byteLength rest := by
  obtain ⟨front, rfl, rfl⟩ := h
  simp

theorem At.textFrom_eq (h : At cs pos rest) :
    (textFrom cs pos : Run LexicalError (List Char)) = .ok rest := by
  obtain ⟨front, rfl, rfl⟩ := h
  exact textFrom_append front rest

theorem At.textBetween_eq {passed : List Char} (h : At cs pos (passed ++ rest)) :
    (textBetween cs pos (pos + byteLength passed) : Run LexicalError (List Char)) = .ok passed := by
  obtain ⟨front, rfl, rfl⟩ := h
  rw [← Text.byteLength_append, ← List.append_assoc]
  exact textBetween_append front passed rest

theorem At.peek_eq (h : At cs pos rest) : peek cs pos = .ok rest.head? := by
  rw [peek, h.textFrom_eq]
  rfl

theorem At.peekNext_eq (h : At cs pos rest) : peekNext cs pos = .ok rest.tail.head? := by
  rw [peekNext, h.textFrom_eq]
  rfl

theorem At.advance_eq {c : Char} (h : At cs pos (c :: rest)) :
    advance cs pos = .ok (some c, pos + c.utf8Size) := by
  rw [advance, h.peek_eq]
  rfl

theorem At.advance_end (h : At cs pos []) : advance cs pos = .ok (none, pos) := by
  rw [advance, h.peek_eq]
  rfl

/-- A step of a loop that passes some characters makes what is left less. -/
theorem At.left_lt {passed : List Char} (h : At cs pos (passed ++ rest)) (hne : passed ≠ []) :
    left cs (pos + byteLength passed) < left cs pos := by
  rw [h.append.left_eq, h.left_eq, Text.byteLength_append]
  obtain ⟨c, more, rfl⟩ := List.exists_cons_of_ne_nil hne
  have := c.utf8Size_pos
  rw [Text.byteLength_cons]
  omega

theorem At.left_cons_lt {c : Char} (h : At cs pos (c :: rest)) :
    left cs (pos + c.utf8Size) < left cs pos :=
  @At.left_lt _ _ _ [c] h (List.cons_ne_nil c [])

/-! ## Gaps -/

theorem At.advanceWhile_eq {test : Char → Bool} (h : At cs pos rest) :
    advanceWhile cs test pos = .ok (pos + byteLength (rest.takeWhile test)) := by
  induction rest generalizing pos with
  | nil => exact loop_of_answer (by simp [h.peek_eq])
  | cons c rest ih =>
    cases hc : test c with
    | true =>
      have hnext : advanceWhile cs test pos = advanceWhile cs test (pos + c.utf8Size) :=
        loop_of_next (by simp [h.peek_eq, h.advance_eq, hc]) h.left_cons_lt
      rw [hnext, ih h.cons, List.takeWhile_cons_of_pos hc, Text.byteLength_cons, Nat.add_assoc]
    | false =>
      rw [List.takeWhile_cons_of_neg (by simp [hc])]
      exact loop_of_answer (by simp [h.peek_eq, hc])

/-- The comment's end is where the reader finds it, and a comment without one is reported to the
    end of the text. -/
theorem At.commentEnd_eq {start : Nat} (h : At cs pos rest) : commentEnd cs start pos =
    match Gap.commentEnd rest with
    | some (inside, _) => .ok (pos + byteLength inside)
    | none => refuse ⟨.comment, ⟨start, byteLength cs⟩⟩ := by
  fun_induction Gap.commentEnd rest generalizing pos with
  | case1 rest =>
    have hanswer : commentEnd cs start pos = .ok (pos + '*'.utf8Size + '/'.utf8Size) :=
      loop_of_answer (by simp [h.advance_eq, h.cons.peek_eq, h.cons.advance_eq])
    rw [hanswer, Nat.add_assoc]
    rfl
  | case2 c rest hopen ih =>
    have hstep : ¬(c = '*' ∧ rest.head? = some '/') := by
      rintro ⟨rfl, hd⟩
      obtain ⟨more, rfl⟩ := List.head?_eq_some_iff.1 hd
      exact hopen more rfl rfl
    have hnext : commentEnd cs start pos = commentEnd cs start (pos + c.utf8Size) :=
      loop_of_next (by simp [h.advance_eq, h.cons.peek_eq, hstep]) h.left_cons_lt
    rw [hnext, ih h.cons]
    cases Gap.commentEnd rest with
    | none => rfl
    | some found => simp [Nat.add_assoc]
  | case3 =>
    rw [h.end_eq]
    exact loop_of_error (by simp [h.advance_end]; rfl)

/-- The outcome of passing over a gap from `pos` on, in a text of `stop` bytes. -/
def skipped (stop pos : Nat) : Skipped → Run LexicalError Nat
  | .upTo gap _ => .ok (pos + byteLength gap)
  | .openComment gap _ => refuse ⟨.comment, ⟨pos + byteLength gap, stop⟩⟩

theorem skipped_after (stop pos : Nat) (passed : List Char) (s : Skipped) :
    skipped stop pos (s.after passed) = skipped stop (pos + byteLength passed) s := by
  cases s <;> simp [skipped, Skipped.after, Nat.add_assoc]

theorem skipped_ne_stuck (stop pos : Nat) (s : Skipped) :
    skipped stop pos s ≠ .error (.trap .stuck) := by
  cases s <;> simp [skipped, refuse]

theorem At.advanceWhile_blank_eq {c : Char} (h : At cs pos (c :: rest))
    (hc : Text.isBlank c = false) : advanceWhile cs Text.isBlank pos = .ok pos := by
  rw [h.advanceWhile_eq, List.takeWhile_cons_of_neg (by simp [hc])]
  rfl

theorem At.skipGap_eq (h : At cs pos rest) :
    skipGap cs pos = skipped (byteLength cs) pos (Gap.skip rest) := by
  fun_induction Gap.skip rest generalizing pos with
  | case1 => exact loop_of_answer (by simp [h.advanceWhile_eq, h.peek_eq, h.peekNext_eq])
  | case2 c rest hc ih =>
    -- The run of blanks is passed over at once, so it does not matter where in it one begins.
    have hblanks : advanceWhile cs Text.isBlank pos =
        advanceWhile cs Text.isBlank (pos + c.utf8Size) := by
      rw [h.advanceWhile_eq, h.cons.advanceWhile_eq, List.takeWhile_cons_of_pos hc,
        Text.byteLength_cons, Nat.add_assoc]
    have hsame : skipGap cs pos = skipGap cs (pos + c.utf8Size) :=
      loop_of_same (by rw [hblanks]) (Nat.le_of_lt h.left_cons_lt) (by
        rw [← skipGap, ih h.cons]
        exact skipped_ne_stuck _ _ _)
    rw [hsame, ih h.cons, skipped_after]
    rfl
  | case3 c rest hc hline ih =>
    have hblank := h.advanceWhile_blank_eq (by simpa using hc)
    obtain ⟨rfl, hd⟩ := hline
    have hsplit : At cs pos (('-' :: Gap.line rest) ++ Gap.afterLine rest) := by
      rwa [List.cons_append, Gap.line_append_afterLine]
    have hline := @At.advanceWhile_eq _ _ _ (· != '\n') h
    rw [List.takeWhile_cons_of_pos (by decide), ← Gap.line] at hline
    have hnext : skipGap cs pos = skipGap cs (pos + byteLength ('-' :: Gap.line rest)) :=
      loop_of_next (by simp [hblank, h.peek_eq, h.peekNext_eq, hd, hline])
        (hsplit.left_lt (List.cons_ne_nil _ _))
    rw [hnext, ih hsplit.append, skipped_after]
  | case4 c rest hc hline hblock inside after hend hlen ih =>
    have hblank := h.advanceWhile_blank_eq (by simpa using hc)
    obtain ⟨rfl, hd⟩ := hblock
    obtain ⟨rest, rfl⟩ := List.head?_eq_some_iff.1 hd
    have hsplit : At cs pos (('/' :: '*' :: inside) ++ after) := by
      rwa [List.cons_append, List.cons_append, ← Gap.commentEnd_eq_some hend]
    have hcomment : commentEnd cs pos (pos + '/'.utf8Size + '*'.utf8Size) =
        .ok (pos + byteLength ('/' :: '*' :: inside)) := by
      rw [h.cons.cons.commentEnd_eq, show Gap.commentEnd rest = some (inside, after) from hend]
      simp [Nat.add_assoc]
    have hnext : skipGap cs pos = skipGap cs (pos + byteLength ('/' :: '*' :: inside)) :=
      loop_of_next (by
        simp [hblank, h.peek_eq, h.peekNext_eq, h.advance_eq, h.cons.advance_eq, hcomment])
        (hsplit.left_lt (List.cons_ne_nil _ _))
    rw [hnext, ih hsplit.append, skipped_after]
  | case5 c rest hc hline hblock hend =>
    have hblank := h.advanceWhile_blank_eq (by simpa using hc)
    obtain ⟨rfl, hd⟩ := hblock
    obtain ⟨rest, rfl⟩ := List.head?_eq_some_iff.1 hd
    have hcomment : commentEnd cs pos (pos + '/'.utf8Size + '*'.utf8Size) =
        refuse ⟨.comment, ⟨pos, byteLength cs⟩⟩ := by
      rw [h.cons.cons.commentEnd_eq, show Gap.commentEnd rest = none from hend]
    exact loop_of_error (by
      simp [hblank, h.peek_eq, h.peekNext_eq, h.advance_eq, h.cons.advance_eq, hcomment]
      rfl)
  | case6 c rest hc hline hblock =>
    have hblank := h.advanceWhile_blank_eq (by simpa using hc)
    exact loop_of_answer (by simp [hblank, h.peek_eq, h.peekNext_eq, hline, hblock])

/-! ## Single tokens -/

theorem At.quotedEnd_eq {q : Quote} {start : Nat} (h : At cs pos rest) : quotedEnd cs q start pos =
    match q.closing rest with
    | some (inside, _) => .ok (pos + byteLength inside)
    | none => refuse ⟨.quote q, ⟨start, byteLength cs⟩⟩ := by
  fun_induction q.closing rest generalizing pos with
  | case1 =>
    rw [h.end_eq]
    exact loop_of_error (by simp [h.advance_end]; rfl)
  | case2 => exact loop_of_answer (by simp [h.advance_eq, h.cons.peek_eq])
  | case3 d more hdouble ih =>
    rw [Bool.and_eq_true, beq_iff_eq] at hdouble
    have hnext : quotedEnd cs q start pos =
        quotedEnd cs q start (pos + q.closer.utf8Size + d.utf8Size) :=
      loop_of_next (by simp [h.advance_eq, h.cons.peek_eq, h.cons.advance_eq, hdouble])
        (Nat.lt_trans h.cons.left_cons_lt h.left_cons_lt)
    rw [hnext, ih h.cons.cons]
    cases q.closing more with
    | none => rfl
    | some found => simp [Nat.add_assoc]
  | case4 d more hsingle =>
    rw [Bool.and_eq_true, beq_iff_eq] at hsingle
    exact loop_of_answer (by simp [h.advance_eq, h.cons.peek_eq, hsingle])
  | case5 c rest hc ih =>
    have hnext : quotedEnd cs q start pos = quotedEnd cs q start (pos + c.utf8Size) :=
      loop_of_next (by simp [h.advance_eq, h.cons.peek_eq, hc]) h.left_cons_lt
    rw [hnext, ih h.cons]
    cases q.closing rest with
    | none => rfl
    | some found => simp [Nat.add_assoc]

/-- Where no sign follows an exponent mark, the mark is like any other character of a number. -/
theorem numberTail_of_no_sign {afterMark : Bool}
    (h : ¬(afterMark = true ∧ rest.head?.any isSign = true)) :
    numberTail afterMark rest = numberTail false rest := by
  cases rest with
  | nil => rfl
  | cons c rest =>
    have hsign : (afterMark && isSign c) = false := by simpa using h
    rw [numberTail, numberTail, hsign, Bool.false_and]

/-- A sign behind an exponent mark is part of the number, and no second sign is. -/
theorem numberTail_sign {c : Char} (h : isSign c = true) (cs : List Char) :
    (numberTail true (c :: cs)).1 = c :: (numberTail false cs).1 := by
  have hmark : isExponentMark c = false := by
    rw [isSign, Bool.or_eq_true, beq_iff_eq, beq_iff_eq] at h
    rcases h with rfl | rfl <;> rfl
  rw [numberTail, h, Bool.true_and, Bool.or_true, if_pos rfl, hmark]

theorem At.numberEnd_eq (h : At cs pos rest) :
    numberEnd cs pos = .ok (pos + byteLength (numberTail false rest).1) := by
  induction hn : rest.length using Nat.strongRecOn generalizing pos rest with
  | _ n ih =>
    cases rest with
    | nil => exact loop_of_answer (by simp [h.peek_eq, numberTail])
    | cons c rest =>
      by_cases hc : isNumberChar c
      · have htail : (numberTail false (c :: rest)).1 =
            c :: (numberTail (isExponentMark c) rest).1 := by
          rw [numberTail, hc]
          rfl
        by_cases hsign : isExponentMark c = true ∧ rest.head?.any isSign = true
        · obtain ⟨hmark, hhead⟩ := hsign
          obtain ⟨d, hd, hdsign⟩ := (Option.any_eq_true _ _).1 hhead
          obtain ⟨more, rfl⟩ := List.head?_eq_some_iff.1 hd
          have hnext : numberEnd cs pos = numberEnd cs (pos + c.utf8Size + d.utf8Size) :=
            loop_of_next (by
              simp [h.peek_eq, h.advance_eq, h.cons.peek_eq, h.cons.advance_eq, hc, hmark, hdsign])
              (Nat.lt_trans h.cons.left_cons_lt h.left_cons_lt)
          rw [hnext, ih more.length (by simp at hn; omega) h.cons.cons rfl, htail, hmark,
            numberTail_sign hdsign]
          simp [Nat.add_assoc]
        · have hnext : numberEnd cs pos = numberEnd cs (pos + c.utf8Size) :=
            loop_of_next (by simp [h.peek_eq, h.advance_eq, h.cons.peek_eq, hc, hsign])
              h.left_cons_lt
          rw [hnext, ih rest.length (by simp at hn; omega) h.cons rfl, htail,
            numberTail_of_no_sign hsign]
          simp [Nat.add_assoc]
      · have htail : (numberTail false (c :: rest)).1 = [] := by simp [numberTail, hc]
        rw [htail]
        exact loop_of_answer (by simp [h.peek_eq, hc])

/-- The outcome of reading what stands at `start`: the kind of the token and the position behind
    it, or the quote that is left open. -/
def fronted (start : Nat) : Front → Run LexicalError (Option Kind × Nat)
  | .ended => .ok (none, start)
  | .token kind text _ => .ok (some kind, start + byteLength text)
  | .openQuote q text => refuse ⟨.quote q, ⟨start, start + byteLength text⟩⟩

theorem At.quoted_eq {q : Quote} {start : Nat} (opening : List Char)
    (h : At cs start (opening ++ rest)) :
    quoted cs q start (start + byteLength opening) =
      fronted start (Front.quoted q opening rest) := by
  have hend := h.append.end_eq
  rw [quoted, h.append.quotedEnd_eq, Front.quoted]
  cases q.closing rest with
  | none => simp [fronted, hend, Nat.add_assoc]
  | some found => simp [fronted, Nat.add_assoc]

theorem At.number_eq {c : Char} {start : Nat} (h : At cs start (c :: rest)) :
    number cs (start + c.utf8Size) = fronted start (Front.number c rest) := by
  rw [number, h.cons.numberEnd_eq, Front.number]
  simp [fronted, Nat.add_assoc]

theorem At.word_eq {c : Char} {start : Nat} (h : At cs start (c :: rest)) :
    word cs start (start + c.utf8Size) = fronted start (Front.word c rest) := by
  have htext : At cs start
      ((c :: rest.takeWhile Text.isWordChar) ++ rest.dropWhile Text.isWordChar) := by
    rwa [List.cons_append, List.takeWhile_append_dropWhile]
  rw [word, h.cons.advanceWhile_eq, Front.word, ok_bind, Nat.add_assoc, ← Text.byteLength_cons,
    htext.textBetween_eq]
  rfl

theorem At.operator_eq {c : Char} {start : Nat} (h : At cs start (c :: rest)) :
    operator cs (start + c.utf8Size) = fronted start (Front.operator c rest) := by
  rw [operator, h.cons.advanceWhile_eq, Front.operator]
  simp [fronted, Nat.add_assoc]

theorem At.front_eq (h : At cs pos rest) : front cs pos = fronted pos (Front.of rest) := by
  cases rest with
  | nil => simp [front, h.advance_end, Front.of, fronted]
  | cons c rest =>
    simp only [front, h.advance_eq, ok_bind, h.cons.peek_eq, Front.of]
    cases Delimiter.ofChar? c with
    | some d =>
      dsimp only
      split_ifs with hnumber
      · exact h.number_eq
      · rfl
    | none =>
      cases Quote.ofOpener? c with
      | some q => exact At.quoted_eq [c] h
      | none =>
        dsimp only
        split_ifs with hblob hdigit hstart
        · rw [Bool.and_eq_true, beq_iff_eq] at hblob
          obtain ⟨more, rfl⟩ := List.head?_eq_some_iff.1 hblob.2
          rw [h.cons.advance_eq]
          exact At.quoted_eq [c, Quote.single.opener] h
        · exact h.number_eq
        · exact h.word_eq
        · exact h.operator_eq

/-! ## All tokens -/

/-- The outcome of reading on from `pos`: the next token and the position behind it, or what is
    left open. -/
def scanned (pos : Nat) : Scanned → Run LexicalError (Option Token × Nat)
  | .lexeme l _ => .ok (some (l.place pos), pos + byteLength l.written)
  | .ending e =>
    match e.error? pos with
    | some err => refuse err
    | none => .ok (none, pos + byteLength e.written)

theorem At.nextToken_eq (h : At cs pos rest) : nextToken cs pos = scanned pos (scan rest) := by
  have hwhole := Gap.whole_skip rest
  rw [nextToken, h.skipGap_eq, scan]
  cases hskip : Gap.skip rest with
  | openComment gap comment =>
    rw [hskip, Skipped.whole] at hwhole
    simp [skipped, scanned, Ending.error?, h.end_eq, ← hwhole, Nat.add_assoc]
  | upTo gap ahead =>
    rw [hskip, Skipped.whole] at hwhole
    rw [← hwhole] at h
    have hfront := Front.whole_of ahead
    simp only [skipped, ok_bind, h.append.front_eq]
    cases hof : Front.of ahead with
    | ended => rfl
    | openQuote q text => simp [fronted, scanned, Ending.error?]
    | token kind text after =>
      rw [hof, Front.whole] at hfront
      rw [← hfront] at h
      simp only [fronted, ok_bind, h.append.textBetween_eq]
      simp [scanned, place, written, Nat.add_assoc]

theorem At.tokensFrom_eq (h : At cs pos rest) (tokens : List Token) : tokensFrom cs (pos, tokens) =
    match (Lexing.of rest).ending.error?
      (pos + byteLength ((Lexing.of rest).lexemes.flatMap Lexeme.written)) with
    | some e => refuse e
    | none => .ok (tokens ++ placeAll pos (Lexing.of rest).lexemes) := by
  fun_induction Lexing.of rest generalizing pos tokens with
  | case1 rest l more hscan _ ih =>
    have hstep := h.nextToken_eq
    obtain ⟨hrest, htext⟩ := scan_eq_lexeme hscan
    rw [hscan, scanned] at hstep
    rw [hrest] at h
    have hne : l.written ≠ [] := by simp [written, htext]
    have hnext : tokensFrom cs (pos, tokens) =
        tokensFrom cs (pos + byteLength l.written, tokens ++ [l.place pos]) :=
      loop_of_next (by simp [hstep]) (h.left_lt hne)
    rw [hnext, ih h.append]
    simp [Lexing.cons, placeAll, Nat.add_assoc]
  | case2 rest e hscan =>
    have hstep := h.nextToken_eq
    rw [hscan, scanned] at hstep
    simp only [List.flatMap_nil, Text.byteLength_nil, Nat.add_zero]
    cases he : e.error? pos with
    | some err =>
      rw [he] at hstep
      exact loop_of_error (by simp [hstep]; rfl)
    | none =>
      rw [he] at hstep
      exact loop_of_answer (by simp [hstep, placeAll])

/-- **By position the tokens are the same**, and no slice is ever out of bounds. -/
theorem tokenize_eq (text : String) :
    tokenize text.toList = (TableRebuild.tokenize text).mapError .refused := by
  rw [tokenize, (at_start _).tokensFrom_eq, TableRebuild.tokenize, Lexing.error?, Nat.zero_add]
  cases (Lexing.of text.toList).ending.error? _ with
  | some e => rfl
  | none => rfl

end Lexer
end Indexed
end TableRebuild
