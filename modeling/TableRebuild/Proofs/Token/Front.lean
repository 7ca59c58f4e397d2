import TableRebuild.Proofs.Token.Gap
import TableRebuild.Token.Lexeme

/-!
# How far a token looks ahead

Reading a token is greedy, so where it ends depends on what stands behind it. This file says on how
little of it: **on the first character behind the token**. `Front.goesOn` is the test, by the first
character of the token, the kind of thing that this character begins, and the character behind.
`Front.of_append_iff` says that the test is exact: a token that was read in front of one text is
read in front of another just if it does not go on with the character that the other begins with.

Some characters no token goes on with but a quoted one that they are inside of: a blank, a bracket,
a separator. These are the *breaks*, and the end of a text serves as well. So it suffices for a
token that is cut out of one text and put into another that the two texts behind it have the
`SameEdge`, the same first character or a break. It is what lets a type or a constraint be written
back between a space and a comma, wherever it was taken from.
-/

namespace TableRebuild

/-- Characters that end every token in front of them. -/
def breaks : List Char := [' ', '\n', '(', ')', ',', ';']

theorem forall_mem_breaks {p : Char → Bool} (h : breaks.all (fun c => !p c) = true) :
    ∀ c ∈ breaks, p c = false := by
  simpa using h

/-- Whether `bs` makes a token before it end where `as` does: it begins with the same character,
    or with a break, or is the end of the text. -/
def SameEdge (as bs : List Char) : Prop :=
  bs.head? = as.head? ∨ ∀ c ∈ bs.head?, c ∈ breaks

namespace SameEdge

theorem refl (as : List Char) : SameEdge as as := Or.inl rfl

theorem nil (as : List Char) : SameEdge as [] := Or.inr (by simp)

theorem cons {c : Char} (hc : c ∈ breaks) (as bs : List Char) : SameEdge as (c :: bs) :=
  Or.inr (by simpa using hc)

/-- Behind the same text any two texts do. -/
theorem append {as bs : List Char} (h : SameEdge as bs) (cs : List Char) :
    SameEdge (cs ++ as) (cs ++ bs) := by
  cases cs with
  | nil => exact h
  | cons c cs => exact Or.inl rfl

/-- Where the first text does not begin with a character of a class that has no break in it, the
    second does not either. -/
theorem head_false {as bs : List Char} (h : SameEdge as bs) {p : Char → Bool}
    (hp : ∀ c ∈ breaks, p c = false) (has : ∀ c ∈ as.head?, p c = false) :
    ∀ c ∈ bs.head?, p c = false := by
  intro c hc
  rcases h with h | h
  · exact has c (h ▸ hc)
  · exact hp c (h c hc)

/-- Where the first text does not begin with a character that is no break, the second does not
    either. -/
theorem head_ne {as bs : List Char} (h : SameEdge as bs) {c : Char} (hc : c ∉ breaks)
    (has : as.head? ≠ some c) : bs.head? ≠ some c := by
  intro hbs
  rcases h with h | h
  · exact has (h ▸ hbs)
  · exact hc (h c hbs)

end SameEdge

/-! ## The parts of tokens -/

namespace Quote

theorem closer_notMem_breaks (q : Quote) : q.closer ∉ breaks := by
  cases q <;> simp [breaks, Quote.closer, Quote.opener]

/-- Whether the mark that closed a quoted text would, with this character behind it, be a mark in
    the text. -/
def goesOn (q : Quote) (next : Char) : Bool := q.doubles && next == q.closer

theorem goesOn_of_mem_breaks (q : Quote) : ∀ c ∈ breaks, q.goesOn c = false := by
  intro c hc
  have hne : c ≠ q.closer := by
    rintro rfl
    exact q.closer_notMem_breaks hc
  simp [goesOn, hne]

theorem closing_closer_iff {q : Quote} {after : List Char} :
    q.closing (q.closer :: after) = some ([q.closer], after) ↔
      ∀ d ∈ after.head?, q.goesOn d = false := by
  cases after with
  | nil => simp [closing]
  | cons d more =>
    have hclosing : q.closing (q.closer :: d :: more) = if q.goesOn d then
        (q.closing more).map fun found => (q.closer :: d :: found.1, found.2)
        else some ([q.closer], d :: more) := by
      rw [closing, if_pos rfl]
      rfl
    rw [hclosing]
    cases hd : q.goesOn d with
    | false => simp [hd]
    | true => simp [hd]

/-- **A closing mark is found where it was found before** just if what follows does not double
    it. -/
theorem closing_append_iff {q : Quote} {cs inside after after' : List Char}
    (h : q.closing cs = some (inside, after)) :
    q.closing (inside ++ after') = some (inside, after') ↔
      ∀ d ∈ after'.head?, q.goesOn d = false := by
  fun_induction q.closing cs generalizing inside with
  | case1 => exact absurd h (by simp)
  | case2 =>
    simp only [Option.some.injEq, Prod.mk.injEq] at h
    obtain ⟨rfl, rfl⟩ := h
    exact closing_closer_iff
  | case3 d more hd ih =>
    obtain ⟨⟨i, a⟩, hi, heq⟩ := Option.map_eq_some_iff.1 h
    simp only [Prod.mk.injEq] at heq
    obtain ⟨rfl, rfl⟩ := heq
    rw [← ih hi, List.cons_append, List.cons_append, closing, if_pos rfl]
    simp [hd]
  | case4 d more hd =>
    simp only [Option.some.injEq, Prod.mk.injEq] at h
    obtain ⟨rfl, rfl⟩ := h
    exact closing_closer_iff
  | case5 c rest hc ih =>
    obtain ⟨⟨i, a⟩, hi, heq⟩ := Option.map_eq_some_iff.1 h
    simp only [Prod.mk.injEq] at heq
    obtain ⟨rfl, rfl⟩ := heq
    rw [← ih hi, List.cons_append, closing.eq_def]
    simp [hc]

end Quote

namespace Lexeme

theorem isNumberChar_of_mem_breaks : ∀ c ∈ breaks, isNumberChar c = false :=
  forall_mem_breaks rfl

theorem isSign_of_mem_breaks : ∀ c ∈ breaks, isSign c = false :=
  forall_mem_breaks rfl

theorem isOperatorChar_of_mem_breaks : ∀ c ∈ breaks, isOperatorChar c = false :=
  forall_mem_breaks rfl

theorem isWordChar_of_mem_breaks : ∀ c ∈ breaks, Text.isWordChar c = false :=
  forall_mem_breaks rfl

/-- Whether there is an exponent mark at the end; `afterMark` says what it is in front of the
    text. -/
def endsInMark (afterMark : Bool) (cs : List Char) : Bool :=
  (cs.getLast?.map isExponentMark).getD afterMark

theorem endsInMark_cons (afterMark : Bool) (c : Char) (cs : List Char) :
    endsInMark afterMark (c :: cs) = endsInMark (isExponentMark c) cs := by
  cases cs with
  | nil => rfl
  | cons d cs => simp [endsInMark, List.getLast?_cons]

/-- Whether a number that ends in this text goes on with the character. -/
def numberGoesOn (afterMark : Bool) (tail : List Char) (next : Char) : Bool :=
  isNumberChar next || (endsInMark afterMark tail && isSign next)

theorem numberGoesOn_of_mem_breaks (afterMark : Bool) (tail : List Char) :
    ∀ c ∈ breaks, numberGoesOn afterMark tail c = false := by
  intro c hc
  simp [numberGoesOn, isNumberChar_of_mem_breaks c hc, isSign_of_mem_breaks c hc]

theorem numberTail_eq_nil_iff {afterMark : Bool} {after : List Char} :
    numberTail afterMark after = ([], after) ↔
      ∀ c ∈ after.head?, numberGoesOn afterMark [] c = false := by
  cases after with
  | nil => simp [numberTail]
  | cons c rest =>
    have hgoes : numberGoesOn afterMark [] c = (isNumberChar c || (afterMark && isSign c)) := rfl
    rw [numberTail, ← hgoes]
    cases hc : numberGoesOn afterMark [] c with
    | false => simp [hc]
    | true => simp [hc]

/-- **A number ends where it ended before** just if it does not go on with what follows. -/
theorem numberTail_append_iff {afterMark : Bool} {cs tail after after' : List Char}
    (h : numberTail afterMark cs = (tail, after)) :
    numberTail afterMark (tail ++ after') = (tail, after') ↔
      ∀ c ∈ after'.head?, numberGoesOn afterMark tail c = false := by
  fun_induction numberTail afterMark cs generalizing tail with
  | case1 mark =>
    simp only [Prod.mk.injEq] at h
    obtain ⟨rfl, rfl⟩ := h
    exact numberTail_eq_nil_iff
  | case2 mark c rest hc tail' after₁ hr ih =>
    simp only [Prod.mk.injEq] at h
    obtain ⟨rfl, rfl⟩ := h
    have hrest : numberTail mark (c :: (tail' ++ after')) = (c :: tail', after') ↔
        numberTail (isExponentMark c) (tail' ++ after') = (tail', after') := by
      rw [numberTail, if_pos hc, Prod.ext_iff, Prod.ext_iff]
      simp
    simp only [List.cons_append, hrest, ih hr, numberGoesOn, endsInMark_cons]
  | case3 mark c rest hc =>
    simp only [Prod.mk.injEq] at h
    obtain ⟨rfl, rfl⟩ := h
    exact numberTail_eq_nil_iff

/-- **A run of characters of a class ends where it ended before** just if what follows does not
    begin with such a character. -/
theorem takeWhile_append_iff {p : Char → Bool} {run after : List Char}
    (hrun : ∀ c ∈ run, p c = true) :
    (run ++ after).takeWhile p = run ∧ (run ++ after).dropWhile p = after ↔
      ∀ c ∈ after.head?, p c = false := by
  rw [List.takeWhile_append_of_pos hrun, List.dropWhile_append_of_pos hrun]
  cases after with
  | nil => simp
  | cons d more => cases hd : p d <;> simp [hd]

end Lexeme

/-! ## One token -/

namespace Front

open Lexeme

variable {kind : Kind} {rest rest' : List Char}

theorem exists_of_quoted {q : Quote} {start cs text : List Char}
    (h : quoted q start cs = .token kind text rest) : ∃ inside, text = start ++ inside := by
  unfold quoted at h
  split at h
  · rename_i inside after _
    simp only [token.injEq] at h
    exact ⟨inside, h.2.1.symm⟩
  · exact absurd h (by simp)

theorem quoted_append_iff {q : Quote} {start inside : List Char}
    (h : quoted q start (inside ++ rest) = .token kind (start ++ inside) rest) :
    quoted q start (inside ++ rest') = .token kind (start ++ inside) rest' ↔
      ∀ c ∈ rest'.head?, q.goesOn c = false := by
  unfold quoted at h
  split at h
  · rename_i inside' after hclose
    simp only [token.injEq, List.append_cancel_left_eq] at h
    obtain ⟨rfl, rfl, rfl⟩ := h
    rw [← Quote.closing_append_iff hclose, quoted]
    cases q.closing (inside' ++ rest') with
    | none => simp
    | some found => simp [Prod.ext_iff]
  · exact absurd h (by simp)

theorem number_append_iff {c : Char} {tail : List Char}
    (h : number c (tail ++ rest) = .token kind (c :: tail) rest) :
    number c (tail ++ rest') = .token kind (c :: tail) rest' ↔
      ∀ d ∈ rest'.head?, numberGoesOn false tail d = false := by
  simp only [number, token.injEq, List.cons.injEq, true_and] at h ⊢
  obtain ⟨rfl, htail, hafter⟩ := h
  rw [← numberTail_append_iff (Prod.ext htail hafter), Prod.ext_iff]
  simp

/-- The token is a run of characters of a class. -/
theorem run_append_iff {p : Char → Bool} {c : Char} {tail : List Char}
    (h : (tail ++ rest).takeWhile p = tail) :
    token kind (c :: (tail ++ rest').takeWhile p) ((tail ++ rest').dropWhile p) =
        token kind (c :: tail) rest' ↔ ∀ d ∈ rest'.head?, p d = false := by
  have hrun : ∀ d ∈ tail, p d = true := by
    intro d hd
    rw [← h] at hd
    exact List.mem_takeWhile_imp hd
  rw [← takeWhile_append_iff hrun]
  simp

theorem word_append_iff {c : Char} {tail : List Char}
    (h : word c (tail ++ rest) = .token kind (c :: tail) rest) :
    word c (tail ++ rest') = .token kind (c :: tail) rest' ↔
      ∀ d ∈ rest'.head?, Text.isWordChar d = false := by
  simp only [word, token.injEq, List.cons.injEq, true_and] at h
  obtain ⟨hkind, htail, -⟩ := h
  have hrun : token kind (c :: (tail ++ rest').takeWhile Text.isWordChar)
      ((tail ++ rest').dropWhile Text.isWordChar) = token kind (c :: tail) rest' ↔ _ :=
    run_append_iff htail
  rw [← hrun, word, token.injEq, token.injEq]
  -- The kind of a word is decided by its text.
  constructor
  · rintro ⟨-, htext, hafter⟩
    exact ⟨rfl, htext, hafter⟩
  · rintro ⟨-, htext, hafter⟩
    rw [← hkind, htail, (List.cons.inj htext).2]
    exact ⟨rfl, rfl, hafter⟩

theorem operator_append_iff {c : Char} {tail : List Char}
    (h : operator c (tail ++ rest) = .token kind (c :: tail) rest) :
    operator c (tail ++ rest') = .token kind (c :: tail) rest' ↔
      ∀ d ∈ rest'.head?, isOperatorChar d = false := by
  simp only [operator, token.injEq, List.cons.injEq, true_and] at h
  obtain ⟨rfl, htail, -⟩ := h
  exact run_append_iff htail

/-! Which scanner reads the token is decided by its first character, and by a test on the second. -/

/-- A token that begins with neither a delimiter nor a quote, and is no blob. -/
def plain (c : Char) (cs : List Char) : Front :=
  if c.isDigit then number c cs else if Text.isWordStart c then word c cs else operator c cs

/-- Whether an `x`, of either case, has a quote behind it. -/
def beginsBlob (c : Char) (behind : Option Char) : Bool :=
  (c == 'x' || c == 'X') && behind == some Quote.single.opener

theorem of_of_delimiter {c : Char} {d : Delimiter} (hd : Delimiter.ofChar? c = some d)
    (cs : List Char) : of (c :: cs) =
      if d = .dot ∧ cs.head?.any Char.isDigit then number c cs
      else .token (.delimiter d) [c] cs := by
  simp only [of, hd]

theorem of_of_opener {c : Char} {q : Quote} (hd : Delimiter.ofChar? c = none)
    (hq : Quote.ofOpener? c = some q) (cs : List Char) : of (c :: cs) = quoted q [c] cs := by
  simp only [of, hd, hq]

theorem of_of_other {c : Char} (hd : Delimiter.ofChar? c = none) (hq : Quote.ofOpener? c = none)
    (cs : List Char) : of (c :: cs) =
      if beginsBlob c cs.head? then quoted .single [c, Quote.single.opener] cs.tail
      else plain c cs := by
  simp only [of, hd, hq]
  rfl

/-- Whether a token with this first character and these others goes on with the character, where it
    is `plain`. -/
def plainGoesOn (c : Char) (tail : List Char) (next : Char) : Bool :=
  if c.isDigit then numberGoesOn false tail next
  else if Text.isWordStart c then Text.isWordChar next
  else isOperatorChar next

/-- Whether a token of this text goes on with the character. -/
def goesOn (text : List Char) (next : Char) : Bool :=
  match text with
  | [] => false
  | c :: tail =>
    match Delimiter.ofChar? c, Quote.ofOpener? c with
    | some d, _ =>
      if tail = [] then d == .dot && next.isDigit else numberGoesOn false tail next
    | none, some q => q.goesOn next
    | none, none =>
      if beginsBlob c (tail ++ [next]).head? then Quote.single.goesOn next
      else plainGoesOn c tail next

/-- **No token goes on with a break.** -/
theorem goesOn_of_mem_breaks (text : List Char) : ∀ c ∈ breaks, goesOn text c = false := by
  intro next hnext
  have hnumber := numberGoesOn_of_mem_breaks false
  cases text with
  | nil => rfl
  | cons c tail =>
    rw [goesOn]
    split
    · have hdigit : next.isDigit = false := forall_mem_breaks rfl next hnext
      simp [hdigit, hnumber tail next hnext]
    · exact Quote.goesOn_of_mem_breaks _ next hnext
    · simp [plainGoesOn, Quote.goesOn_of_mem_breaks _ next hnext, hnumber tail next hnext,
        isWordChar_of_mem_breaks next hnext, isOperatorChar_of_mem_breaks next hnext]

/-- The second character of a token of two or more is the token's own. -/
theorem head_append {tail : List Char} (h : tail ≠ []) (as bs : List Char) :
    (tail ++ as).head? = (tail ++ bs).head? := by
  obtain ⟨x, more, rfl⟩ := List.exists_cons_of_ne_nil h
  rfl

/-- A point that begins a number is not all of it. -/
theorem ne_nil_of_number_dot {c : Char} {tail : List Char}
    (hdigit : (tail ++ rest).head?.any Char.isDigit = true)
    (h : number c (tail ++ rest) = .token kind (c :: tail) rest) : tail ≠ [] := by
  rintro rfl
  cases rest with
  | nil => exact absurd hdigit (by simp)
  | cons x more =>
    have hx : isNumberChar x = true := by
      have hd : x.isDigit = true := by simpa using hdigit
      simp [isNumberChar, Char.isAlphanum, hd]
    simp [number, numberTail, hx] at h

/-- A blob is at least an `x` and a quote. -/
theorem not_beginsBlob {c : Char} {more : List Char} (hd : Delimiter.ofChar? c = none)
    (hq : Quote.ofOpener? c = none) (h : of (c :: more) = .token kind [c] rest) :
    ¬beginsBlob c more.head? = true := by
  intro hx
  rw [of_of_other hd hq, if_pos hx] at h
  obtain ⟨inside, hinside⟩ := exists_of_quoted h
  exact absurd hinside (by simp)

theorem of_append_iff_of_delimiter {c : Char} {tail : List Char} {d : Delimiter}
    (hd : Delimiter.ofChar? c = some d)
    (h : of (c :: (tail ++ rest)) = .token kind (c :: tail) rest) :
    of (c :: (tail ++ rest')) = .token kind (c :: tail) rest' ↔
      ∀ next ∈ rest'.head?, goesOn (c :: tail) next = false := by
  rw [of_of_delimiter hd] at h ⊢
  simp only [goesOn, hd]
  by_cases hnum : d = .dot ∧ (tail ++ rest).head?.any Char.isDigit
  · rw [if_pos hnum] at h
    have htail := ne_nil_of_number_dot hnum.2 h
    rw [if_pos (by rw [head_append htail rest' rest]; exact hnum), number_append_iff h]
    simp only [htail, if_false]
  · rw [if_neg hnum] at h
    simp only [token.injEq, List.cons.injEq, true_and] at h
    obtain ⟨rfl, rfl, -⟩ := h
    simp only [List.nil_append, if_true]
    cases rest' with
    | nil => simp
    | cons next more =>
      have hgoes : (d == .dot && next.isDigit) = true ↔ d = .dot ∧ next.isDigit = true := by simp
      by_cases hdigit : d = .dot ∧ next.isDigit = true
      · -- The point and the digit are a number now.
        have hnumber : number c (next :: more) ≠ .token (.delimiter d) [c] (next :: more) := by
          simp [number]
        rw [if_pos (by simpa using hdigit), iff_false_left hnumber]
        simpa using hgoes.2 hdigit
      · rw [if_neg (by simpa using hdigit)]
        simpa using hgoes.not.2 hdigit

theorem plain_append_iff {c : Char} {tail : List Char}
    (h : plain c (tail ++ rest) = .token kind (c :: tail) rest) :
    plain c (tail ++ rest') = .token kind (c :: tail) rest' ↔
      ∀ next ∈ rest'.head?, plainGoesOn c tail next = false := by
  unfold plain at h ⊢
  unfold plainGoesOn
  by_cases hdigit : c.isDigit = true
  · simp only [if_pos hdigit] at h ⊢
    exact number_append_iff h
  · by_cases hword : Text.isWordStart c = true
    · simp only [if_neg hdigit, if_pos hword] at h ⊢
      exact word_append_iff h
    · simp only [if_neg hdigit, if_neg hword] at h ⊢
      exact operator_append_iff h

theorem of_append_iff_of_other {c : Char} {tail : List Char} (hd : Delimiter.ofChar? c = none)
    (hq : Quote.ofOpener? c = none)
    (h : of (c :: (tail ++ rest)) = .token kind (c :: tail) rest) :
    of (c :: (tail ++ rest')) = .token kind (c :: tail) rest' ↔
      ∀ next ∈ rest'.head?, goesOn (c :: tail) next = false := by
  simp only [goesOn, hd, hq]
  by_cases htail : tail = []
  · subst htail
    have hrest := not_beginsBlob hd hq h
    rw [of_of_other hd hq, if_neg hrest] at h
    by_cases hx : beginsBlob c rest'.head? = true
    · -- With a quote behind it, the `x` is the beginning of a blob.
      have hnot : of (c :: ([] ++ rest')) ≠ .token kind [c] rest' := fun hof =>
        not_beginsBlob hd hq hof hx
      have hhead : rest'.head? = some Quote.single.opener := by
        simpa using (Bool.and_eq_true_iff.1 hx).2
      rw [iff_false_left hnot, hhead]
      rw [hhead] at hx
      intro hall
      have hgoes := hall _ rfl
      rw [List.nil_append, List.head?_singleton, if_pos hx] at hgoes
      exact absurd hgoes (by decide)
    · rw [of_of_other hd hq, List.nil_append, if_neg hx]
      have hplain : plain c ([] ++ rest') = .token kind [c] rest' ↔ _ := plain_append_iff h
      refine hplain.trans (forall₂_congr fun next hnext => ?_)
      rw [Option.mem_def.1 hnext] at hx
      rw [List.nil_append, List.head?_singleton, if_neg hx]
  · have hhead := head_append htail rest' rest
    have hheads : ∀ next, (tail ++ [next]).head? = (tail ++ rest).head? := fun next =>
      head_append htail _ _
    simp only [of_of_other hd hq, hhead, hheads] at h ⊢
    by_cases hx : beginsBlob c (tail ++ rest).head? = true
    · simp only [if_pos hx] at h ⊢
      obtain ⟨inside, hinside⟩ := exists_of_quoted h
      obtain rfl : tail = Quote.single.opener :: inside := by simpa using hinside
      exact quoted_append_iff h
    · simp only [if_neg hx] at h ⊢
      exact plain_append_iff h

/-- **A token that was read is read in front of another text** just if it does not go on with the
    character that this text begins with. -/
theorem of_append_iff {text : List Char} (h : of (text ++ rest) = .token kind text rest) :
    of (text ++ rest') = .token kind text rest' ↔
      ∀ next ∈ rest'.head?, goesOn text next = false := by
  obtain ⟨c, tail, rfl⟩ := List.exists_cons_of_ne_nil (text_ne_nil_of_eq h)
  rw [List.cons_append] at h ⊢
  cases hd : Delimiter.ofChar? c with
  | some d => exact of_append_iff_of_delimiter hd h
  | none =>
    cases hq : Quote.ofOpener? c with
    | some q =>
      rw [of_of_opener hd hq] at h ⊢
      simp only [goesOn, hd, hq]
      have hquoted : quoted q [c] (tail ++ rest') = .token kind ([c] ++ tail) rest' ↔ _ :=
        quoted_append_iff h
      exact hquoted
    | none => exact of_append_iff_of_other hd hq h

end Front
end TableRebuild
