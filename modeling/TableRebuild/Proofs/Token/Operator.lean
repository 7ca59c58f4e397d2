import TableRebuild.Proofs.Token.Fixed
import TableRebuild.Proofs.Token.Legible
import TableRebuild.Proofs.Token.QuotedName

/-!
# Operator characters behind a token

An operator is a run of characters of a class, and the class has the signs in it and the marks that
begin comments. What happens to such a character directly behind a token does not depend on what
else there is: an operator takes it in, and so does a number that ends in an exponent mark if the
character is a sign, even where the mark is a digit of a hexadecimal number. Behind every other
token it begins the next one.

That these two kinds are all there are is `Lexeme.Reads.goesOn_of_isOperatorChar`. The first
character of a token tells which scanner has read it, and there is a lemma for each scanner.
-/

namespace TableRebuild

namespace Token

/-- A number: it begins with a digit or with a point. -/
def isNumber (t : Token) : Bool :=
  t.kind == .verbatim && t.text.toList.head?.any fun c => c.isDigit || c == '.'

/-- A run of operator characters: it begins with neither a number nor a quote nor a blob. -/
def isOperator (t : Token) : Bool :=
  t.kind == .verbatim && t.text.toList.head?.any fun c => !(Lexeme.isNumberChar c || c == '\'')

/-- A number with an exponent mark at its end, which is waiting for a sign. -/
def awaitsSign (t : Token) : Bool := t.isNumber && Lexeme.endsInMark false t.text.toList

/-- Whether an operator character directly behind the token becomes a part of it. -/
def takesIn (t : Token) (next : Char) : Bool :=
  t.isOperator || (t.awaitsSign && Lexeme.isSign next)

@[simp] theorem takesIn_slash (t : Token) : t.takesIn '/' = t.isOperator := by
  rw [takesIn, show Lexeme.isSign '/' = false from rfl, Bool.and_false, Bool.or_false]

@[simp] theorem takesIn_minus (t : Token) : t.takesIn '-' = (t.isOperator || t.awaitsSign) := by
  rw [takesIn, show Lexeme.isSign '-' = true from rfl, Bool.and_true]

end Token

namespace Lexeme

theorem isNumberChar_of_isDigit {c : Char} (h : c.isDigit = true) : isNumberChar c = true := by
  simp [isNumberChar, Char.isAlphanum, h]

theorem isExponentMark_of_isDigit {c : Char} (h : c.isDigit = true) : isExponentMark c = false := by
  rw [isExponentMark, Bool.or_eq_false_iff, beq_eq_false_iff_ne, beq_eq_false_iff_ne]
  constructor
  · rintro rfl
    exact absurd h Bool.false_ne_true
  · rintro rfl
    exact absurd h Bool.false_ne_true

/-- What goes on with a number is a digit, a point or what a word may begin with. -/
theorem of_isNumberChar {c : Char} (h : isNumberChar c = true) :
    c.isDigit = true ∨ c = '.' ∨ Text.isWordStart c = true := by
  simp only [isNumberChar, Char.isAlphanum, Bool.or_eq_true, beq_iff_eq] at h
  rcases h with ((halpha | hdigit) | hdot) | rfl
  · exact .inr (.inr (Text.isWordStart_of_isAlpha halpha))
  · exact .inl hdigit
  · exact .inr (.inl hdot)
  · exact .inr (.inr rfl)

theorem isWordChar_of_isDigit {c : Char} (h : c.isDigit = true) : Text.isWordChar c = true := by
  have hsmall : c.toNat < 0x80 := by
    have hle : c.toNat ≤ 57 := (Char.isDigit_iff_toNat.1 h).2
    omega
  simp [Text.isWordChar, Text.isNumeric, hsmall, h]

/-- An operator character goes on with no number, no word and nothing quoted. -/
theorem of_isOperatorChar {c : Char} (h : isOperatorChar c = true) :
    isNumberChar c = false ∧ Text.isWordChar c = false ∧ ∀ q : Quote, q.goesOn c = false := by
  simp only [isOperatorChar, Bool.not_eq_true', Bool.or_eq_false_iff] at h
  obtain ⟨⟨⟨-, hword⟩, hdelimiter⟩, hopener⟩ := h
  refine ⟨?_, hword, ?_⟩
  · rw [Bool.eq_false_iff]
    intro hnumber
    rcases of_isNumberChar hnumber with hdigit | rfl | hstart
    · rw [isWordChar_of_isDigit hdigit] at hword
      exact absurd hword (by simp)
    · exact absurd hdelimiter (by decide)
    · rw [Text.isWordChar_of_isWordStart hstart] at hword
      exact absurd hword (by simp)
  · intro q
    rw [Bool.eq_false_iff]
    intro hq
    obtain ⟨hdoubles, hc⟩ := Bool.and_eq_true_iff.1 hq
    have hmark : q.closer = q.opener := by
      cases q with
      | bracket => exact absurd hdoubles Bool.false_ne_true
      | single | double | backtick => rfl
    rw [eq_of_beq hc, hmark, Quote.ofOpener?_opener] at hopener
    exact absurd hopener (by simp)

/-- A number goes on with an operator character only if this is its sign. -/
theorem numberGoesOn_of_isOperatorChar {next : Char} (h : isOperatorChar next = true)
    (tail : List Char) :
    numberGoesOn false tail next = (endsInMark false tail && isSign next) := by
  rw [numberGoesOn, (of_isOperatorChar h).1, Bool.false_or]

/-! ## What goes on with an operator character -/

open Front

variable {gap tail rest : List Char} {kind : Kind} {c next : Char}

/-- Whether a token takes an operator character in is decided by its first character, and for
    numbers by the last. -/
theorem takesIn_token : (token ⟨gap, kind, c :: tail⟩).takesIn next =
    (kind == .verbatim && !(isNumberChar c || c == '\'') ||
      (kind == .verbatim && (c.isDigit || c == '.') && endsInMark (isExponentMark c) tail &&
        isSign next)) := by
  simp [token, Token.takesIn, Token.awaitsSign, Token.isNumber, Token.isOperator, endsInMark_cons]

/-- What is not written verbatim is neither a number nor an operator. -/
theorem goesOn_of_not_verbatim {l : Lexeme} (h : (l.kind == .verbatim) = false)
    (hgoes : goesOn l.text next = false) : goesOn l.text next = l.token.takesIn next := by
  simp [hgoes, Token.takesIn, Token.isOperator, Token.awaitsSign, Token.isNumber, token, h]

theorem goesOn_of_delimiter {d : Delimiter} (hd : Delimiter.ofChar? c = some d)
    (h : of (c :: (tail ++ rest)) = .token kind (c :: tail) rest)
    (hnext : isOperatorChar next = true) :
    goesOn (c :: tail) next = (token ⟨gap, kind, c :: tail⟩).takesIn next := by
  obtain rfl := Delimiter.ofChar?_eq_some_iff.1 hd
  rw [of_of_delimiter hd] at h
  by_cases hnum : d = .dot ∧ (tail ++ rest).head?.any Char.isDigit
  · rw [if_pos hnum] at h
    have htail := ne_nil_of_number_dot hnum.2 h
    obtain rfl : Kind.verbatim = kind := by
      simp only [number, Front.token.injEq] at h
      exact h.1
    obtain rfl := hnum.1
    simp only [goesOn, hd, htail, if_false, numberGoesOn_of_isOperatorChar hnext, takesIn_token]
    rfl
  · rw [if_neg hnum] at h
    simp only [Front.token.injEq, List.cons.injEq, true_and] at h
    obtain ⟨rfl, rfl, -⟩ := h
    apply goesOn_of_not_verbatim (l := ⟨gap, _, _⟩) (by simp)
    have hdigit : next.isDigit = false := by
      rw [Bool.eq_false_iff]
      intro hdigit
      have hnumber := (of_isOperatorChar hnext).1
      rw [isNumberChar_of_isDigit hdigit] at hnumber
      exact absurd hnumber (by simp)
    simp [goesOn, hd, hdigit]

theorem goesOn_of_opener {q : Quote} (hd : Delimiter.ofChar? c = none)
    (hq : Quote.ofOpener? c = some q)
    (h : of (c :: (tail ++ rest)) = .token kind (c :: tail) rest)
    (hnext : isOperatorChar next = true) :
    goesOn (c :: tail) next = (token ⟨gap, kind, c :: tail⟩).takesIn next := by
  have hgoes : goesOn (c :: tail) next = false := by
    simp only [goesOn, hd, hq, (of_isOperatorChar hnext).2.2 q]
  have hc := Quote.opener_eq_of_ofOpener? hq
  have hkind : kind = if q.quotesName then .quotedName else .verbatim := by
    rw [of_of_opener hd hq] at h
    unfold quoted at h
    split at h
    · simp only [Front.token.injEq] at h
      exact h.1.symm
    · exact absurd h (by simp)
  cases q with
  | single =>
    subst hc hkind
    rw [hgoes, takesIn_token]
    rfl
  | double | backtick | bracket =>
    subst hkind
    exact goesOn_of_not_verbatim (l := ⟨gap, _, _⟩) rfl hgoes

theorem goesOn_of_plain (hd : Delimiter.ofChar? c = none) (hq : Quote.ofOpener? c = none)
    (h : plain c (tail ++ rest) = .token kind (c :: tail) rest)
    (hnext : isOperatorChar next = true) :
    plainGoesOn c tail next = (token ⟨gap, kind, c :: tail⟩).takesIn next := by
  unfold plain at h
  unfold plainGoesOn
  by_cases hdigit : c.isDigit = true
  · rw [if_pos hdigit] at h ⊢
    obtain rfl : Kind.verbatim = kind := by
      simp only [number, Front.token.injEq] at h
      exact h.1
    rw [numberGoesOn_of_isOperatorChar hnext, takesIn_token,
      isNumberChar_of_isDigit hdigit, isExponentMark_of_isDigit hdigit, hdigit]
    rfl
  · rw [if_neg hdigit] at h ⊢
    by_cases hword : Text.isWordStart c = true
    · rw [if_pos hword] at h ⊢
      have hkind : (kind == .verbatim) = false := by
        simp only [Front.word, Front.token.injEq] at h
        rw [← h.1, Kind.ofWord]
        split <;> rfl
      rw [takesIn_token, (of_isOperatorChar hnext).2.1, hkind]
      rfl
    · rw [if_neg hword] at h ⊢
      obtain rfl : Kind.verbatim = kind := by
        simp only [operator, Front.token.injEq] at h
        exact h.1
      have hquote : c ≠ '\'' := by
        rintro rfl
        exact absurd hq (by decide)
      have hnumber : isNumberChar c = false := by
        rw [Bool.eq_false_iff]
        intro hnumber
        rcases of_isNumberChar hnumber with hstart | rfl | hstart
        · exact hdigit hstart
        · exact absurd hd (by decide)
        · exact hword hstart
      rw [takesIn_token, hnext, hnumber, beq_eq_false_iff_ne.2 hquote]
      rfl

/-- A blob begins with a letter, as no operator does and no number. -/
theorem goesOn_of_blob {behind : Option Char} (hx : beginsBlob c behind = true)
    (hnext : isOperatorChar next = true) :
    Quote.single.goesOn next = (token ⟨gap, kind, c :: tail⟩).takesIn next := by
  have hc : c = 'x' ∨ c = 'X' := by
    have hletter := (Bool.and_eq_true_iff.1 hx).1
    simpa using hletter
  rw [(of_isOperatorChar hnext).2.2, takesIn_token]
  rcases hc with rfl | rfl
  · simp [isNumberChar]
  · simp [isNumberChar]

theorem goesOn_of_other (hd : Delimiter.ofChar? c = none) (hq : Quote.ofOpener? c = none)
    (h : of (c :: (tail ++ rest)) = .token kind (c :: tail) rest)
    (hnext : isOperatorChar next = true) :
    goesOn (c :: tail) next = (token ⟨gap, kind, c :: tail⟩).takesIn next := by
  have hopener : next ≠ Quote.single.opener := by
    rintro rfl
    exact absurd hnext (by decide)
  by_cases htail : tail = []
  · subst htail
    have hrest := not_beginsBlob hd hq h
    have hblob : ¬beginsBlob c ([] ++ [next]).head? = true := by simp [beginsBlob, hopener]
    rw [of_of_other hd hq, if_neg hrest] at h
    simp only [goesOn, hd, hq]
    rw [if_neg hblob]
    exact goesOn_of_plain hd hq h hnext
  · have hhead := head_append htail [next] rest
    simp only [goesOn, hd, hq, hhead]
    rw [of_of_other hd hq] at h
    by_cases hx : beginsBlob c (tail ++ rest).head? = true
    · rw [if_pos hx]
      exact goesOn_of_blob hx hnext
    · rw [if_neg hx] at h ⊢
      exact goesOn_of_plain hd hq h hnext

/-- **With an operator character an operator goes on**, and a number that awaits a sign if the
    character is one; and nothing else does. -/
theorem Reads.goesOn_of_isOperatorChar {l : Lexeme} (h : l.Reads rest)
    (hnext : isOperatorChar next = true) :
    goesOn l.text next = l.token.takesIn next := by
  obtain ⟨-, -, hfront⟩ := reads_iff.1 h
  obtain ⟨c, tail, htext⟩ := List.exists_cons_of_ne_nil h.text_ne_nil
  obtain ⟨gap, kind, text⟩ := l
  obtain rfl : text = c :: tail := htext
  cases hd : Delimiter.ofChar? c with
  | some d => exact goesOn_of_delimiter hd hfront hnext
  | none =>
    cases hq : Quote.ofOpener? c with
    | some q => exact goesOn_of_opener hd hq hfront hnext
    | none => exact goesOn_of_other hd hq hfront hnext

end Lexeme

end TableRebuild
