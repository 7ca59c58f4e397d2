import TableRebuild.Proofs.Token.Operator
import TableRebuild.Proofs.Token.Seam

/-!
# Signs between tokens

`a+b` and `a + b` should say the same, and they do. A sign is an operator character, so behind a
token that does not take it in it begins a token of its own, and there a space in front of it is a
gap like any other (`EndsWith.wording_space_sign`). A space behind it is one too, unless more
operator characters follow (`EndsWith.wording_sign_space`).

Behind an operator it is another matter. Operators are runs of operator characters, signs too, and
`a=-1` is `a`, `=-` and `1` (`EndsWith.exists_wording_operator`). This is said of runs that have no
mark of a comment in them (`Gap.Unmarked`). A run that has one is an operator with a comment behind
it that is written without a space, and what should become of that is no question of signs.
-/

namespace TableRebuild

namespace Token

/-- A number in hexadecimal digits, with `0x` in front. -/
def isHexadecimal (t : Token) : Bool :=
  t.kind == .verbatim &&
    (['0', 'x'].isPrefixOf t.text.toList || ['0', 'X'].isPrefixOf t.text.toList)

variable {t : Token} {next : Char}

/-- Only what is written verbatim takes anything in. -/
theorem takesIn_of_not_verbatim (h : t.kind ≠ .verbatim) : t.takesIn next = false := by
  simp [takesIn, isOperator, awaitsSign, isNumber, h]

theorem takesIn_of_isWord (h : t.isWord = true) : t.takesIn next = false := by
  apply takesIn_of_not_verbatim
  intro hkind
  rw [isWord, hkind] at h
  exact absurd h Bool.false_ne_true

theorem takesIn_of_isDelimiter {d : Delimiter} (h : t.isDelimiter d = true) :
    t.takesIn next = false := by
  apply takesIn_of_not_verbatim
  rw [eq_of_beq h]
  exact Kind.noConfusion

/-- A number in hexadecimal digits does not take a sign in if its last digit is not an `e`. -/
theorem takesIn_of_isHexadecimal (h : t.isHexadecimal = true)
    (hlast : Lexeme.endsInMark false t.text.toList = false) : t.takesIn next = false := by
  obtain ⟨hkind, hprefix⟩ := Bool.and_eq_true_iff.1 h
  have hhead : t.text.toList.head? = some '0' := by
    rw [Bool.or_eq_true, List.isPrefixOf_iff_prefix, List.isPrefixOf_iff_prefix] at hprefix
    rcases hprefix with ⟨more, hmore⟩ | ⟨more, hmore⟩
    · rw [← hmore]
      rfl
    · rw [← hmore]
      rfl
  have hoperator : t.isOperator = false := by
    rw [isOperator, hhead, hkind]
    rfl
  rw [takesIn, hoperator, awaitsSign, hlast, Bool.and_false, Bool.false_and, Bool.or_false]

end Token

namespace Lexeme

theorem isSign_iff {c : Char} : isSign c = true ↔ c = '+' ∨ c = '-' := by
  simp [isSign]

theorem isOperatorChar_of_isSign {c : Char} (h : isSign c = true) : isOperatorChar c = true := by
  rcases isSign_iff.1 h with rfl | rfl
  · rfl
  · rfl

end Lexeme

/-! ## Operators -/

/-- The characters have neither of the two marks in them that open a comment. -/
def Gap.Unmarked (cs : List Char) : Prop := ¬['-', '-'] <:+: cs ∧ ¬['/', '*'] <:+: cs

instance (cs : List Char) : Decidable (Gap.Unmarked cs) :=
  inferInstanceAs (Decidable (¬['-', '-'] <:+: cs ∧ ¬['/', '*'] <:+: cs))

namespace Front

open Lexeme

variable {c : Char} {tail rest : List Char}

/-- What begins like an operator was read as one, and is whatever stands behind. -/
theorem of_eq_operator (h : of (c :: (tail ++ rest)) = .token .verbatim (c :: tail) rest)
    (hnumber : isNumberChar c = false) (hquote : c ≠ '\'') (cs : List Char) :
    of (c :: cs) = operator c cs := by
  cases hd : Delimiter.ofChar? c with
  | some d =>
    rw [of_of_delimiter hd, if_neg] at h
    · exact absurd h (by simp)
    · rintro ⟨rfl, -⟩
      rw [Delimiter.ofChar?_eq_some_iff.1 hd] at hnumber
      exact absurd hnumber (by decide)
  | none =>
    cases hq : Quote.ofOpener? c with
    | some q =>
      have hc := Quote.opener_eq_of_ofOpener? hq
      rw [of_of_opener hd hq, quoted] at h
      cases q with
      | single => exact absurd hc.symm hquote
      | double | backtick | bracket => split at h <;> simp [Quote.quotesName] at h
    | none =>
      have hblob : ∀ behind, ¬beginsBlob c behind = true := by
        intro behind hx
        have hletter : c = 'x' ∨ c = 'X' := by simpa using (Bool.and_eq_true_iff.1 hx).1
        rcases hletter with rfl | rfl
        · exact absurd hnumber (by decide)
        · exact absurd hnumber (by decide)
      have hdigit : ¬c.isDigit = true := by
        intro hdigit
        rw [isNumberChar_of_isDigit hdigit] at hnumber
        exact absurd hnumber (by simp)
      have hword : ¬Text.isWordStart c = true := by
        intro hword
        rw [of_of_other hd hq, if_neg (hblob _), plain, if_neg hdigit, if_pos hword] at h
        simp only [Front.word, Front.token.injEq, Kind.ofWord] at h
        have hkind := h.1
        split at hkind <;> simp at hkind
      rw [of_of_other hd hq, if_neg (hblob _), plain, if_neg hdigit, if_neg hword]

end Front

namespace Lexeme

variable {l : Lexeme} {c : Char} {cs : List Char}

/-- The operator that the lexeme is with the operator characters behind it. -/
def extended (l : Lexeme) (cs : List Char) : Lexeme :=
  { l with text := l.text ++ cs.takeWhile isOperatorChar }

/-- Where a mark is not in the run, the lexeme and the character behind it do not make the mark. -/
theorem head?_ne_of_notInfix {d e : Char} (hmark : ¬[d, e] <:+: (l.extended cs).text)
    (he : isOperatorChar e = true) : l.text = [d] → cs.head? ≠ some e := by
  intro htext hhead
  obtain ⟨more, rfl⟩ := List.head?_eq_some_iff.1 hhead
  refine hmark ⟨[], more.takeWhile isOperatorChar, ?_⟩
  rw [Lexeme.extended, htext, List.takeWhile_cons_of_pos he]
  rfl

/-- **An operator takes in the operator characters behind it**, if there is no mark of a comment in
    what they are together. -/
theorem Reads.extended (h : l.Reads []) (hop : l.token.isOperator = true)
    (hmarks : Gap.Unmarked (l.extended cs).text) :
    (l.extended cs).Reads (cs.dropWhile isOperatorChar) := by
  obtain ⟨hgap, -, hfront⟩ := reads_iff.1 h
  obtain ⟨gap, kind, text⟩ := l
  obtain ⟨c, tail, rfl⟩ := List.exists_cons_of_ne_nil h.text_ne_nil
  obtain ⟨hkind, hfirst⟩ := Bool.and_eq_true_iff.1 hop
  obtain rfl : kind = .verbatim := eq_of_beq hkind
  obtain ⟨hnumber, hquote⟩ : isNumberChar c = false ∧ c ≠ '\'' := by
    simpa [token] using hfirst
  have hof := Front.of_eq_operator hfront hnumber hquote
  have htail : ∀ d ∈ tail, isOperatorChar d = true := by
    rw [List.cons_append, hof, Front.operator] at hfront
    simp only [Front.token.injEq, List.cons.injEq, true_and, List.append_nil] at hfront
    intro d hd
    rw [← hfront.1] at hd
    exact List.mem_takeWhile_imp hd
  have hwhole : (c :: tail ++ cs.takeWhile isOperatorChar) ++ cs.dropWhile isOperatorChar =
      c :: (tail ++ cs) := by simp
  refine reads_iff.2 ⟨hgap, ?_, ?_⟩
  · simp only [Lexeme.extended, hwhole]
    exact h.stops_text.append h.text_ne_nil (head?_ne_of_notInfix hmarks.1 rfl)
      (head?_ne_of_notInfix hmarks.2 rfl)
  · simp only [Lexeme.extended, hwhole, hof, Front.operator]
    rw [List.takeWhile_append_of_pos htail, List.dropWhile_append_of_pos htail]
    rfl

theorem AllRead.concat_extended {ls : List Lexeme} {rest : List Char} (h : AllRead (ls ++ [l]) [])
    (hread : (l.extended cs).Reads rest) : AllRead (ls ++ [l.extended cs]) rest := by
  refine allRead_append.2 ⟨?_, hread, trivial⟩
  have hfront := h.of_concat (cs.takeWhile isOperatorChar ++ rest)
  simpa [written, Lexeme.extended] using hfront

/-- A sign alone is an operator. -/
def sign (c : Char) : Lexeme := ⟨[], .verbatim, [c]⟩

theorem reads_sign (hc : isSign c = true) (h : ∀ d ∈ cs.head?, isOperatorChar d = false) :
    (sign c).Reads cs := by
  have hsigns := isSign_iff.1 hc
  have hread : (sign c).Reads [] := by
    refine reads_iff.2 ⟨.nil, ?_, ?_⟩
    · rcases hsigns with rfl | rfl
      · exact Gap.stops_cons_iff.2 (by decide)
      · exact Gap.stops_cons_iff.2 (by decide)
    · rcases hsigns with rfl | rfl
      · rfl
      · rfl
  rw [hread.iff_goesOn]
  intro d hd
  rcases hsigns with rfl | rfl
  · exact h d hd
  · exact h d hd

end Lexeme

namespace EndsWith

open Lexeme

variable {a : String} {t : Token} {c : Char}

/-- **A space before a sign makes no difference** behind a token that does not take the sign in. -/
theorem wording_space_sign (h : EndsWith a t) (hc : isSign c = true) (ht : t.takesIn c = false)
    (r : String) :
    wording (a ++ String.singleton c ++ r) = wording (a ++ " " ++ String.singleton c ++ r) := by
  obtain ⟨ls, l, ha, hall, htoken⟩ := h.exists_lexemes
  have hread : l.Reads (c :: r.toList) := by
    rw [hall.last.iff_goesOn]
    intro d hd
    obtain rfl : c = d := by simpa using hd
    rw [hall.last.goesOn_of_isOperatorChar (isOperatorChar_of_isSign hc), htoken]
    exact ht
  have hspace := Front.goesOn_of_mem_breaks l.text ' ' List.mem_cons_self
  have hleft := Lexing.wording_append ((allRead_concat_iff hall).2 hread)
  have hright := Lexing.wording_append_gap hall Gap.closed_space hspace (c :: r.toList)
  rw [← Lexing.wording_of_toList, ← Lexing.wording_of_toList]
  simp only [String.toList_append, String.toList_singleton, ha, List.append_assoc]
  exact hleft.trans hright.symm

/-- **A space behind a sign makes no difference** where the sign is an operator of its own. -/
theorem wording_sign_space (h : EndsWith a t) (hc : isSign c = true) {r : String}
    (hr : ∀ d ∈ r.toList.head?, isOperatorChar d = false) :
    wording (a ++ " " ++ String.singleton c ++ r) =
      wording (a ++ " " ++ String.singleton c ++ " " ++ r) := by
  obtain ⟨ls, l, ha, hall, -⟩ := h.exists_lexemes
  have hspace := Front.goesOn_of_mem_breaks l.text ' ' List.mem_cons_self
  have hbefore := Lexing.wording_append_gap hall Gap.closed_space hspace
  have hsign : ∀ cs : List Char, (∀ d ∈ cs.head?, isOperatorChar d = false) →
      (Lexing.of (c :: cs)).wording = (Lexing.of cs).wording.map ([(sign c).token] ++ ·) := by
    intro cs hcs
    have hread : AllRead [sign c] cs := ⟨reads_sign hc hcs, trivial⟩
    exact Lexing.wording_append hread
  have hgap := Lexing.wording_gap Gap.closed_space r.toList
  rw [← Lexing.wording_of_toList, ← Lexing.wording_of_toList]
  simp only [String.toList_append, String.toList_singleton, ha, List.append_assoc]
  refine (hbefore (c :: r.toList)).trans (Eq.trans ?_ (hbefore (c :: ' ' :: r.toList)).symm)
  rw [hsign _ hr, hsign _ (by simpa using isOperatorChar_of_mem_breaks ' ' List.mem_cons_self)]
  rw [← hgap]
  rfl

/-- **Behind an operator a sign is a part of it**, with all operator characters that follow, if there
    is no mark of a comment in this run. -/
theorem exists_wording_operator (h : EndsWith a t) (hop : t.isOperator = true)
    (hc : isSign c = true) :
    ∃ us, wording a = .ok (us ++ [t.unplaced]) ∧ ∀ r : String,
      Gap.Unmarked (t.text.toList ++ c :: r.toList.takeWhile isOperatorChar) →
      wording (a ++ String.singleton c ++ r) =
        (wording (String.ofList (r.toList.dropWhile isOperatorChar))).map
          (us ++ [⟨.verbatim, t.text ++ String.singleton c ++
            String.ofList (r.toList.takeWhile isOperatorChar), ⟨0, 0⟩⟩] ++ ·) := by
  obtain ⟨ls, l, ha, hall, htoken⟩ := h.exists_lexemes
  refine ⟨ls.map token, ?_, ?_⟩
  · rw [← Lexing.wording_of_toList, ha, ← htoken, Lexing.wording_flatMap_written hall,
      List.map_append, List.map_singleton]
  · intro r hmarks
    have htext : String.ofList l.text = t.text := congrArg Token.text htoken
    have hop' : l.token.isOperator = true := by rw [htoken]; exact hop
    have htake := List.takeWhile_cons_of_pos (l := r.toList) (isOperatorChar_of_isSign hc)
    have hdrop := List.dropWhile_cons_of_pos (l := r.toList) (isOperatorChar_of_isSign hc)
    have hrun : (l.extended (c :: r.toList)).text =
        t.text.toList ++ c :: r.toList.takeWhile isOperatorChar := by
      rw [Lexeme.extended, htake, ← htext, String.toList_ofList]
    rw [← hrun] at hmarks
    have hread := hall.last.extended hop' hmarks
    have hwording := Lexing.wording_append (hall.concat_extended hread)
    have hwhole : (a ++ String.singleton c ++ r).toList =
        (ls ++ [l.extended (c :: r.toList)]).flatMap written ++
          (c :: r.toList).dropWhile isOperatorChar := by
      simp [ha, written, Lexeme.extended]
    have hlast : (l.extended (c :: r.toList)).token = ⟨.verbatim, t.text ++ String.singleton c ++
        String.ofList (r.toList.takeWhile isOperatorChar), ⟨0, 0⟩⟩ := by
      have hkind : (l.extended (c :: r.toList)).kind = .verbatim :=
        eq_of_beq (Bool.and_eq_true_iff.1 hop').1
      rw [token, hkind, hrun, List.append_cons, String.ofList_append, String.ofList_append,
        String.ofList_toList, String.singleton_eq_ofList]
    rw [← Lexing.wording_of_toList, hwhole, hwording, ← Lexing.wording_of_toList, hdrop,
      String.toList_ofList, List.map_append, List.map_singleton, hlast]

end EndsWith
end TableRebuild
