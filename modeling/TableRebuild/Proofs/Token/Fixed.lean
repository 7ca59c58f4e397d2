import TableRebuild.Proofs.Token.Lexing
import TableRebuild.Token.Placed

/-!
# Words and delimiters that a statement is made of

Every statement that is printed has words in it that are always the same, and parentheses and
commas. As lexemes they are read as they are wherever they stand, a word up to the next character
that is no part of a word, a delimiter in front of anything.

The words are capital letters of ASCII, so it is enough to know that such letters are word
characters and nothing else. An `x` in front is left out, because before a quote it begins a blob.
-/

namespace TableRebuild

/-! ## Letters -/

theorem Text.toNat_of_isAlpha {c : Char} (h : c.isAlpha = true) :
    (65 ≤ c.toNat ∧ c.toNat ≤ 90) ∨ (97 ≤ c.toNat ∧ c.toNat ≤ 122) := by
  change (decide (65 ≤ c.val ∧ c.val ≤ 90) ||
    (decide (97 ≤ c.val) && decide (c.val ≤ 122))) = true at h
  simp only [Bool.or_eq_true, Bool.and_eq_true, decide_eq_true_eq, UInt32.le_iff_toNat_le] at h
  exact h

theorem Text.isWordStart_of_isAlpha {c : Char} (h : c.isAlpha = true) : isWordStart c = true := by
  have hsmall : c.toNat < 0x80 := by
    have := toNat_of_isAlpha h
    omega
  simp [isWordStart, isAlphabetic, hsmall, h]

theorem Text.isBlank_of_isAlpha {c : Char} (h : c.isAlpha = true) : isBlank c = false := by
  have hletters : ∀ r ∈ blankRanges, r.last < 65 ∨ 122 < r.first := by decide
  rw [isBlank, Bool.eq_false_iff]
  intro hblank
  obtain ⟨r, hr, hfirst, hlast⟩ := CodeRange.anyContains_eq_true_iff.1 hblank
  have := hletters r hr
  have := toNat_of_isAlpha h
  omega

theorem Delimiter.ofChar?_of_isAlpha {c : Char} (h : c.isAlpha = true) : ofChar? c = none := by
  cases hd : ofChar? c with
  | none => rfl
  | some d =>
    obtain rfl := ofChar?_eq_some_iff.1 hd
    cases d <;> exact absurd h Bool.false_ne_true

theorem Quote.ofOpener?_of_isAlpha {c : Char} (h : c.isAlpha = true) : ofOpener? c = none := by
  rw [ofOpener?, List.find?_eq_none]
  intro q _ hq
  obtain rfl := eq_of_beq hq
  cases q <;> exact absurd h Bool.false_ne_true

/-! ## Words -/

theorem Kind.ofWord_text (k : Keyword) : ofWord k.text = .keyword k := by
  rw [ofWord, Keyword.ofText?_eq_some_iff.2 rfl]

namespace Lexeme

variable {gap : List Char}

/-- A bare word behind a gap. -/
def word (gap : List Char) (text : String) : Lexeme := ⟨gap, .ofWord text, text.toList⟩

/-- **A word of letters is read as it is**, up to a break or the end of the text. -/
theorem reads_word (hgap : Gap.Closed gap) {text : String} {c : Char} {cs rest : List Char}
    (htext : text.toList = c :: cs) (hletters : (c :: cs).all Char.isAlpha = true)
    (hx : (c == 'x' || c == 'X') = false) (hedge : SameEdge [] rest) :
    (word gap text).Reads rest := by
  have hrest := hedge.head_false isWordChar_of_mem_breaks (by simp)
  rw [List.all_cons, Bool.and_eq_true_iff] at hletters
  obtain ⟨hc, hcs⟩ := hletters
  have hrun : ∀ d ∈ cs, Text.isWordChar d = true := fun d hd =>
    Text.isWordChar_of_isWordStart (Text.isWordStart_of_isAlpha (List.all_eq_true.1 hcs d hd))
  have hdigit : c.isDigit = false := by
    have hnat := Text.toNat_of_isAlpha hc
    rw [Bool.eq_false_iff, ne_eq, Char.isDigit_iff_toNat]
    show ¬(48 ≤ c.toNat ∧ c.toNat ≤ 57)
    omega
  rw [reads_iff]
  simp only [word, htext]
  refine ⟨hgap, ?_, ?_⟩
  · rw [List.cons_append, Gap.stops_cons_iff]
    refine ⟨Text.isBlank_of_isAlpha hc, ?_, ?_⟩
    · rintro ⟨rfl, -⟩
      exact absurd hc Bool.false_ne_true
    · rintro ⟨rfl, -⟩
      exact absurd hc Bool.false_ne_true
  · rw [List.cons_append, Front.of_of_other (Delimiter.ofChar?_of_isAlpha hc)
      (Quote.ofOpener?_of_isAlpha hc), Front.beginsBlob, hx, Bool.false_and,
      if_neg Bool.false_ne_true, Front.plain, hdigit, if_neg Bool.false_ne_true,
      if_pos (Text.isWordStart_of_isAlpha hc), Front.word,
      List.takeWhile_append_of_pos hrun, List.dropWhile_append_of_pos hrun]
    have hstop : rest.takeWhile Text.isWordChar = [] ∧ rest.dropWhile Text.isWordChar = rest := by
      cases rest with
      | nil => exact ⟨rfl, rfl⟩
      | cons d rest =>
        have hd : Text.isWordChar d = false := hrest d rfl
        simp [hd]
    rw [hstop.1, hstop.2, List.append_nil, ← htext, String.ofList_toList]

/-! ## Delimiters -/

/-- A delimiter behind a gap. -/
def delimiter (gap : List Char) (d : Delimiter) : Lexeme := ⟨gap, .delimiter d, [d.char]⟩

/-- A delimiter is read as it is, unless it is a point, which may begin a number. -/
theorem reads_delimiter (hgap : Gap.Closed gap) {d : Delimiter} (hd : d ≠ .dot)
    (rest : List Char) : (delimiter gap d).Reads rest := by
  rw [reads_iff]
  refine ⟨hgap, ?_, ?_⟩
  · rw [delimiter, List.singleton_append, Gap.stops_cons_iff]
    cases d <;> simp [Delimiter.char] <;> rfl
  · rw [delimiter, List.singleton_append,
      Front.of_of_delimiter (Delimiter.ofChar?_eq_some_iff.2 rfl), if_neg (fun h => hd h.1)]

end Lexeme
end TableRebuild
