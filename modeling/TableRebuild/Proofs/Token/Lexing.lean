import TableRebuild.Proofs.Token.Front

/-!
# Lexemes that can be moved

`Lexing.of` takes a text apart. Here is the way back: which sequences of lexemes, written one after
the other, are taken apart into the same lexemes again. `Lexeme.AllRead ls rest` says it of the
lexemes `ls` in front of a text `rest`, and `Lexing.of_append` is what it is worth: the lexing of
the whole is `ls` and then the lexing of `rest`.

Three moves keep the property, and together they are all that writing a statement from pieces of
other statements needs:

* a part of the lexemes may be taken (`allRead_append`);
* the text behind may be exchanged for one with the same edge (`AllRead.of_sameEdge`), and only the
  last lexeme has a say in whether for another (`Reads.iff_goesOn`);
* the gap in front may be exchanged for any closed one (`Reads.withGap`).

Every text gives such lexemes to start from (`allRead_of`).
-/

namespace TableRebuild

/-- Whether a token is preceded by a longer gap is up to its first two characters. -/
theorem Gap.Stops.of_goesOn {kind : Kind} {text rest rest' : List Char}
    (h : Gap.Stops (text ++ rest)) (hfront : Front.of (text ++ rest) = .token kind text rest)
    (hrest : ∀ c ∈ rest'.head?, Front.goesOn text c = false) : Gap.Stops (text ++ rest') := by
  obtain ⟨c, tail, rfl⟩ := List.exists_cons_of_ne_nil (Front.text_ne_nil_of_eq hfront)
  rw [List.cons_append, Gap.stops_cons_iff] at h ⊢
  by_cases htail : tail = []
  · -- The characters that begin comments are operators, and go on with each other.
    subst htail
    refine ⟨h.1, ?_, ?_⟩
    · rintro ⟨rfl, hd⟩
      exact absurd (hrest '-' hd) (by decide)
    · rintro ⟨rfl, hd⟩
      exact absurd (hrest '*' hd) (by decide)
  · rw [Front.head_append htail rest' rest]
    exact h

namespace Lexeme

/-! ## One lexeme -/

/-- In front of `rest` the lexeme is read as it is. -/
def Reads (l : Lexeme) (rest : List Char) : Prop :=
  scan (l.written ++ rest) = .lexeme l rest

/-- A lexeme is read as it is if its gap is a gap wherever it stands, its text does not lengthen
    the gap, and a token ends where its text does. -/
theorem reads_iff {l : Lexeme} {rest : List Char} : l.Reads rest ↔
    Gap.Closed l.gap ∧ Gap.Stops (l.text ++ rest) ∧
      Front.of (l.text ++ rest) = .token l.kind l.text rest := by
  unfold Reads
  constructor
  · intro h
    have htext := (scan_eq_lexeme h).2
    unfold scan at h
    split at h
    · exact absurd h (by simp)
    · rename_i gap ahead hskip
      split at h
      · exact absurd h (by simp)
      · rename_i kind text after hfront
        simp only [Scanned.lexeme.injEq] at h
        obtain ⟨rfl, rfl⟩ := h
        have hwhole : ahead = text ++ after := by
          have hfrontWhole := Front.whole_of ahead
          rw [hfront] at hfrontWhole
          exact hfrontWhole.symm
        subst hwhole
        have hne : text ++ after ≠ [] := by
          intro hnil
          exact htext (List.append_eq_nil_iff.1 hnil).1
        exact ⟨Gap.closed_of_skip hskip hne, Gap.stops_of_skip hskip, hfront⟩
      · exact absurd h (by simp)
  · rintro ⟨hgap, hstops, hfront⟩
    have hskip : Gap.skip (l.written ++ rest) = .upTo l.gap (l.text ++ rest) := by
      rw [written, List.append_assoc, Gap.skip_append hgap, hstops, Skipped.after, List.append_nil]
    simp only [scan, hskip, hfront]

variable {l : Lexeme} {rest rest' : List Char}

theorem Reads.text_ne_nil (h : l.Reads rest) : l.text ≠ [] := (scan_eq_lexeme h).2

/-- **A lexeme that is read in front of one text is read in front of another** just if its token
    does not go on with the character that the other begins with. -/
theorem Reads.iff_goesOn (h : l.Reads rest) :
    l.Reads rest' ↔ ∀ c ∈ rest'.head?, Front.goesOn l.text c = false := by
  obtain ⟨hgap, hstops, hfront⟩ := reads_iff.1 h
  rw [reads_iff, Front.of_append_iff hfront]
  constructor
  · exact fun ⟨_, _, hrest⟩ => hrest
  · exact fun hrest => ⟨hgap, hstops.of_goesOn hfront hrest, hrest⟩

theorem Reads.of_sameEdge (h : l.Reads rest) (he : SameEdge rest rest') : l.Reads rest' := by
  rw [h.iff_goesOn]
  exact he.head_false (Front.goesOn_of_mem_breaks l.text) (h.iff_goesOn.1 h)

/-- Which gap stands before it makes no difference to a token. -/
theorem Reads.withGap (h : l.Reads rest) {gap : List Char} (hgap : Gap.Closed gap) :
    Reads { l with gap } rest := by
  obtain ⟨-, hstops, hfront⟩ := reads_iff.1 h
  exact reads_iff.2 ⟨hgap, hstops, hfront⟩

/-! ## Sequences -/

/-- In front of `rest` the lexemes are read as they are, one after the other. -/
def AllRead : List Lexeme → List Char → Prop
  | [], _ => True
  | l :: ls, rest => l.Reads (ls.flatMap written ++ rest) ∧ AllRead ls rest

theorem allRead_append {as bs : List Lexeme} : AllRead (as ++ bs) rest ↔
    AllRead as (bs.flatMap written ++ rest) ∧ AllRead bs rest := by
  induction as with
  | nil => simp [AllRead]
  | cons a as ih => simp only [List.cons_append, AllRead, ih, List.flatMap_append,
      List.append_assoc, and_assoc]

theorem AllRead.of_sameEdge {ls : List Lexeme} (h : AllRead ls rest) (he : SameEdge rest rest') :
    AllRead ls rest' := by
  induction ls with
  | nil => trivial
  | cons l ls ih => exact ⟨h.1.of_sameEdge (he.append _), ih h.2⟩

/-- The lexemes with the first gap exchanged. -/
def withGap (gap : List Char) : List Lexeme → List Lexeme
  | [] => []
  | l :: ls => { l with gap } :: ls

theorem AllRead.withGap {ls : List Lexeme} (h : AllRead ls rest) {gap : List Char}
    (hgap : Gap.Closed gap) : AllRead (withGap gap ls) rest := by
  cases ls with
  | nil => trivial
  | cons l ls => exact ⟨h.1.withGap hgap, h.2⟩

end Lexeme

namespace Lexing

open Lexeme

theorem of_of_scan {cs rest : List Char} {l : Lexeme} (h : scan cs = .lexeme l rest) :
    of cs = cons l (of rest) := by
  rw [of]
  split
  · rename_i l' rest' h'
    rw [h] at h'
    simp only [Scanned.lexeme.injEq] at h'
    rw [h'.1, h'.2]
  · rename_i h'
    rw [h] at h'
    exact absurd h' (by simp)

/-- **Lexemes that are read as they are, are the first of the lexing of the whole.** -/
theorem of_append {ls : List Lexeme} {rest : List Char} (h : AllRead ls rest) :
    of (ls.flatMap written ++ rest) = ⟨ls ++ (of rest).lexemes, (of rest).ending⟩ := by
  induction ls with
  | nil => rfl
  | cons l ls ih =>
    rw [List.flatMap_cons, List.append_assoc, of_of_scan h.1, ih h.2]
    rfl

theorem of_nil : of [] = ⟨[], .finished []⟩ := by
  rw [of]
  split <;> rename_i hscan <;> simp [scan, Gap.skip, Front.of] at hscan
  rw [hscan]

theorem of_flatMap_written {ls : List Lexeme} (h : AllRead ls []) :
    of (ls.flatMap written) = ⟨ls, .finished []⟩ := by
  simpa [of_nil] using of_append h

/-- The lexemes of a text are read as they are, in front of its ending. -/
theorem allRead_of (cs : List Char) : AllRead (of cs).lexemes (of cs).ending.written := by
  fun_induction of cs with
  | case1 cs l rest h _ ih =>
    refine ⟨?_, ih⟩
    have hrest : (of rest).lexemes.flatMap written ++ (of rest).ending.written = rest :=
      whole_of rest
    show l.Reads ((of rest).lexemes.flatMap written ++ (of rest).ending.written)
    rw [hrest, Reads, ← (scan_eq_lexeme h).1]
    exact h
  | case2 cs e h => trivial

end Lexing
end TableRebuild
