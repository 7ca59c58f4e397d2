import TableRebuild.Proofs.Token.Operator
import TableRebuild.Proofs.Token.Seam

/-!
# Comments between tokens

A comment is a gap, and a gap may be exchanged for a space without changing what a text says. But it
is a gap only where a token does not go on with it. The marks that begin comments are operator
characters, and comments are looked for between tokens only; so a run of operator characters takes
a comment behind it into itself (`a>/*...*/b`), and a number that ends in an exponent mark takes the
first half of `--` for its sign.

Behind which tokens a comment may stand without a space is said exactly, for the two kinds of
comments, by `EndsWith.wording_block_iff` and `EndsWith.wording_line_iff`.
-/

namespace TableRebuild

/-- A comment between marks. -/
def blockComment (body : String) : String := "/*" ++ body ++ "*/"

/-- A comment to the end of a line, and the line break. -/
def lineComment (body : String) : String := "--" ++ body ++ "\n"

theorem exists_toList_blockComment {body : String} (h : ¬['*', '/'] <:+: body.toList) :
    ∃ gap, (blockComment body).toList = '/' :: gap ∧ Gap.Closed ('/' :: gap) := by
  have hclosed := Gap.Closed.block (Gap.commentEnd_append_mark h) .nil
  rw [List.append_nil] at hclosed
  exact ⟨_, by simp [blockComment], hclosed⟩

theorem exists_toList_lineComment {body : String} (h : '\n' ∉ body.toList) :
    ∃ gap, (lineComment body).toList = '-' :: gap ∧ Gap.Closed ('-' :: gap) :=
  ⟨_, by simp [lineComment], Gap.Closed.line h .nil⟩

namespace EndsWith

open Lexeme

variable {a : String} {t : Token}

/-- **A comment is as good as a space**, behind a token that does not go on with its mark. -/
theorem wording_gap {ls : List Lexeme} {l : Lexeme} (ha : a.toList = (ls ++ [l]).flatMap written)
    (hall : AllRead (ls ++ [l]) []) {comment : String} {c : Char} {gap : List Char}
    (hcomment : comment.toList = c :: gap) (hgap : Gap.Closed (c :: gap))
    (hgoes : Front.goesOn l.text c = false) (b : String) :
    wording (a ++ comment ++ b) = wording (a ++ " " ++ b) := by
  have hspace := Front.goesOn_of_mem_breaks l.text ' ' List.mem_cons_self
  have hleft := Lexing.wording_append_gap hall hgap hgoes b.toList
  have hright := Lexing.wording_append_gap hall Gap.closed_space hspace b.toList
  rw [← Lexing.wording_of_toList, ← Lexing.wording_of_toList]
  simp only [String.toList_append, ha, hcomment, List.append_assoc]
  exact hleft.trans hright.symm

theorem wording_space {ls : List Lexeme} {l : Lexeme} (ha : a.toList = (ls ++ [l]).flatMap written)
    (hall : AllRead (ls ++ [l]) []) : wording (a ++ " " ++ "") = .ok ((ls ++ [l]).map token) := by
  have hspace := Front.goesOn_of_mem_breaks l.text ' ' List.mem_cons_self
  have hsays := Lexing.wording_append_gap hall Gap.closed_space hspace []
  rw [Lexing.wording_of_nil] at hsays
  rw [← Lexing.wording_of_toList]
  simp only [String.append_empty, String.toList_append, ha]
  refine Eq.trans hsays ?_
  simp [Except.map]

/-- Where the last token of the text goes on with the comment, the comment makes a difference. -/
theorem wording_ne {ls : List Lexeme} {l : Lexeme} (ha : a.toList = (ls ++ [l]).flatMap written)
    (hall : AllRead (ls ++ [l]) []) {comment : String} {c : Char} {gap : List Char}
    (hcomment : comment.toList = c :: gap) (hgoes : Front.goesOn l.text c = true)
    (hminus : l.text = ['-'] → c ≠ '-') (hstar : c ≠ '*') :
    wording (a ++ comment ++ "") ≠ wording (a ++ " " ++ "") := by
  rw [wording_space ha hall, ← Lexing.wording_of_toList]
  simp only [String.append_empty, String.toList_append, ha, hcomment]
  apply Lexing.wording_append_ne hall
  · exact hall.last.stops_text.append hall.last.text_ne_nil (by simpa using hminus)
      (by simpa using fun _ => hstar)
  · rw [hall.last.iff_goesOn]
    simpa using hgoes

/-- A single `-` becomes a part of the mark of a line comment, and is lost. -/
theorem wording_ne_of_minus {ls : List Lexeme} {l : Lexeme}
    (ha : a.toList = (ls ++ [l]).flatMap written) (hall : AllRead (ls ++ [l]) [])
    (hminus : l.text = ['-']) :
    wording (a ++ lineComment "" ++ "") ≠ wording (a ++ " " ++ "") := by
  have hgap := (reads_iff.1 hall.last).1
  have hline : Gap.Closed ('-' :: '-' :: (['-'] ++ '\n' :: [])) := .line (by simp) .nil
  have hsays := Lexing.wording_append (hall.of_concat ['-', '-', '\n'])
  have hnone := Lexing.wording_gap hline []
  rw [Lexing.wording_of_nil] at hnone
  rw [written, hminus, List.append_assoc, Lexing.wording_gap hgap] at hsays
  have hleft : wording (a ++ lineComment "" ++ "") = .ok (ls.map token) := by
    have hchars : (a ++ lineComment "" ++ "").toList =
        ls.flatMap written ++ (l.gap ++ (['-'] ++ ['-', '-', '\n'])) := by
      simp [ha, written, hminus, lineComment]
    rw [← Lexing.wording_of_toList, hchars, hsays]
    refine Eq.trans (congrArg (Except.map (ls.map token ++ ·)) hnone) ?_
    simp [Except.map]
  rw [wording_space ha hall, hleft]
  intro heq
  have hlength := congrArg List.length (Except.ok.inj heq)
  simp at hlength

/-- A block comment may be put for a space behind every token that is no operator. -/
theorem wording_block_iff (h : EndsWith a t) :
    (∀ body b, ¬['*', '/'] <:+: body.toList →
      wording (a ++ blockComment body ++ b) = wording (a ++ " " ++ b)) ↔ t.isOperator = false := by
  obtain ⟨ls, l, ha, hall, htoken⟩ := h.exists_lexemes
  have hgoes : Front.goesOn l.text '/' = t.isOperator := by
    rw [hall.last.goesOn_of_isOperatorChar rfl, htoken, Token.takesIn_slash]
    rfl
  constructor
  · intro hsame
    by_contra hop
    have hshort : (blockComment "").toList = ['/', '*', '*', '/'] := rfl
    rw [Bool.not_eq_false] at hop
    exact wording_ne ha hall hshort (hgoes.trans hop) (by simp) (by simp) (hsame "" "" (by simp))
  · intro hop body b hbody
    obtain ⟨gap, hcomment, hgap⟩ := exists_toList_blockComment hbody
    exact wording_gap ha hall hcomment hgap (hgoes.trans hop) b

/-- A line comment, with its line break, may be put for a space behind every token that is neither
    an operator nor a number that awaits a sign. -/
theorem wording_line_iff (h : EndsWith a t) :
    (∀ body b, '\n' ∉ body.toList →
      wording (a ++ lineComment body ++ b) = wording (a ++ " " ++ b)) ↔
        t.isOperator = false ∧ t.awaitsSign = false := by
  obtain ⟨ls, l, ha, hall, htoken⟩ := h.exists_lexemes
  have hgoes : Front.goesOn l.text '-' = (t.isOperator || t.awaitsSign) := by
    rw [hall.last.goesOn_of_isOperatorChar rfl, htoken, Token.takesIn_minus]
    rfl
  rw [← Bool.or_eq_false_iff]
  constructor
  · intro hsame
    by_contra hop
    have hshort : (lineComment "").toList = ['-', '-', '\n'] := rfl
    have hempty := hsame "" "" (by simp)
    rw [Bool.not_eq_false] at hop
    by_cases hminus : l.text = ['-']
    · exact wording_ne_of_minus ha hall hminus hempty
    · exact wording_ne ha hall hshort (hgoes.trans hop) (fun h => absurd h hminus) (by simp) hempty
  · intro hop body b hbody
    obtain ⟨gap, hcomment, hgap⟩ := exists_toList_lineComment hbody
    exact wording_gap ha hall hcomment hgap (hgoes.trans hop) b

end EndsWith

end TableRebuild
