import TableRebuild.Name
import TableRebuild.Proofs.Token.Lexing
import TableRebuild.Token.Placed

/-!
# Names between quotes

Every name is written between double quotes, with the marks in it doubled. This file says that
nothing gets out of them and nothing is lost in them: the text that `Name.quoted` gives is **one
token**, whatever characters the name has (`of_enclose_append`), and taking the quotes off gives the
name back (`unquote_enclose`).

The two facts are about two different readers. `Quote.closing` looks for the closing mark by pairing
marks from the left, and `Quote.unquote` looks at the two ends and then undoubles what is between.
That both undo `Quote.enclose` is two inductions over the same text.
-/

namespace TableRebuild
namespace Quote

theorem escape_nil (q : Quote) : q.escape [] = [] := by
  simp [escape]

theorem escape_cons {q : Quote} (h : q.doubles = true) (c : Char) (cs : List Char) :
    q.escape (c :: cs) = (if c = q.closer then [c, c] else [c]) ++ q.escape cs := by
  simp [escape, h]

/-! ## Taking the quotes off -/

theorem undouble_double (mark : Char) (cs : List Char) :
    undouble mark (mark :: mark :: cs) = mark :: undouble mark cs := by
  rw [undouble, if_pos ⟨rfl, rfl⟩]

theorem undouble_cons {mark c : Char} (h : c ≠ mark) (cs : List Char) :
    undouble mark (c :: cs) = c :: undouble mark cs := by
  cases cs with
  | nil => rfl
  | cons d cs => rw [undouble, if_neg (fun hc => h hc.1)]

/-- Doubling the marks and undoubling them gives the text back. -/
theorem unescape_escape (q : Quote) (cs : List Char) : q.unescape (q.escape cs) = cs := by
  cases hd : q.doubles with
  | false => simp [unescape, escape, hd]
  | true =>
    simp only [unescape, hd, ↓reduceIte]
    induction cs with
    | nil => rw [escape_nil]; rfl
    | cons c cs ih =>
      rw [escape_cons hd]
      by_cases hc : c = q.closer
      · rw [if_pos hc, hc, List.cons_append, List.cons_append, List.nil_append, undouble_double, ih]
      · rw [if_neg hc, List.cons_append, List.nil_append, undouble_cons hc, ih]

theorem opener_eq_of_ofOpener? {c : Char} {q : Quote} (h : ofOpener? c = some q) :
    q.opener = c := by
  have hfound := List.find?_some h
  exact eq_of_beq hfound

theorem ofOpener?_opener (q : Quote) : ofOpener? q.opener = some q := by
  cases q <;> rfl

/-- A name taken out of the quotes it was put in is the name. -/
theorem unquote_enclose {q : Quote} (h : q.quotesName = true) (cs : List Char) :
    unquote (q.enclose cs) = cs := by
  have hlast : (q.escape cs ++ [q.closer]).getLast? = some q.closer := by simp
  simp only [unquote, enclose, ofOpener?_opener, Option.filter_some, h, hlast, beq_self_eq_true,
    Bool.and_self, ↓reduceIte, List.dropLast_concat]
  exact unescape_escape q cs

/-! ## Finding the closing mark -/

/-- The closing mark of an escaped text is the one behind it, if no other mark follows. -/
theorem closing_escape {q : Quote} (h : q.doubles = true) {rest : List Char}
    (hrest : rest.head? ≠ some q.closer) (cs : List Char) :
    q.closing (q.escape cs ++ q.closer :: rest) = some (q.escape cs ++ [q.closer], rest) := by
  induction cs with
  | nil =>
    rw [escape_nil, List.nil_append, closing.eq_def]
    cases rest with
    | nil => simp
    | cons d more =>
      have hd : d ≠ q.closer := by simpa using hrest
      simp [hd]
  | cons c cs ih =>
    rw [escape_cons h]
    by_cases hc : c = q.closer
    · rw [if_pos hc, hc, List.append_assoc, List.cons_append, List.cons_append, List.nil_append,
        closing.eq_def]
      simp [h, ih]
    · rw [if_neg hc, List.append_assoc, List.cons_append, List.nil_append, closing.eq_def]
      simp [hc, ih]

end Quote

namespace Front

theorem of_opener (q : Quote) (cs : List Char) : of (q.opener :: cs) = quoted q [q.opener] cs := by
  refine of_of_opener ?_ (Quote.ofOpener?_opener q) cs
  cases q <;> rfl

/-- **A name in double quotes is one token**, whatever the name is, up to a character that is no
    quote. -/
theorem of_enclose_append (cs : List Char) {rest : List Char} (h : rest.head? ≠ some '"') :
    of (Quote.double.enclose cs ++ rest) = .token .quotedName (Quote.double.enclose cs) rest := by
  have hclose := Quote.closing_escape (q := .double) rfl h cs
  have hshape : Quote.double.enclose cs ++ rest =
      Quote.double.opener :: (Quote.double.escape cs ++ Quote.double.closer :: rest) := by
    simp [Quote.enclose]
  rw [hshape, of_opener, quoted, hclose]
  rfl

end Front

/-! ## Names as lexemes -/

namespace Name

/-- The lexeme that a name is written as, behind a gap. -/
def lexeme (gap : List Char) (n : Name) : Lexeme := ⟨gap, .quotedName, n.quoted.toList⟩

theorem withGap_lexeme (n : Name) (gap gap' : List Char) (ls : List Lexeme) :
    Lexeme.withGap gap (n.lexeme gap' :: ls) = n.lexeme gap :: ls := by
  simp only [Lexeme.withGap, lexeme]

theorem toList_quoted (n : Name) : n.quoted.toList = Quote.double.enclose n.spelling.toList := by
  simp [quoted]

theorem text_lexeme (n : Name) (gap : List Char) :
    (n.lexeme gap).text = Quote.double.enclose n.spelling.toList := by
  simp only [lexeme, toList_quoted]

theorem reads_lexeme (n : Name) {gap rest : List Char} (hgap : Gap.Closed gap)
    (hrest : rest.head? ≠ some '"') : (n.lexeme gap).Reads rest := by
  rw [Lexeme.reads_iff, text_lexeme]
  refine ⟨hgap, ?_, Front.of_enclose_append _ hrest⟩
  rw [Quote.enclose, List.cons_append, Gap.stops_cons_iff]
  exact ⟨rfl, by simp [Quote.opener], by simp [Quote.opener]⟩

/-- The name that a quoted name is read as. -/
theorem ofToken_quoted (n : Name) (s : Span) : ofToken ⟨.quotedName, n.quoted, s⟩ = n := by
  simp only [ofToken, Token.spelling, toList_quoted, Quote.unquote_enclose (q := .double) rfl,
    String.ofList_toList]

theorem ofToken_place_lexeme (n : Name) (gap : List Char) (offset : Nat) :
    ofToken ((n.lexeme gap).place offset) = n := by
  simp only [Lexeme.place, lexeme, String.ofList_toList]
  rw [ofToken_quoted]

end Name
end TableRebuild
