import TableRebuild.Proofs.Token.Fixed
import TableRebuild.Proofs.Token.Legible
import TableRebuild.Proofs.Token.QuotedName

/-!
# What a text says

Two texts say the same when they have the same tokens but for places, or when the same is left open
in both. `wording` is what a text says in this sense, and it has two laws. Lexemes that are read as
they are come first in the wording of the whole (`Lexing.wording_append`), and a closed gap makes no
difference to it (`Lexing.wording_gap`).

`Says cs ts` is for texts that are put together from parts: the characters, with a break behind
them, are read as these tokens, whatever follows. It is closed under writing one part after the
other, as long as each but the first begins with a break (`Says.append`), and under a space in
front. Names, words and the texts of legible fragments say what one expects of them.
-/

namespace TableRebuild

/-- The tokens of a text without their places, or what is left open in it. -/
def wording (text : String) : Except Opener (List Token) :=
  match tokenize text with
  | .ok ts => .ok (ts.map Token.unplaced)
  | .error e => .error e.what

theorem wording_eq_ok_iff {text : String} {us : List Token} :
    wording text = .ok us ↔ ∃ ts, tokenize text = .ok ts ∧ ts.map Token.unplaced = us := by
  unfold wording
  cases tokenize text with
  | error e => simp
  | ok ts => simp

/-! ## Single tokens -/

namespace Token

def ofKeyword (k : Keyword) : Token := ⟨.keyword k, k.text, ⟨0, 0⟩⟩

def ofBare (word : String) : Token := ⟨.bareName, word, ⟨0, 0⟩⟩

def ofDelimiter (d : Delimiter) : Token := ⟨.delimiter d, String.ofList [d.char], ⟨0, 0⟩⟩

/-- The token that a name is written as. -/
def ofName (n : Name) : Token := ⟨.quotedName, n.quoted, ⟨0, 0⟩⟩

@[simp] theorem unplaced_ofKeyword (k : Keyword) : (ofKeyword k).unplaced = ofKeyword k := rfl

@[simp] theorem unplaced_ofBare (word : String) : (ofBare word).unplaced = ofBare word := rfl

@[simp] theorem unplaced_ofDelimiter (d : Delimiter) :
    (ofDelimiter d).unplaced = ofDelimiter d := rfl

@[simp] theorem unplaced_ofName (n : Name) : (ofName n).unplaced = ofName n := rfl

end Token

/-! ## Gaps in front -/

namespace Lexeme

/-- What is scanned with more of a gap in front. -/
def Scanned.after (front : List Char) : Scanned → Scanned
  | .lexeme l rest => .lexeme { l with gap := front ++ l.gap } rest
  | .ending (.finished gap) => .ending (.finished (front ++ gap))
  | .ending (.unclosed gap what text) => .ending (.unclosed (front ++ gap) what text)

theorem scan_append {gap : List Char} (h : Gap.Closed gap) (cs : List Char) :
    scan (gap ++ cs) = (scan cs).after gap := by
  unfold scan
  rw [Gap.skip_append h]
  cases Gap.skip cs with
  | openComment gap' comment => rfl
  | upTo gap' ahead => simp only [Skipped.after]; cases Front.of ahead <;> rfl

end Lexeme

namespace Lexing

open Lexeme

/-- The tokens without their places, or what is left open at the end. -/
def wording (l : Lexing) : Except Opener (List Token) :=
  match l.ending with
  | .finished _ => .ok (l.lexemes.map token)
  | .unclosed _ what _ => .error what

theorem wording_of_toList (text : String) :
    (of text.toList).wording = TableRebuild.wording text := by
  simp only [wording, TableRebuild.wording, tokenize, error?]
  cases h : (of text.toList).ending with
  | finished gap => simp only [Ending.error?, tokens, map_unplaced_placeAll]
  | unclosed gap what rest => simp only [Ending.error?]

theorem wording_of_nil : (of []).wording = .ok [] := by
  rw [of_nil]
  rfl

theorem wording_flatMap_written {ls : List Lexeme} (h : AllRead ls []) :
    (of (ls.flatMap written)).wording = .ok (ls.map token) := by
  rw [of_flatMap_written h]
  rfl

/-- **Lexemes that are read as they are say their tokens**, and then the rest says what it says. -/
theorem wording_append {ls : List Lexeme} {rest : List Char} (h : AllRead ls rest) :
    (of (ls.flatMap written ++ rest)).wording =
      (of rest).wording.map (ls.map token ++ ·) := by
  rw [of_append h]
  unfold wording
  cases (of rest).ending with
  | finished gap => simp [Except.map]
  | unclosed gap what text => rfl

theorem of_of_scan_ending {cs : List Char} {e : Ending} (h : scan cs = .ending e) :
    of cs = ⟨[], e⟩ := by
  rw [of]
  split
  · rename_i h'
    rw [h] at h'
    exact absurd h' (by simp)
  · rename_i e' h'
    rw [h] at h'
    simp only [Scanned.ending.injEq] at h'
    rw [h']

/-- The lexing with more of a gap in front. -/
def after (front : List Char) : Lexing → Lexing
  | ⟨l :: ls, e⟩ => ⟨{ l with gap := front ++ l.gap } :: ls, e⟩
  | ⟨[], .finished gap⟩ => ⟨[], .finished (front ++ gap)⟩
  | ⟨[], .unclosed gap what text⟩ => ⟨[], .unclosed (front ++ gap) what text⟩

/-- A closed gap is put to the first thing behind it. -/
theorem of_gap_append {gap : List Char} (h : Gap.Closed gap) (cs : List Char) :
    of (gap ++ cs) = (of cs).after gap := by
  have hscan := scan_append h cs
  cases hcs : scan cs with
  | lexeme l rest =>
    rw [hcs] at hscan
    rw [of_of_scan hscan, of_of_scan hcs]
    rfl
  | ending e =>
    rw [hcs] at hscan
    cases e with
    | finished gap' => rw [of_of_scan_ending hscan, of_of_scan_ending hcs]; rfl
    | unclosed gap' what text => rw [of_of_scan_ending hscan, of_of_scan_ending hcs]; rfl

/-- **A closed gap in front makes no difference.** -/
theorem wording_gap {gap : List Char} (h : Gap.Closed gap) (cs : List Char) :
    (of (gap ++ cs)).wording = (of cs).wording := by
  rw [of_gap_append h]
  obtain ⟨ls, e⟩ := of cs
  cases ls with
  | nil => cases e <;> rfl
  | cons l ls => rfl

end Lexing

/-! ## Texts in parts -/

theorem SameEdge.append_of_nil {cs rest : List Char} (h : SameEdge [] cs)
    (hrest : SameEdge [] rest) : SameEdge [] (cs ++ rest) := by
  cases cs with
  | nil => exact hrest
  | cons c cs => exact h

theorem SameEdge.of_break {c : Char} (hc : c ∈ breaks) (cs : List Char) :
    SameEdge [] (c :: cs) := .cons hc _ _

/-- With a break behind them, the characters are read as these tokens. -/
def Says (cs : List Char) (ts : List Token) : Prop :=
  ∀ rest, SameEdge [] rest →
    (Lexing.of (cs ++ rest)).wording = (Lexing.of rest).wording.map (ts ++ ·)

namespace Says

open Lexeme

variable {as bs : List Char} {ts us : List Token}

theorem nil : Says [] [] := by
  intro rest _
  rw [List.nil_append]
  cases (Lexing.of rest).wording <;> rfl

theorem append (h : Says as ts) (h' : Says bs us) (hbs : SameEdge [] bs) :
    Says (as ++ bs) (ts ++ us) := by
  intro rest hrest
  rw [List.append_assoc, h _ (hbs.append_of_nil hrest), h' rest hrest]
  cases (Lexing.of rest).wording with
  | error what => rfl
  | ok vs => simp [Except.map]

/-- Behind a space a text says what it says. -/
theorem space (h : Says as ts) : Says (' ' :: as) ts := by
  intro rest hrest
  rw [← h rest hrest]
  exact Lexing.wording_gap Gap.closed_space (as ++ rest)

theorem of_allRead {ls : List Lexeme} (h : AllRead ls []) :
    Says (ls.flatMap written) (ls.map token) := fun _ hrest =>
  Lexing.wording_append (h.of_sameEdge hrest)

/-- The whole text may be read with nothing behind it. -/
theorem wording_eq {text : String} (h : Says text.toList ts) : wording text = .ok ts := by
  have hnil := h [] (.refl [])
  rw [List.append_nil, Lexing.wording_of_toList, Lexing.wording_of_nil] at hnil
  rw [hnil]
  simp [Except.map]

/-- A delimiter is a token in front of whatever follows, if it is not a point. -/
theorem delimiter {d : Delimiter} (hd : d ≠ .dot) (h : Says as ts) :
    Says (d.char :: as) (.ofDelimiter d :: ts) := by
  intro rest hrest
  have hreads : AllRead [Lexeme.delimiter [] d] (as ++ rest) := ⟨reads_delimiter .nil hd _, trivial⟩
  have hfront := Lexing.wording_append hreads
  rw [h rest hrest] at hfront
  refine Eq.trans hfront ?_
  cases (Lexing.of rest).wording <;> rfl

/-- **A name between quotes is one token**, whatever the name. -/
theorem name (n : Name) : Says n.quoted.toList [.ofName n] := by
  have htoken : (n.lexeme []).token = .ofName n := by
    rw [Lexeme.token, Name.lexeme, String.ofList_toList, Token.ofName]
  have hwritten : [n.lexeme []].flatMap written = n.quoted.toList := by
    simp [written, Name.lexeme]
  have hsays := @of_allRead [n.lexeme []] ⟨n.reads_lexeme .nil (by simp), trivial⟩
  rw [hwritten, List.map_singleton, htoken] at hsays
  exact hsays

theorem word {text : String} {c : Char} {cs : List Char} (htext : text.toList = c :: cs)
    (hletters : (c :: cs).all Char.isAlpha = true) (hx : (c == 'x' || c == 'X') = false) :
    Says text.toList [⟨.ofWord text, text, ⟨0, 0⟩⟩] := by
  have hreads : AllRead [Lexeme.word [] text] [] :=
    ⟨reads_word .nil htext hletters hx (.refl []), trivial⟩
  simpa [written, Lexeme.word, token] using of_allRead hreads

theorem keyword (k : Keyword) : Says k.text.toList [.ofKeyword k] := by
  rw [Token.ofKeyword, ← Kind.ofWord_text]
  cases k <;> exact word rfl rfl rfl

theorem bare {text : String} {c : Char} {cs : List Char} (htext : text.toList = c :: cs)
    (hletters : (c :: cs).all Char.isAlpha = true) (hx : (c == 'x' || c == 'X') = false)
    (hkind : Kind.ofWord text = .bareName) : Says text.toList [.ofBare text] := by
  rw [Token.ofBare, ← hkind]
  exact word htext hletters hx

/-- **A legible fragment says its tokens.** -/
theorem fragment {f : Fragment} (h : f.Legible) :
    Says f.text.toList (f.tokens.map Token.unplaced) := by
  obtain ⟨ls, hspelled, htokens⟩ := h
  have hsays := of_allRead hspelled.allRead
  rw [hspelled.written_eq, htokens] at hsays
  exact hsays

end Says
end TableRebuild
