import TableRebuild.Proofs.Token.Legible

/-!
# Excerpts of a text

Some tokens of a text that follow each other, taken together with what is written between the first
and the last of them, are an excerpt. `Fragment.legible_of_infix` says that an excerpt is read as
tokens of the same kinds and texts. This file adds where they are: in the excerpt they stand where
they stood in the text, counted from the place where the first one began.

So reading an excerpt is reading the text and taking the tokens out, and nothing that a scanner may
look ahead for is lost when the text is cut behind a token. An excerpt of a single token is its
text. That is why the kind of a token, which the scanners tell from what stands around it, is known
from its text alone.
-/

namespace TableRebuild

/-- Where the first of the tokens begins. -/
def Token.origin (ts : List Token) : Nat := (ts.head?.map (·.span.start)).getD 0

namespace Lexeme

/-- Wherever lexemes stand, their tokens are the ones that they would be at the beginning of a text,
    moved to where the first one begins. -/
theorem placeAll_eq_map_shift (offset : Nat) (ls : List Lexeme) :
    placeAll offset ls =
      (placeAll 0 (withGap [] ls)).map (Token.shift (Token.origin (placeAll offset ls))) := by
  cases ls with
  | nil => rfl
  | cons l ls =>
    have horigin : Token.origin (placeAll offset (l :: ls)) = offset + Text.byteLength l.gap := rfl
    have hrest : offset + Text.byteLength l.written =
        offset + Text.byteLength l.gap + (0 + Text.byteLength l.text) := by
      simp [written, Nat.add_assoc]
    rw [horigin, placeAll, hrest, placeAll_add, withGap, placeAll, List.map_cons]
    simp [place, written, Token.shift, Span.shift]

end Lexeme

namespace Fragment

open Lexeme

variable {source : String} {ts sub : List Token} {t : Token}

/-- **An excerpt is read as its tokens**, which stand where they stood, counted from the first. -/
theorem exists_tokenize_ofTokens (h : tokenize source = .ok ts) (hsub : sub <:+: ts) :
    ∃ us, tokenize (ofTokens sub source).text = .ok us ∧
      us.map (Token.shift (Token.origin sub)) = sub := by
  obtain ⟨pre, ls, post, hsource, rfl, hall⟩ := exists_of_infix h hsub
  refine ⟨placeAll 0 (withGap [] ls), ?_, (placeAll_eq_map_shift _ ls).symm⟩
  apply tokenize_of_allRead
  · exact (hall.withGap .nil).of_sameEdge (.nil _)
  · exact toList_text_ofTokens hsource

/-- The excerpt of a single token is its text. -/
theorem text_ofTokens_singleton (h : tokenize source = .ok ts) (ht : t ∈ ts) :
    (ofTokens [t] source).text = t.text := by
  obtain ⟨pre, ls, post, hsource, hplace, -⟩ :=
    exists_of_infix h ((List.singleton_infix_iff t ts).2 ht)
  obtain ⟨l, rfl, rfl⟩ := exists_of_placeAll_eq_singleton hplace.symm
  have htext := toList_text_ofTokens hsource
  rw [← hplace] at htext
  rw [← String.toList_inj, htext]
  simp [withGap, written, place]

/-- A token's text, read by itself, is the token at the beginning of a text. -/
theorem tokenize_text_of_mem (h : tokenize source = .ok ts) (ht : t ∈ ts) :
    ∃ s, tokenize t.text = .ok [⟨t.kind, t.text, s⟩] := by
  obtain ⟨us, hus, hshift⟩ := exists_tokenize_ofTokens h ((List.singleton_infix_iff t ts).2 ht)
  rw [text_ofTokens_singleton h ht] at hus
  obtain ⟨u, rfl, hu⟩ := List.map_eq_singleton_iff.1 hshift
  refine ⟨u.span, ?_⟩
  rw [hus, ← hu]
  rfl

/-- **Excerpts are read as what they are**, and the text of a token alone decides its kind. -/
theorem tokenize_extract (h : tokenize source = .ok ts) :
    (∀ i j, ∃ us, tokenize (ofTokens (ts.extract i j) source).text = .ok us ∧
      us.map (Token.shift (Token.origin (ts.extract i j))) = ts.extract i j) ∧
    ∀ other us, tokenize other = .ok us →
      ∀ t ∈ ts, ∀ u ∈ us, t.text = u.text → t.kind = u.kind := by
  constructor
  · intro i j
    apply exists_tokenize_ofTokens h
    rw [List.extract_eq_take_drop]
    exact (List.take_prefix _ _).isInfix.trans (List.drop_suffix _ _).isInfix
  · intro other us hother t ht u hu htext
    obtain ⟨s, hs⟩ := tokenize_text_of_mem h ht
    obtain ⟨s', hs'⟩ := tokenize_text_of_mem hother hu
    rw [htext, hs'] at hs
    simp at hs
    exact hs.1.symm

/-- Tokens that look ahead, each to be cut off behind: a name before a quote that is no `x`, a
    number that waits for its sign, a dot that begins a number, and an operator before a comment. -/
theorem tokenize_extract_of_lookahead : ∃ source ts,
    source = "é'é' x'00'.5 1e-/*;*/a. b<= --" ∧ tokenize source = .ok ts ∧
      (∀ i j, ∃ us, tokenize (ofTokens (ts.extract i j) source).text = .ok us ∧
        us.map (Token.shift (Token.origin (ts.extract i j))) = ts.extract i j) ∧
      ∀ other us, tokenize other = .ok us →
        ∀ t ∈ ts, ∀ u ∈ us, t.text = u.text → t.kind = u.kind := by
  refine ⟨"é'é' x'00'.5 1e-/*;*/a. b<= --", ?_⟩
  generalize hsource : "é'é' x'00'.5 1e-/*;*/a. b<= --" = source
  have hok : (tokenize source).isOk = true := by
    rw [← hsource]
    decide +kernel
  cases htokens : tokenize source with
  | error e =>
    rw [htokens] at hok
    exact absurd hok Bool.false_ne_true
  | ok ts => exact ⟨ts, rfl, rfl, tokenize_extract htokens⟩

end Fragment

end TableRebuild
