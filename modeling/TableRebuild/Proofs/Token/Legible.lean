import TableRebuild.Proofs.Token.Lexing
import TableRebuild.Proofs.Token.Unplaced

/-!
# Fragments that read back

A fragment carries its tokens and, apart from them, a text to print. Nothing in the type ties the
two together. `Fragment.Legible` does: the text, read by itself, falls into exactly these tokens,
with nothing before the first and nothing behind the last.

Every fragment that is cut from a statement is legible (`legible_of_infix`): the text between the
first and the last of some tokens that follow each other falls into those tokens. And wherever the
text of a legible fragment stands among lexemes that are read as they are, the fragment cut there
is the same fragment, but for places (`unplaced_ofTokens`). These two are the way out of one
statement and into another.
-/

namespace TableRebuild
namespace Lexeme

/-! ## Lexemes and the text they spell -/

/-- The token that the lexeme is, wherever it stands. -/
def token (l : Lexeme) : Token := ⟨l.kind, String.ofList l.text, ⟨0, 0⟩⟩

@[simp] theorem unplaced_place (offset : Nat) (l : Lexeme) : (l.place offset).unplaced = l.token :=
  rfl

theorem map_unplaced_placeAll (offset : Nat) (ls : List Lexeme) :
    (placeAll offset ls).map Token.unplaced = ls.map token := by
  induction ls generalizing offset with
  | nil => rfl
  | cons l ls ih => simp [placeAll, ih]

@[simp] theorem map_token_withGap (gap : List Char) (ls : List Lexeme) :
    (withGap gap ls).map token = ls.map token := by
  cases ls <;> rfl

theorem withGap_withGap (gap gap' : List Char) (ls : List Lexeme) :
    withGap gap (withGap gap' ls) = withGap gap ls := by
  cases ls <;> rfl

/-- The lexemes are what the text falls into, without a gap at either end. -/
structure Spelled (ls : List Lexeme) (cs : List Char) : Prop where
  written_eq : ls.flatMap written = cs
  withGap_nil : withGap [] ls = ls
  allRead : AllRead ls []

theorem Spelled.written_withGap {ls : List Lexeme} {cs : List Char} (h : Spelled ls cs)
    (hne : ls ≠ []) (gap : List Char) : (withGap gap ls).flatMap written = gap ++ cs := by
  obtain ⟨l, more, rfl⟩ := List.exists_cons_of_ne_nil hne
  have hgap : l.gap = [] := by
    have := h.withGap_nil
    simp only [withGap, List.cons.injEq, and_true] at this
    rw [← this]
  rw [← h.written_eq]
  simp [withGap, written, hgap]

/-! ## Tokens and the text between them -/

/-- A text that falls into lexemes has these for tokens. -/
theorem tokenize_of_allRead {source : String} {ls : List Lexeme} (h : AllRead ls [])
    (hsource : source.toList = ls.flatMap written) : tokenize source = .ok (placeAll 0 ls) := by
  simp only [tokenize, hsource, Lexing.of_flatMap_written h, Lexing.error?, Ending.error?,
    Lexing.tokens]

/-- Placed lexemes that are cut in two are two sequences of placed lexemes. -/
theorem exists_of_placeAll_eq_append {offset : Nat} {ls : List Lexeme} {xs ys : List Token}
    (h : placeAll offset ls = xs ++ ys) : ∃ as bs, ls = as ++ bs ∧ xs = placeAll offset as ∧
      ys = placeAll (offset + Text.byteLength (as.flatMap written)) bs := by
  induction xs generalizing offset ls with
  | nil => exact ⟨[], ls, rfl, rfl, by simpa using h.symm⟩
  | cons x xs ih =>
    cases ls with
    | nil => exact absurd h (by simp [placeAll])
    | cons l ls =>
      simp only [placeAll, List.cons_append, List.cons.injEq] at h
      obtain ⟨hx, hrest⟩ := h
      obtain ⟨as, bs, rfl, rfl, rfl⟩ := ih hrest
      exact ⟨l :: as, bs, rfl, by rw [placeAll, hx], by simp [Nat.add_assoc]⟩

theorem exists_of_placeAll_eq_singleton {offset : Nat} {ls : List Lexeme} {t : Token}
    (h : placeAll offset ls = [t]) : ∃ l, ls = [l] ∧ t = l.place offset := by
  cases ls with
  | nil => exact absurd h (by simp [placeAll])
  | cons l ls =>
    cases ls with
    | nil => exact ⟨l, rfl, (List.singleton_inj.1 h).symm⟩
    | cons m ls => exact absurd h (by simp [placeAll])

/-- The last of placed lexemes stops where what they are written as ends, and no sooner than the
    first. -/
theorem exists_getLast?_placeAll (offset : Nat) (l : Lexeme) (ls : List Lexeme) :
    ∃ t, (placeAll offset (l :: ls)).getLast? = some t ∧
      offset + Text.byteLength l.gap ≤ t.span.start ∧
      (l.place offset).span.stop ≤ t.span.stop ∧
      t.span.stop = offset + Text.byteLength ((l :: ls).flatMap written) := by
  induction ls generalizing l offset with
  | nil => exact ⟨l.place offset, rfl, Nat.le_refl _, Nat.le_refl _, by simp [stop_place]⟩
  | cons m ls ih =>
    obtain ⟨t, ht, hstart, hmono, hstop⟩ := ih (offset + Text.byteLength l.written) m
    have hm := stop_place (offset + Text.byteLength l.written) m
    refine ⟨t, ?_, ?_, ?_, ?_⟩
    · rw [placeAll, placeAll, List.getLast?_cons_cons, ← placeAll]
      exact ht
    · have : Text.byteLength l.written = Text.byteLength l.gap + Text.byteLength l.text := by
        simp [written]
      omega
    · rw [stop_place]
      omega
    · rw [hstop]
      simp [Nat.add_assoc]

/-- Placed lexemes reach from behind their first gap to the end of what they are written as. -/
theorem spanOf?_placeAll (offset : Nat) (l : Lexeme) (ls : List Lexeme) :
    Fragment.spanOf? (placeAll offset (l :: ls)) =
      some ⟨offset + Text.byteLength l.gap,
        offset + Text.byteLength ((l :: ls).flatMap written)⟩ := by
  obtain ⟨t, ht, hstart, hmono, hstop⟩ := exists_getLast?_placeAll offset l ls
  simp only [Fragment.spanOf?, ht]
  simp only [placeAll, List.head?_cons, Span.join, Option.some.injEq, Span.mk.injEq]
  refine ⟨?_, ?_⟩
  · exact Nat.min_eq_left hstart
  · rw [Nat.max_eq_right hmono, hstop]

/-- Tokens that follow each other in a text are lexemes, and stand where these do. -/
theorem exists_of_infix {source : String} {ts sub : List Token} (h : tokenize source = .ok ts)
    (hsub : sub <:+: ts) : ∃ pre ls post, source.toList = pre ++ ls.flatMap written ++ post ∧
      sub = placeAll (Text.byteLength pre) ls ∧ AllRead ls post := by
  obtain ⟨xs, ys, rfl⟩ := hsub
  have hall := Lexing.allRead_of source.toList
  have hwhole := Lexing.whole_of source.toList
  simp only [tokenize] at h
  split at h
  · exact absurd h (by simp)
  · simp only [Except.ok.injEq, Lexing.tokens] at h
    obtain ⟨_, cs, hls, hfront, -⟩ := exists_of_placeAll_eq_append h
    obtain ⟨as, bs, rfl, -, rfl⟩ := exists_of_placeAll_eq_append hfront.symm
    rw [hls, allRead_append, allRead_append] at hall
    rw [Lexing.whole, hls] at hwhole
    refine ⟨as.flatMap written, bs, cs.flatMap written ++ (Lexing.of source.toList).ending.written,
      ?_, ?_, hall.1.2⟩
    · simpa using hwhole.symm
    · rw [Nat.zero_add]

end Lexeme

namespace Fragment

open Lexeme

/-- The text of tokens cut from a source is what their lexemes are written as there, without the
    gap before them. -/
theorem toList_text_ofTokens {source : String} {pre post : List Char} {ls : List Lexeme}
    (h : source.toList = pre ++ ls.flatMap written ++ post) :
    (ofTokens (placeAll (Text.byteLength pre) ls) source).text.toList =
      (withGap [] ls).flatMap written := by
  cases ls with
  | nil => simp [ofTokens, placeAll, spanOf?, withGap]
  | cons l ls =>
    have hcut : source.toList = (pre ++ l.gap) ++ (l.text ++ ls.flatMap written) ++ post := by
      rw [h]
      simp [written]
    have hstop : Text.byteLength pre + Text.byteLength ((l :: ls).flatMap written) =
        Text.byteLength (pre ++ l.gap) + Text.byteLength (l.text ++ ls.flatMap written) := by
      simp [written]
      omega
    rw [ofTokens, spanOf?_placeAll, Option.map_some, Option.getD_some, Span.textIn, hstop,
      ← Text.byteLength_append, hcut, Text.slice?_middle]
    simp [withGap, written]

/-- The text, read by itself, falls into the tokens. -/
def Legible (f : Fragment) : Prop :=
  ∃ ls, Spelled ls f.text.toList ∧ ls.map token = f.tokens.map Token.unplaced

theorem legible_empty : Fragment.empty.Legible :=
  ⟨[], ⟨rfl, rfl, trivial⟩, rfl⟩

/-- **What is cut from a text is legible.** -/
theorem legible_of_infix {source : String} {ts sub : List Token} (h : tokenize source = .ok ts)
    (hsub : sub <:+: ts) : (ofTokens sub source).Legible := by
  obtain ⟨pre, ls, post, hsource, rfl, hall⟩ := exists_of_infix h hsub
  have htext := toList_text_ofTokens hsource
  refine ⟨withGap [] ls, ⟨htext.symm, withGap_withGap .., ?_⟩, ?_⟩
  · exact (hall.withGap .nil).of_sameEdge (.nil _)
  · rw [map_token_withGap, tokens_ofTokens, map_unplaced_placeAll]

/-- Where the text of a legible fragment stands in a source, the fragment cut there is the same but
    for places. -/
theorem unplaced_ofTokens {f : Fragment} {ls : List Lexeme} (hspell : Spelled ls f.text.toList)
    (htokens : ls.map token = f.tokens.map Token.unplaced) {source : String} {gap : List Char}
    {pre post : List Char} (h : source.toList = pre ++ (withGap gap ls).flatMap written ++ post) :
    (ofTokens (placeAll (Text.byteLength pre) (withGap gap ls)) source).unplaced = f.unplaced := by
  apply ext_unplaced
  · rw [tokens_ofTokens, map_unplaced_placeAll, map_token_withGap, htokens]
  · apply String.toList_inj.1
    rw [toList_text_ofTokens h, withGap_withGap, hspell.withGap_nil, hspell.written_eq]

end Fragment
end TableRebuild
