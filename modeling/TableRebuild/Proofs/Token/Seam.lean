import TableRebuild.Proofs.Token.Tiling
import TableRebuild.Proofs.Token.Wording

/-!
# Behind the last token of a text

When a text that ends in a token is written on, only this token looks at what comes. If it goes on
with it, the text says something else than before (`Lexing.wording_append_ne`). If it does not, and
what comes is a gap, the gap says nothing, and the rest says what it says alone
(`Lexing.wording_append_gap`). So one gap may be exchanged for another there.
-/

namespace TableRebuild

/-! ## Texts that end in a token -/

/-- The text is read as tokens, and it ends where the last of them does. -/
def EndsWith (text : String) (t : Token) : Prop :=
  ∃ ts, tokenize text = .ok (ts ++ [t]) ∧ t.span.stop = Text.byteLength text.toList

/-- The token with which a text ends, if it ends with one. -/
def finalToken? (text : String) : Option Token :=
  match tokenize text with
  | .ok ts => ts.getLast?.filter fun t => t.span.stop == Text.byteLength text.toList
  | .error _ => none

namespace EndsWith

open Lexeme

variable {text : String} {t : Token}

theorem of_finalToken? (h : finalToken? text = some t) : EndsWith text t := by
  unfold finalToken? at h
  split at h
  · rename_i ts htokenize
    obtain ⟨hlast, hstop⟩ := Option.filter_eq_some_iff.1 h
    obtain ⟨front, rfl⟩ := List.getLast?_eq_some_iff.1 hlast
    exact ⟨front, htokenize, eq_of_beq hstop⟩
  · exact absurd h (by simp)

theorem exists_of_finalToken? {p : Token → Bool} (h : (finalToken? text).any p = true) :
    ∃ t, EndsWith text t ∧ p t = true := by
  obtain ⟨t, ht, hp⟩ := (Option.any_eq_true p _).1 h
  exact ⟨t, of_finalToken? ht, hp⟩

/-- Such a text is lexemes and no gap behind them. -/
theorem exists_lexemes (h : EndsWith text t) : ∃ ls l, text.toList = (ls ++ [l]).flatMap written ∧
    AllRead (ls ++ [l]) [] ∧ l.token = t.unplaced := by
  obtain ⟨ts, htokenize, hstop⟩ := h
  obtain ⟨all, gap, htext, hall, -, hplaced⟩ := Lexing.exists_of_tokenize htokenize
  obtain ⟨ls, more, rfl, -, hmore⟩ := exists_of_placeAll_eq_append hplaced.symm
  obtain ⟨l, rfl, ht⟩ := exists_of_placeAll_eq_singleton hmore.symm
  -- The bytes up to the end of the last token are all that there are.
  have hgap : gap = [] := by
    by_contra hne
    have hpos := Text.byteLength_pos hne
    rw [ht, stop_place, htext] at hstop
    simp only [List.flatMap_append, List.flatMap_cons, List.flatMap_nil, List.append_nil,
      Text.byteLength_append] at hstop
    omega
  subst hgap
  rw [List.append_nil] at htext
  exact ⟨ls, l, htext, hall, by rw [ht, unplaced_place]⟩

end EndsWith

namespace Lexeme

variable {ls : List Lexeme} {l : Lexeme} {rest rest' : List Char}

theorem AllRead.last (h : AllRead (ls ++ [l]) rest) : l.Reads rest := (allRead_append.1 h).2.1

theorem Reads.stops_text (h : l.Reads []) : Gap.Stops l.text := by
  have hstops := (reads_iff.1 h).2.1
  rwa [List.append_nil] at hstops

/-- Lexemes do not look beyond the next one. -/
theorem AllRead.of_concat (h : AllRead (ls ++ [l]) rest) (rest' : List Char) :
    AllRead ls (l.written ++ rest') := by
  obtain ⟨hls, hl, -⟩ := allRead_append.1 h
  have hne : l.written ≠ [] := by
    intro hnil
    exact Reads.text_ne_nil hl (List.append_eq_nil_iff.1 hnil).2
  obtain ⟨c, cs, hcs⟩ := List.exists_cons_of_ne_nil hne
  exact hls.of_sameEdge (.inl (by simp [hcs]))

/-- Of lexemes in front of a text only the last one looks at the text. -/
theorem allRead_concat_iff (h : AllRead (ls ++ [l]) rest) :
    AllRead (ls ++ [l]) rest' ↔ l.Reads rest' := by
  rw [allRead_append]
  constructor
  · exact fun ⟨_, hread, _⟩ => hread
  · intro hread
    refine ⟨?_, hread, trivial⟩
    simpa using h.of_concat rest'

end Lexeme

/-! ## Gaps behind a token -/

/-- A text that does not begin with a gap begins with one if more stands behind it only where the
    two make a mark. -/
theorem Gap.Stops.append {text rest : List Char} (h : Stops text) (hne : text ≠ [])
    (hline : text = ['-'] → rest.head? ≠ some '-') (hblock : text = ['/'] → rest.head? ≠ some '*') :
    Stops (text ++ rest) := by
  obtain ⟨c, tail, rfl⟩ := List.exists_cons_of_ne_nil hne
  rw [List.cons_append, stops_cons_iff]
  rw [stops_cons_iff] at h
  cases tail with
  | nil =>
    refine ⟨h.1, ?_, ?_⟩
    · rintro ⟨rfl, hd⟩
      exact hline rfl hd
    · rintro ⟨rfl, hd⟩
      exact hblock rfl hd
  | cons d tail => exact h

namespace Lexing

open Lexeme

variable {ls : List Lexeme} {l : Lexeme}

/-- **Behind a token that does not go on with it, a gap says nothing.** -/
theorem wording_append_gap (hall : AllRead (ls ++ [l]) []) {c : Char} {gap : List Char}
    (hgap : Gap.Closed (c :: gap)) (hgoes : Front.goesOn l.text c = false) (rest : List Char) :
    (of ((ls ++ [l]).flatMap written ++ (c :: gap ++ rest))).wording =
      (of rest).wording.map ((ls ++ [l]).map token ++ ·) := by
  have hread : l.Reads (c :: gap ++ rest) := by
    rw [hall.last.iff_goesOn]
    simpa using hgoes
  rw [wording_append ((allRead_concat_iff hall).2 hread), wording_gap hgap]

/-- What is read as one token and no more, of characters that do not begin with a gap. -/
theorem front_of_wording {text rest : List Char} {t : Token} (hstops : Gap.Stops (text ++ rest))
    (htext : String.ofList text = t.text)
    (h : (of (text ++ rest)).wording = .ok [t]) :
    Front.of (text ++ rest) = .token t.kind text rest := by
  have hwhole := Front.whole_of (text ++ rest)
  have hskip : Gap.skip (text ++ rest) = .upTo [] (text ++ rest) := hstops
  cases hfront : Front.of (text ++ rest) with
  | ended =>
    have hscan : scan (text ++ rest) = .ending (.finished []) := by simp only [scan, hskip, hfront]
    rw [of_of_scan_ending hscan] at h
    exact absurd h (by simp [wording])
  | openQuote q cs =>
    have hscan : scan (text ++ rest) = .ending (.unclosed [] (.quote q) cs) := by
      simp only [scan, hskip, hfront]
    rw [of_of_scan_ending hscan] at h
    exact absurd h (by simp [wording])
  | token kind text' rest' =>
    have hscan : scan (text ++ rest) = .lexeme ⟨[], kind, text'⟩ rest' := by
      simp only [scan, hskip, hfront]
    rw [hfront] at hwhole
    rw [of_of_scan hscan] at h
    have hfirst : (⟨kind, String.ofList text', ⟨0, 0⟩⟩ : Token) = t := by
      unfold wording at h
      split at h
      · simp only [cons, List.map_cons, Except.ok.injEq, List.cons.injEq] at h
        exact h.1
      · exact absurd h (by simp)
    subst hfirst
    obtain rfl := String.ofList_injective htext
    rw [List.append_cancel_left hwhole]

/-- A token that goes on with what is behind it is not what the text says, or not all of it. -/
theorem wording_append_ne (hall : AllRead (ls ++ [l]) []) {rest : List Char}
    (hstops : Gap.Stops (l.text ++ rest)) (hnot : ¬l.Reads rest) :
    (of ((ls ++ [l]).flatMap written ++ rest)).wording ≠ .ok ((ls ++ [l]).map token) := by
  intro heq
  have hclosed := (reads_iff.1 hall.last).1
  have hsplit : (ls ++ [l]).flatMap written ++ rest =
      ls.flatMap written ++ (l.gap ++ (l.text ++ rest)) := by
    simp [written]
  have hfront := hall.of_concat rest
  rw [written, List.append_assoc] at hfront
  rw [hsplit, wording_append hfront, wording_gap hclosed] at heq
  apply hnot
  refine reads_iff.2 ⟨hclosed, hstops, front_of_wording (t := l.token) hstops rfl ?_⟩
  cases hwording : (of (l.text ++ rest)).wording with
  | error what =>
    rw [hwording] at heq
    exact absurd heq (by simp [Except.map])
  | ok ts =>
    rw [hwording] at heq
    simpa [Except.map] using heq

end Lexing

end TableRebuild
