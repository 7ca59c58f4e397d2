import TableRebuild.Proofs.Token.Lexing
import TableRebuild.Token.Placed

/-!
# A text as gaps and tokens in turn

Places are what an editor or an error message works with, and here is what they are worth. From its
first byte to its last a text is a gap, a token, a gap, a token and so on, each from where the one
before it ends: `Tiled` says this of a text, its tokens and the error at its end, in terms of byte
offsets and slices of the text and of nothing else. So no byte is lost, none is counted twice, and
every offset lies between two characters, because a slice that cuts a character does not exist.

A gap is what `Gap.Filler` says, blanks and comments. Gaps inside a text and the one at its end
differ only in how a line comment may end.
-/

namespace TableRebuild

/-! ## Gaps of a lexing -/

namespace Lexeme

theorem filler_of_scan {cs rest : List Char} {l : Lexeme} (h : scan cs = .lexeme l rest) :
    Gap.Filler false l.gap := by
  have hfill := Gap.filler_skip cs
  unfold scan at h
  split at h
  · exact absurd h (by simp)
  · rename_i gap ahead hskip
    split at h
    · exact absurd h (by simp)
    · rename_i kind text after hfront
      simp only [Scanned.lexeme.injEq] at h
      obtain ⟨rfl, rfl⟩ := h
      have hahead : ahead.isEmpty = false := by
        cases ahead with
        | nil => exact absurd hfront (by simp [Front.of])
        | cons c ahead => rfl
      rw [hskip, Skipped.atEnd, hahead] at hfill
      exact hfill
    · exact absurd h (by simp)

end Lexeme

/-- The gap of an ending is made of blanks and comments; only behind the last token of a text
    without an error may it end with the text. -/
def Ending.Filled : Ending → Prop
  | .finished gap => Gap.Filler true gap
  | .unclosed gap _ _ => Gap.Filler false gap

theorem Lexeme.filled_of_scan {cs : List Char} {e : Ending} (h : scan cs = .ending e) :
    e.Filled := by
  have hfill := Gap.filler_skip cs
  unfold scan at h
  split at h
  · rename_i hskip
    simp only [Scanned.ending.injEq] at h
    rw [hskip] at hfill
    rw [← h]
    exact hfill
  · rename_i gap ahead hskip
    rw [hskip] at hfill
    split at h
    · rename_i hfront
      simp only [Scanned.ending.injEq] at h
      have hahead : ahead = [] := by
        have hwhole := Front.whole_of ahead
        rw [hfront] at hwhole
        exact hwhole.symm
      rw [hahead] at hfill
      rw [← h]
      exact hfill
    · exact absurd h (by simp)
    · rename_i q text hfront
      simp only [Scanned.ending.injEq] at h
      have hahead : ahead.isEmpty = false := by
        cases ahead with
        | nil => exact absurd hfront (by simp [Front.of])
        | cons c ahead => rfl
      rw [Skipped.atEnd, hahead] at hfill
      rw [← h]
      exact hfill

/-! ## Texts with an error and without -/

namespace Lexing

open Lexeme

/-- What is behind the lexemes of a text is read as its ending. -/
theorem scan_ending (cs : List Char) : scan (of cs).ending.written = .ending (of cs).ending := by
  fun_induction of cs with
  | case1 cs l rest hscan hlen ih => exact ih
  | case2 cs e hscan =>
    rw [← scan_eq_ending hscan]
    exact hscan

/-- A text without an error is lexemes that are read as they are, and a gap. -/
theorem exists_of_tokenize {text : String} {ts : List Token} (h : tokenize text = .ok ts) :
    ∃ ls gap, text.toList = ls.flatMap written ++ gap ∧ AllRead ls gap ∧ Gap.Filler true gap ∧
      ts = placeAll 0 ls := by
  have hall := allRead_of text.toList
  have hwhole := whole_of text.toList
  have hfilled := filled_of_scan (scan_ending text.toList)
  simp only [tokenize, error?] at h
  cases hending : (of text.toList).ending with
  | unclosed gap what rest =>
    rw [hending] at h
    exact absurd h (by simp [Ending.error?])
  | finished gap =>
    rw [whole, hending] at hwhole
    rw [hending] at h hall hfilled
    simp only [Ending.error?, Except.ok.injEq, tokens] at h
    exact ⟨_, gap, hwhole.symm, hall, hfilled, h.symm⟩

/-- A text with an error is lexemes that are read as they are, a closed gap and what is left
    open. -/
theorem exists_of_tokenize_error {text : String} {e : LexicalError} (h : tokenize text = .error e) :
    ∃ ls gap opened, text.toList = ls.flatMap written ++ (gap ++ opened) ∧
      AllRead ls (gap ++ opened) ∧ Gap.Closed gap ∧
      scan (gap ++ opened) = .ending (.unclosed gap e.what opened) ∧
      e.span = ⟨Text.byteLength (ls.flatMap written ++ gap), Text.byteLength text.toList⟩ := by
  have hall := allRead_of text.toList
  have hwhole := whole_of text.toList
  have hscan := scan_ending text.toList
  have hfilled := filled_of_scan hscan
  simp only [tokenize, error?] at h
  cases hending : (of text.toList).ending with
  | finished gap =>
    rw [hending] at h
    exact absurd h (by simp [Ending.error?])
  | unclosed gap what opened =>
    rw [whole, hending] at hwhole
    rw [hending] at h hall hfilled hscan
    simp only [Ending.error?, Except.error.injEq] at h
    refine ⟨_, gap, opened, hwhole.symm, hall, hfilled.closed, ?_, ?_⟩
    · rw [← h]
      exact hscan
    · have hlength := congrArg Text.byteLength hwhole
      rw [← h, ← hlength]
      simp [Ending.written, Nat.add_assoc]

end Lexing

/-! ## The tiling -/

theorem Text.byteLength_pos {cs : List Char} (h : cs ≠ []) : 0 < byteLength cs := by
  obtain ⟨c, more, rfl⟩ := List.exists_cons_of_ne_nil h
  have := c.utf8Size_pos
  rw [byteLength_cons]
  omega

/-- From byte `offset` on, the text is gaps and the tokens in turn, up to the end of the text or up
    to the error, which reaches to that end. -/
inductive Tiled (text : String) : Nat → List Token → Option LexicalError → Prop
  | finished {offset : Nat} {gap : List Char}
      (hgap : Text.slice? offset (Text.byteLength text.toList) text.toList = some gap)
      (hfill : Gap.Filler true gap) : Tiled text offset [] none
  | error {offset : Nat} {gap : List Char} {e : LexicalError}
      (hgap : Text.slice? offset e.span.start text.toList = some gap)
      (hfill : Gap.Filler false gap) (hstop : e.span.stop = Text.byteLength text.toList) :
      Tiled text offset [] (some e)
  | token {offset : Nat} {gap : List Char} {t : Token} {ts : List Token}
      {e : Option LexicalError}
      (hgap : Text.slice? offset t.span.start text.toList = some gap)
      (hfill : Gap.Filler false gap) (hlt : t.span.start < t.span.stop)
      (htext : Text.slice? t.span.start t.span.stop text.toList = some t.text.toList)
      (h : Tiled text t.span.stop ts e) : Tiled text offset (t :: ts) e

/-- Tokens that tile a text stand in order and do not overlap. -/
theorem Tiled.pairwise {text : String} {offset : Nat} {ts : List Token} {e : Option LexicalError}
    (h : Tiled text offset ts e) :
    (∀ t ∈ ts, offset ≤ t.span.start) ∧ ts.Pairwise fun a b => a.span.stop ≤ b.span.start := by
  have hle : ∀ {start stop : Nat} {cs inside : List Char},
      Text.slice? start stop cs = some inside → start ≤ stop := by
    intro start stop cs inside hslice
    by_contra hlt
    rw [Text.slice?, if_neg hlt] at hslice
    exact absurd hslice (by simp)
  induction h with
  | finished => simp
  | error => simp
  | token hgap _ hlt _ _ ih =>
    have hstart := hle hgap
    refine ⟨?_, List.pairwise_cons.2 ih⟩
    intro u hu
    rcases List.mem_cons.1 hu with rfl | hu
    · exact hstart
    · have := ih.1 u hu
      omega

/-- What is left of a text behind a first part, as gaps and tokens. -/
theorem Lexing.tiled_of {text : String} {pre cs : List Char} (h : text.toList = pre ++ cs) :
    Tiled text (Text.byteLength pre) (Lexeme.placeAll (Text.byteLength pre) (of cs).lexemes)
      ((of cs).ending.error?
        (Text.byteLength pre + Text.byteLength ((of cs).lexemes.flatMap Lexeme.written))) := by
  fun_induction of cs generalizing pre with
  | case1 cs l rest hscan hlen ih =>
    obtain ⟨hcs, htext⟩ := Lexeme.scan_eq_lexeme hscan
    have hrest : text.toList = (pre ++ l.written) ++ rest := by rw [h, hcs, List.append_assoc]
    have hgap : text.toList = pre ++ l.gap ++ (l.text ++ rest) := by
      rw [h, hcs, Lexeme.written]
      simp
    have htoken : text.toList = (pre ++ l.gap) ++ l.text ++ rest := by rw [hgap]; simp
    have hstop : (l.place (Text.byteLength pre)).span.stop =
        Text.byteLength (pre ++ l.written) := by
      rw [Lexeme.stop_place, Text.byteLength_append]
    have hmore := ih hrest
    rw [Text.byteLength_append] at hmore
    rw [cons, Lexeme.placeAll, List.flatMap_cons, Text.byteLength_append, ← Nat.add_assoc]
    have hslice : Text.slice? (Text.byteLength pre) (Text.byteLength pre + Text.byteLength l.gap)
        text.toList = some l.gap := by
      rw [hgap]
      exact Text.slice?_middle _ _ _
    refine .token hslice (Lexeme.filler_of_scan hscan) ?_ ?_ ?_
    · have := Text.byteLength_pos htext
      simp only [Lexeme.place]
      omega
    · rw [htoken]
      simp only [Lexeme.place, String.toList_ofList, ← Text.byteLength_append]
      rw [Text.byteLength_append _ l.text]
      exact Text.slice?_middle _ _ _
    · rw [hstop, Text.byteLength_append]
      exact hmore
  | case2 cs e hscan =>
    have hcs := Lexeme.scan_eq_ending hscan
    have hfill := Lexeme.filled_of_scan hscan
    cases e with
    | finished gap =>
      have hwhole : text.toList = pre ++ gap ++ [] := by rw [h, hcs]; simp [Ending.written]
      have hslice : Text.slice? (Text.byteLength pre) (Text.byteLength text.toList) text.toList =
          some gap := by
        rw [hwhole, List.append_nil, Text.byteLength_append, ← List.append_nil (pre ++ gap)]
        exact Text.slice?_middle _ _ _
      exact .finished hslice hfill
    | unclosed gap what opened =>
      have hwhole : text.toList = pre ++ gap ++ opened := by rw [h, hcs]; simp [Ending.written]
      have hslice : Text.slice? (Text.byteLength pre) (Text.byteLength pre + Text.byteLength gap)
          text.toList = some gap := by
        rw [hwhole]
        simpa using Text.slice?_middle pre gap opened
      refine .error hslice hfill ?_
      rw [hwhole]
      simp [Nat.add_assoc]

end TableRebuild
