import TableRebuild.Proofs.Token.Joined
import TableRebuild.Proofs.Token.Seam

/-!
# What is left open can be closed

The only fault that a text can have before it is read as a statement is that something is opened in
it and never closed. An error says what, and from where. This file says that it says all: up to that
place the text has no fault, and writing the closing mark at the end makes the text whole
(`exists_mended`). A quote then is one token more, the last one, and a comment is a gap.

That one mark is enough is not a matter of course. Where the quote writes a mark inside the text
twice, the text may end in one that is waiting for the second, or would be if the reader paired
marks from the other side; and a comment may end in a `*` that looks like half of its mark. The
readers `Quote.closing` and `Gap.commentEnd` say `none` only where no mark is pending
(`Quote.closing_append_closer`, `Gap.commentEnd_append_mark`).
-/

namespace TableRebuild

/-! ## The readers of marks -/

/-- Where the closing mark never comes, one at the end is the closing mark. -/
theorem Quote.closing_append_closer {q : Quote} {cs : List Char} (h : q.closing cs = none) :
    q.closing (cs ++ [q.closer]) = some (cs ++ [q.closer], []) := by
  fun_induction q.closing cs with
  | case1 => simp [closing]
  | case2 => exact absurd h (by simp)
  | case3 d more hd ih =>
    have hmore := ih (Option.map_eq_none_iff.1 h)
    rw [List.cons_append, List.cons_append, closing, if_pos rfl]
    simp [hd, hmore]
  | case4 => exact absurd h (by simp)
  | case5 c rest hc ih =>
    have hrest := ih (Option.map_eq_none_iff.1 h)
    rw [List.cons_append, closing.eq_def]
    simp [hc, hrest]

/-- What may stand in front of an opening mark and belong to the same token: nothing, or the letter
    that makes a blob of a string. -/
inductive Quote.Leads : Quote → List Char → Prop
  | nothing {q : Quote} : Leads q []
  | blob {c : Char} (hc : c = 'x' ∨ c = 'X') : Leads .single [c]

namespace Gap

/-- A comment that never ends has no closing mark in it. -/
theorem notInfix_of_commentEnd {cs : List Char} (h : commentEnd cs = none) :
    ¬['*', '/'] <:+: cs := by
  fun_induction commentEnd cs with
  | case1 => exact absurd h (by simp)
  | case2 c rest hne ih =>
    rw [List.infix_cons_iff, not_or]
    refine ⟨?_, ih (Option.map_eq_none_iff.1 h)⟩
    rintro ⟨more, hmark⟩
    simp only [List.cons_append, List.nil_append, List.cons.injEq] at hmark
    exact hne more hmark.1.symm hmark.2.symm
  | case3 => simp

theorem Closed.append {gap more : List Char} (h : Closed gap) (h' : Closed more) :
    Closed (gap ++ more) := by
  induction h with
  | nil => exact h'
  | blank hc _ ih => exact .blank hc ih
  | line hbody _ ih => simpa using Closed.line hbody ih
  | block hbody _ ih => simpa using Closed.block hbody ih

/-- Where a comment is left open with more in front, it was left open before. -/
theorem after_eq_openComment {front gap comment : List Char} {s : Skipped}
    (h : s.after front = .openComment gap comment) : ∃ gap', s = .openComment gap' comment := by
  cases s with
  | upTo gap' rest => exact absurd h (by simp [Skipped.after])
  | openComment gap' comment' =>
    simp only [Skipped.after, Skipped.openComment.injEq] at h
    exact ⟨gap', by rw [h.2]⟩

/-- A comment that is left open begins with its mark, and has no other. -/
theorem exists_of_openComment {cs gap comment : List Char}
    (h : skip cs = .openComment gap comment) :
    ∃ body, comment = '/' :: '*' :: body ∧ commentEnd body = none := by
  fun_induction skip cs generalizing gap with
  | case1 => exact absurd h (by simp)
  | case2 c rest hc ih =>
    obtain ⟨gap', hrest⟩ := after_eq_openComment h
    exact ih hrest
  | case3 c rest hc hl ih =>
    obtain ⟨gap', hrest⟩ := after_eq_openComment h
    exact ih hrest
  | case4 c rest hc hl hb inside after hi hlen ih =>
    obtain ⟨gap', hrest⟩ := after_eq_openComment h
    exact ih hrest
  | case5 c rest hc hl hb hi =>
    obtain ⟨rfl, hhead⟩ := hb
    obtain ⟨body, rfl⟩ := List.head?_eq_some_iff.1 hhead
    simp only [Skipped.openComment.injEq] at h
    exact ⟨body, h.2.symm, hi⟩
  | case6 => exact absurd h (by simp)

/-- A comment that is left open, behind a closed gap, is a gap when it is closed. -/
theorem closed_of_openComment {cs gap comment : List Char}
    (h : skip cs = .openComment gap comment) :
    Closed gap ∧ Closed (comment ++ ['*', '/']) := by
  have hfill := filler_skip cs
  rw [h] at hfill
  obtain ⟨body, rfl, hbody⟩ := exists_of_openComment h
  have hblock := Closed.block (commentEnd_append_mark (notInfix_of_commentEnd hbody)) .nil
  exact ⟨hfill.closed, by simpa using hblock⟩

end Gap

namespace Front

variable {q : Quote} {text : List Char}

theorem plain_ne_openQuote (c : Char) (cs : List Char) : plain c cs ≠ .openQuote q text := by
  unfold plain
  split
  · simp [number]
  · split
    · simp [word]
    · simp [operator]

theorem quoted_eq_openQuote {q' : Quote} {start inside : List Char}
    (h : quoted q' start inside = .openQuote q text) :
    q' = q ∧ q.closing inside = none ∧ start ++ inside = text := by
  unfold quoted at h
  split at h
  · exact absurd h (by simp)
  · rename_i hclose
    simp only [openQuote.injEq] at h
    obtain ⟨rfl, rfl⟩ := h
    exact ⟨rfl, hclose, rfl⟩

/-- Behind an opening mark, with what leads it, the inside of the quote is read. -/
theorem of_leads {lead : List Char} (h : q.Leads lead) (inside : List Char) :
    of (lead ++ q.opener :: inside) = quoted q (lead ++ [q.opener]) inside := by
  cases h with
  | nothing =>
    have hd : Delimiter.ofChar? q.opener = none := by cases q <;> rfl
    have hq : Quote.ofOpener? q.opener = some q := by cases q <;> rfl
    exact of_of_opener hd hq inside
  | @blob c hc =>
    have hd : Delimiter.ofChar? c = none := by rcases hc with rfl | rfl <;> rfl
    have hq : Quote.ofOpener? c = none := by rcases hc with rfl | rfl <;> rfl
    have hblob : beginsBlob c (Quote.single.opener :: inside).head? = true := by
      rcases hc with rfl | rfl <;> rfl
    rw [List.singleton_append, of_of_other hd hq, if_pos hblob]
    rfl

/-- What is left open as a quote begins with an opening mark, or with the two characters of a blob,
    and whatever stands behind these is the inside of the quote. -/
theorem exists_of_openQuote {cs : List Char} (h : of cs = .openQuote q text) :
    ∃ lead inside, text = lead ++ q.opener :: inside ∧ q.Leads lead ∧ q.closing inside = none := by
  cases cs with
  | nil => exact absurd h (by simp [of])
  | cons c cs =>
    cases hd : Delimiter.ofChar? c with
    | some d =>
      rw [of_of_delimiter hd] at h
      split at h
      · exact absurd h (by simp [number])
      · exact absurd h (by simp)
    | none =>
      cases hq : Quote.ofOpener? c with
      | some q' =>
        rw [of_of_opener hd hq] at h
        obtain ⟨rfl, hclose, rfl⟩ := quoted_eq_openQuote h
        rw [← Quote.opener_eq_of_ofOpener? hq]
        exact ⟨[], cs, rfl, .nothing, hclose⟩
      | none =>
        rw [of_of_other hd hq] at h
        split at h
        · rename_i hblob
          obtain ⟨rfl, hclose, rfl⟩ := quoted_eq_openQuote h
          simp only [beginsBlob, Bool.and_eq_true_iff, Bool.or_eq_true_iff, beq_iff_eq] at hblob
          exact ⟨[c], cs.tail, rfl, .blob hblob.1, hclose⟩
        · exact absurd h (plain_ne_openQuote _ _)

end Front

/-! ## A text with something left open -/

namespace SameEdge

/-- A text may be lengthened, if it is not empty. -/
theorem of_front {as : List Char} (h : as ≠ []) (bs : List Char) : SameEdge as (as ++ bs) := by
  obtain ⟨c, cs, rfl⟩ := List.exists_cons_of_ne_nil h
  exact .inl rfl

/-- A text may be shortened. -/
theorem to_front (as bs : List Char) : SameEdge (as ++ bs) as := by
  cases as with
  | nil => exact .nil _
  | cons c cs => exact .inl rfl

end SameEdge

namespace Opener

/-- The mark that closes what is open. -/
def closer : Opener → List Char
  | quote q => [q.closer]
  | comment => ['*', '/']

/-- What there is to a text that was opened, once it is closed: a quote is a token, and a comment
    is none. -/
def tokens (what : Opener) (text : List Char) (s : Span) : List Token :=
  match what with
  | quote q => [⟨if q.quotesName then .quotedName else .verbatim, String.ofList text, s⟩]
  | comment => []

end Opener

namespace Lexeme

variable {ls : List Lexeme} {gap opened : List Char}

/-- A closed gap behind lexemes adds nothing to their tokens. -/
theorem tokenize_of_closed {source : String} (h : AllRead ls gap) (hgap : Gap.Closed gap)
    (hsource : source.toList = ls.flatMap written ++ gap) :
    tokenize source = .ok (placeAll 0 ls) := by
  have hplaced := Lexing.placed_gap hgap [] (0 + Text.byteLength (ls.flatMap written))
  rw [List.append_nil, Lexing.placed_of_nil] at hplaced
  rw [← Lexing.placed_zero_of_toList, hsource, Lexing.placed_append h, hplaced]
  simp [Except.map]

/-- Nothing is left open in an empty text. -/
theorem ne_nil_of_scan_unclosed {cs : List Char} {what : Opener}
    (h : scan cs = .ending (.unclosed gap what opened)) : cs ≠ [] := by
  rintro rfl
  exact absurd h (by simp [scan, Gap.skip, Front.of])

/-- Where a comment is left open, the gap ends in it. -/
theorem skip_of_scan_openComment {cs : List Char}
    (h : scan cs = .ending (.unclosed gap .comment opened)) :
    Gap.skip cs = .openComment gap opened := by
  unfold scan at h
  split at h
  · rename_i hskip
    simp only [Scanned.ending.injEq, Ending.unclosed.injEq, true_and] at h
    rw [hskip, h.1, h.2]
  · split at h <;> exact absurd h (by simp)

/-- Where a quote is left open, it stands behind the gap. -/
theorem of_scan_openQuote {cs : List Char} {q : Quote}
    (h : scan cs = .ending (.unclosed gap (.quote q) opened)) :
    Gap.skip cs = .upTo gap opened ∧ Front.of opened = .openQuote q opened := by
  unfold scan at h
  split at h
  · exact absurd h (by simp)
  · rename_i ahead hskip
    split at h
    · exact absurd h (by simp)
    · exact absurd h (by simp)
    · rename_i hfront
      simp only [Scanned.ending.injEq, Ending.unclosed.injEq, Opener.quote.injEq] at h
      obtain ⟨rfl, rfl, rfl⟩ := h
      have hwhole := Front.whole_of ahead
      rw [hfront] at hwhole
      obtain rfl : _ = ahead := hwhole
      exact ⟨hskip, hfront⟩

/-- A quote that is left open is read as a token when it is closed. -/
theorem reads_of_openQuote {q : Quote} (hgap : Gap.Closed gap) (hstops : Gap.Stops opened)
    (h : Front.of opened = .openQuote q opened) : Reads ⟨gap,
      if q.quotesName then .quotedName else .verbatim, opened ++ [q.closer]⟩ [] := by
  obtain ⟨lead, inside, rfl, hlead, hclose⟩ := Front.exists_of_openQuote h
  have hne : lead ++ q.opener :: inside ≠ [] := by simp
  have hmark : ∀ c, c = '-' ∨ c = '*' → [q.closer].head? ≠ some c := by
    rintro c (rfl | rfl)
    · cases q <;> simp [Quote.closer, Quote.opener]
    · cases q <;> simp [Quote.closer, Quote.opener]
  rw [reads_iff, List.append_nil]
  refine ⟨hgap, ?_, ?_⟩
  · exact hstops.append hne (fun _ => hmark '-' (.inl rfl)) (fun _ => hmark '*' (.inr rfl))
  · rw [List.append_assoc, List.cons_append, Front.of_leads hlead, Front.quoted,
      Quote.closing_append_closer hclose]
    simp

end Lexeme

namespace Lexing

open Lexeme

variable {gap opened : List Char} {what : Opener}

/-- What is left open, behind its gap, is its tokens when it is closed. -/
theorem placed_closed (h : scan (gap ++ opened) = .ending (.unclosed gap what opened))
    (offset : Nat) : (of (gap ++ (opened ++ what.closer))).placed offset =
      .ok (what.tokens (opened ++ what.closer) ⟨offset + Text.byteLength gap,
        offset + Text.byteLength (gap ++ (opened ++ what.closer))⟩) := by
  cases what with
  | comment =>
    obtain ⟨hgap, hclosed⟩ := Gap.closed_of_openComment (skip_of_scan_openComment h)
    have hplaced := placed_gap (hgap.append hclosed) [] offset
    rw [List.append_nil, placed_of_nil] at hplaced
    exact hplaced
  | quote q =>
    obtain ⟨hskip, hfront⟩ := of_scan_openQuote h
    have hne : opened ≠ [] := by
      rintro rfl
      exact absurd hfront (by simp [Front.of])
    have hread : AllRead [_] [] := ⟨reads_of_openQuote (Gap.closed_of_skip hskip hne)
      (Gap.stops_of_skip hskip) hfront, trivial⟩
    have hplaced := placed_append hread offset
    rw [placed_of_nil, List.append_nil, List.flatMap_singleton] at hplaced
    rw [written] at hplaced
    refine hplaced.trans ?_
    simp [Except.map, placeAll, place, Opener.tokens, Opener.closer, Nat.add_assoc]

end Lexing

/-- The text has no fault but the error: what stands before it is read as the tokens `ts`, and with
    the closing mark of what is left open at the end, the whole text is read as these tokens and
    what was open. -/
structure LexicalError.Mended (e : LexicalError) (text : String) (before opened : List Char)
    (ts : List Token) : Prop where
  cut : text.toList = before ++ opened
  span : e.span = ⟨Text.byteLength before, Text.byteLength text.toList⟩
  tokens_before : tokenize (String.ofList before) = .ok ts
  tokens_closed : tokenize (text ++ String.ofList e.what.closer) =
    .ok (ts ++ e.what.tokens (opened ++ e.what.closer)
      ⟨e.span.start, Text.byteLength (text.toList ++ e.what.closer)⟩)

/-- Which error a text has can be told without its tokens. -/
theorem tokenize_eq_error {text : String} {e : LexicalError}
    (h : (tokenize text).map (fun _ => ()) = .error e) : tokenize text = .error e := by
  cases htokens : tokenize text with
  | error e' =>
    rw [htokens] at h
    rw [Except.error.inj h]
  | ok ts =>
    rw [htokens] at h
    exact absurd h (by simp [Except.map])

/-- **A text with an error has no other fault**: it is mended by closing what the error says is
    open, where the error says it begins. -/
theorem exists_mended {text : String} {e : LexicalError} (h : tokenize text = .error e) :
    ∃ before opened ts, e.Mended text before opened ts := by
  obtain ⟨ls, gap, opened, htext, hall, hgap, hscan, hspan⟩ := Lexing.exists_of_tokenize_error h
  refine ⟨ls.flatMap Lexeme.written ++ gap, opened, Lexeme.placeAll 0 ls, ?_, hspan, ?_, ?_⟩
  · rw [htext, List.append_assoc]
  · exact Lexeme.tokenize_of_closed (hall.of_sameEdge (.to_front _ _)) hgap (by simp)
  · have hmore : Lexeme.AllRead ls (gap ++ (opened ++ e.what.closer)) := by
      rw [← List.append_assoc]
      exact hall.of_sameEdge (.of_front (Lexeme.ne_nil_of_scan_unclosed hscan) _)
    have hchars : (text ++ String.ofList e.what.closer).toList =
        ls.flatMap Lexeme.written ++ (gap ++ (opened ++ e.what.closer)) := by
      simp [htext]
    rw [← Lexing.placed_zero_of_toList, hchars, Lexing.placed_append hmore,
      Lexing.placed_closed hscan]
    simp [Except.map, hspan, htext]

/-- A blob that ends in a doubled quote, and a comment that ends in half of its mark. -/
theorem exists_mended_of_pending :
    (∃ text e, text = "a /**/ x'0''" ∧ e = ⟨.quote .single, ⟨7, 12⟩⟩ ∧ tokenize text = .error e ∧
      ∃ before opened ts, e.Mended text before opened ts) ∧
    ∃ text e, text = "a /**/ b /* é *" ∧ e = ⟨.comment, ⟨9, 16⟩⟩ ∧ tokenize text = .error e ∧
      ∃ before opened ts, e.Mended text before opened ts := by
  have hquote : tokenize "a /**/ x'0''" = .error ⟨.quote .single, ⟨7, 12⟩⟩ :=
    tokenize_eq_error (by decide +kernel)
  have hcomment : tokenize "a /**/ b /* é *" = .error ⟨.comment, ⟨9, 16⟩⟩ :=
    tokenize_eq_error (by decide +kernel)
  exact ⟨⟨_, _, rfl, rfl, hquote, exists_mended hquote⟩,
    ⟨_, _, rfl, rfl, hcomment, exists_mended hcomment⟩⟩

end TableRebuild
