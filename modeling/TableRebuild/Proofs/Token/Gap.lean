import Mathlib.Data.List.Infix
import Mathlib.Data.List.TakeWhile
import TableRebuild.Token.Gap

/-!
# What a gap is made of

`Gap.skip` is a reader: it passes over whatever it finds and stops where it has to. This file says
what it passes over, without the reader: a gap is *closed* when it is a sequence of blanks, of line
comments with their line break and of block comments with their closing mark.

The point of the predicate is `skip_append`. A closed gap is passed over **whatever comes after
it**: no comment in it can reach into the text behind, and nothing behind can lengthen it. So a
piece of a statement may be cut out and put elsewhere, and the gaps inside the piece stay gaps.

What a reader of places wants to know is the converse: what is passed over is nothing but blanks
and comments. `Filler` says what these are without any reader, and `filler_skip` asks the reader
once, for all its three outcomes together. The one gap that is not closed is a line comment that the
end of the text ends, and no token ever stands behind such a one (`closed_of_skip`).
-/

namespace TableRebuild

namespace Skipped

/-- What is passed over. -/
def gap : Skipped → List Char
  | upTo gap _ => gap
  | openComment gap _ => gap

/-- Whether the text ends where the gap does. -/
def atEnd : Skipped → Bool
  | upTo _ rest => rest.isEmpty
  | openComment _ _ => false

@[simp] theorem gap_after (front : List Char) (s : Skipped) :
    (s.after front).gap = front ++ s.gap := by
  cases s <;> rfl

@[simp] theorem atEnd_after (front : List Char) (s : Skipped) :
    (s.after front).atEnd = s.atEnd := by
  cases s <;> rfl

end Skipped

namespace Gap

/-! ## Comments -/

/-- A comment has its closing mark, so there is something of it. -/
theorem ne_nil_of_commentEnd {cs inside after : List Char}
    (h : commentEnd cs = some (inside, after)) : inside ≠ [] := by
  fun_cases commentEnd cs with
  | case1 rest => simp [commentEnd] at h; simp [← h.1]
  | case2 c rest hne =>
    rw [commentEnd.eq_2 c rest hne] at h
    obtain ⟨⟨i, a⟩, -, he⟩ := Option.map_eq_some_iff.1 h
    simp only [Prod.mk.injEq] at he
    simp [← he.1]
  | case3 => simp [commentEnd] at h

/-- The end of a block comment is found in the comment, so it does not matter what follows. -/
theorem commentEnd_append {cs inside after : List Char}
    (h : commentEnd cs = some (inside, after)) (after' : List Char) :
    commentEnd (inside ++ after') = some (inside, after') := by
  fun_induction commentEnd cs generalizing inside with
  | case1 rest =>
    simp only [Option.some.injEq, Prod.mk.injEq] at h
    simp [← h.1, commentEnd]
  | case2 c rest hne ih =>
    obtain ⟨⟨i, a⟩, hi, he⟩ := Option.map_eq_some_iff.1 h
    simp only [Prod.mk.injEq] at he
    obtain ⟨rfl, rfl⟩ := he
    have hrest := commentEnd_eq_some hi
    -- `c` does not begin `*/` in front of `rest`, and `i` is not empty and begins as `rest` does.
    have hne' : ∀ r, c = '*' → i ++ after' = '/' :: r → False := by
      intro r hc hr
      cases i with
      | nil => exact ne_nil_of_commentEnd hi rfl
      | cons d i =>
        simp only [List.cons_append, List.cons.injEq] at hr
        exact hne (i ++ a) hc (by rw [hrest, hr.1]; rfl)
    rw [List.cons_append, commentEnd.eq_2 c (i ++ after') hne', ih hi]
    rfl
  | case3 => simp at h

/-- The end of a block comment is the first closing mark. -/
theorem exists_of_commentEnd {cs inside after : List Char}
    (h : commentEnd cs = some (inside, after)) :
    ∃ body, inside = body ++ ['*', '/'] ∧ ¬['*', '/'] <:+: body ++ ['*'] := by
  fun_induction commentEnd cs generalizing inside with
  | case1 rest =>
    simp only [Option.some.injEq, Prod.mk.injEq] at h
    exact ⟨[], h.1.symm, by simp [List.infix_cons_iff]⟩
  | case2 c rest hne ih =>
    obtain ⟨⟨i, a⟩, hi, he⟩ := Option.map_eq_some_iff.1 h
    simp only [Prod.mk.injEq] at he
    obtain ⟨rfl, rfl⟩ := he
    obtain ⟨body, rfl, hbody⟩ := ih hi
    have hrest := commentEnd_eq_some hi
    refine ⟨c :: body, rfl, ?_⟩
    rw [List.cons_append, List.infix_cons_iff]
    rintro (hfront | hlater)
    · -- A mark at the front would have ended the comment there.
      obtain ⟨rfl, hslash⟩ := List.cons_prefix_cons.1 hfront
      cases body with
      | nil => simp at hslash
      | cons d body =>
        obtain rfl := (List.cons_prefix_cons.1 hslash).1
        exact hne (body ++ ['*', '/'] ++ a) rfl (by simp [hrest])
    · exact hbody hlater
  | case3 => exact absurd h (by simp)

/-- A closing mark that has none before it is the end. -/
theorem commentEnd_of_notInfix {body : List Char} (h : ¬['*', '/'] <:+: body ++ ['*']) :
    commentEnd (body ++ ['*', '/']) = some (body ++ ['*', '/'], []) := by
  induction body with
  | nil => rfl
  | cons c body ih =>
    rw [List.cons_append, List.infix_cons_iff, not_or] at h
    have hne : ∀ r, c = '*' → body ++ ['*', '/'] = '/' :: r → False := by
      rintro r rfl hr
      cases body with
      | nil => simp at hr
      | cons d body =>
        obtain rfl : d = '/' := by simpa using (List.cons.inj hr).1
        exact h.1 (by simp)
    rw [List.cons_append, commentEnd.eq_2 c _ hne, ih h.2]
    rfl

/-- Where no comment ends, a closing mark behind the text ends one. -/
theorem commentEnd_append_mark {body : List Char} (h : ¬['*', '/'] <:+: body) :
    commentEnd (body ++ ['*', '/']) = some (body ++ ['*', '/'], []) := by
  apply commentEnd_of_notInfix
  rw [List.infix_concat_iff]
  rintro (⟨front, hsuffix⟩ | hinfix)
  · have hlast := congrArg List.getLast? hsuffix
    simp at hlast
  · exact h hinfix

/-! ## Lines -/

theorem notMem_line (cs : List Char) : '\n' ∉ line cs := by
  intro hmem
  simpa using List.mem_takeWhile_imp hmem

/-- A line ends at a line break or with the text. -/
theorem afterLine_eq_nil_or (cs : List Char) :
    afterLine cs = [] ∨ ∃ more, afterLine cs = '\n' :: more := by
  cases hcs : afterLine cs with
  | nil => exact .inl rfl
  | cons d more =>
    have hhead := List.head?_dropWhile_not (· != '\n') cs
    rw [afterLine] at hcs
    rw [hcs] at hhead
    exact .inr ⟨more, by simpa using hhead⟩

/-! ## Closed gaps -/

/-- A sequence of blanks and of comments that end in it. -/
inductive Closed : List Char → Prop
  | nil : Closed []
  | blank {c : Char} {gap : List Char} (hc : Text.isBlank c = true) (h : Closed gap) :
      Closed (c :: gap)
  /-- A comment to the end of the line, and the line break. -/
  | line {body gap : List Char} (hbody : '\n' ∉ body) (h : Closed gap) :
      Closed ('-' :: '-' :: (body ++ '\n' :: gap))
  /-- A comment between marks; `body` has the closing mark at its end and nowhere before. -/
  | block {body gap : List Char} (hbody : commentEnd body = some (body, [])) (h : Closed gap) :
      Closed ('/' :: '*' :: (body ++ gap))

theorem closed_space : Closed [' '] := .blank rfl .nil

/-! ## Passing over -/

theorem after_nil (s : Skipped) : s.after [] = s := by
  cases s <;> simp [Skipped.after]

theorem after_after (front more : List Char) (s : Skipped) :
    (s.after more).after front = s.after (front ++ more) := by
  cases s <;> simp [Skipped.after]

/-- Where the outcome with more in front is a gap passed over, so was the outcome before. -/
theorem after_eq_upTo {front gap rest : List Char} {s : Skipped}
    (h : s.after front = .upTo gap rest) : ∃ gap', s = .upTo gap' rest ∧ gap = front ++ gap' := by
  cases s with
  | upTo gap' rest' =>
    simp only [Skipped.after, Skipped.upTo.injEq] at h
    exact ⟨gap', by rw [h.2], h.1.symm⟩
  | openComment gap' comment => simp [Skipped.after] at h

theorem skip_blank {c : Char} {cs : List Char} (hc : Text.isBlank c = true) :
    skip (c :: cs) = (skip cs).after [c] := by
  rw [skip, if_pos hc]

theorem skip_line {body cs : List Char} (hbody : '\n' ∉ body) :
    skip ('-' :: '-' :: (body ++ '\n' :: cs)) =
      (skip cs).after ('-' :: '-' :: (body ++ ['\n'])) := by
  have htake : line ('-' :: (body ++ '\n' :: cs)) = '-' :: body := by
    have hb : ∀ c ∈ body, (c != '\n') = true := by
      intro c hc
      rw [bne_iff_ne]
      rintro rfl
      exact hbody hc
    simp [line, List.takeWhile_append_of_pos hb]
  have hdrop : afterLine ('-' :: (body ++ '\n' :: cs)) = '\n' :: cs := by
    have hsplit := line_append_afterLine ('-' :: (body ++ '\n' :: cs))
    rw [htake] at hsplit
    simpa using hsplit
  rw [skip, if_neg (by decide), if_pos ⟨rfl, rfl⟩, hdrop, htake, skip_blank rfl, after_after]
  simp

theorem skip_block {body cs : List Char} (hbody : commentEnd body = some (body, [])) :
    skip ('/' :: '*' :: (body ++ cs)) = (skip cs).after ('/' :: '*' :: body) := by
  have hend : commentEnd ('*' :: (body ++ cs)).tail = some (body, cs) := commentEnd_append hbody cs
  rw [skip, if_neg (by decide), if_neg (by simp), if_pos ⟨rfl, rfl⟩]
  split
  · rename_i inside after h
    rw [hend] at h
    simp only [Option.some.injEq, Prod.mk.injEq] at h
    obtain ⟨rfl, rfl⟩ := h
    rfl
  · rename_i h
    rw [hend] at h
    exact absurd h (by simp)

/-- **A closed gap is passed over whatever comes behind it.** -/
theorem skip_append {gap : List Char} (h : Closed gap) (cs : List Char) :
    skip (gap ++ cs) = (skip cs).after gap := by
  induction h with
  | nil => rw [List.nil_append, after_nil]
  | blank hc _ ih => rw [List.cons_append, skip_blank hc, ih, after_after]; rfl
  | @line body gap hbody _ ih =>
    have happ : '-' :: '-' :: (body ++ '\n' :: gap) ++ cs =
        '-' :: '-' :: (body ++ '\n' :: (gap ++ cs)) := by simp
    rw [happ, skip_line hbody, ih, after_after]
    simp
  | @block body gap hbody _ ih =>
    have happ : '/' :: '*' :: (body ++ gap) ++ cs = '/' :: '*' :: (body ++ (gap ++ cs)) := by simp
    rw [happ, skip_block hbody, ih, after_after]
    simp

/-! ## Where a gap stops -/

/-- The text does not begin with a gap. -/
def Stops (cs : List Char) : Prop := skip cs = .upTo [] cs

/-- What a text does not begin with if it does not begin with a gap. Only its first two characters
    have a say in it. -/
theorem stops_cons_iff {c : Char} {rest : List Char} : Stops (c :: rest) ↔
    Text.isBlank c = false ∧ ¬(c = '-' ∧ rest.head? = some '-') ∧
      ¬(c = '/' ∧ rest.head? = some '*') := by
  unfold Stops
  constructor
  · intro h
    rw [skip] at h
    split at h
    · obtain ⟨_, -, hgap⟩ := after_eq_upTo h
      exact absurd hgap (by simp)
    · rename_i hc
      split at h
      · obtain ⟨_, -, hgap⟩ := after_eq_upTo h
        exact absurd hgap (by simp)
      · rename_i hl
        split at h
        · split at h
          · obtain ⟨_, -, hgap⟩ := after_eq_upTo h
            exact absurd hgap (by simp)
          · exact absurd h (by simp)
        · rename_i hb
          exact ⟨by simpa using hc, hl, hb⟩
  · rintro ⟨hc, hl, hb⟩
    rw [skip, if_neg (by simp [hc]), if_neg hl, if_neg hb]

/-- Behind the gap that is passed over no further gap begins. -/
theorem stops_of_skip {cs gap rest : List Char} (h : skip cs = .upTo gap rest) : Stops rest := by
  fun_induction skip cs generalizing gap with
  | case1 =>
    simp only [Skipped.upTo.injEq] at h
    rw [← h.2]
    simp [Stops, skip]
  | case2 c cs hc ih =>
    obtain ⟨gap', h', -⟩ := after_eq_upTo h
    exact ih h'
  | case3 c cs hc hl ih =>
    obtain ⟨gap', h', -⟩ := after_eq_upTo h
    exact ih h'
  | case4 c cs hc hl hb inside after hi hlen ih =>
    obtain ⟨gap', h', -⟩ := after_eq_upTo h
    exact ih h'
  | case5 => exact absurd h (by simp)
  | case6 c cs hc hl hb =>
    simp only [Skipped.upTo.injEq] at h
    rw [← h.2]
    exact stops_cons_iff.2 ⟨by simpa using hc, hl, hb⟩

/-! ## What is passed over -/

/-- A sequence of blanks and comments. A block comment has its closing mark at its end and nowhere
    before. A line comment runs to a line break or, where the gap is at the end of the text, to that
    end. -/
inductive Filler (atEnd : Bool) : List Char → Prop
  | nil : Filler atEnd []
  | blank {c : Char} {gap : List Char} (hc : Text.isBlank c = true) (h : Filler atEnd gap) :
      Filler atEnd (c :: gap)
  | line {body gap : List Char} (hbody : '\n' ∉ body) (h : Filler atEnd ('\n' :: gap)) :
      Filler atEnd ('-' :: '-' :: (body ++ '\n' :: gap))
  | block {body gap : List Char} (hbody : ¬['*', '/'] <:+: body ++ ['*'])
      (h : Filler atEnd gap) : Filler atEnd ('/' :: '*' :: (body ++ '*' :: '/' :: gap))
  | lastLine {body : List Char} (hend : atEnd = true) (hbody : '\n' ∉ body) :
      Filler atEnd ('-' :: '-' :: body)

/-- **What is passed over is blanks and comments**, and an unfinished comment is not among them,
    except for a line comment that the end of the text ends. -/
theorem filler_skip (cs : List Char) : Filler (skip cs).atEnd (skip cs).gap := by
  fun_induction skip cs with
  | case1 => exact .nil
  | case2 c rest hc ih =>
    rw [Skipped.atEnd_after, Skipped.gap_after]
    exact .blank hc ih
  | case3 c rest hc hl ih =>
    obtain ⟨rfl, hhead⟩ := hl
    obtain ⟨ds, rfl⟩ := List.head?_eq_some_iff.1 hhead
    have hline : line ('-' :: ds) = '-' :: line ds := rfl
    have hafter : afterLine ('-' :: ds) = afterLine ds := rfl
    rw [Skipped.atEnd_after, Skipped.gap_after, hline]
    rw [hafter] at ih ⊢
    rcases afterLine_eq_nil_or ds with hnil | ⟨more, hmore⟩
    · rw [hnil, skip, Skipped.gap, List.append_nil]
      exact .lastLine rfl (notMem_line ds)
    · rw [hmore, skip_blank rfl, Skipped.gap_after] at ih ⊢
      exact .line (notMem_line ds) ih
  | case4 c rest hc hl hb inside after hi hlen ih =>
    obtain ⟨rfl, hhead⟩ := hb
    obtain ⟨body, rfl, hbody⟩ := exists_of_commentEnd hi
    rw [Skipped.atEnd_after, Skipped.gap_after]
    simpa using Filler.block hbody ih
  | case5 => exact .nil
  | case6 => exact .nil

/-- What may be in the middle of a text is closed. -/
theorem Filler.closed {gap : List Char} (h : Filler false gap) : Closed gap := by
  induction h with
  | nil => exact .nil
  | blank hc _ ih => exact .blank hc ih
  | line hbody _ ih =>
    cases ih with
    | blank _ hgap => exact .line hbody hgap
  | @block body gap hbody _ ih =>
    have hclosed := Closed.block (commentEnd_of_notInfix hbody) ih
    simpa using hclosed
  | lastLine hend _ => exact absurd hend Bool.false_ne_true

/-- What is passed over in front of something is a closed gap: a line comment that the end of the
    text ends has nothing behind it. -/
theorem closed_of_skip {cs gap rest : List Char} (h : skip cs = .upTo gap rest)
    (hrest : rest ≠ []) : Closed gap := by
  have hfill := filler_skip cs
  rw [h, Skipped.atEnd, List.isEmpty_eq_false_iff.2 hrest] at hfill
  exact hfill.closed

end Gap
end TableRebuild
