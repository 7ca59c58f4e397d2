import TableRebuild.Text.CharClass

/-!
# Gaps

What stands between two tokens: blanks, comments from `--` to the end of the line, and comments
between `/*` and `*/`. A gap carries no meaning, but it is kept as a piece of the text, because
places are counted in bytes and the bytes of a gap count too.

A gap is passed over as far as it goes. Only a block comment can go wrong, by not being closed; a
line comment ends with the text at the latest. Comments do not nest, and the mark that opens one
cannot also close it: `/*/` is open.
-/

namespace TableRebuild

inductive Skipped where
  /-- The gap, and the text from the first character that is not part of it. -/
  | upTo (gap rest : List Char)
  /-- The gap up to a block comment that is never closed, and that comment to the end. -/
  | openComment (gap comment : List Char)
deriving Repr

namespace Skipped

def after (front : List Char) : Skipped → Skipped
  | upTo gap rest => upTo (front ++ gap) rest
  | openComment gap comment => openComment (front ++ gap) comment

def whole : Skipped → List Char
  | upTo gap rest => gap ++ rest
  | openComment gap comment => gap ++ comment

@[simp] theorem whole_after (front : List Char) (s : Skipped) :
    (s.after front).whole = front ++ s.whole := by
  cases s <;> simp [after, whole]

end Skipped

namespace Gap

/-- Given the text behind `/*`, the part up to and including `*/`, and what follows it; `none` when
    the comment never ends. -/
def commentEnd : List Char → Option (List Char × List Char)
  | '*' :: '/' :: rest => some (['*', '/'], rest)
  | c :: rest => (commentEnd rest).map fun (inside, after) => (c :: inside, after)
  | [] => none

theorem commentEnd_eq_some {cs inside after : List Char}
    (h : commentEnd cs = some (inside, after)) : cs = inside ++ after := by
  fun_induction commentEnd cs generalizing inside after with
  | case1 => simp at h; simp [← h.1, ← h.2]
  | case2 _ _ _ ih =>
    obtain ⟨⟨i, a⟩, hi, he⟩ := Option.map_eq_some_iff.1 h
    simp at he
    simp [← he.1, ← he.2, ih hi]
  | case3 => simp at h

theorem length_after_commentEnd_le {cs inside after : List Char}
    (h : commentEnd cs.tail = some (inside, after)) : after.length ≤ cs.length := by
  have htail := congrArg List.length (commentEnd_eq_some h)
  have : cs.tail.length ≤ cs.length := (List.tail_sublist cs).length_le
  rw [List.length_append] at htail
  omega

def line (cs : List Char) : List Char := cs.takeWhile (· != '\n')

/-- What follows the rest of a line, from the line break on. -/
def afterLine (cs : List Char) : List Char := cs.dropWhile (· != '\n')

@[simp] theorem line_append_afterLine (cs : List Char) : line cs ++ afterLine cs = cs :=
  List.takeWhile_append_dropWhile

theorem length_afterLine_le (cs : List Char) : (afterLine cs).length ≤ cs.length :=
  (List.dropWhile_sublist _).length_le

def skip (cs : List Char) : Skipped :=
  match cs with
  | [] => .upTo [] []
  | c :: rest =>
    if Text.isBlank c then (skip rest).after [c]
    else if c = '-' ∧ rest.head? = some '-' then
      (skip (afterLine rest)).after (c :: line rest)
    else if c = '/' ∧ rest.head? = some '*' then
      match h : commentEnd rest.tail with
      | some (inside, after) =>
        have := length_after_commentEnd_le h
        (skip after).after ('/' :: '*' :: inside)
      | none => .openComment [] (c :: rest)
    else .upTo [] (c :: rest)
termination_by cs.length
decreasing_by
  · exact Nat.lt_succ_self _
  · exact Nat.lt_succ_of_le (length_afterLine_le rest)
  · exact Nat.lt_succ_of_le this

/-- Skipping loses nothing. -/
theorem whole_skip (cs : List Char) : (skip cs).whole = cs := by
  fun_induction skip cs with
  | case1 => rfl
  | case2 c rest _ ih => simp [ih]
  | case3 c rest _ _ ih => simp [ih]
  | case4 c rest _ _ hc inside after h _ ih =>
    obtain ⟨rfl, hh⟩ := hc
    cases rest with
    | nil => simp at hh
    | cons d rest =>
      simp at hh
      have hrest : rest = inside ++ after := commentEnd_eq_some h
      simp [ih, hh, hrest]
  | case5 => simp [Skipped.whole]
  | case6 => simp [Skipped.whole]

end Gap
end TableRebuild
