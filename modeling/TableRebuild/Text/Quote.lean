/-!
# Quoted text

There are four ways to quote: `'…'` for strings and `"…"`, backticks and `[…]` for names. In the
first three a mark inside the text is written twice; brackets have no way to write their closing
mark, so the first one ends the text.

Writing and reading are two definitions each, and neither is the other run backwards. `enclose`
writes a text inside marks, and `unquote` takes a name out of whatever marks surround it.
`closing` is the reader's view of a text whose opening mark it has just passed: it knows nothing
of where the text was written and finds the closing mark by the pairing of marks alone.
-/

namespace TableRebuild

inductive Quote where
  | single
  | double
  | backtick
  | bracket
deriving DecidableEq, Repr

namespace Quote

def opener : Quote → Char
  | .single => '\''
  | .double => '"'
  | .backtick => '\x60'
  | .bracket => '['

def closer : Quote → Char
  | .bracket => ']'
  | q => q.opener

/-- Whether the closing mark is written twice where the text itself has it. -/
def doubles : Quote → Bool
  | .bracket => false
  | _ => true

def ofOpener? (c : Char) : Option Quote :=
  [single, double, backtick, bracket].find? (·.opener == c)

def quotesName : Quote → Bool
  | .single => false
  | _ => true

/-! ## Writing -/

/-- The text as it stands between marks. -/
def escape (q : Quote) (cs : List Char) : List Char :=
  if q.doubles then cs.flatMap fun c => if c = q.closer then [c, c] else [c] else cs

def enclose (q : Quote) (cs : List Char) : List Char :=
  q.opener :: (q.escape cs ++ [q.closer])

/-! ## Reading -/

/-- Makes one mark of two adjacent ones, from the left. -/
def undouble (mark : Char) : List Char → List Char
  | c :: d :: rest =>
    if c = mark ∧ d = mark then mark :: undouble mark rest else c :: undouble mark (d :: rest)
  | cs => cs

def unescape (q : Quote) (cs : List Char) : List Char :=
  if q.doubles then undouble q.closer cs else cs

/-- Given the text behind an opening mark, the part up to and including the closing mark, and what
    follows it; `none` when the mark never comes. Two closing marks in a row are a mark inside the
    text wherever the quote doubles its marks. -/
def closing (q : Quote) : List Char → Option (List Char × List Char)
  | [] => none
  | c :: rest =>
    if c = q.closer then
      match rest with
      | [] => some ([c], [])
      | d :: more =>
        if q.doubles && d == q.closer then
          (q.closing more).map fun (inside, after) => (c :: d :: inside, after)
        else some ([c], d :: more)
    else
      (q.closing rest).map fun (inside, after) => (c :: inside, after)

/-- A name taken out of its quotes. What begins with a name's opening mark and ends with the
    closing mark that belongs to it is quoted; anything else, one lone mark included, is the name
    itself. -/
def unquote (cs : List Char) : List Char :=
  match cs with
  | [] => []
  | first :: rest =>
    match (ofOpener? first).filter (fun q => q.quotesName && rest.getLast? == some q.closer) with
    | some q => q.unescape rest.dropLast
    | none => cs

/-- What `closing` gives back is the text it was given, cut in two, and the first part is not
    empty. -/
theorem closing_eq_some {q : Quote} {cs inside after : List Char}
    (h : q.closing cs = some (inside, after)) : cs = inside ++ after ∧ inside ≠ [] := by
  fun_induction q.closing cs generalizing inside after with
  | case1 => simp at h
  | case2 => simp at h; simp [← h.1, ← h.2]
  | case3 _ _ _ ih =>
    obtain ⟨⟨i, a⟩, hi, he⟩ := Option.map_eq_some_iff.1 h
    simp at he
    simp [← he.1, ← he.2, (ih hi).1]
  | case4 => simp at h; simp [← h.1, ← h.2]
  | case5 _ _ _ ih =>
    obtain ⟨⟨i, a⟩, hi, he⟩ := Option.map_eq_some_iff.1 h
    simp at he
    simp [← he.1, ← he.2, (ih hi).1]

end Quote
end TableRebuild
