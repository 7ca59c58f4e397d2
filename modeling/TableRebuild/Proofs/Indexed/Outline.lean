import TableRebuild.Proofs.Indexed.Run
import TableRebuild.Proofs.Definition.Agree
import TableRebuild.Proofs.Definition.Outline

/-!
# Outlines by position

The readers of a statement hand on the tokens that are left. Here the tokens stay where they are and
what is handed on is an index; the column list and the options are two indices each, to be cut out
later. What is before an index is looked at as well: the parenthesis that opens the column list is
the token before its first one.

`Passed r pos words` relates the two. The reading `r` stands at `pos`, some words have been taken
from it, and the new index is behind these words. Each reader is shown to refine its counterpart
with this relation (`refines_…`), and at the end `Cut.Matches` says what the indices of a whole
statement cut out of it.
-/

namespace TableRebuild
namespace Indexed

open Nesting

/-- The depth behind a token. A parenthesis that closes takes one off, and there has to be one. -/
def nest {ε : Type} (depth : Nat) (t : Token) : Run ε Nat :=
  if t.isDelimiter .leftParen then return depth + 1
  else if t.isDelimiter .rightParen then minus depth 1
  else return depth

theorem nest_eq {ε : Type} {depth : Nat} {t : Token}
    (h : ¬(t.isDelimiter .rightParen = true ∧ depth = 0)) :
    (nest depth t : Run ε Nat) = .ok (after depth t) := by
  rw [nest, after_eq]
  split_ifs with hleft hright
  · rfl
  · exact minus_of_le (Nat.pos_of_ne_zero fun h0 => h ⟨hright, h0⟩)
  · rfl

/-- Where no parenthesis is open there is none to close. -/
example : (nest 0 ⟨.delimiter .rightParen, ")", ⟨0, 1⟩⟩ : Run Unit Nat) =
    .error (.trap .underflow) := rfl

/-! ## The reader -/

section

variable (ts : List Token) (stop : Nat)

def mismatch (expected : Expected) (pos : Nat) : DefinitionError :=
  match ts[pos]? with
  | some t => .unexpected expected t.text t.span
  | none => .unexpectedEnd expected stop

/-- The token here and the index behind it, if the token passes the test. -/
def next? (test : Token → Bool) (pos : Nat) : Option (Token × Nat) :=
  match ts[pos]? with
  | some t => if test t then some (t, pos + 1) else none
  | none => none

def expect (expected : Expected) (test : Token → Bool) (pos : Nat) :
    Run DefinitionError (Token × Nat) :=
  match next? ts test pos with
  | some found => .ok found
  | none => refuse (mismatch ts stop expected pos)

def keyword (k : Keyword) : Nat → Run DefinitionError (Token × Nat) :=
  expect ts stop (.keyword k) (·.isKeyword k)

def tableName : Nat → Run DefinitionError (Token × Nat) := expect ts stop .tableName (·.isWord)

def readTemporary (pos : Nat) : Bool × Nat :=
  match next? ts (fun t => t.isKeyword .temp || t.isKeyword .temporary) pos with
  | some (_, pos) => (true, pos)
  | none => (false, pos)

def readIfNotExists (pos : Nat) : Run DefinitionError (Bool × Nat) :=
  match next? ts (·.isKeyword .if_) pos with
  | some (_, pos) => do
    let (_, pos) ← keyword ts stop .not pos
    let (_, pos) ← keyword ts stop .exists_ pos
    return (true, pos)
  | none => .ok (false, pos)

def readName (pos : Nat) : Run DefinitionError (Option Token × Token × Nat) := do
  let (first, pos) ← tableName ts stop pos
  match next? ts (·.isDelimiter .dot) pos with
  | some (_, pos) => do
    let (second, pos) ← tableName ts stop pos
    return (some first, second, pos)
  | none => return (none, first, pos)

def readHeader (pos : Nat) : Run DefinitionError (Header × Nat) := do
  let (_, pos) ← keyword ts stop .create pos
  let (temporary, pos) := readTemporary ts pos
  let (_, pos) ← keyword ts stop .table pos
  let (ifNotExists, pos) ← readIfNotExists ts stop pos
  let (schema, name, pos) ← readName ts stop pos
  return ({ temporary, ifNotExists, schema, name }, pos)

/-- The index of the parenthesis that closes the list opened by `opening`. -/
def closingFrom (opening : Token) : Nat × Nat → Run DefinitionError Nat :=
  loop (fun s => ts.length - s.1) fun (pos, depth) => do
    match ts[pos]? with
    | none => refuse (.unbalanced opening.span)
    | some t =>
      if t.isDelimiter .rightParen ∧ depth = 0 then return .inr pos
      else return .inl (pos + 1, ← nest depth t)

/-- The indices of the first token of the column list and of the parenthesis behind the last. -/
def readBody (pos : Nat) : Run DefinitionError (Nat × Nat) := do
  let (_, start) ← expect ts stop .openingParen (·.isDelimiter .leftParen) pos
  let opening ← element ts (← minus start 1)
  return (start, ← closingFrom ts opening (start, 0))

def readOption (pos : Nat) : Run DefinitionError Nat :=
  match next? ts (·.isKeyword .without) pos with
  | some (_, pos) => do
    let (_, pos) ← keyword ts stop .rowid pos
    return pos
  | none =>
    match next? ts (·.isKeyword .strict) pos with
    | some (_, pos) => .ok pos
    | none =>
      match next? ts (·.isDelimiter .rightParen) pos with
      | some (paren, _) => refuse (.unbalanced paren.span)
      | none => refuse (mismatch ts stop .tableOption pos)

def readSomeOptions : Nat → Run DefinitionError Nat :=
  loop (fun pos => ts.length - pos) fun pos => do
    let pos ← readOption ts stop pos
    match next? ts (·.isDelimiter .comma) pos with
    | some (_, pos) => return .inl pos
    | none => return .inr pos

def readOptions (pos : Nat) : Run DefinitionError Nat :=
  if ts[pos]?.isNone || (next? ts (·.isDelimiter .semicolon) pos).isSome then .ok pos
  else readSomeOptions ts stop pos

def finish (pos : Nat) : Run DefinitionError Unit :=
  match next? ts (·.isDelimiter .semicolon) pos with
  | some (_, pos) =>
    match ts[pos]? with
    | none => .ok ()
    | some t => refuse (.trailing t.span)
  | none =>
    match ts[pos]? with
    | none => .ok ()
    | some t =>
      if t.isDelimiter .rightParen then refuse (.unbalanced t.span)
      else refuse (mismatch ts stop .endOfOptions pos)

/-- Where a statement is cut: from which token up to which its column list and its options go. -/
structure Cut where
  header : Header
  body : Nat × Nat
  options : Nat × Nat

def readOutline : Run DefinitionError Cut := do
  let (header, pos) ← readHeader ts stop 0
  let body ← readBody ts stop pos
  let start := body.2 + 1
  let last ← readOptions ts stop start
  finish ts stop last
  return { header, body, options := (start, last) }

end

/-! ## Positions -/

/-- The reading stands at the index: what it has left is what follows there. -/
structure Stands (ts : List Token) (stop pos : Nat) (r : Reading) : Prop where
  tokens_eq : ∃ passed, ts = passed ++ r.tokens ∧ pos = passed.length
  stop_eq : r.stop = stop

/-- The same has been read, and the reading stands at the index. -/
def Took (ts : List Token) (stop : Nat) {α : Type} (a : α × Nat) (b : α × Reading) : Prop :=
  a.1 = b.1 ∧ Stands ts stop a.2 b.2

variable {ts : List Token} {stop pos : Nat} {r : Reading}

theorem stands_start (ts : List Token) (stop : Nat) : Stands ts stop 0 ⟨ts, stop⟩ :=
  ⟨⟨[], rfl, rfl⟩, rfl⟩

theorem Stands.before {words : List Token} (h : Stands ts stop pos (r.before words)) :
    Stands ts stop (pos + words.length) r := by
  obtain ⟨⟨passed, hts, hpos⟩, hstop⟩ := h
  refine ⟨⟨passed ++ words, ?_, ?_⟩, hstop⟩
  · rw [hts, Reading.tokens_before, List.append_assoc]
  · rw [hpos, List.length_append]

theorem Stands.getElem?_eq (h : Stands ts stop pos r) : ts[pos]? = r.tokens.head? := by
  obtain ⟨passed, hts, hpos⟩ := h.tokens_eq
  rw [hts, hpos, List.getElem?_append_right (Nat.le_refl _), Nat.sub_self, List.head?_eq_getElem?]

theorem Stands.length_eq (h : Stands ts stop pos r) : ts.length = pos + r.tokens.length := by
  obtain ⟨passed, hts, hpos⟩ := h.tokens_eq
  rw [hts, hpos, List.length_append]

theorem Stands.mismatch_eq (h : Stands ts stop pos r) (expected : Expected) :
    mismatch ts stop expected pos = r.mismatch expected := by
  rw [mismatch, Reading.mismatch, h.getElem?_eq, ← h.stop_eq]
  cases r.tokens <;> rfl

/-- Either both take the token that is next or neither takes one. -/
theorem Stands.next?_cases (h : Stands ts stop pos r) (test : Token → Bool) :
    (next? ts test pos = none ∧ r.next? test = none) ∨
      ∃ t r', r = r'.before [t] ∧ next? ts test pos = some (t, pos + 1) ∧
        r.next? test = some (t, r') ∧ Stands ts stop (pos + 1) r' := by
  rw [next?, h.getElem?_eq]
  obtain ⟨tokens, last⟩ := r
  cases tokens with
  | nil => exact .inl ⟨rfl, rfl⟩
  | cons t rest =>
    cases ht : test t with
    | false => exact .inl ⟨by simp [ht], by simp [Reading.next?, ht]⟩
    | true =>
      refine .inr ⟨t, ⟨rest, last⟩, rfl, by simp [ht], by simp [Reading.next?, ht], ?_⟩
      exact @Stands.before _ _ _ ⟨rest, last⟩ [t] h

/-! ## The header -/

theorem Stands.refines_expect (h : Stands ts stop pos r) (expected : Expected)
    (test : Token → Bool) :
    Refines (Took ts stop) (expect ts stop expected test pos) (r.expect expected test) := by
  unfold expect Reading.expect
  obtain ⟨h₁, h₂⟩ | ⟨t, r', -, h₁, h₂, h'⟩ := h.next?_cases test <;> rw [h₁, h₂]
  · rw [h.mismatch_eq]
    exact refines_refuse _
  · exact .ok ⟨rfl, h'⟩

theorem Stands.took_readTemporary (h : Stands ts stop pos r) :
    Took ts stop (readTemporary ts pos) (Header.readTemporary r) := by
  unfold readTemporary Header.readTemporary
  obtain ⟨h₁, h₂⟩ | ⟨t, r', -, h₁, h₂, h'⟩ := h.next?_cases
    fun t => t.isKeyword .temp || t.isKeyword .temporary
  · rw [h₁, h₂]
    exact ⟨rfl, h⟩
  · rw [h₁, h₂]
    exact ⟨rfl, h'⟩

theorem Stands.refines_readIfNotExists (h : Stands ts stop pos r) :
    Refines (Took ts stop) (readIfNotExists ts stop pos) (Header.readIfNotExists r) := by
  unfold readIfNotExists Header.readIfNotExists Reading.keyword?
  obtain ⟨h₁, h₂⟩ | ⟨t, r₁, -, h₁, h₂, hr₁⟩ := h.next?_cases (·.isKeyword .if_) <;> rw [h₁, h₂]
  · exact .ok ⟨rfl, h⟩
  · refine (hr₁.refines_expect _ _).bind ?_
    rintro ⟨not, pos₂⟩ ⟨not', r₂⟩ ⟨-, hr₂⟩
    refine (hr₂.refines_expect _ _).bind ?_
    rintro ⟨exists_, pos₃⟩ ⟨exists', r₃⟩ ⟨-, hr₃⟩
    exact .ok ⟨rfl, hr₃⟩

theorem Stands.refines_readName (h : Stands ts stop pos r) :
    Refines (fun a b => a.1 = b.1 ∧ Took ts stop a.2 b.2) (readName ts stop pos)
      (Header.readName r) := by
  unfold readName Header.readName Reading.delimiter?
  refine (h.refines_expect _ _).bind ?_
  rintro ⟨first, pos₁⟩ ⟨first', r₁⟩ ⟨rfl, hr₁⟩
  obtain ⟨h₁, h₂⟩ | ⟨t, r₂, -, h₁, h₂, hr₂⟩ := hr₁.next?_cases (·.isDelimiter .dot)
  · simp only [h₁, h₂]
    exact .ok ⟨rfl, rfl, hr₁⟩
  · simp only [h₁, h₂]
    refine (hr₂.refines_expect _ _).bind ?_
    rintro ⟨second, pos₃⟩ ⟨second', r₃⟩ ⟨rfl, hr₃⟩
    exact .ok ⟨rfl, rfl, hr₃⟩

theorem Stands.refines_readHeader (h : Stands ts stop pos r) :
    Refines (Took ts stop) (readHeader ts stop pos) (Header.read r) := by
  unfold readHeader Header.read
  refine (h.refines_expect _ _).bind ?_
  rintro ⟨create, pos₁⟩ ⟨create', r₁⟩ ⟨-, hr₁⟩
  obtain ⟨htemporary, hr₂⟩ := hr₁.took_readTemporary
  refine (hr₂.refines_expect _ _).bind ?_
  rintro ⟨table, pos₃⟩ ⟨table', r₃⟩ ⟨-, hr₃⟩
  refine hr₃.refines_readIfNotExists.bind ?_
  rintro ⟨ifNotExists, pos₄⟩ ⟨ifNotExists', r₄⟩ ⟨rfl, hr₄⟩
  refine hr₄.refines_readName.bind ?_
  rintro ⟨schema, name, pos₅⟩ ⟨schema', name', r₅⟩ ⟨rfl, rfl, hr₅⟩
  exact .ok ⟨congrArg (Header.mk · ifNotExists schema name) htemporary, hr₅⟩

/-! ## The column list -/

/-- The index moves to where `Nesting.closing` finds the closing parenthesis. -/
theorem Stands.closingFrom_eq (h : Stands ts stop pos r) (opening : Token) (depth : Nat) :
    closingFrom ts opening (pos, depth) =
      match closing depth r.tokens with
      | some (inside, _, _) => .ok (pos + inside.length)
      | none => refuse (.unbalanced opening.span) := by
  obtain ⟨tokens, last⟩ := r
  induction tokens generalizing pos depth with
  | nil => exact loop_of_error (by simp [h.getElem?_eq]; rfl)
  | cons t rest ih =>
    have hget := h.getElem?_eq
    have hlen := h.length_eq
    rw [closing]
    split_ifs with hclose
    · exact loop_of_answer (by simp [hget, hclose])
    · have hrest : Stands ts stop (pos + 1) ⟨rest, last⟩ := @Stands.before _ _ _ _ [t] h
      have hnext : closingFrom ts opening (pos, depth) =
          closingFrom ts opening (pos + 1, after depth t) :=
        loop_of_next (by simp [hget, hclose, nest_eq hclose]) (by simp at hlen ⊢; omega)
      rw [hnext, ih (after depth t) hrest]
      cases closing (after depth t) rest with
      | none => rfl
      | some found => simp [Nat.add_assoc, Nat.add_comm 1]

/-- The indices of a column list are those of its tokens, and there is a parenthesis on either
    side of them. -/
theorem Stands.refines_readBody (h : Stands ts stop pos r) :
    Refines (fun a b => r = b.2.before (b.1.opening :: (b.1.inner ++ [b.1.closing])) ∧
      balanced 0 b.1.inner = true ∧ a = (pos + 1, pos + 1 + b.1.inner.length))
      (readBody ts stop pos) (Body.read r) := by
  unfold readBody Body.read expect Reading.expect
  obtain ⟨h₁, h₂⟩ | ⟨opening, r₁, hr, h₁, h₂, hr₁⟩ := h.next?_cases (·.isDelimiter .leftParen)
  · rw [h₁, h₂, h.mismatch_eq]
    exact refines_refuse _
  · have hopening : ts[pos]? = some opening := by rw [h.getElem?_eq, hr]; rfl
    simp only [h₁, h₂, ok_bind, minus_of_le (Nat.le_add_left 1 pos), Nat.add_sub_cancel,
      element_of_getElem? hopening, hr₁.closingFrom_eq]
    cases hclosing : closing 0 r₁.tokens with
    | none => exact refines_refuse (DefinitionError.unbalanced opening.span)
    | some found =>
      obtain ⟨inner, close, rest⟩ := found
      obtain ⟨htokens, -, hbal⟩ := closing_eq_some_iff.1 hclosing
      refine .ok ⟨?_, hbal, rfl⟩
      rw [hr, Reading.before, Reading.before, htokens]
      simp

/-! ## Behind the column list -/

/-- The words have been taken from the reading at the index, and the new index is behind them. -/
def Passed (r : Reading) (pos : Nat) (a : Nat) (b : List Token × Reading) : Prop :=
  r = b.2.before b.1 ∧ a = pos + b.1.length

theorem Stands.refines_readOption (h : Stands ts stop pos r) :
    Refines (Passed r pos) (readOption ts stop pos) (Options.readOne r) := by
  unfold readOption Options.readOne Reading.keyword? Reading.delimiter?
  obtain ⟨h₁, h₂⟩ | ⟨without, r₁, hr, h₁, h₂, hr₁⟩ := h.next?_cases (·.isKeyword .without) <;>
    simp only [h₁, h₂]
  · obtain ⟨h₁, h₂⟩ | ⟨strict, r₁, hr, h₁, h₂, -⟩ := h.next?_cases (·.isKeyword .strict) <;>
      simp only [h₁, h₂]
    · obtain ⟨h₁, h₂⟩ | ⟨paren, r₁, -, h₁, h₂, -⟩ := h.next?_cases (·.isDelimiter .rightParen) <;>
        simp only [h₁, h₂]
      · rw [h.mismatch_eq]
        exact refines_refuse _
      · exact refines_refuse _
    · exact .ok ⟨hr, rfl⟩
  · unfold keyword Reading.keyword expect Reading.expect
    obtain ⟨h₁, h₂⟩ | ⟨rowid, r₂, hr₂, h₁, h₂, -⟩ := hr₁.next?_cases (·.isKeyword .rowid) <;>
      simp only [h₁, h₂]
    · rw [hr₁.mismatch_eq]
      exact refines_refuse _
    · refine .ok ⟨?_, rfl⟩
      rw [hr, hr₂, ← Reading.before_append]
      rfl

theorem Stands.refines_readSomeOptions (h : Stands ts stop pos r) :
    Refines (Passed r pos) (readSomeOptions ts stop pos) (Options.readSome r) := by
  fun_induction Options.readSome r generalizing pos with
  | case1 r e he =>
    have hone := h.refines_readOption
    rw [he] at hone
    exact loop_of_error (by rw [show readOption ts stop pos = _ from hone]; rfl)
  | case2 r words r₁ hwords hcomma =>
    have hone := h.refines_readOption
    rw [hwords] at hone
    obtain ⟨_, hstep, rfl, rfl⟩ := hone
    obtain ⟨h₁, -⟩ | ⟨_, _, -, -, h₂, -⟩ := h.before.next?_cases (·.isDelimiter .comma)
    · have hrun : readSomeOptions ts stop pos = .ok (pos + words.length) :=
        loop_of_answer (by simp [hstep, h₁])
      rw [hrun]
      exact .ok ⟨rfl, rfl⟩
    · exact absurd (hcomma.symm.trans h₂) (by simp)
  | case3 r words r₁ hwords comma r₂ hcomma hlt ih =>
    have hone := h.refines_readOption
    rw [hwords] at hone
    obtain ⟨_, hstep, rfl, rfl⟩ := hone
    obtain ⟨-, h₂⟩ | ⟨t, r₂', hr₂, h₁, h₂, hstands⟩ := h.before.next?_cases (·.isDelimiter .comma)
    · exact absurd (hcomma.symm.trans h₂) (by simp)
    · obtain ⟨rfl, rfl⟩ : comma = t ∧ r₂ = r₂' := by simpa using hcomma.symm.trans h₂
      have hnext : readSomeOptions ts stop pos = readSomeOptions ts stop (pos + words.length + 1) :=
        loop_of_next (by simp [hstep, h₁]) (by
          have := h.length_eq
          have := hstands.length_eq
          omega)
      rw [hnext]
      refine (ih hstands).map ?_
      rintro _ ⟨more, r₃⟩ ⟨hr₃, rfl⟩
      refine ⟨?_, by simp; omega⟩
      rw [hr₂, hr₃, ← Reading.before_append, ← Reading.before_append]
      simp

theorem Stands.refines_readOptions (h : Stands ts stop pos r) :
    Refines (Passed r pos) (readOptions ts stop pos) (Options.read r) := by
  have hnone : ts[pos]?.isNone = r.tokens.isEmpty := by
    rw [h.getElem?_eq]
    cases r.tokens <;> rfl
  have hsemi : (next? ts (·.isDelimiter .semicolon) pos).isSome =
      (r.delimiter? .semicolon).isSome := by
    unfold Reading.delimiter?
    obtain ⟨h₁, h₂⟩ | ⟨_, _, -, h₁, h₂, -⟩ := h.next?_cases (·.isDelimiter .semicolon) <;>
      simp [h₁, h₂]
  rw [readOptions, Options.read, hnone, hsemi]
  split_ifs
  · exact .ok ⟨rfl, rfl⟩
  · exact h.refines_readSomeOptions

theorem Stands.refines_finish (h : Stands ts stop pos r) :
    Refines (fun _ _ => True) (finish ts stop pos) (Options.finish r) := by
  unfold finish Options.finish Reading.delimiter?
  obtain ⟨h₁, h₂⟩ | ⟨semicolon, r₁, -, h₁, h₂, hr₁⟩ := h.next?_cases (·.isDelimiter .semicolon) <;>
    rw [h₁, h₂]
  · simp only [h.getElem?_eq, h.mismatch_eq]
    cases r.tokens with
    | nil => exact .ok trivial
    | cons t rest =>
      dsimp only [List.head?_cons]
      split_ifs <;> exact refines_refuse _
  · simp only [hr₁.getElem?_eq]
    cases r₁.tokens with
    | nil => exact .ok trivial
    | cons t rest => exact refines_refuse _

/-! ## The whole statement -/

/-- What the indices cut out of the tokens: the column list between its parentheses, and the options
    behind it. -/
structure Cut.Matches (ts : List Token) (c : Cut) (o : Outline) : Prop where
  header : c.header = o.header
  tokens : ∃ words rest, ts = words ++
    o.body.opening :: (o.body.inner ++ o.body.closing :: (o.options ++ rest)) ∧
    c.body = (words.length + 1, words.length + 1 + o.body.inner.length)
  options : c.options = (c.body.2 + 1, c.body.2 + 1 + o.options.length)
  balanced : balanced 0 o.body.inner = true

theorem refines_readOutline (ts : List Token) (stop : Nat) :
    Refines (Cut.Matches ts) (readOutline ts stop) (Outline.read ⟨ts, stop⟩) := by
  unfold readOutline Outline.read
  refine (stands_start ts stop).refines_readHeader.bind ?_
  rintro ⟨header, pos⟩ ⟨header', r₁⟩ ⟨rfl, hr₁⟩
  refine hr₁.refines_readBody.bind ?_
  rintro _ ⟨body, r₂⟩ ⟨rfl, hbal, rfl⟩
  have hr₂ : Stands ts stop (pos + 1 + body.inner.length + 1) r₂ := by
    have := hr₁.before
    simpa [Nat.add_assoc, Nat.add_comm 1] using this
  refine hr₂.refines_readOptions.bind ?_
  rintro _ ⟨options, r₃⟩ ⟨rfl, rfl⟩
  refine hr₂.before.refines_finish.bind ?_
  rintro _ _ -
  obtain ⟨words, hts, hpos⟩ := hr₁.tokens_eq
  refine .ok ⟨rfl, ⟨words, r₃.tokens, ?_, ?_⟩, rfl, hbal⟩
  · simp only [hts, Reading.tokens_before]
    simp
  · rw [hpos]

section

variable {ε : Type} {c : Cut} {o : Outline}

theorem Cut.Matches.opening_eq (h : c.Matches ts o) :
    (minus c.body.1 1 : Run ε Nat) = .ok (c.body.1 - 1) ∧
      (element ts (c.body.1 - 1) : Run ε Token) = .ok o.body.opening := by
  obtain ⟨words, rest, hts, hbody⟩ := h.tokens
  rw [hbody, hts]
  exact ⟨minus_of_le (Nat.le_add_left 1 _), element_append words _ _⟩

theorem Cut.Matches.inner_eq (h : c.Matches ts o) :
    (elements ts c.body.1 c.body.2 : Run ε (List Token)) = .ok o.body.inner := by
  obtain ⟨words, rest, hts, hbody⟩ := h.tokens
  have hslice := @elements_middle ε _ (words ++ [o.body.opening]) o.body.inner
    (o.body.closing :: (o.options ++ rest))
  rw [hbody, hts]
  simpa using hslice

theorem Cut.Matches.closing_eq (h : c.Matches ts o) :
    (element ts c.body.2 : Run ε Token) = .ok o.body.closing := by
  obtain ⟨words, rest, hts, hbody⟩ := h.tokens
  have hclosing := @element_append ε _ (words ++ o.body.opening :: o.body.inner) o.body.closing
    (o.options ++ rest)
  rw [hbody, hts]
  simpa [Nat.add_assoc, Nat.add_comm 1] using hclosing

/-- The column list and the options are stretches of the statement. -/
theorem Cut.Matches.isInfix (h : c.Matches ts o) : o.body.inner <:+: ts ∧ o.options <:+: ts := by
  obtain ⟨words, rest, rfl, -⟩ := h.tokens
  constructor
  · exact ⟨words ++ [o.body.opening], o.body.closing :: (o.options ++ rest), by simp⟩
  · exact ⟨words ++ o.body.opening :: (o.body.inner ++ [o.body.closing]), rest, by simp⟩

theorem Cut.Matches.options_eq (h : c.Matches ts o) :
    (elements ts c.options.1 c.options.2 : Run ε (List Token)) = .ok o.options := by
  obtain ⟨words, rest, hts, hbody⟩ := h.tokens
  have hslice := @elements_middle ε _
    (words ++ o.body.opening :: (o.body.inner ++ [o.body.closing])) o.options rest
  rw [h.options, hbody, hts]
  simpa [Nat.add_assoc, Nat.add_comm 1] using hslice

end

end Indexed
end TableRebuild
