import TableRebuild.Definition.Clause
import TableRebuild.Definition.Item
import TableRebuild.Proofs.Definition.Outline
import TableRebuild.Proofs.Token.Similar

/-!
# Two statements read side by side

Reading goes by keywords, kinds and lengths. So two statements whose tokens are alike, one by one,
are read in the same way: where the one is refused the other is refused for the same reason, and
where they are not, what is read of the one is alike what is read of the other. `Agree` says this of
two outcomes, and there is one lemma for each reader, in the order in which the readers call each
other.

What the two statements do not share is where things stand and how they are written. An error tells
a reader both, and `DefinitionError.fault` is an error without that.

Clauses are missing here on purpose. Where a clause begins is told from the text of a word, quotes
included, and so the clauses of alike columns need not be alike, only the tokens that they make up
together.
-/

namespace TableRebuild

/-- What is wrong with a statement, and not where and in which words. -/
inductive Fault where
  | lexical (what : Opener)
  | unexpected (expected : Expected)
  | unexpectedEnd (expected : Expected)
  | unbalanced
  | noColumns
  | emptyItem
  | duplicateColumn (folded : String)
  | trailing
deriving DecidableEq, Repr

def DefinitionError.fault : DefinitionError → Fault
  | lexical e => .lexical e.what
  | unexpected expected _ _ => .unexpected expected
  | unexpectedEnd expected _ => .unexpectedEnd expected
  | unbalanced _ => .unbalanced
  | noColumns _ => .noColumns
  | emptyItem _ => .emptyItem
  | duplicateColumn name _ => .duplicateColumn (Text.fold name)
  | trailing _ => .trailing

/-- Two outcomes: both are results, and related, or both are errors with the same fault. -/
inductive Agree {α β : Type} (R : α → β → Prop) :
    Except DefinitionError α → Except DefinitionError β → Prop
  | ok {a : α} {b : β} (h : R a b) : Agree R (.ok a) (.ok b)
  | error {e e' : DefinitionError} (h : e.fault = e'.fault) : Agree R (.error e) (.error e')

namespace Agree

variable {α β γ δ : Type} {R : α → β → Prop} {S : γ → δ → Prop}

theorem imp {R' : α → β → Prop} {x : Except DefinitionError α} {y : Except DefinitionError β}
    (h : Agree R x y) (himp : ∀ a b, x = .ok a → y = .ok b → R a b → R' a b) : Agree R' x y := by
  cases h with
  | ok hab => exact .ok (himp _ _ rfl rfl hab)
  | error he => exact .error he

theorem bind {x : Except DefinitionError α} {y : Except DefinitionError β}
    {f : α → Except DefinitionError γ} {g : β → Except DefinitionError δ} (h : Agree R x y)
    (hfg : ∀ a b, x = .ok a → y = .ok b → R a b → Agree S (f a) (g b)) :
    Agree S (x >>= f) (y >>= g) := by
  cases h with
  | ok hab => exact hfg _ _ rfl rfl hab
  | error he => exact .error he

theorem map {x : Except DefinitionError α} {y : Except DefinitionError β} {f : α → γ} {g : β → δ}
    (h : Agree R x y) (hfg : ∀ a b, R a b → S (f a) (g b)) : Agree S (x.map f) (y.map g) := by
  cases h with
  | ok hab => exact .ok (hfg _ _ hab)
  | error he => exact .error he

theorem mapM {xs : List α} {ys : List β} {f : α → Except DefinitionError γ}
    {g : β → Except DefinitionError δ} (h : List.Forall₂ R xs ys)
    (hfg : ∀ a b, R a b → Agree S (f a) (g b)) :
    Agree (List.Forall₂ S) (xs.mapM f) (ys.mapM g) := by
  induction h with
  | nil => exact .ok .nil
  | cons hab _ ih =>
    rw [List.mapM_cons, List.mapM_cons]
    refine (hfg _ _ hab).bind ?_
    intro c d _ _ hcd
    refine ih.bind ?_
    intro cs ds _ _ hcsds
    exact .ok (.cons hcd hcsds)

theorem foldlM {xs : List α} {ys : List β} {f : γ → α → Except DefinitionError γ}
    {g : δ → β → Except DefinitionError δ} {c : γ} {d : δ} (h : List.Forall₂ R xs ys)
    (hcd : S c d) (hfg : ∀ c d a b, S c d → R a b → Agree S (f c a) (g d b)) :
    Agree S (xs.foldlM f c) (ys.foldlM g d) := by
  induction h generalizing c d with
  | nil => exact .ok hcd
  | cons hab _ ih =>
    rw [List.foldlM_cons, List.foldlM_cons]
    refine (hfg _ _ _ _ hcd hab).bind ?_
    intro c' d' _ _ hcd'
    exact ih hcd'

end Agree

/-- Related lists are empty together. -/
theorem isEmpty_eq_of_forall₂ {α β : Type} {R : α → β → Prop} {as : List α} {bs : List β}
    (h : List.Forall₂ R as bs) : as.isEmpty = bs.isEmpty := by
  cases h with
  | nil => rfl
  | cons _ _ => rfl

/-! ## Steps of reading -/

/-- Lists of tokens that are alike, one by one. -/
abbrev AllAlike : List Token → List Token → Prop := List.Forall₂ Token.Alike

namespace Reading

/-- Alike tokens are left to be read. -/
def Alike (r r' : Reading) : Prop := AllAlike r.tokens r'.tokens

/-- Alike tokens have been taken, and alike ones are left. -/
def Took (p q : Token × Reading) : Prop := p.1.Alike q.1 ∧ p.2.Alike q.2

/-- The test does not tell alike tokens apart. -/
def Blind (test : Token → Bool) : Prop := ∀ a b : Token, a.Alike b → test a = test b

variable {r r' : Reading} {test : Token → Bool}

theorem blind_keyword (k : Keyword) : Blind (·.isKeyword k) := fun _ _ h => h.isKeyword k

theorem blind_delimiter (d : Delimiter) : Blind (·.isDelimiter d) := fun _ _ h => h.isDelimiter d

theorem rel_next? (h : r.Alike r') (htest : Blind test) :
    Option.Rel Took (r.next? test) (r'.next? test) := by
  obtain ⟨tokens, stop⟩ := r
  obtain ⟨tokens', stop'⟩ := r'
  cases h with
  | nil => exact .none
  | @cons a b as bs hab hrest =>
    simp only [next?, htest a b hab]
    cases test b with
    | true => exact .some ⟨hab, hrest⟩
    | false => exact .none

theorem fault_mismatch (h : r.Alike r') (expected : Expected) :
    (r.mismatch expected).fault = (r'.mismatch expected).fault := by
  obtain ⟨tokens, stop⟩ := r
  obtain ⟨tokens', stop'⟩ := r'
  cases h with
  | nil => rfl
  | cons _ _ => rfl

theorem agree_expect (h : r.Alike r') (htest : Blind test) (expected : Expected) :
    Agree Took (r.expect expected test) (r'.expect expected test) := by
  have hnext := rel_next? h htest
  unfold expect
  generalize r.next? test = x at hnext ⊢
  generalize r'.next? test = y at hnext ⊢
  cases hnext with
  | none => exact .error (fault_mismatch h expected)
  | some hpq => exact .ok hpq

theorem agree_keyword (h : r.Alike r') (k : Keyword) :
    Agree Took (r.keyword k) (r'.keyword k) := agree_expect h (blind_keyword k) _

theorem agree_tableName (h : r.Alike r') : Agree Took r.tableName r'.tableName :=
  agree_expect h (fun _ _ hab => hab.isWord) _

end Reading

/-! ## The header -/

namespace Header

/-- The headers say the same, with names that are alike. -/
structure Alike (header header' : Header) : Prop where
  temporary : header.temporary = header'.temporary
  ifNotExists : header.ifNotExists = header'.ifNotExists
  schema : Option.Rel Token.Alike header.schema header'.schema
  name : header.name.Alike header'.name

variable {r r' : Reading}

theorem readTemporary_alike (h : r.Alike r') :
    (readTemporary r).1 = (readTemporary r').1 ∧
      (readTemporary r).2.Alike (readTemporary r').2 := by
  have hblind : Reading.Blind fun t => t.isKeyword .temp || t.isKeyword .temporary := by
    intro a b hab
    simp only [hab.isKeyword]
  have hnext := Reading.rel_next? h hblind
  unfold readTemporary
  generalize r.next? _ = x at hnext ⊢
  generalize r'.next? _ = y at hnext ⊢
  cases hnext with
  | none => exact ⟨rfl, h⟩
  | some hpq => exact ⟨rfl, hpq.2⟩

theorem agree_readIfNotExists (h : r.Alike r') :
    Agree (fun p q => p.1 = q.1 ∧ p.2.Alike q.2) (readIfNotExists r) (readIfNotExists r') := by
  have hnext : Option.Rel Reading.Took (r.keyword? .if_) (r'.keyword? .if_) :=
    Reading.rel_next? h (Reading.blind_keyword .if_)
  unfold readIfNotExists
  generalize r.keyword? .if_ = x at hnext ⊢
  generalize r'.keyword? .if_ = y at hnext ⊢
  cases hnext with
  | none => exact .ok ⟨rfl, h⟩
  | some hif =>
    refine (Reading.agree_keyword hif.2 .not).bind ?_
    intro p q _ _ hnot
    refine (Reading.agree_keyword hnot.2 .exists_).bind ?_
    intro p q _ _ hexists
    exact .ok ⟨rfl, hexists.2⟩

theorem agree_readName (h : r.Alike r') :
    Agree (fun p q => Option.Rel Token.Alike p.1 q.1 ∧ p.2.1.Alike q.2.1 ∧ p.2.2.Alike q.2.2)
      (readName r) (readName r') := by
  unfold readName
  refine (Reading.agree_tableName h).bind ?_
  rintro ⟨first, r₁⟩ ⟨first', r₁'⟩ - - ⟨hfirst, h₁⟩
  have hnext : Option.Rel Reading.Took (r₁.delimiter? .dot) (r₁'.delimiter? .dot) :=
    Reading.rel_next? h₁ (Reading.blind_delimiter .dot)
  simp only
  generalize r₁.delimiter? .dot = x at hnext ⊢
  generalize r₁'.delimiter? .dot = y at hnext ⊢
  cases hnext with
  | none => exact .ok ⟨.none, hfirst, h₁⟩
  | some hdot =>
    refine (Reading.agree_tableName hdot.2).bind ?_
    intro p q _ _ hsecond
    exact .ok ⟨.some hfirst, hsecond.1, hsecond.2⟩

theorem agree_read (h : r.Alike r') :
    Agree (fun p q => p.1.Alike q.1 ∧ p.2.Alike q.2) (read r) (read r') := by
  unfold read
  refine (Reading.agree_keyword h .create).bind ?_
  rintro ⟨create, r₁⟩ ⟨create', r₁'⟩ - - ⟨-, h₁⟩
  obtain ⟨htemporary, h₂⟩ := readTemporary_alike h₁
  refine (Reading.agree_keyword h₂ .table).bind ?_
  rintro ⟨table, r₃⟩ ⟨table', r₃'⟩ - - ⟨-, h₃⟩
  refine (agree_readIfNotExists h₃).bind ?_
  rintro ⟨b, r₄⟩ ⟨b', r₄'⟩ - - ⟨hexists, h₄⟩
  refine (agree_readName h₄).bind ?_
  rintro ⟨schema, name, r₅⟩ ⟨schema', name', r₅'⟩ - - ⟨hschema, hname, h₅⟩
  exact .ok ⟨⟨htemporary, hexists, hschema, hname⟩, h₅⟩

end Header

/-! ## The column list and the options -/

namespace Nesting

theorem after_eq (depth : Nat) (t : Token) : after depth t =
    if t.isDelimiter .leftParen then depth + 1
    else if t.isDelimiter .rightParen then depth - 1 else depth := by
  unfold after Token.isDelimiter
  cases t.kind with
  | delimiter d => cases d <;> rfl
  | keyword k => rfl
  | quotedName => rfl
  | bareName => rfl
  | verbatim => rfl

theorem after_alike {a b : Token} (h : a.Alike b) (depth : Nat) :
    after depth a = after depth b := by
  rw [after_eq, after_eq, h.isDelimiter, h.isDelimiter]

theorem rel_closing {as bs : List Token} (h : AllAlike as bs) (depth : Nat) :
    Option.Rel (fun p q => AllAlike p.1 q.1 ∧ AllAlike p.2.2 q.2.2)
      (closing depth as) (closing depth bs) := by
  induction h generalizing depth with
  | nil => exact .none
  | @cons a b as bs hab hrest ih =>
    have hmore := ih (after depth b)
    simp only [closing, hab.isDelimiter, after_alike hab]
    by_cases hclose : b.isDelimiter .rightParen = true ∧ depth = 0
    · rw [if_pos hclose, if_pos hclose]
      exact .some ⟨.nil, hrest⟩
    · rw [if_neg hclose, if_neg hclose]
      generalize closing (after depth b) as = x at hmore ⊢
      generalize closing (after depth b) bs = y at hmore ⊢
      cases hmore with
      | none => exact .none
      | some hpq => exact .some ⟨.cons hab hpq.1, hpq.2⟩

end Nesting

theorem Body.agree_read {r r' : Reading} (h : r.Alike r') :
    Agree (fun p q => AllAlike p.1.inner q.1.inner ∧ p.2.Alike q.2) (read r) (read r') := by
  unfold read
  refine (Reading.agree_expect h (Reading.blind_delimiter .leftParen) .openingParen).bind ?_
  rintro ⟨opening, r₁⟩ ⟨opening', r₁'⟩ - - ⟨-, h₁⟩
  have hclosing := Nesting.rel_closing h₁ 0
  simp only
  generalize Nesting.closing 0 r₁.tokens = x at hclosing ⊢
  generalize Nesting.closing 0 r₁'.tokens = y at hclosing ⊢
  cases hclosing with
  | none => exact .error rfl
  | some hpq => exact .ok hpq

namespace Options

variable {r r' : Reading}

/-- Alike options have been taken, and alike tokens are left. -/
def Took (p q : List Token × Reading) : Prop := AllAlike p.1 q.1 ∧ p.2.Alike q.2

theorem agree_readOne (h : r.Alike r') : Agree Took (readOne r) (readOne r') := by
  have hwithout : Option.Rel Reading.Took (r.keyword? .without) (r'.keyword? .without) :=
    Reading.rel_next? h (Reading.blind_keyword .without)
  have hstrict : Option.Rel Reading.Took (r.keyword? .strict) (r'.keyword? .strict) :=
    Reading.rel_next? h (Reading.blind_keyword .strict)
  have hparen : Option.Rel Reading.Took (r.delimiter? .rightParen) (r'.delimiter? .rightParen) :=
    Reading.rel_next? h (Reading.blind_delimiter .rightParen)
  unfold readOne
  generalize r.keyword? .without = x at hwithout ⊢
  generalize r'.keyword? .without = y at hwithout ⊢
  cases hwithout with
  | some hpq =>
    refine (Reading.agree_keyword hpq.2 .rowid).bind ?_
    intro p q _ _ hrowid
    exact .ok ⟨.cons hpq.1 (.cons hrowid.1 .nil), hrowid.2⟩
  | none =>
    simp only
    generalize r.keyword? .strict = x at hstrict ⊢
    generalize r'.keyword? .strict = y at hstrict ⊢
    cases hstrict with
    | some hpq => exact .ok ⟨.cons hpq.1 .nil, hpq.2⟩
    | none =>
      simp only
      generalize r.delimiter? .rightParen = x at hparen ⊢
      generalize r'.delimiter? .rightParen = y at hparen ⊢
      cases hparen with
      | some _ => exact .error rfl
      | none => exact .error (Reading.fault_mismatch h _)

/-- The induction is on the number of tokens that are left in the first of the statements. -/
theorem agree_readSome (h : r.Alike r') : Agree Took (readSome r) (readSome r') := by
  induction hn : r.tokens.length using Nat.strong_induction_on generalizing r r' with
  | _ n ih =>
    rw [readSome_eq r, readSome_eq r']
    refine (agree_readOne h).bind ?_
    rintro ⟨ts, r₁⟩ ⟨ts', r₁'⟩ hone - ⟨hts, h₁⟩
    -- Behind an option and a comma there are fewer tokens; the second statement need not be asked.
    have hnext : Option.Rel Reading.Took (r₁.delimiter? .comma) (r₁'.delimiter? .comma) :=
      Reading.rel_next? h₁ (Reading.blind_delimiter .comma)
    have hshorter : ∀ comma r₂, r₁.delimiter? .comma = some (comma, r₂) →
        r₂.tokens.length < n := by
      intro comma r₂ hcomma
      obtain ⟨-, hr⟩ := readOne_eq_ok_iff.1 hone
      obtain ⟨-, hr₁⟩ := Reading.next?_eq_some_iff_before.1 hcomma
      rw [← hn, hr, hr₁]
      simp only [Reading.tokens_before, List.length_append, List.length_cons]
      omega
    simp only
    generalize r₁.delimiter? .comma = x at hnext hshorter ⊢
    generalize r₁'.delimiter? .comma = y at hnext ⊢
    cases hnext with
    | none => exact .ok ⟨hts, h₁⟩
    | @some p q hpq =>
      refine (ih _ (hshorter p.1 p.2 rfl) hpq.2 rfl).map ?_
      intro more more' hmore
      exact ⟨List.rel_append hts (.cons hpq.1 hmore.1), hmore.2⟩

theorem agree_read (h : r.Alike r') : Agree Took (read r) (read r') := by
  have hnext : Option.Rel Reading.Took (r.delimiter? .semicolon) (r'.delimiter? .semicolon) :=
    Reading.rel_next? h (Reading.blind_delimiter .semicolon)
  have hsemi : (r.delimiter? .semicolon).isSome = (r'.delimiter? .semicolon).isSome := by
    generalize r.delimiter? .semicolon = x at hnext ⊢
    generalize r'.delimiter? .semicolon = y at hnext ⊢
    cases hnext <;> rfl
  unfold read
  rw [hsemi, isEmpty_eq_of_forall₂ h]
  split
  · exact .ok ⟨.nil, h⟩
  · exact agree_readSome h

theorem agree_finish (h : r.Alike r') : Agree (fun _ _ => True) (finish r) (finish r') := by
  obtain ⟨tokens, stop⟩ := r
  obtain ⟨tokens', stop'⟩ := r'
  cases h with
  | nil => exact .ok trivial
  | @cons a b as bs hab hrest =>
    simp only [finish, Reading.delimiter?, Reading.next?, hab.isDelimiter]
    cases b.isDelimiter .semicolon with
    | true =>
      cases hrest with
      | nil => exact .ok trivial
      | cons _ _ => exact .error rfl
    | false =>
      cases b.isDelimiter .rightParen with
      | true => exact .error rfl
      | false => exact .error rfl

end Options

/-! ## The outline -/

/-- The outlines have alike parts. -/
structure Outline.Alike (o o' : Outline) : Prop where
  header : o.header.Alike o'.header
  inner : AllAlike o.body.inner o'.body.inner
  options : AllAlike o.options o'.options

/-- **Alike statements have alike outlines**, or are refused for the same reason. -/
theorem Outline.agree_read {r r' : Reading} (h : r.Alike r') :
    Agree Outline.Alike (read r) (read r') := by
  unfold read
  refine (Header.agree_read h).bind ?_
  rintro ⟨header, r₁⟩ ⟨header', r₁'⟩ - - ⟨hheader, h₁⟩
  refine (Body.agree_read h₁).bind ?_
  rintro ⟨body, r₂⟩ ⟨body', r₂'⟩ - - ⟨hbody, h₂⟩
  refine (Options.agree_read h₂).bind ?_
  rintro ⟨options, r₃⟩ ⟨options', r₃'⟩ - - ⟨hoptions, h₃⟩
  refine (Options.agree_finish h₃).bind ?_
  intro _ _ _ _ _
  exact .ok ⟨hheader, hbody, hoptions⟩

/-! ## The items -/

namespace Item

/-- The items have alike tokens. -/
structure Alike (i j : Item) : Prop where
  first : i.first.Alike j.first
  others : AllAlike i.others j.others

theorem Alike.tokens {i j : Item} (h : i.Alike j) : AllAlike i.tokens j.tokens :=
  .cons h.first h.others

theorem Alike.isConstraint {i j : Item} (h : i.Alike j) : i.isConstraint = j.isConstraint := by
  rw [Item.isConstraint, Item.isConstraint, h.first.keyword]

theorem cut_alike {as bs : List Token} (h : AllAlike as bs) (depth : Nat) :
    AllAlike (cut depth as).1 (cut depth bs).1 ∧
      List.Forall₂ (fun p q => AllAlike p.2 q.2) (cut depth as).2 (cut depth bs).2 := by
  induction h generalizing depth with
  | nil => exact ⟨.nil, .nil⟩
  | @cons a b as bs hab hrest ih =>
    simp only [cut, hab.isDelimiter, Nesting.after_alike hab]
    by_cases hcomma : b.isDelimiter .comma = true ∧ depth = 0
    · rw [if_pos hcomma, if_pos hcomma]
      obtain ⟨hpiece, hmore⟩ := ih 0
      exact ⟨.nil, .cons hpiece hmore⟩
    · rw [if_neg hcomma, if_neg hcomma]
      obtain ⟨hpiece, hmore⟩ := ih (Nesting.after depth b)
      exact ⟨.cons hab hpiece, hmore⟩

theorem withEnders_alike {piece piece' : List Token} {more more' : List (Token × List Token)}
    (hpiece : AllAlike piece piece') (hmore : List.Forall₂ (fun p q => AllAlike p.2 q.2) more more')
    (last last' : Token) : List.Forall₂ (fun p q => AllAlike p.1 q.1)
      (withEnders last piece more) (withEnders last' piece' more') := by
  induction hmore generalizing piece piece' with
  | nil => exact .cons hpiece .nil
  | cons hnext _ ih => exact .cons hpiece (ih hnext)

theorem agree_ofPiece {p q : List Token × Token} (h : AllAlike p.1 q.1) :
    Agree Alike (ofPiece p) (ofPiece q) := by
  obtain ⟨ts, ender⟩ := p
  obtain ⟨us, ender'⟩ := q
  cases h with
  | nil => exact .error rfl
  | cons hfirst hothers => exact .ok ⟨hfirst, hothers⟩

end Item

/-- **Alike column lists have alike items**, or are refused for the same reason. -/
theorem Body.agree_items {b b' : Body} (h : AllAlike b.inner b'.inner) :
    Agree (List.Forall₂ Item.Alike) b.items b'.items := by
  obtain ⟨hpiece, hmore⟩ := Item.cut_alike h 0
  unfold Body.items
  rw [isEmpty_eq_of_forall₂ h]
  split
  · exact .error rfl
  · exact Agree.mapM (Item.withEnders_alike hpiece hmore _ _) fun _ _ => Item.agree_ofPiece

/-! ## Behind the name of a column -/

theorem Token.Alike.opensColumnConstraint {a b : Token} (h : a.Alike b) :
    a.opensColumnConstraint = b.opensColumnConstraint := by
  rw [Token.opensColumnConstraint, Token.opensColumnConstraint, h.keyword]

theorem splitType_alike {as bs : List Token} (h : AllAlike as bs) (depth : Nat) :
    AllAlike (splitType depth as).1 (splitType depth bs).1 ∧
      AllAlike (splitType depth as).2 (splitType depth bs).2 := by
  induction h generalizing depth with
  | nil => exact ⟨.nil, .nil⟩
  | @cons a b as bs hab hrest ih =>
    simp only [splitType, hab.opensColumnConstraint, Nesting.after_alike hab]
    by_cases hopens : b.opensColumnConstraint = true ∧ depth = 0
    · rw [if_pos hopens, if_pos hopens]
      exact ⟨.nil, .cons hab hrest⟩
    · rw [if_neg hopens, if_neg hopens]
      obtain ⟨htype, hconstraints⟩ := ih (Nesting.after depth b)
      exact ⟨.cons hab htype, hconstraints⟩

end TableRebuild
