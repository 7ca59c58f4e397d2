import TableRebuild.Proofs.Definition.Outline
import TableRebuild.Proofs.Definition.Partner

/-!
# Where reading stops

What a statement is when it is read is said by a grammar. When it is not read there is an error, and
this file says what the error speaks of, reader by reader. There are four cases
(`Outline.refused_of_read`): the first token that is left is not what the grammar has there, no
token is left, a parenthesis has no partner, or there is a token behind the semicolon.

Most readers fail in the first two ways only, and wherever they have got to; that is `Misses`, which
is kept when more is put in front. The other two are found in one place each, where it is known what
was read before.
-/

namespace TableRebuild

theorem Except.bind_eq_error_iff {ε α β : Type} {x : Except ε α} {f : α → Except ε β} {e : ε} :
    (x >>= f) = .error e ↔ x = .error e ∨ ∃ a, x = .ok a ∧ f a = .error e := by
  cases x <;> simp [bind, Except.bind]

theorem Except.mapError_eq_error_iff {ε ε' α : Type} {x : Except ε α} {f : ε → ε'} {e' : ε'} :
    x.mapError f = .error e' ↔ ∃ e, x = .error e ∧ f e = e' := by
  cases x with
  | error e =>
    show (Except.error (f e) : Except ε' α) = .error e' ↔ _
    simp
  | ok a =>
    show (Except.ok a : Except ε' α) = .error e' ↔ _
    simp

/-! ## Words without parentheses -/

section

open Nesting

theorem Token.noParen_of_isWord {t : Token} (h : t.isWord = true) :
    t.isDelimiter .leftParen = false ∧ t.isDelimiter .rightParen = false :=
  ⟨isDelimiter_of_isWord h _, isDelimiter_of_isWord h _⟩

theorem Token.isWord_of_isKeyword {t : Token} {k : Keyword} (h : t.isKeyword k = true) :
    t.isWord = true := by
  rw [isWord, eq_of_beq h]
  rfl

theorem Token.noParen_of_isKeyword {t : Token} {k : Keyword} (h : t.isKeyword k = true) :
    t.isDelimiter .leftParen = false ∧ t.isDelimiter .rightParen = false :=
  noParen_of_isWord (isWord_of_isKeyword h)

theorem Token.noParen_of_isDelimiter {t : Token} {d : Delimiter} (h : t.isDelimiter d = true)
    (hleft : d ≠ .leftParen) (hright : d ≠ .rightParen) :
    t.isDelimiter .leftParen = false ∧ t.isDelimiter .rightParen = false := by
  simp [isDelimiter, eq_of_beq h, hleft, hright]

namespace Header

open Token

theorem TemporaryWord.noParens {b : Bool} {words : List Token} (h : TemporaryWord b words) :
    NoParens words := by
  cases h with
  | absent => exact noParens_nil
  | present h =>
    rcases h with h | h
    · exact .cons (noParen_of_isKeyword h) noParens_nil
    · exact .cons (noParen_of_isKeyword h) noParens_nil

theorem ExistsWords.noParens {b : Bool} {words : List Token} (h : ExistsWords b words) :
    NoParens words := by
  cases h with
  | absent => exact noParens_nil
  | present hif hnot hexists =>
    exact .cons (noParen_of_isKeyword hif) (.cons (noParen_of_isKeyword hnot)
      (.cons (noParen_of_isKeyword hexists) noParens_nil))

theorem NameWords.noParens {schema : Option Token} {name : Token} {words : List Token}
    (h : NameWords schema name words) : NoParens words := by
  cases h with
  | plain hname => exact .cons (noParen_of_isWord hname) noParens_nil
  | qualified hschema hdot hname =>
    exact .cons (noParen_of_isWord hschema)
      (.cons (noParen_of_isDelimiter hdot (by simp) (by simp))
        (.cons (noParen_of_isWord hname) noParens_nil))

/-- No parenthesis stands in front of the column list. -/
theorem Written.noParens {header : Header} {words : List Token} (h : header.Written words) :
    NoParens words := by
  cases h with
  | intro hcreate htemporary htable hexists hname _ =>
    have hback :=
      NoParens.cons (noParen_of_isKeyword htable) (hexists.noParens.append hname.noParens)
    exact .cons (noParen_of_isKeyword hcreate) (htemporary.noParens.append hback)

end Header

namespace Options

open Token

theorem Single.noParens {ts : List Token} (h : Single ts) : NoParens ts := by
  cases h with
  | withoutRowid hw hr =>
    exact .cons (noParen_of_isKeyword hw) (.cons (noParen_of_isKeyword hr) noParens_nil)
  | strict hs => exact .cons (noParen_of_isKeyword hs) noParens_nil

theorem Allowed.noParens {ts : List Token} (h : Allowed ts) : NoParens ts := by
  rcases h with rfl | h
  · exact noParens_nil
  · induction h with
    | last h => exact h.noParens
    | comma h hc _ ih =>
      exact h.noParens.append (.cons (noParen_of_isDelimiter hc (by simp) (by simp)) ih)

end Options

end

/-! ## Something else is there -/

namespace Reading

/-- The error is that, behind some words, something else stands there or nothing. -/
def Misses (r : Reading) (e : DefinitionError) : Prop :=
  ∃ (words : List Token) (r' : Reading) (expected : Expected),
    r = r'.before words ∧ e = r'.mismatch expected

variable {r r' : Reading} {e : DefinitionError} {test : Token → Bool}

theorem misses_mismatch (r : Reading) (expected : Expected) : r.Misses (r.mismatch expected) :=
  ⟨[], r, expected, rfl, rfl⟩

theorem Misses.before (h : r.Misses e) (words : List Token) : (r.before words).Misses e := by
  obtain ⟨more, r', expected, rfl, rfl⟩ := h
  exact ⟨words ++ more, r', expected, (before_append _ _ _).symm, rfl⟩

theorem misses_of_expect {expected : Expected} (h : r.expect expected test = .error e) :
    r.Misses e := by
  unfold expect at h
  split at h
  · exact absurd h (by simp)
  · rw [← Except.error.inj h]
    exact misses_mismatch r expected

/-- Behind a token that was expected, what is missed is missed in the whole. -/
theorem misses_of_expect_bind {α : Type} {expected : Expected}
    {f : Token × Reading → Except DefinitionError α}
    (hf : ∀ t r', f (t, r') = .error e → r'.Misses e)
    (h : (r.expect expected test >>= f) = .error e) : r.Misses e := by
  rcases Except.bind_eq_error_iff.1 h with hexpect | ⟨⟨t, r'⟩, hexpect, hrest⟩
  · exact misses_of_expect hexpect
  · obtain ⟨-, rfl⟩ := expect_eq_ok_iff_before.1 hexpect
    exact (hf t r' hrest).before [t]

/-- What is missed is a token that is left to be read, or something at the end. -/
theorem Misses.cases (h : r.Misses e) :
    (∃ expected t, t ∈ r.tokens ∧ e = .unexpected expected t.text t.span) ∨
      ∃ expected, e = .unexpectedEnd expected r.stop := by
  obtain ⟨words, ⟨tokens, stop⟩, expected, rfl, rfl⟩ := h
  cases tokens with
  | nil => exact .inr ⟨expected, rfl⟩
  | cons t rest => exact .inl ⟨expected, t, by simp, rfl⟩

end Reading

/-! ## The header -/

namespace Header

variable {r : Reading} {e : DefinitionError}

theorem misses_of_readIfNotExists (h : readIfNotExists r = .error e) : r.Misses e := by
  unfold readIfNotExists at h
  split at h
  · rename_i t r₁ hif
    obtain ⟨-, rfl⟩ := Reading.next?_eq_some_iff_before.1 hif
    apply Reading.Misses.before
    refine Reading.misses_of_expect_bind ?_ h
    intro u r₂ hnot
    refine Reading.misses_of_expect_bind ?_ hnot
    intro v r₃ hdone
    exact absurd hdone (by simp [pure, Except.pure])
  · exact absurd h (by simp)

theorem misses_of_readName (h : readName r = .error e) : r.Misses e := by
  refine Reading.misses_of_expect_bind ?_ h
  intro first r₁ hfirst
  simp only at hfirst
  split at hfirst
  · rename_i dot r₂ hdot
    obtain ⟨-, rfl⟩ := Reading.next?_eq_some_iff_before.1 hdot
    apply Reading.Misses.before
    refine Reading.misses_of_expect_bind ?_ hfirst
    intro second r₃ hdone
    exact absurd hdone (by simp [pure, Except.pure])
  · exact absurd hfirst (by simp [pure, Except.pure])

/-- A header that is not read misses something. -/
theorem misses_of_read (h : read r = .error e) : r.Misses e := by
  refine Reading.misses_of_expect_bind ?_ h
  intro create r₁ hcreate
  obtain ⟨temporary, -, hr₁, -⟩ := readTemporary_eq_iff.1 (Eq.refl (readTemporary r₁))
  rw [hr₁]
  apply Reading.Misses.before
  refine Reading.misses_of_expect_bind ?_ hcreate
  intro table r₂ htable
  rcases Except.bind_eq_error_iff.1 htable with hexists | ⟨⟨b, r₃⟩, hexists, hname⟩
  · exact misses_of_readIfNotExists hexists
  obtain ⟨words, -, rfl, -⟩ := readIfNotExists_eq_ok_iff.1 hexists
  apply Reading.Misses.before
  rcases Except.bind_eq_error_iff.1 hname with hname | ⟨_, _, hdone⟩
  · exact misses_of_readName hname
  · exact absurd hdone (by simp [pure, Except.pure])

end Header

/-! ## The column list and what is behind it -/

/-- A column list that is not read misses its parenthesis, or has one that is never closed. -/
theorem Body.of_read_eq_error {r : Reading} {e : DefinitionError} (h : read r = .error e) :
    r.Misses e ∨ ∃ (opening : Token) (r' : Reading), opening.isDelimiter .leftParen = true ∧
      r = r'.before [opening] ∧ Nesting.closing 0 r'.tokens = none ∧
        e = .unbalanced opening.span := by
  unfold read at h
  rcases Except.bind_eq_error_iff.1 h with hexpect | ⟨⟨opening, r'⟩, hexpect, hlist⟩
  · exact .inl (Reading.misses_of_expect hexpect)
  · obtain ⟨hparen, hr⟩ := Reading.expect_eq_ok_iff_before.1 hexpect
    simp only at hlist
    split at hlist
    · exact absurd hlist (by simp [pure, Except.pure])
    · rename_i hnone
      simp only [throw, throwThe, MonadExceptOf.throw, Except.error.injEq] at hlist
      exact .inr ⟨opening, r', hparen, hr, hnone, hlist.symm⟩

namespace Options

open Nesting

variable {r r' : Reading} {e : DefinitionError} {ts : List Token}

/-- The error is that a parenthesis is closed, behind words without one. -/
def Strays (r : Reading) (e : DefinitionError) : Prop :=
  ∃ words paren rest, r.tokens = words ++ paren :: rest ∧ NoParens words ∧
    paren.isDelimiter .rightParen = true ∧ e = .unbalanced paren.span

theorem Strays.before (h : Strays r e) {words : List Token} (hwords : NoParens words) :
    Strays (r.before words) e := by
  obtain ⟨more, paren, rest, htokens, hmore, hparen, rfl⟩ := h
  exact ⟨words ++ more, paren, rest, by simp [htokens], hwords.append hmore, hparen, rfl⟩

theorem strays_of_delimiter? {paren : Token} (h : r.delimiter? .rightParen = some (paren, r')) :
    Strays r (.unbalanced paren.span) := by
  obtain ⟨hparen, rfl⟩ := Reading.next?_eq_some_iff_before.1 h
  exact ⟨[], paren, r'.tokens, rfl, noParens_nil, hparen, rfl⟩

theorem of_readOne_eq_error (h : readOne r = .error e) : r.Misses e ∨ Strays r e := by
  unfold readOne at h
  split at h
  · rename_i without r₁ hwithout
    obtain ⟨-, rfl⟩ := Reading.next?_eq_some_iff_before.1 hwithout
    refine .inl (Reading.Misses.before ?_ _)
    refine Reading.misses_of_expect_bind ?_ h
    intro rowid r₂ hdone
    exact absurd hdone (by simp [pure, Except.pure])
  · split at h
    · exact absurd h (by simp)
    · split at h
      · rename_i paren r₁ hparen
        rw [← Except.error.inj h]
        exact .inr (strays_of_delimiter? hparen)
      · rw [← Except.error.inj h]
        exact .inl (Reading.misses_mismatch r _)

theorem of_readSome_eq_error (h : readSome r = .error e) : r.Misses e ∨ Strays r e := by
  fun_induction readSome r with
  | case1 r e' hone =>
    rw [← Except.error.inj h]
    exact of_readOne_eq_error hone
  | case2 => exact absurd h (by simp)
  | case3 r ts r₁ hone comma r₂ hcomma hlt ih =>
    obtain ⟨hsingle, rfl⟩ := readOne_eq_ok_iff.1 hone
    obtain ⟨hc, rfl⟩ := Reading.next?_eq_some_iff_before.1 hcomma
    have hmore : readSome r₂ = .error e := by
      cases hsome : readSome r₂ with
      | error e' =>
        rw [hsome] at h
        exact congrArg _ (Except.error.inj h)
      | ok found =>
        rw [hsome] at h
        exact absurd h (by simp [Except.map])
    have hcommaParens : NoParens [comma] :=
      .cons (Token.noParen_of_isDelimiter hc (by simp) (by simp)) noParens_nil
    rcases ih hmore with h | h
    · exact .inl ((h.before _).before _)
    · exact .inr ((h.before hcommaParens).before hsingle.noParens)

theorem of_read_eq_error (h : read r = .error e) : r.Misses e ∨ Strays r e := by
  unfold read at h
  split at h
  · exact absurd h (by simp)
  · exact of_readSome_eq_error h

/-- What is left at the end is a parenthesis, something else, or something behind a semicolon. -/
theorem of_finish_eq_error (h : finish r = .error e) : r.Misses e ∨ Strays r e ∨
    ∃ semicolon t rest, r.tokens = semicolon :: t :: rest ∧
      semicolon.isDelimiter .semicolon = true ∧ e = .trailing t.span := by
  unfold finish at h
  split at h
  · rename_i semicolon r₁ hsemicolon
    obtain ⟨hs, rfl⟩ := Reading.next?_eq_some_iff_before.1 hsemicolon
    split at h
    · exact absurd h (by simp)
    · rename_i t rest htokens
      exact .inr (.inr ⟨semicolon, t, rest, by simp [htokens], hs, (Except.error.inj h).symm⟩)
  · split at h
    · exact absurd h (by simp)
    · rename_i t rest htokens
      split at h
      · rename_i hparen
        rw [← Except.error.inj h]
        exact .inr (.inl ⟨[], t, rest, htokens, noParens_nil, hparen, rfl⟩)
      · rw [← Except.error.inj h]
        exact .inl (Reading.misses_mismatch r _)

/-- Options that are read without an error are a list of options, if there are any. -/
theorem of_read_eq_ok (h : read r = .ok (ts, r')) : Allowed ts ∧ r = r'.before ts := by
  unfold read at h
  split at h
  · simp only [Except.ok.injEq, Prod.mk.injEq] at h
    obtain ⟨rfl, rfl⟩ := h
    exact ⟨.inl rfl, rfl⟩
  · obtain ⟨hlisted, hr, -⟩ := readSome_eq_ok_iff.1 h
    exact ⟨.inr hlisted, hr⟩

end Options

/-! ## The whole -/

namespace Outline

open Nesting

/-- What an error says of the tokens of a statement and the offset at which the text ends. -/
inductive Refused (ts : List Token) (stop : Nat) : DefinitionError → Prop
  | unexpected {expected : Expected} {t : Token} (ht : t ∈ ts) :
      Refused ts stop (.unexpected expected t.text t.span)
  | unexpectedEnd (expected : Expected) : Refused ts stop (.unexpectedEnd expected stop)
  | unbalanced {paren : Token} (hparen : paren ∈ unpartnered [] ts) :
      Refused ts stop (.unbalanced paren.span)
  | trailing {o : Outline} {front rest : List Token} {semicolon t : Token}
      (hts : ts = front ++ semicolon :: t :: rest)
      (hsemicolon : semicolon.isDelimiter .semicolon = true)
      (hwritten : o.Written (front ++ [semicolon])) : Refused ts stop (.trailing t.span)

theorem refused_of_misses {r : Reading} {e : DefinitionError} (h : r.Misses e) :
    Refused r.tokens r.stop e := by
  obtain ⟨expected, t, ht, rfl⟩ | ⟨expected, rfl⟩ := h.cases
  · exact .unexpected ht
  · exact .unexpectedEnd expected

/-- A parenthesis that strays behind a column list has no partner. -/
theorem refused_of_strays {r : Reading} {body : Body} {front options : List Token}
    {e : DefinitionError} (hfront : NoParens front)
    (hopening : body.opening.isDelimiter .leftParen = true) (hinner : Balanced 0 body.inner)
    (hclosing : body.closing.isDelimiter .rightParen = true) (hoptions : NoParens options)
    (h : Options.Strays r e) : Refused (front ++ body.opening :: (body.inner ++
      body.closing :: (options ++ r.tokens))) r.stop e := by
  obtain ⟨words, paren, rest, htokens, hwords, hparen, rfl⟩ := h
  have hmem := mem_unpartnered_of_stray rest hfront hopening
    (balanced_eq_true_iff.2 hinner) hclosing (hoptions.append hwords) hparen
  rw [htokens, ← List.append_assoc options]
  exact .unbalanced hmem

/-- **A statement that is not read** is wrong in one of four ways, and the error says where. -/
theorem refused_of_read {r : Reading} {e : DefinitionError} (h : read r = .error e) :
    Refused r.tokens r.stop e := by
  rcases Except.bind_eq_error_iff.1 h with hfail | ⟨⟨header, r₁⟩, hheader, h₁⟩
  · exact refused_of_misses (Header.misses_of_read hfail)
  obtain ⟨front, hfront, hr, -⟩ := Header.read_eq_ok_iff.1 hheader
  rcases Except.bind_eq_error_iff.1 h₁ with hfail | ⟨⟨body, r₂⟩, hbody, h₂⟩
  · rcases Body.of_read_eq_error hfail with hmiss | ⟨opening, r₂, hopening, hr₁, hnone, rfl⟩
    · rw [hr]
      exact refused_of_misses (hmiss.before front)
    · rw [hr, hr₁]
      exact .unbalanced (mem_unpartnered_of_unclosed hfront.noParens hopening hnone)
  obtain ⟨hopening, hinner, hclosing, hr₁⟩ := Body.read_eq_ok_iff.1 hbody
  have hlist : ∀ (options : List Token) (r₃ : Reading), r₂ = r₃.before options →
      r = r₃.before (front ++ body.opening :: (body.inner ++ body.closing :: options)) := by
    rintro options r₃ rfl
    rw [hr, hr₁]
    simp [Reading.before]
  rcases Except.bind_eq_error_iff.1 h₂ with hfail | ⟨⟨options, r₃⟩, hoptions, h₃⟩
  · rw [hlist [] r₂ rfl]
    rcases Options.of_read_eq_error hfail with hmiss | hstray
    · exact refused_of_misses (hmiss.before _)
    · simpa [Reading.before] using
        refused_of_strays hfront.noParens hopening hinner hclosing noParens_nil hstray
  obtain ⟨hallowed, hr₂⟩ := Options.of_read_eq_ok hoptions
  rcases Except.bind_eq_error_iff.1 h₃ with hfail | ⟨_, _, hdone⟩
  · rw [hlist options r₃ hr₂]
    rcases Options.of_finish_eq_error hfail with
      hmiss | hstray | ⟨semicolon, t, rest, htokens, hsemicolon, rfl⟩
    · exact refused_of_misses (hmiss.before _)
    · simpa [Reading.before] using
        refused_of_strays hfront.noParens hopening hinner hclosing hallowed.noParens hstray
    · have hwritten := @Written.intro ⟨header, body, options⟩ _ _ hfront hopening hinner hclosing
        hallowed (.semicolon hsemicolon)
      refine @Refused.trailing _ _ ⟨header, body, options⟩
        (front ++ body.opening :: (body.inner ++ body.closing :: options)) rest semicolon t ?_
        hsemicolon ?_
      · simp [htokens]
      · simpa using hwritten
  · exact absurd hdone (by simp [pure, Except.pure])

end Outline
end TableRebuild
