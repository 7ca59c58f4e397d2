import TableRebuild.Proofs.Token.Front
import TableRebuild.Proofs.Token.QuotedName

/-!
# What stands between marks

`Quote.closing` finds the end of a quoted text by pairing marks from the left, and it was never told
how quoted texts are written. `Quote.enclose` writes them, and was never told how they are read.
This file says that the two mean the same: what `closing` finds is what `enclose` writes
(`Quote.closing_eq_some_iff`), and where `closing` finds nothing there is nothing that `enclose`
could have written (`Quote.closing_eq_none_iff`).

The one text that `enclose` writes and `closing` does not read back is a text in brackets that has a
bracket in it, because there the closing mark cannot be written twice. `Quote.Takes` leaves it out.

With this the words of a text are known without their reader: each is bare, or it is an enclosed
text (`Front.word_cases`).
-/

namespace TableRebuild
namespace Quote

/-- Whether a text can stand between the marks. In brackets it must not have the closing mark. -/
def Takes (q : Quote) (cs : List Char) : Prop := q.doubles = false → q.closer ∉ cs

instance (q : Quote) (cs : List Char) : Decidable (q.Takes cs) :=
  inferInstanceAs (Decidable (q.doubles = false → q.closer ∉ cs))

/-- Whether the quote that is opened in front of the text is closed in it: the text begins with what
    is written between the marks and the closing mark, and the next character does not make a mark
    in the text of it. -/
def Closes (q : Quote) (cs : List Char) : Prop :=
  ∃ body after, q.Takes body ∧ cs = q.escape body ++ q.closer :: after ∧
    ∀ d ∈ after.head?, q.goesOn d = false

variable {q : Quote} {c : Char} {cs body inside after : List Char}

theorem takes_of_doubles (h : q.doubles = true) (cs : List Char) : q.Takes cs := by
  simp [Takes, h]

theorem takes_nil (q : Quote) : q.Takes [] := fun _ => List.not_mem_nil

theorem takes_cons_iff (hc : c ≠ q.closer) : q.Takes (c :: cs) ↔ q.Takes cs := by
  simp [Takes, hc.symm]

theorem escape_cons_of_ne (hc : c ≠ q.closer) (cs : List Char) :
    q.escape (c :: cs) = c :: q.escape cs := by
  cases hd : q.doubles with
  | true => simp [escape_cons hd, hc]
  | false => simp [escape, hd]

theorem escape_cons_closer (hd : q.doubles = true) (cs : List Char) :
    q.escape (q.closer :: cs) = q.closer :: q.closer :: q.escape cs := by
  simp [escape_cons hd]

/-! ## The reader of marks -/

theorem closing_cons_of_ne (hc : c ≠ q.closer) (cs : List Char) : q.closing (c :: cs) =
    (q.closing cs).map fun (inside, after) => (c :: inside, after) := by
  rw [closing.eq_def]
  simp [hc]

theorem closing_closer_closer (hd : q.doubles = true) (cs : List Char) :
    q.closing (q.closer :: q.closer :: cs) =
      (q.closing cs).map fun (inside, after) => (q.closer :: q.closer :: inside, after) := by
  rw [closing.eq_def]
  simp [hd]

/-- What is written between the marks has no closing mark for the reader, so it looks on. -/
theorem closing_escape_append (h : q.Takes body) (rest : List Char) :
    q.closing (q.escape body ++ rest) =
      (q.closing rest).map fun (inside, after) => (q.escape body ++ inside, after) := by
  induction body with
  | nil => simp [escape_nil]
  | cons c body ih =>
    by_cases hc : c = q.closer
    · subst hc
      -- A closing mark can stand between the marks only where it is written twice.
      have hd : q.doubles = true := by
        by_contra hd
        exact h (by simpa using hd) List.mem_cons_self
      rw [escape_cons_closer hd, List.cons_append, List.cons_append, closing_closer_closer hd,
        ih (takes_of_doubles hd body)]
      simp [Function.comp_def]
    · rw [escape_cons_of_ne hc, List.cons_append, closing_cons_of_ne hc,
        ih ((takes_cons_iff hc).1 h)]
      simp [Function.comp_def]

/-- Up to the closing mark the reader passes over what is written between the marks. -/
theorem exists_of_closing (h : q.closing cs = some (inside, after)) :
    ∃ body, q.Takes body ∧ inside = q.escape body ++ [q.closer] := by
  fun_induction q.closing cs generalizing inside with
  | case1 => exact absurd h (by simp)
  | case2 =>
    simp only [Option.some.injEq, Prod.mk.injEq] at h
    exact ⟨[], takes_nil q, by simp [escape_nil, ← h.1]⟩
  | case3 d more hd ih =>
    obtain ⟨hdoubles, hmark⟩ := Bool.and_eq_true_iff.1 hd
    -- Two marks are one mark of the text.
    obtain rfl : d = q.closer := eq_of_beq hmark
    obtain ⟨⟨i, a⟩, hi, he⟩ := Option.map_eq_some_iff.1 h
    simp only [Prod.mk.injEq] at he
    obtain ⟨rfl, rfl⟩ := he
    obtain ⟨body, -, rfl⟩ := ih hi
    refine ⟨q.closer :: body, takes_of_doubles hdoubles _, ?_⟩
    rw [escape_cons_closer hdoubles, List.cons_append, List.cons_append]
  | case4 d more hd =>
    simp only [Option.some.injEq, Prod.mk.injEq] at h
    exact ⟨[], takes_nil q, by simp [escape_nil, ← h.1]⟩
  | case5 c rest hc ih =>
    obtain ⟨⟨i, a⟩, hi, he⟩ := Option.map_eq_some_iff.1 h
    simp only [Prod.mk.injEq] at he
    obtain ⟨rfl, rfl⟩ := he
    obtain ⟨body, htakes, rfl⟩ := ih hi
    refine ⟨c :: body, (takes_cons_iff hc).2 htakes, ?_⟩
    rw [escape_cons_of_ne hc, List.cons_append]

/-- **The reader finds what is written**: the text between the marks and the closing mark, if the
    next character does not double that mark. -/
theorem closing_eq_some_iff : q.closing cs = some (inside, after) ↔
    cs = inside ++ after ∧ (∃ body, q.Takes body ∧ inside = q.escape body ++ [q.closer]) ∧
      ∀ d ∈ after.head?, q.goesOn d = false := by
  constructor
  · intro h
    obtain ⟨rfl, -⟩ := closing_eq_some h
    exact ⟨rfl, exists_of_closing h, (closing_append_iff h).1 h⟩
  · rintro ⟨rfl, ⟨body, htakes, rfl⟩, hafter⟩
    have hmark : q.closing ([q.closer] ++ after) = some ([q.closer], after) :=
      closing_closer_iff.2 hafter
    rw [List.append_assoc, closing_escape_append htakes, hmark, Option.map_some]

/-- **Where the reader finds no closing mark, the quote is not closed.** -/
theorem closing_eq_none_iff : q.closing cs = none ↔ ¬q.Closes cs := by
  rw [Option.eq_none_iff_forall_ne_some]
  constructor
  · rintro h ⟨body, after, htakes, rfl, hafter⟩
    refine h (q.escape body ++ [q.closer], after) ?_
    rw [closing_eq_some_iff]
    exact ⟨by simp, ⟨body, htakes, rfl⟩, hafter⟩
  · rintro h ⟨inside, after⟩ hsome
    obtain ⟨rfl, ⟨body, htakes, rfl⟩, hafter⟩ := closing_eq_some_iff.1 hsome
    exact h ⟨body, after, htakes, by simp, hafter⟩

theorem unquote_of_ofOpener? (h : ofOpener? c = none) (cs : List Char) :
    unquote (c :: cs) = c :: cs := by
  simp [unquote, h]

end Quote

/-! ## Words -/

namespace Front

variable {q : Quote} {kind : Kind} {cs start text rest : List Char}

theorem quoted_eq_token_iff : quoted q start cs = .token kind text rest ↔
    kind = (if q.quotesName then .quotedName else .verbatim) ∧
      ∃ inside, text = start ++ inside ∧ q.closing cs = some (inside, rest) := by
  unfold quoted
  cases q.closing cs with
  | none => simp
  | some found =>
    obtain ⟨inside, after⟩ := found
    simp only [token.injEq, Option.some.injEq, Prod.mk.injEq]
    constructor
    · rintro ⟨rfl, rfl, rfl⟩
      exact ⟨rfl, inside, rfl, rfl, rfl⟩
    · rintro ⟨rfl, _, rfl, rfl, rfl⟩
      exact ⟨rfl, rfl, rfl⟩

theorem not_isWord_of_number {c : Char} (h : number c cs = .token kind text rest) :
    ¬kind.isWord = true := by
  simp only [number, token.injEq] at h
  rw [← h.1]
  exact Bool.false_ne_true

theorem not_isWord_of_operator {c : Char} (h : operator c cs = .token kind text rest) :
    ¬kind.isWord = true := by
  simp only [operator, token.injEq] at h
  rw [← h.1]
  exact Bool.false_ne_true

/-- In the marks of a string nothing is a word. -/
theorem quotesName_of_isWord (h : quoted q start cs = .token kind text rest)
    (hword : kind.isWord = true) : q.quotesName = true := by
  by_contra hstring
  rw [(quoted_eq_token_iff.1 h).1, if_neg hstring] at hword
  exact absurd hword Bool.false_ne_true

/-- A word that begins with neither a delimiter nor a quote is bare. -/
theorem of_plain_eq_token {c : Char} (h : plain c cs = .token kind text rest)
    (hword : kind.isWord = true) : kind ≠ .quotedName ∧ ∃ tail, text = c :: tail := by
  unfold plain at h
  split at h
  · exact absurd hword (not_isWord_of_number h)
  · split at h
    · simp only [word, token.injEq] at h
      obtain ⟨rfl, rfl, -⟩ := h
      refine ⟨?_, _, rfl⟩
      unfold Kind.ofWord
      split <;> simp
    · exact absurd hword (not_isWord_of_operator h)

/-- **The words of a text** are bare and do not begin with a mark, or they are enclosed in marks of
    one kind. -/
theorem word_cases (h : of cs = .token kind text rest) (hword : kind.isWord = true) :
    (kind ≠ .quotedName ∧ ∃ c tail, text = c :: tail ∧ Quote.ofOpener? c = none) ∨
      (kind = .quotedName ∧ ∃ (q : Quote) (body : List Char), q.quotesName = true ∧
        q.Takes body ∧ text = q.enclose body ∧ ∀ d ∈ rest.head?, q.goesOn d = false) := by
  cases cs with
  | nil => exact absurd h (by simp [of])
  | cons c cs =>
    cases hd : Delimiter.ofChar? c with
    | some d =>
      rw [of_of_delimiter hd] at h
      split at h
      · exact absurd hword (not_isWord_of_number h)
      · simp only [token.injEq] at h
        obtain ⟨rfl, -⟩ := h
        exact absurd hword Bool.false_ne_true
    | none =>
      cases hq : Quote.ofOpener? c with
      | some q =>
        rw [of_of_opener hd hq] at h
        have hname := quotesName_of_isWord h hword
        obtain ⟨rfl, inside, rfl, hclose⟩ := quoted_eq_token_iff.1 h
        obtain ⟨-, ⟨body, htakes, rfl⟩, hrest⟩ := Quote.closing_eq_some_iff.1 hclose
        refine .inr ⟨if_pos hname, q, body, hname, htakes, ?_, hrest⟩
        rw [← Quote.opener_eq_of_ofOpener? hq]
        rfl
      | none =>
        rw [of_of_other hd hq] at h
        split at h
        · exact absurd (quotesName_of_isWord h hword) Bool.false_ne_true
        · obtain ⟨hkind, tail, rfl⟩ := of_plain_eq_token h hword
          exact .inl ⟨hkind, c, tail, rfl, hq⟩

end Front
end TableRebuild
