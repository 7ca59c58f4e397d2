import TableRebuild.Proofs.Token.Tiling
import TableRebuild.Token.Cursor

/-!
# Asking for tokens until there are no more

A cursor answers with a token, with an error or with "no more", and nobody keeps a caller from
asking again after any of the three. `Cursor.Gives` says what an unlimited number of questions comes
to: finitely many tokens, then one error or none, and from then on always "no more". Every run is of
that kind (`Cursor.gives_of`), and it gives what the text falls into when it is taken apart at once.

Together with the places of the tokens this is all there is to know of a text that is read token by
token (`Cursor.gives_and_tiled`).
-/

namespace TableRebuild
namespace Cursor

/-- What the cursor answers when it has been asked `n` times before. -/
def answer (c : Cursor) : Nat → Except LexicalError (Option Token)
  | 0 => c.next.1
  | n + 1 => c.next.2.answer n

/-- Asked again and again, the cursor gives the tokens in order, then the error if there is one, and
    then it says that there is no more. -/
structure Gives (c : Cursor) (ts : List Token) (e : Option LexicalError) : Prop where
  tokens : ∀ (n : Nat) (h : n < ts.length), c.answer n = .ok (some ts[n])
  ending : c.answer ts.length = match e with
    | some e => .error e
    | none => .ok none
  noMore : ∀ n, ts.length < n → c.answer n = .ok none

variable {c : Cursor}

/-! ## One answer -/

theorem next_of_lexeme {l : Lexeme} {rest : List Char} (h : Lexeme.scan c.rest = .lexeme l rest) :
    c.next = (.ok (some (l.place c.offset)), c.advance l.written rest) := by
  rw [next, h]

/-- At the end of the text a cursor answers with what is left open, and stays there. -/
theorem next_of_ending {e : Ending} (h : Lexeme.scan c.rest = .ending e) :
    c.next.2.rest = [] ∧ c.next.1 = match e.error? c.offset with
      | some err => .error err
      | none => .ok none := by
  simp only [next, h]
  cases he : e.error? c.offset with
  | some err => exact ⟨rfl, rfl⟩
  | none => exact ⟨rfl, rfl⟩

theorem next_rest_of_rest_eq_nil (h : c.rest = []) : c.next.2.rest = [] := by
  have hscan : Lexeme.scan c.rest = .ending (.finished []) := by
    simp [h, Lexeme.scan, Gap.skip, Front.of]
  exact (next_of_ending hscan).1

theorem answer_of_rest_eq_nil (h : c.rest = []) (n : Nat) : c.answer n = .ok none := by
  induction n generalizing c with
  | zero => exact next_of_rest_eq_nil h
  | succ n ih => exact ih (next_rest_of_rest_eq_nil h)

/-! ## All answers -/

/-- One token more in front. -/
theorem Gives.cons {t : Token} {ts : List Token} {e : Option LexicalError}
    (hnext : c.next.1 = .ok (some t)) (h : c.next.2.Gives ts e) : c.Gives (t :: ts) e where
  tokens n hn := by
    cases n with
    | zero => exact hnext
    | succ n => exact h.tokens n (Nat.lt_of_succ_lt_succ hn)
  ending := h.ending
  noMore n hn := by
    cases n with
    | zero => exact absurd hn (Nat.not_lt_zero _)
    | succ n => exact h.noMore n (Nat.lt_of_succ_lt_succ hn)

/-- **A run gives what the text falls into**, and then no more. -/
theorem gives_of (c : Cursor) :
    c.Gives (Lexeme.placeAll c.offset (Lexing.of c.rest).lexemes)
      ((Lexing.of c.rest).ending.error?
        (c.offset + Text.byteLength ((Lexing.of c.rest).lexemes.flatMap Lexeme.written))) := by
  obtain ⟨offset, cs⟩ := c
  simp only
  fun_induction Lexing.of cs generalizing offset with
  | case1 cs l rest hscan hlen ih =>
    have hnext := next_of_lexeme (c := ⟨offset, cs⟩) hscan
    have hrest := ih (offset + Text.byteLength l.written)
    rw [Lexing.cons, Lexeme.placeAll, List.flatMap_cons, Text.byteLength_append, ← Nat.add_assoc]
    refine .cons (congrArg Prod.fst hnext) ?_
    rw [congrArg Prod.snd hnext]
    exact hrest
  | case2 cs e hscan =>
    obtain ⟨hrest, hfirst⟩ := next_of_ending (c := ⟨offset, cs⟩) hscan
    refine ⟨fun n hn => absurd hn (Nat.not_lt_zero _), hfirst, ?_⟩
    intro n hn
    cases n with
    | zero => exact absurd hn (Nat.not_lt_zero _)
    | succ n => exact answer_of_rest_eq_nil hrest n

/-! ## The answers as a list -/

theorem drain_of_token {t : Token} (h : c.next.1 = .ok (some t)) :
    c.drain = .ok t :: c.next.2.drain := by
  rw [drain]
  split <;> rename_i hnext <;> rw [h] at hnext
  · exact absurd hnext (by simp)
  · rw [Option.some.inj (Except.ok.inj hnext)]
  · exact absurd hnext (by simp)

theorem drain_of_error {e : LexicalError} (h : c.next.1 = .error e) :
    c.drain = .error e :: c.next.2.drain := by
  rw [drain]
  split <;> rename_i hnext <;> rw [h] at hnext
  · exact absurd hnext (by simp)
  · exact absurd hnext (by simp)
  · rw [Except.error.inj hnext]

theorem drain_of_noMore (h : c.next.1 = .ok none) : c.drain = [] := by
  rw [drain]
  split
  · rfl
  · rename_i hnext
    exact absurd (h.symm.trans hnext) (by simp)
  · rename_i hnext
    exact absurd (h.symm.trans hnext) (by simp)

theorem Gives.of_cons {t : Token} {ts : List Token} {e : Option LexicalError}
    (h : c.Gives (t :: ts) e) : c.next.1 = .ok (some t) ∧ c.next.2.Gives ts e :=
  ⟨h.tokens 0 (Nat.succ_pos _), fun n hn => h.tokens (n + 1) (Nat.succ_lt_succ hn), h.ending,
    fun n hn => h.noMore (n + 1) (Nat.succ_lt_succ hn)⟩

/-- The answers up to the first "no more" are the tokens and the error. -/
theorem Gives.drain_eq {ts : List Token} {e : Option LexicalError} (h : c.Gives ts e) :
    c.drain = ts.map .ok ++ e.toList.map .error := by
  induction ts generalizing c with
  | nil =>
    cases e with
    | none => exact drain_of_noMore h.ending
    | some e =>
      have hmore : c.next.2.next.1 = .ok none := h.noMore 1 Nat.zero_lt_one
      rw [drain_of_error h.ending, drain_of_noMore hmore]
      rfl
  | cons t ts ih =>
    obtain ⟨hfirst, hrest⟩ := h.of_cons
    rw [drain_of_token hfirst, ih hrest]
    rfl

/-! ## The whole -/

/-- **Reading a text token by token ends, and loses nothing.** Whatever the text, the answers are
    finitely many tokens, at most one error and then "no more" for ever; the tokens are all tokens
    of the text or the error is its error; and the tokens stand in order in the text, each on the
    characters that it is written as, with blanks and comments between them up to the end. -/
theorem gives_and_tiled (text : String) : ∃ ts e, (start text).Gives ts e ∧
    (start text).drain = ts.map .ok ++ e.toList.map .error ∧
    (tokenize text = match e with
      | some e => .error e
      | none => .ok ts) ∧
    Tiled text 0 ts e ∧ ts.Pairwise fun a b => a.span.stop ≤ b.span.start := by
  have hgives := gives_of (start text)
  have htiled : Tiled text 0 _ _ := Lexing.tiled_of (List.nil_append text.toList).symm
  rw [Text.byteLength_nil, Nat.zero_add] at htiled
  rw [start, Nat.zero_add] at hgives
  exact ⟨_, _, hgives, hgives.drain_eq, rfl, htiled, htiled.pairwise.2⟩

end Cursor
end TableRebuild
