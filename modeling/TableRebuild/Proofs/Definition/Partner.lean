import TableRebuild.Proofs.Definition.Nesting

/-!
# Parentheses without a partner

The readers count parentheses and never say which one belongs to which. Here every closing
parenthesis is given the last one that is still open, the way a stack does it, and `unpartnered` are
the parentheses that are left over: the closing ones that found the stack empty, and the ones that
are on it at the end.

Tokens without parentheses and balanced tokens leave the stack as it is. So the stack is empty
behind a column list and holds one parenthesis inside it, and what the readers find without a
partner by counting has none.
-/

namespace TableRebuild
namespace Nesting

/-- The parentheses that are left over when each closing one is put together with the last open one.
    Those of `pending` are open before the tokens, the last one first. -/
def unpartnered (pending : List Token) : List Token → List Token
  | [] => pending
  | t :: ts =>
    if t.isDelimiter .leftParen then unpartnered (t :: pending) ts
    else if t.isDelimiter .rightParen then
      if pending.isEmpty then t :: unpartnered [] ts else unpartnered pending.tail ts
    else unpartnered pending ts

/-- No token is a parenthesis. -/
def NoParens (ts : List Token) : Prop :=
  ∀ t ∈ ts, t.isDelimiter .leftParen = false ∧ t.isDelimiter .rightParen = false

variable {depth : Nat} {t paren : Token} {ts rest pending inner : List Token}

theorem noParens_nil : NoParens [] := fun _ ht => absurd ht List.not_mem_nil

theorem NoParens.cons (ht : t.isDelimiter .leftParen = false ∧ t.isDelimiter .rightParen = false)
    (hts : NoParens ts) : NoParens (t :: ts) := List.forall_mem_cons.2 ⟨ht, hts⟩

theorem NoParens.append (hts : NoParens ts) (hrest : NoParens rest) : NoParens (ts ++ rest) :=
  List.forall_mem_append.2 ⟨hts, hrest⟩

theorem unpartnered_append_of_noParens (h : NoParens ts) (pending rest : List Token) :
    unpartnered pending (ts ++ rest) = unpartnered pending rest := by
  induction ts with
  | nil => rfl
  | cons t ts ih =>
    obtain ⟨ht, hts⟩ := List.forall_mem_cons.1 h
    rw [List.cons_append, unpartnered, ht.1, ht.2]
    exact ih hts

theorem unpartnered_cons_of_leftParen (h : t.isDelimiter .leftParen = true)
    (pending rest : List Token) :
    unpartnered pending (t :: rest) = unpartnered (t :: pending) rest := by
  rw [unpartnered, if_pos h]

theorem unpartnered_cons_of_rightParen (h : t.isDelimiter .rightParen = true)
    (pending rest : List Token) : unpartnered pending (t :: rest) =
      if pending.isEmpty then t :: unpartnered [] rest else unpartnered pending.tail rest := by
  have hleft : t.isDelimiter .leftParen = false := by simp [Token.isDelimiter, eq_of_beq h]
  rw [unpartnered, if_neg (by simp [hleft]), if_pos h]

/-- What is left over was open before or is a parenthesis of the tokens. -/
theorem of_mem_unpartnered (h : paren ∈ unpartnered pending ts) : paren ∈ pending ∨ paren ∈ ts ∧
    (paren.isDelimiter .leftParen = true ∨ paren.isDelimiter .rightParen = true) := by
  induction ts generalizing pending with
  | nil => exact .inl h
  | cons t ts ih =>
    have hmore : ∀ {pending' : List Token}, paren ∈ unpartnered pending' ts →
        paren ∈ pending' ∨ paren ∈ t :: ts ∧
          (paren.isDelimiter .leftParen = true ∨ paren.isDelimiter .rightParen = true) :=
      fun h => (ih h).imp_right fun h => ⟨List.mem_cons_of_mem t h.1, h.2⟩
    rw [unpartnered] at h
    split at h
    · rename_i hleft
      rcases hmore h with hmem | hmem
      · rcases List.mem_cons.1 hmem with rfl | hmem
        · exact .inr ⟨List.mem_cons_self, .inl hleft⟩
        · exact .inl hmem
      · exact .inr hmem
    · split at h
      · rename_i hright
        split at h
        · rcases List.mem_cons.1 h with rfl | h
          · exact .inr ⟨List.mem_cons_self, .inr hright⟩
          · exact (hmore h).imp_left fun hmem => absurd hmem List.not_mem_nil
        · exact (hmore h).imp_left List.mem_of_mem_tail
      · exact hmore h

/-- **One step of the stack is one step of the counter**: behind `depth` open parentheses, if the
    token does not close one that was open before them, so many are open as are counted. -/
theorem exists_unpartnered_cons (h : ¬(t.isDelimiter .rightParen = true ∧ depth = 0))
    {top : List Token} (htop : top.length = depth) (pending rest : List Token) :
    ∃ top', top'.length = after depth t ∧
      unpartnered (top ++ pending) (t :: rest) = unpartnered (top' ++ pending) rest := by
  by_cases hleft : t.isDelimiter .leftParen = true
  · refine ⟨t :: top, ?_, unpartnered_cons_of_leftParen hleft _ _⟩
    simp [after, eq_of_beq hleft, htop]
  · by_cases hright : t.isDelimiter .rightParen = true
    · cases top with
      | nil => exact absurd ⟨hright, htop.symm⟩ h
      | cons u top =>
        refine ⟨top, ?_, ?_⟩
        · simp [after, eq_of_beq hright, ← htop]
        · rw [unpartnered_cons_of_rightParen hright]
          simp
    · refine ⟨top, ?_, ?_⟩
      · rw [htop]
        unfold after
        split
        · rename_i hk
          exact absurd (beq_iff_eq.2 hk) hleft
        · rename_i hk
          exact absurd (beq_iff_eq.2 hk) hright
        · rfl
      · rw [unpartnered, if_neg hleft, if_neg hright]

/-- Tokens that close what is open before them, and what they open, take it off the stack. -/
theorem unpartnered_append_of_balanced (h : balanced depth ts = true) {top : List Token}
    (htop : top.length = depth) (pending rest : List Token) :
    unpartnered (top ++ pending) (ts ++ rest) = unpartnered pending rest := by
  induction ts generalizing depth top with
  | nil =>
    rw [balanced, beq_iff_eq] at h
    rw [List.length_eq_zero_iff.1 (htop.trans h)]
    rfl
  | cons t ts ih =>
    rw [balanced_cons_iff] at h
    obtain ⟨top', htop', hstep⟩ := exists_unpartnered_cons h.1 htop pending (ts ++ rest)
    rw [List.cons_append, hstep]
    exact ih h.2 htop'

theorem mem_unpartnered_of_closing (h : closing depth ts = none) {top : List Token}
    (htop : top.length = depth) (paren : Token) (pending : List Token) :
    paren ∈ unpartnered (top ++ paren :: pending) ts := by
  induction ts generalizing depth top with
  | nil => exact List.mem_append_right _ List.mem_cons_self
  | cons t ts ih =>
    rw [closing] at h
    split at h
    · exact absurd h (by simp)
    · rename_i hclose
      obtain ⟨top', htop', hstep⟩ := exists_unpartnered_cons hclose htop (paren :: pending) ts
      rw [hstep]
      exact ih (Option.map_eq_none_iff.1 h) htop'

/-- **An opening parenthesis whose list is never closed has no partner.** -/
theorem mem_unpartnered_of_unclosed {front : List Token} (hfront : NoParens front)
    (hparen : paren.isDelimiter .leftParen = true) (h : closing 0 rest = none) :
    paren ∈ unpartnered [] (front ++ paren :: rest) := by
  rw [unpartnered_append_of_noParens hfront, unpartnered_cons_of_leftParen hparen]
  exact @mem_unpartnered_of_closing 0 rest h [] rfl paren []

/-- **A closing parenthesis behind a list that is closed has no partner.** -/
theorem mem_unpartnered_of_stray {front behind : List Token} {opening close : Token}
    (rest : List Token) (hfront : NoParens front)
    (hopening : opening.isDelimiter .leftParen = true)
    (hinner : balanced 0 inner = true) (hclose : close.isDelimiter .rightParen = true)
    (hbehind : NoParens behind) (hparen : paren.isDelimiter .rightParen = true) :
    paren ∈ unpartnered [] (front ++ opening :: (inner ++ close :: (behind ++ paren :: rest))) := by
  rw [unpartnered_append_of_noParens hfront, unpartnered_cons_of_leftParen hopening,
    ← List.nil_append [opening], unpartnered_append_of_balanced hinner rfl,
    unpartnered_cons_of_rightParen hclose]
  simp only [List.isEmpty_cons, Bool.false_eq_true, ↓reduceIte, List.tail_cons]
  rw [unpartnered_append_of_noParens hbehind, unpartnered_cons_of_rightParen hparen]
  exact List.mem_cons_self

end Nesting
end TableRebuild
