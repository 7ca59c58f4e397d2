import TableRebuild.Definition.Clause
import TableRebuild.Proofs.Token.Unplaced

/-!
# Cuts that do not depend on places

Where the type of a column ends and where its clauses begin is told from the kinds and the texts of
tokens. So the same tokens in other places are cut at the same points: a column that is written out
again, with its type and its clauses in a row, is read as the same type and the same clauses. That
is not a matter of course. A clause is not closed by anything; it ends where the next one can be
seen to begin, and the clauses that were told apart once have to be told apart again.
-/

namespace TableRebuild

@[simp] theorem Token.opensColumnConstraint_unplaced (t : Token) :
    t.unplaced.opensColumnConstraint = t.opensColumnConstraint := rfl

theorem splitType_map_unplaced (depth : Nat) (ts : List Token) :
    splitType depth (ts.map Token.unplaced) =
      ((splitType depth ts).1.map Token.unplaced, (splitType depth ts).2.map Token.unplaced) := by
  induction ts generalizing depth with
  | nil => rfl
  | cons t ts ih =>
    have hafter : Nesting.after depth t.unplaced = Nesting.after depth t := rfl
    simp only [List.map_cons, splitType, Token.opensColumnConstraint_unplaced, hafter, ih]
    split <;> rfl

/-- A type and constraints that are told apart, are told apart in other places too. -/
theorem splitType_of_unplaced {type constraints type' constraints' : List Token}
    (h : splitType 0 (type ++ constraints) = (type, constraints))
    (htype : type'.map Token.unplaced = type.map Token.unplaced)
    (hconstraints : constraints'.map Token.unplaced = constraints.map Token.unplaced) :
    splitType 0 (type' ++ constraints') = (type', constraints') := by
  have hmap := splitType_map_unplaced 0 (type' ++ constraints')
  rw [List.map_append, htype, hconstraints, ← List.map_append, splitType_map_unplaced, h] at hmap
  simp only [Prod.mk.injEq] at hmap
  -- The two parts have the lengths they had, and together they are what was split.
  have hlength : type'.length = (splitType 0 (type' ++ constraints')).1.length := by
    have hlen := congrArg List.length (htype.trans hmap.1)
    simpa using hlen
  obtain ⟨h₁, h₂⟩ := List.append_inj (splitType_append 0 (type' ++ constraints')).symm hlength
  exact Prod.ext h₁.symm h₂.symm

namespace Clause

@[simp] theorem opens_unplaced (soFar : List Token) (t : Token) (next : Option Token) :
    opens (soFar.map Token.unplaced) t.unplaced (next.map Token.unplaced) = opens soFar t next := by
  have hname : isNameOnly (soFar.map Token.unplaced) = isNameOnly soFar := by
    cases soFar with
    | nil => rfl
    | cons a soFar =>
      cases soFar with
      | nil => rfl
      | cons b soFar => cases soFar <;> rfl
  have hcontinues : ∀ k (before : Token),
      continues k before.unplaced (next.map Token.unplaced) = continues k before next := by
    intro k before
    cases k <;> cases next <;> rfl
  cases soFar with
  | nil => rfl
  | cons before soFar =>
    rw [List.map_cons] at hname
    simp only [opens, List.map_cons, Token.keyword?_unplaced, hname]
    cases t.keyword? with
    | none => rfl
    | some k => simp only [hcontinues]

theorem cut_map_unplaced (depth : Nat) (soFar ts : List Token) :
    cut depth (soFar.map Token.unplaced) (ts.map Token.unplaced) =
      ((cut depth soFar ts).1.map Token.unplaced,
        (cut depth soFar ts).2.map (List.map Token.unplaced)) := by
  induction ts generalizing depth soFar with
  | nil => rfl
  | cons t ts ih =>
    have hafter : Nesting.after depth t.unplaced = Nesting.after depth t := rfl
    have hsingle := ih 0 [t]
    have hlonger := ih (Nesting.after depth t) (t :: soFar)
    simp only [List.map_cons, List.map_nil] at hsingle hlonger
    simp only [List.map_cons, cut, List.head?_map, opens_unplaced, hafter, hsingle, hlonger]
    split <;> rfl

theorem split_map_unplaced (ts : List Token) :
    split (ts.map Token.unplaced) = (split ts).map (List.map Token.unplaced) := by
  cases ts with
  | nil => rfl
  | cons t ts =>
    have hcut := cut_map_unplaced 0 [] (t :: ts)
    simp only [List.map_nil, List.map_cons] at hcut
    simp only [split, List.map_cons, hcut]

/-- Clauses that are told apart, are told apart in other places too. -/
theorem split_of_unplaced {clauses clauses' : List (List Token)}
    (h : split clauses.flatten = clauses)
    (hsame : clauses'.map (List.map Token.unplaced) = clauses.map (List.map Token.unplaced)) :
    split clauses'.flatten = clauses' := by
  have hmap := split_map_unplaced clauses'.flatten
  rw [List.map_flatten, hsame, ← List.map_flatten, split_map_unplaced, h, ← hsame] at hmap
  have hlength : (split clauses'.flatten).map List.length = clauses'.map List.length := by
    have hlen := congrArg (List.map List.length) hmap
    simpa [Function.comp_def] using hlen.symm
  exact List.eq_iff_flatten_eq.2 ⟨flatten_split _, hlength⟩

/-- The type and the clauses of a column are stretches of what stands behind its name. -/
theorem isInfix_parts (ts : List Token) : (splitType 0 ts).1 <:+: ts ∧
    ∀ clause ∈ split (splitType 0 ts).2, clause <:+: ts := by
  have happend := splitType_append 0 ts
  constructor
  · exact ⟨[], (splitType 0 ts).2, happend⟩
  · intro clause hclause
    have hin : clause <:+: (splitType 0 ts).2 := by
      have hflat := List.infix_of_mem_flatten hclause
      rwa [flatten_split] at hflat
    have hback : (splitType 0 ts).2 <:+: ts := ⟨(splitType 0 ts).1, [], by simp [happend]⟩
    exact hin.trans hback

/-- No clause is empty. -/
theorem ne_nil_of_mem_split {ts clause : List Token} (h : clause ∈ split ts) : clause ≠ [] := by
  have hmore : ∀ depth soFar ts, ∀ c ∈ (cut depth soFar ts).2, c ≠ [] := by
    intro depth soFar ts
    fun_induction cut depth soFar ts with
    | case1 => simp
    | case2 depth soFar t rest hopens clause more hcut ih =>
      intro c hc
      rw [hcut] at ih
      rcases List.mem_cons.1 hc with rfl | hc
      · simp
      · exact ih c hc
    | case3 depth soFar t rest hopens clause more hcut ih =>
      rw [hcut] at ih
      exact ih
  cases ts with
  | nil => exact absurd h (by simp [split])
  | cons t ts =>
    rcases List.mem_cons.1 h with rfl | h
    · -- Nothing is before the first token, so it does not begin a new clause.
      simp
    · exact hmore _ _ _ _ h

end Clause
end TableRebuild
