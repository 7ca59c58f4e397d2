import Mathlib.Data.List.Infix
import TableRebuild.Proofs.Definition.Clause
import TableRebuild.Proofs.Definition.Nesting

/-!
# Depth without a counter

The readers of a statement keep count of open parentheses in a number that cannot go below zero.
What they are after is said here by counting what has been opened and closed: tokens are `Balanced`
when no beginning of them closes more than it has opened, and a token stands inside parentheses when
less has been closed before it than opened (`OnlyInside`).

In balanced tokens the two ways of counting agree. `balanced_eq_true_iff` and `Item.isPiece_iff` are
the two main cases, and `NeverClips` is the reason: the counter is above zero at every parenthesis
that closes, so taking one off never has to stop at zero. The type and the clauses of a column are
balanced again, each by itself, so the readers that go over parts of a column may each start from
zero.
-/

namespace TableRebuild
namespace Nesting

/-- How many parentheses the tokens open. -/
def opened (ts : List Token) : Nat := ts.countP (·.isDelimiter .leftParen)

/-- How many parentheses the tokens close. -/
def closed (ts : List Token) : Nat := ts.countP (·.isDelimiter .rightParen)

/-- Behind `depth` open parentheses no beginning closes more than is open, and the whole closes
    all. -/
structure Balanced (depth : Nat) (ts : List Token) : Prop where
  closed_le : ∀ xs, xs <+: ts → closed xs ≤ depth + opened xs
  closed_eq : closed ts = depth + opened ts

/-- Behind `depth` open parentheses the tokens that pass the test stand in parentheses, each of
    them. -/
def OnlyInside (depth : Nat) (test : Token → Bool) (ts : List Token) : Prop :=
  ∀ xs t ys, ts = xs ++ t :: ys → test t = true → closed xs < depth + opened xs

/-- The counter that starts from `depth` is above zero at every parenthesis that closes. -/
def NeverClips (depth : Nat) (ts : List Token) : Prop :=
  ∀ xs t ys, ts = xs ++ t :: ys → t.isDelimiter .rightParen = true → 0 < xs.foldl after depth

theorem opened_append (as bs : List Token) : opened (as ++ bs) = opened as + opened bs :=
  List.countP_append

theorem closed_append (as bs : List Token) : closed (as ++ bs) = closed as + closed bs :=
  List.countP_append

/-! ## One token -/

variable {depth : Nat} {t : Token} {ts as bs : List Token} {test : Token → Bool}

/-- What the counter does at a token is what the token opens and closes, unless it is asked to go
    below zero. -/
theorem add_opened_cons (h : ¬(t.isDelimiter .rightParen = true ∧ depth = 0)) (xs : List Token) :
    depth + opened (t :: xs) + closed xs = after depth t + opened xs + closed (t :: xs) := by
  simp only [opened, closed, List.countP_cons]
  cases hk : t.kind with
  | delimiter d =>
    cases d with
    | leftParen =>
      simp [after, Token.isDelimiter, hk]
      omega
    | rightParen =>
      have hdepth : depth ≠ 0 := fun h0 => h ⟨by simp [Token.isDelimiter, hk], h0⟩
      simp [after, Token.isDelimiter, hk]
      omega
    | comma => simp [after, Token.isDelimiter, hk]
    | semicolon => simp [after, Token.isDelimiter, hk]
    | dot => simp [after, Token.isDelimiter, hk]
  | keyword k => simp [after, Token.isDelimiter, hk]
  | quotedName => simp [after, Token.isDelimiter, hk]
  | bareName => simp [after, Token.isDelimiter, hk]
  | verbatim => simp [after, Token.isDelimiter, hk]

theorem balanced_cons (h : ¬(t.isDelimiter .rightParen = true ∧ depth = 0)) :
    Balanced depth (t :: ts) ↔ Balanced (after depth t) ts := by
  have hstep := add_opened_cons h
  constructor
  · intro hbal
    refine ⟨?_, ?_⟩
    · intro xs hxs
      have hle := hbal.closed_le (t :: xs) (List.cons_prefix_cons.2 ⟨rfl, hxs⟩)
      have := hstep xs
      omega
    · have heq := hbal.closed_eq
      have := hstep ts
      omega
  · intro hbal
    refine ⟨?_, ?_⟩
    · intro xs hxs
      cases xs with
      | nil => exact Nat.zero_le _
      | cons u xs =>
        obtain ⟨rfl, hmore⟩ := List.cons_prefix_cons.1 hxs
        have hle := hbal.closed_le xs hmore
        have := hstep xs
        omega
    · have heq := hbal.closed_eq
      have := hstep ts
      omega

theorem onlyInside_cons (h : ¬(t.isDelimiter .rightParen = true ∧ depth = 0)) :
    OnlyInside depth test (t :: ts) ↔
      (test t = true → 0 < depth) ∧ OnlyInside (after depth t) test ts := by
  have hstep := add_opened_cons h
  constructor
  · intro hin
    refine ⟨fun ht => ?_, ?_⟩
    · simpa [opened, closed] using hin [] t ts rfl ht
    · intro xs u ys hts hu
      have hlt := hin (t :: xs) u ys (by rw [hts]; rfl) hu
      have := hstep xs
      omega
  · rintro ⟨ht, hin⟩ xs u ys hts hu
    cases xs with
    | nil =>
      obtain ⟨rfl, -⟩ := List.cons.inj hts
      simpa [opened, closed] using ht hu
    | cons v xs =>
      obtain ⟨rfl, hmore⟩ := List.cons.inj hts
      have hlt := hin xs u ys hmore hu
      have := hstep xs
      omega

/-! ## Agreement with the counters -/

/-- **The counter finds tokens balanced exactly if they are.** -/
theorem balanced_eq_true_iff : balanced depth ts = true ↔ Balanced depth ts := by
  induction ts generalizing depth with
  | nil =>
    rw [balanced, beq_iff_eq]
    constructor
    · rintro rfl
      exact ⟨fun xs hxs => by rw [List.prefix_nil.1 hxs]; exact Nat.le_refl 0, rfl⟩
    · intro h
      exact h.closed_eq.symm
  | cons t ts ih =>
    rw [balanced_cons_iff, ih]
    constructor
    · rintro ⟨ht, hbal⟩
      exact (balanced_cons ht).2 hbal
    · intro hbal
      have ht : ¬(t.isDelimiter .rightParen = true ∧ depth = 0) := by
        rintro ⟨ht, rfl⟩
        have hle := hbal.closed_le [t] (List.prefix_append [t] ts)
        simp [closed, opened, Token.isDelimiter, eq_of_beq ht] at hle
      exact ⟨ht, (balanced_cons ht).1 hbal⟩

theorem neverClips_of_balanced (h : balanced depth ts = true) : NeverClips depth ts := by
  intro xs u ys hts hu
  induction xs generalizing depth ts with
  | nil =>
    subst hts
    rw [List.nil_append, balanced_cons_iff] at h
    exact Nat.pos_of_ne_zero fun h0 => h.1 ⟨hu, h0⟩
  | cons v xs ih =>
    subst hts
    rw [List.cons_append, balanced_cons_iff] at h
    exact ih h.2 rfl

theorem whole_eq_true_iff (h : balanced depth ts = true) :
    Item.whole depth ts = true ↔ OnlyInside depth (·.isDelimiter .comma) ts := by
  induction ts generalizing depth with
  | nil => simp [Item.whole, OnlyInside]
  | cons t ts ih =>
    rw [balanced_cons_iff] at h
    rw [Item.whole_cons_iff, onlyInside_cons h.1, ih h.2, not_and, Nat.pos_iff_ne_zero]

/-! ## Parts -/

theorem onlyInside_of_none (h : ∀ t ∈ ts, test t = false) : OnlyInside depth test ts := by
  intro xs t ys hts ht
  rw [h t (by simp [hts])] at ht
  exact absurd ht Bool.false_ne_true

/-- Behind `as`, which closes no more than is open, so much is open as `as` has left. -/
theorem onlyInside_append_iff (has : closed as ≤ depth + opened as) :
    OnlyInside depth test (as ++ bs) ↔
      OnlyInside depth test as ∧ OnlyInside (depth + opened as - closed as) test bs := by
  constructor
  · intro h
    constructor
    · intro xs t ys hts ht
      exact h xs t (ys ++ bs) (by rw [hts]; simp) ht
    · intro xs t ys hts ht
      have hlt := h (as ++ xs) t ys (by rw [hts]; simp) ht
      rw [opened_append, closed_append] at hlt
      omega
  · rintro ⟨hfirst, hrest⟩ xs t ys hts ht
    rcases List.append_eq_append_iff.1 hts with ⟨zs, rfl, hbs⟩ | ⟨zs, hxs, hzs⟩
    · have hlt := hrest zs t ys hbs ht
      rw [opened_append, closed_append]
      omega
    · cases zs with
      | nil =>
        rw [List.append_nil] at hxs
        have hlt := hrest [] t ys hzs.symm ht
        simp only [opened, closed, List.countP_nil] at hlt has
        rw [← hxs, opened, closed]
        omega
      | cons u zs =>
        obtain ⟨rfl, -⟩ := List.cons.inj hzs
        exact hfirst xs t zs hxs ht

theorem OnlyInside.of_append (h : OnlyInside depth test (as ++ bs)) (has : Balanced depth as) :
    OnlyInside depth test as ∧ OnlyInside 0 test bs := by
  have heq := has.closed_eq
  rw [onlyInside_append_iff (Nat.le_of_eq heq), heq, Nat.sub_self] at h
  exact h

/-- In balanced tokens no beginning closes a parenthesis that was open before them. -/
theorem Balanced.onlyInside (h : Balanced 0 ts) (depth : Nat) (test : Token → Bool) :
    OnlyInside (depth + 1) test ts := by
  intro xs t ys hts _
  have hle := h.closed_le xs ⟨t :: ys, hts.symm⟩
  omega

/-- Where a token stands does not depend on the places that tokens have. -/
theorem OnlyInside.of_unplaced (htest : ∀ t : Token, test t.unplaced = test t)
    (h : OnlyInside depth test as) (hsame : bs.map Token.unplaced = as.map Token.unplaced) :
    OnlyInside depth test bs := by
  intro xs t ys hts ht
  rw [hts, List.map_append, List.map_cons] at hsame
  obtain ⟨xs', rest, rfl, hxs, hrest⟩ := List.map_eq_append_iff.1 hsame.symm
  obtain ⟨t', ys', rfl, ht', -⟩ := List.map_eq_cons_iff.1 hrest
  have hcount : ∀ d, xs.countP (·.isDelimiter d) = xs'.countP (·.isDelimiter d) := by
    intro d
    have hmap := congrArg (List.countP (·.isDelimiter d)) hxs
    rw [List.countP_map, List.countP_map] at hmap
    exact hmap.symm
  have hlt := h xs' t' ys' rfl (by rw [← htest, ht', htest, ht])
  rw [closed, opened, ← hcount, ← hcount] at hlt
  exact hlt

theorem OnlyInside.of_flatten {parts : List (List Token)} (h : OnlyInside 0 test parts.flatten)
    (hparts : ∀ p ∈ parts, Balanced 0 p) : ∀ p ∈ parts, OnlyInside 0 test p := by
  induction parts with
  | nil => exact fun p hp => absurd hp List.not_mem_nil
  | cons part parts ih =>
    obtain ⟨hpart, hmore⟩ := List.forall_mem_cons.1 hparts
    rw [List.flatten_cons] at h
    obtain ⟨hfirst, hrest⟩ := h.of_append hpart
    exact List.forall_mem_cons.2 ⟨hfirst, ih hrest hmore⟩

end Nesting

open Nesting

theorem Item.isPiece_iff {ts : List Token} :
    isPiece ts = true ↔ Balanced 0 ts ∧ OnlyInside 0 (·.isDelimiter .comma) ts := by
  rw [isPiece, Bool.and_eq_true_iff, ← balanced_eq_true_iff]
  exact and_congr_right fun h => whole_eq_true_iff h

/-! ## Types and clauses -/

variable {depth : Nat} {ts : List Token}

/-- A type ends outside parentheses, and so it is balanced and what follows it is. -/
theorem balanced_splitType (h : balanced depth ts = true) :
    balanced depth (splitType depth ts).1 = true ∧ balanced 0 (splitType depth ts).2 = true := by
  fun_induction splitType depth ts with
  | case1 => exact ⟨h, rfl⟩
  | case2 depth t rest hopens =>
    obtain ⟨-, rfl⟩ := hopens
    exact ⟨rfl, h⟩
  | case3 depth t rest hopens type constraints hsplit ih =>
    rw [balanced_cons_iff] at h
    rw [hsplit] at ih
    rw [balanced_cons_iff]
    exact ⟨⟨h.1, (ih h.2).1⟩, (ih h.2).2⟩

/-- No word that begins a constraint is in a type, outside parentheses. -/
theorem onlyInside_splitType (h : balanced depth ts = true) :
    OnlyInside depth Token.opensColumnConstraint (splitType depth ts).1 := by
  fun_induction splitType depth ts with
  | case1 => exact fun xs t ys hts => absurd hts (by simp)
  | case2 => exact fun xs t ys hts => absurd hts (by simp)
  | case3 depth t rest hopens type constraints hsplit ih =>
    rw [balanced_cons_iff] at h
    rw [hsplit] at ih
    rw [onlyInside_cons h.1]
    refine ⟨fun ht => ?_, ih h.2⟩
    exact Nat.pos_of_ne_zero fun h0 => hopens ⟨ht, h0⟩

/-- What follows a type is nothing or begins a constraint. -/
theorem opens_of_head?_splitType : ∀ t ∈ (splitType depth ts).2.head?,
    t.opensColumnConstraint = true := by
  fun_induction splitType depth ts with
  | case1 => simp
  | case2 depth t rest hopens => simpa using hopens.1
  | case3 depth t rest hopens type constraints hsplit ih =>
    rw [hsplit] at ih
    exact ih

/-- A word that begins a constraint is no parenthesis. -/
theorem Nesting.after_of_opensColumnConstraint {t : Token} (h : t.opensColumnConstraint = true)
    (depth : Nat) : after depth t = depth := by
  obtain ⟨k, hk, -⟩ := (Option.any_eq_true _ _).1 h
  exact after_of_isWord (Token.isWord_of_keyword? hk) depth

namespace Clause

theorem opensColumnConstraint_of_opens {soFar : List Token} {t : Token} {next : Option Token}
    (h : opens soFar t next = true) : t.opensColumnConstraint = true := by
  unfold opens at h
  split at h
  · rename_i before more k hk
    simp only [Bool.and_eq_true_iff] at h
    rw [Token.opensColumnConstraint, hk]
    exact h.1.1
  · exact absurd h Bool.false_ne_true

/-- What a cut gives: every clause behind the first begins with the word it was cut at, and each
    ends outside parentheses. -/
theorem of_cut (soFar : List Token) (h : balanced depth ts = true) :
    balanced depth (cut depth soFar ts).1 = true ∧
      ∀ clause ∈ (cut depth soFar ts).2,
        balanced 0 clause = true ∧ clause.head?.any Token.opensColumnConstraint = true := by
  fun_induction cut depth soFar ts with
  | case1 => exact ⟨h, by simp⟩
  | case2 depth soFar t rest hopens clause more hcut ih =>
    obtain ⟨hopens, rfl⟩ := hopens
    have ht := opensColumnConstraint_of_opens hopens
    rw [balanced_cons_iff, after_of_opensColumnConstraint ht] at h
    rw [hcut] at ih
    have hclause : balanced 0 (t :: clause) = true := by
      rw [balanced_cons_iff, after_of_opensColumnConstraint ht]
      exact ⟨h.1, (ih h.2).1⟩
    exact ⟨rfl, List.forall_mem_cons.2 ⟨⟨hclause, ht⟩, (ih h.2).2⟩⟩
  | case3 depth soFar t rest hopens clause more hcut ih =>
    rw [balanced_cons_iff] at h
    rw [hcut] at ih
    rw [balanced_cons_iff]
    exact ⟨⟨h.1, (ih h.2).1⟩, (ih h.2).2⟩

/-- The clauses of constraints that begin with a word for it all begin with one, and each ends
    outside parentheses. -/
theorem of_mem_split (h : balanced 0 ts = true)
    (hhead : ∀ t ∈ ts.head?, t.opensColumnConstraint = true) {clause : List Token}
    (hclause : clause ∈ split ts) :
    balanced 0 clause = true ∧ clause.head?.any Token.opensColumnConstraint = true := by
  cases ts with
  | nil => exact absurd hclause (by simp [split])
  | cons t ts =>
    obtain ⟨hfirst, hmore⟩ := of_cut [] h
    rcases List.mem_cons.1 hclause with rfl | hclause
    · exact ⟨hfirst, hhead t rfl⟩
    · exact hmore clause hclause

end Clause
end TableRebuild
