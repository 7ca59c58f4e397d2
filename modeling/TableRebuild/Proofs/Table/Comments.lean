import TableRebuild.Proofs.Comparison.SameParts
import TableRebuild.Proofs.Token.Comment

/-!
# Comments in a statement

What a text defines is a matter of its tokens, so two texts that say the same define equal tables,
part by part, or are refused for the same reason, and compare alike with every table
(`sameReading_iff`). A comment between two tokens should therefore make no difference to anything.

It makes none if the comment is read as one. Behind an operator, and behind a number that awaits a
sign, it may not be; `sameReading_comment_iff` says that these are the only places.
-/

namespace TableRebuild

/-- Whoever reads the texts, or compares what they define with something, cannot tell the one from
    the other. -/
structure SameReading (s s' : String) : Prop where
  wording : wording s = wording s'
  parse : Agree Table.SameParts (Table.parse s) (Table.parse s')
  compare : ∀ t t', Table.parse s = .ok t → Table.parse s' = .ok t' →
    migrationSql s s' = .ok [] ∧ migrationSql s' s = .ok [] ∧
      ∀ u, Same (Comparison.of t u) (Comparison.of t' u) ∧
        Same (Comparison.of u t) (Comparison.of u t')

variable {s s' : String}

theorem Token.allAlike_of_unplaced {ss ts : List Token}
    (h : ss.map Token.unplaced = ts.map Token.unplaced) : AllAlike ss ts := by
  rw [← List.forall₂_eq_eq_eq, List.forall₂_map_left_iff, List.forall₂_map_right_iff] at h
  refine h.imp ?_
  intro a b hab
  constructor
  · rw [← keyword?_unplaced a, hab, keyword?_unplaced]
  · rw [← key_unplaced a, hab, key_unplaced]

/-- Texts that say the same define tables with equal parts, or have the same fault. -/
theorem Table.agree_parse_of_wording (h : wording s = wording s') :
    Agree SameParts (parse s) (parse s') := by
  unfold wording at h
  cases hs : tokenize s with
  | ok ss =>
    cases hs' : tokenize s' with
    | ok ts =>
      rw [hs, hs'] at h
      exact agree_parse hs hs' (Token.allAlike_of_unplaced (Except.ok.inj h))
    | error e => exact absurd h (by simp [hs, hs'])
  | error e =>
    cases hs' : tokenize s' with
    | ok ts => exact absurd h (by simp [hs, hs'])
    | error e' =>
      rw [hs, hs'] at h
      unfold parse Outline.ofText
      rw [hs, hs']
      exact .error (congrArg Fault.lexical (Except.error.inj h))

/-- **Texts that say the same cannot be told apart**, by nothing that is made of them. -/
theorem sameReading_iff : SameReading s s' ↔ wording s = wording s' := by
  constructor
  · exact fun h => h.wording
  · intro h
    have hagree := Table.agree_parse_of_wording h
    refine ⟨h, hagree, ?_⟩
    intro t t' ht ht'
    rw [ht, ht'] at hagree
    cases hagree with
    | ok hparts =>
      have hsame := hparts.sameSchema
      refine ⟨Table.migrationSql_of_sameSchema ht ht' hsame,
        Table.migrationSql_of_sameSchema ht' ht hsame.symm, ?_⟩
      intro u
      exact ⟨Comparison.same_of hparts (.refl u), Comparison.same_of (.refl u) hparts⟩

/-- Between texts that cannot be told apart there is nothing to migrate. -/
theorem SameReading.migrationSql_eq_nil {sql : List String} (h : SameReading s s')
    (hsql : migrationSql s s' = .ok sql) : sql = [] := by
  obtain ⟨t, t', ht, ht', -⟩ := migrationSql_eq_ok_iff.1 hsql
  exact Except.ok.inj (hsql.symm.trans (h.compare t t' ht ht').1)

/-- **Where comments are transparent.** Behind a token, without a space, a comment may be put for a
    space if the token is no operator and, where the comment goes to the end of its line, no number
    that awaits a sign. Behind these it may not, whatever text they stand at the end of. -/
theorem sameReading_comment_iff {a : String} {t : Token} (h : EndsWith a t) :
    ((∀ body b, ¬['*', '/'] <:+: body.toList →
        SameReading (a ++ blockComment body ++ b) (a ++ " " ++ b)) ↔ t.isOperator = false) ∧
      ((∀ body b, '\n' ∉ body.toList →
        SameReading (a ++ lineComment body ++ b) (a ++ " " ++ b)) ↔
          t.isOperator = false ∧ t.awaitsSign = false) := by
  simp only [sameReading_iff]
  exact ⟨h.wording_block_iff, h.wording_line_iff⟩

/-- Behind `1e` a comment between marks is a gap, and one to the end of the line is not: its first
    mark is the sign of the number. -/
theorem sameReading_comment_iff_of_exponent : ∃ t,
    EndsWith "CREATE TABLE t (a DEFAULT 1e" t ∧
      (∀ body b, ¬['*', '/'] <:+: body.toList →
        SameReading ("CREATE TABLE t (a DEFAULT 1e" ++ blockComment body ++ b)
          ("CREATE TABLE t (a DEFAULT 1e" ++ " " ++ b)) ∧
      ¬∀ body b, '\n' ∉ body.toList →
        SameReading ("CREATE TABLE t (a DEFAULT 1e" ++ lineComment body ++ b)
          ("CREATE TABLE t (a DEFAULT 1e" ++ " " ++ b) := by
  have hfinal : (finalToken? "CREATE TABLE t (a DEFAULT 1e").any
      (fun t => !t.isOperator && t.awaitsSign) = true := by decide +kernel
  obtain ⟨t, ht, hkind⟩ := EndsWith.exists_of_finalToken? hfinal
  obtain ⟨hoperator, hawaits⟩ := Bool.and_eq_true_iff.1 hkind
  obtain ⟨hblock, hline⟩ := sameReading_comment_iff ht
  refine ⟨t, ht, hblock.2 (by simpa using hoperator), ?_⟩
  intro hall
  rw [(hline.1 hall).2] at hawaits
  exact absurd hawaits Bool.false_ne_true

/-- Comments are not transparent everywhere: behind the operator `>` the marks of a comment and its
    text are tokens of the check, and so the two spellings of it differ. -/
theorem not_forall_sameReading_comment : ¬∀ (a : String) (t : Token), EndsWith a t →
    (∀ body b, ¬['*', '/'] <:+: body.toList →
      SameReading (a ++ blockComment body ++ b) (a ++ " " ++ b)) ∧
    ∀ body b, '\n' ∉ body.toList →
      SameReading (a ++ lineComment body ++ b) (a ++ " " ++ b) := by
  intro hall
  have hfinal : (finalToken? "CREATE TABLE t (a CHECK (a>").any Token.isOperator = true := by
    decide +kernel
  obtain ⟨t, ht, -⟩ := EndsWith.exists_of_finalToken? hfinal
  have hsame := (hall _ t ht).1 "c" "0))" (by decide)
  have hsql : migrationSql "CREATE TABLE t (a CHECK (a>/*c*/0))"
      "CREATE TABLE t (a CHECK (a> 0))" = .ok [
        "CREATE TABLE \"__temp_t\" (\"a\" CHECK (a> 0))",
        "INSERT INTO \"__temp_t\" (\"a\") SELECT \"a\" FROM \"t\"",
        "DROP TABLE \"t\"",
        "ALTER TABLE \"__temp_t\" RENAME TO \"t\""] := by decide +kernel
  exact absurd (hsame.migrationSql_eq_nil hsql) (by simp)

end TableRebuild
