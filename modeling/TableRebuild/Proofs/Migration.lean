import TableRebuild.Migration
import TableRebuild.Proofs.Comparison.SameSchema
import TableRebuild.Proofs.Definition.Outline

/-!
# The migration of two statements

A migration has an outcome exactly when both statements can be read, and the outcome is the plan
between the two tables in SQL. So where there are statements to run, the tables differ.
-/

namespace TableRebuild

theorem migrationSql_eq_ok_iff {actualText targetText : String} {sql : List String} :
    migrationSql actualText targetText = .ok sql ↔
      ∃ actual target, Table.parse actualText = .ok actual ∧ Table.parse targetText = .ok target ∧
        (Plan.between {} actual target).sql = sql := by
  simp only [migrationSql, Except.bind_eq_ok_iff, Except.mapError_eq_ok_iff, pure, Except.pure,
    Except.ok.injEq]
  constructor
  · rintro ⟨actual, hactual, target, htarget, hsql⟩
    exact ⟨actual, target, hactual, htarget, hsql⟩
  · rintro ⟨actual, target, hactual, htarget, hsql⟩
    exact ⟨actual, hactual, target, htarget, hsql⟩

/-- Tables between which there is something to do are divergent. -/
theorem exists_of_migrationSql {actualText targetText first : String} {rest : List String}
    (h : migrationSql actualText targetText = .ok (first :: rest)) :
    ∃ actual target d, Table.parse actualText = .ok actual ∧ Table.parse targetText = .ok target ∧
      Comparison.of actual target = .divergent d ∧
        (Plan.rebuild {} actual target d).sql = first :: rest := by
  obtain ⟨actual, target, hactual, htarget, hsql⟩ := migrationSql_eq_ok_iff.1 h
  cases hdiffer : Comparison.of actual target with
  | equivalent =>
    rw [Plan.between_eq_nil_iff.2 (Comparison.of_eq_equivalent_iff.1 hdiffer)] at hsql
    exact absurd hsql (by simp [Plan.sql])
  | divergent d =>
    rw [Plan.between_of_divergent hdiffer] at hsql
    exact ⟨actual, target, d, hactual, htarget, hdiffer, hsql⟩

end TableRebuild
