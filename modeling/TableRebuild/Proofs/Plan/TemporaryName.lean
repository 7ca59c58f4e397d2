import TableRebuild.Proofs.Database
import TableRebuild.Proofs.Migration
import TableRebuild.Proofs.Name

/-!
# The temporary name and the live table

The temporary name is made from the target's name. So it is never the target's name, and as long as
a table keeps its name it is not the live table's either. But a table may be renamed, and then the
two names of it have nothing to do with each other: a live table `__temp_t` that is to become `t`
has the very name that the plan is going to use.

`Plan.keepsApart_iff` says exactly when that is so, and that such a plan cannot be run at all. On
any database that has the live table its first statement fails; and if it did not, the plan would
copy the table into itself and drop it.
-/

namespace TableRebuild
namespace Plan

variable {V : Type} {o : RebuildOptions} {actual target : Table} {d : Delta}

/-- No table is created under the name of the live one, copied into itself, or created and then
    dropped. -/
structure KeepsApart (live : Name) (p : Plan) : Prop where
  create : ∀ name columns constraints options,
    Statement.createTable name columns constraints options ∈ p → (name == live) = false
  copy : ∀ into source columns,
    Statement.copyRows into source columns ∈ p → (into == source) = false
  drop : ∀ created columns constraints options dropped,
    Statement.createTable created columns constraints options ∈ p →
      Statement.dropTable dropped ∈ p → (created == dropped) = false

/-- A rebuild keeps apart what it should exactly if the temporary name is not the live one. -/
theorem keepsApart_rebuild_iff : (rebuild o actual target d).KeepsApart actual.name ↔
    (target.name.prepend o.tempPrefix == actual.name) = false := by
  constructor
  · intro h
    exact h.create _ _ _ _ List.mem_cons_self
  · intro hne
    refine ⟨?_, ?_, ?_⟩
    · intro name columns constraints options hmem
      rw [createTable_mem_rebuild hmem]
      exact hne
    · intro into source columns hmem
      obtain ⟨rfl, rfl, -⟩ := copyRows_mem_rebuild hmem
      exact hne
    · intro created columns constraints options dropped hcreate hdrop
      rw [createTable_mem_rebuild hcreate, dropTable_mem_rebuild hdrop]
      exact hne

/-- A plan that begins with a name that is taken fails at once. -/
theorem run_rebuild_of_taken {default : Column → V} {db : Database V}
    (h : (db (target.name.prepend o.tempPrefix).folded).isSome = true) :
    run default db (rebuild o actual target d) = none := by
  obtain ⟨t, ht⟩ := Option.isSome_iff_exists.1 h
  rw [rebuild, List.append_assoc, List.singleton_append, run, List.foldlM_cons]
  simp only [Statement.run, ht]
  rfl

/-- **When the temporary name is the live table's.** It is never the target's. It is the live one's
    exactly if that is the target's with the prefix in front, which cannot be unless the table is
    renamed. In that case, and in no other, the plan does not keep its tables apart, and then it
    fails on every database with the live table. -/
theorem keepsApart_iff (hdiffer : Comparison.of actual target = .divergent d)
    (hfront : o.tempPrefix ≠ "") :
    (∀ name columns constraints options,
      Statement.createTable name columns constraints options ∈ between o actual target →
        (name == target.name) = false) ∧
    ((between o actual target).KeepsApart actual.name ↔
      actual.name.folded ≠ Text.fold o.tempPrefix ++ target.name.folded) ∧
    ((actual.name == target.name) = true → (between o actual target).KeepsApart actual.name) ∧
    (¬(between o actual target).KeepsApart actual.name →
      ∀ (default : Column → V) (db : Database V), (db actual.name.folded).isSome = true →
        run default db (between o actual target) = none) := by
  have hself := Name.prepend_beq_self hfront target.name
  rw [between_of_divergent hdiffer, keepsApart_rebuild_iff]
  have hiff : (target.name.prepend o.tempPrefix == actual.name) = true ↔
      actual.name.folded = Text.fold o.tempPrefix ++ target.name.folded := by
    rw [Name.beq_eq_true_iff, Name.folded_prepend]
    exact eq_comm
  refine ⟨?_, ?_, ?_, ?_⟩
  · intro name columns constraints options hmem
    rw [createTable_mem_rebuild hmem]
    exact hself
  · rw [← Bool.not_eq_true, hiff]
  · intro hname
    rw [Bool.eq_false_iff]
    intro hlive
    rw [PartialEquivBEq.trans hlive hname] at hself
    exact absurd hself (by simp)
  · intro hlive default db hthere
    apply run_rebuild_of_taken
    rw [Bool.not_eq_false, Name.beq_eq_true_iff] at hlive
    rw [hlive]
    exact hthere

/-- A table that keeps its name, and a prefix of spaces. -/
theorem keepsApart_iff_of_same_name : ∃ actual target d,
    Table.parse "CREATE TABLE t (a)" = .ok actual ∧
    Table.parse "CREATE TABLE [T] (a, b)" = .ok target ∧
    Comparison.of actual target = .divergent d ∧ ("  " : String) ≠ "" ∧
    ((between { tempPrefix := "  " } actual target).KeepsApart actual.name ↔
      actual.name.folded ≠ Text.fold "  " ++ target.name.folded) := by
  have hsql : migrationSql "CREATE TABLE t (a)" "CREATE TABLE [T] (a, b)" = .ok [
      "CREATE TABLE \"__temp_T\" (\"a\", \"b\")",
      "INSERT INTO \"__temp_T\" (\"a\") SELECT \"a\" FROM \"t\"",
      "DROP TABLE \"t\"",
      "ALTER TABLE \"__temp_T\" RENAME TO \"T\""] := by decide +kernel
  obtain ⟨actual, target, d, hactual, htarget, hdiffer, -⟩ := exists_of_migrationSql hsql
  have hfront : ("  " : String) ≠ "" := by simp
  exact ⟨actual, target, d, hactual, htarget, hdiffer, hfront,
    (keepsApart_iff (V := Nat) (o := { tempPrefix := "  " }) hdiffer hfront).2.1⟩

/-- The live table `__temp_t`, to become `t`. -/
theorem not_keepsApart_of_temp_name : ∃ actual target d temp rest,
    Table.parse "CREATE TABLE __temp_t (a)" = .ok actual ∧
    Table.parse "CREATE TABLE t (a)" = .ok target ∧
    Comparison.of actual target = .divergent d ∧
    between {} actual target =
      .createTable temp target.columns target.constraints target.options :: rest ∧
    (temp == actual.name) = true ∧ .copyRows temp actual.name d.shared ∈ rest ∧
    .dropTable actual.name ∈ rest := by
  have hsql : migrationSql "CREATE TABLE __temp_t (a)" "CREATE TABLE t (a)" = .ok [
      "CREATE TABLE \"__temp_t\" (\"a\")",
      "INSERT INTO \"__temp_t\" (\"a\") SELECT \"a\" FROM \"__temp_t\"",
      "DROP TABLE \"__temp_t\"",
      "ALTER TABLE \"__temp_t\" RENAME TO \"t\""] := by decide +kernel
  have hnames : ((Table.parse "CREATE TABLE __temp_t (a)").map (·.name.spelling)).toOption =
        some "__temp_t" ∧
      ((Table.parse "CREATE TABLE t (a)").map (·.name.spelling)).toOption = some "t" := by
    decide +kernel
  obtain ⟨actual, target, d, hactual, htarget, hdiffer, hrebuild⟩ := exists_of_migrationSql hsql
  rw [hactual, htarget] at hnames
  have hlive : actual.name = ⟨"__temp_t"⟩ := congrArg Name.mk (Option.some.inj hnames.1)
  have hname : target.name = ⟨"t"⟩ := congrArg Name.mk (Option.some.inj hnames.2)
  have htaken : (target.name.prepend "__temp_" == actual.name) = true := by
    rw [hname, hlive]
    decide +kernel
  -- The second statement is there, because the plan has four.
  have hcopy : (true && !d.shared.isEmpty) = true := by
    by_contra hno
    have hlength := congrArg List.length hrebuild
    simp [sql, rebuild, Bool.eq_false_iff.2 hno] at hlength
  have hplan : between {} actual target = rebuild {} actual target d := between_of_divergent hdiffer
  refine ⟨actual, target, d, _, _, hactual, htarget, hdiffer, hplan, htaken, ?_, ?_⟩
  · rw [if_pos hcopy]
    exact List.mem_cons_self
  · rw [if_pos hcopy]
    exact List.mem_cons_of_mem _ List.mem_cons_self

end Plan
end TableRebuild
