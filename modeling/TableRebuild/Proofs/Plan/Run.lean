import Mathlib.Data.List.Forall2
import TableRebuild.Proofs.Comparison.Delta
import TableRebuild.Proofs.Database
import TableRebuild.Proofs.Name

/-!
# Running a plan

A plan between two tables is run on a database that has the actual table and does not have the
temporary name or, if the table is renamed, the new name. Then no statement fails, and the database
has the target in place of the actual table and is otherwise what it was (`Plan.run_between`).

The run goes through four databases, and all of them differ from the first one at three names at
most: the temporary one, the actual one and the target's. What has to be kept apart is which of the
three may be the same. The temporary name is no other's, since it is free where the actual table is
there and longer than the target's. The other two are the same or not, and the rename is possible in
both cases, because the actual table has been dropped before.
-/

namespace TableRebuild

variable {V : Type} {default : Column → V} {o : RebuildOptions} {actual target : Table} {d : Delta}

/-! ## What is copied -/

/-- What becomes of a row: shared columns keep their values, the others get their defaults, and
    there is nothing else in it. -/
structure Row.IsCarried (default : Column → V) (actual target : Table) (before after : Row V) :
    Prop where
  kept : ∀ c ∈ target.columns, actual.hasColumn c.name = true →
    after c.name.folded = before c.name.folded
  filled : ∀ c ∈ target.columns, actual.hasColumn c.name = false →
    after c.name.folded = some (default c)
  nothing : ∀ key, key ∉ target.keys → after key = none

namespace StoredTable

/-- A table that is stored with the columns of a definition has the columns of the definition. -/
theorem column?_folded (t : Table) (rows : List (Row V)) (n : Name) :
    column? ⟨t.columns, rows⟩ n.folded = t.column? n :=
  (t.column?_eq_find? n).symm

theorem hasColumn_eq (t : Table) (rows : List (Row V)) (n : Name) :
    hasColumn ⟨t.columns, rows⟩ n = t.hasColumn n := by
  rw [hasColumn, column?_folded, Table.hasColumn_eq_isSome]

theorem column?_eq_none {t : Table} {rows : List (Row V)} {key : String} (h : key ∉ t.keys) :
    column? ⟨t.columns, rows⟩ key = none := by
  rw [column?, List.find?_eq_none]
  intro c hc heq
  exact h (List.mem_map.2 ⟨c, hc, eq_of_beq heq⟩)

theorem isCarried_fill (default : Column → V) (actual target : Table) (rows : List (Row V))
    (before : Row V) : before.IsCarried default actual target
      (fill default ⟨target.columns, rows⟩ (Delta.between actual target).shared before) := by
  have hfill : ∀ c ∈ target.columns,
      fill default ⟨target.columns, rows⟩ (Delta.between actual target).shared before
        c.name.folded =
      if actual.hasColumn c.name then before c.name.folded else some (default c) := by
    intro c hc
    have hfind : target.column? c.name = some c := Table.column?_eq_some_iff.2 ⟨hc, ReflBEq.rfl⟩
    -- A column is listed if one of its name is shared, and that is the column itself.
    have hlisted : ((Delta.between actual target).shared.any (·.folded == c.name.folded)) =
        actual.hasColumn c.name := by
      rw [Bool.eq_iff_iff, List.any_eq_true]
      constructor
      · rintro ⟨n, hn, heq⟩
        rw [← Table.hasColumn_congr heq]
        exact (Delta.hasColumn_of_mem_shared hn).2
      · intro hhas
        exact ⟨c.name, Delta.mem_shared_between.2 ⟨c, hc, hhas, rfl⟩, beq_self_eq_true _⟩
    rw [fill, column?_folded, hfind]
    simp only [hlisted]
  refine ⟨?_, ?_, ?_⟩
  · intro c hc hhas
    rw [hfill c hc, hhas]
    rfl
  · intro c hc hhas
    rw [hfill c hc, hhas]
    rfl
  · intro key hkey
    rw [fill, column?_eq_none hkey]

end StoredTable

/-! ## The run -/

section

variable {db : Database V} {old : StoredTable V}

variable (default target) in
/-- Up to the copy nothing is touched but the temporary name, which gets the target's columns and
    the rows that are carried over. -/
theorem Plan.exists_run_load (o : RebuildOptions) {temp : Name}
    (hold : old.columns = actual.columns) (hactual : db actual.name.folded = some old)
    (htemp : db temp.folded = none) (rest : Plan) :
    ∃ rows, run default db
        (.createTable temp target.columns target.constraints target.options ::
          ((if o.copyRows && !(Delta.between actual target).shared.isEmpty then
            [.copyRows temp actual.name (Delta.between actual target).shared] else []) ++ rest)) =
        run default (Function.update db temp.folded (some ⟨target.columns, rows⟩)) rest ∧
      (o.copyRows = true ∧ (Delta.between actual target).shared ≠ [] →
        List.Forall₂ (Row.IsCarried default actual target) old.rows rows) ∧
      (¬(o.copyRows = true ∧ (Delta.between actual target).shared ≠ []) → rows = []) := by
  rw [run_cons (run_createTable htemp _ _ _)]
  have hdiffer : actual.name.folded ≠ temp.folded := by
    intro heq
    rw [heq, htemp] at hactual
    exact absurd hactual (by simp)
  by_cases hcopy : o.copyRows = true ∧ (Delta.between actual target).shared ≠ []
  · have hcond : (o.copyRows && !(Delta.between actual target).shared.isEmpty) = true := by
      simp [hcopy.1, hcopy.2]
    rw [if_pos hcond, List.singleton_append]
    have hcolumns : ∀ n ∈ (Delta.between actual target).shared,
        StoredTable.hasColumn (V := V) ⟨target.columns, []⟩ n = true ∧ old.hasColumn n = true := by
      intro n hn
      have hold' : old = ⟨actual.columns, old.rows⟩ := by rw [← hold]
      rw [hold', StoredTable.hasColumn_eq, StoredTable.hasColumn_eq]
      exact Delta.hasColumn_of_mem_shared hn
    rw [run_cons (run_copyRows (Function.update_self _ _ _)
      (by rw [Function.update_of_ne hdiffer]; exact hactual) hcolumns), Function.update_idem]
    refine ⟨_, rfl, ?_, fun hno => absurd hcopy hno⟩
    intro _
    rw [List.nil_append, List.forall₂_map_right_iff, List.forall₂_same]
    intro before _
    exact StoredTable.isCarried_fill default actual target [] before
  · have hcond : ¬(o.copyRows && !(Delta.between actual target).shared.isEmpty) = true := by
      simpa using hcopy
    rw [if_neg hcond, List.nil_append]
    exact ⟨[], rfl, fun hyes => absurd hyes hcopy, fun _ => rfl⟩

/-- The second half of a plan, on a database that the temporary table is in: the actual table goes,
    and the temporary one takes the target's name. -/
theorem Plan.run_swap {temp : Name} {new : StoredTable V}
    (hactual : db actual.name.folded = some old)
    (hdiffer : actual.name.folded ≠ temp.folded) (hself : (temp == target.name) = false)
    (htarget : (actual.name == target.name) = false → db target.name.folded = none) :
    run default (Function.update db temp.folded (some new))
        [.dropTable actual.name, .renameTable temp target.name] =
      some (Function.update (Function.update (Function.update
        (Function.update db temp.folded (some new)) actual.name.folded none) temp.folded none)
        target.name.folded (some new)) := by
  have hthere : Function.update db temp.folded (some new) actual.name.folded = some old := by
    rw [Function.update_of_ne hdiffer]
    exact hactual
  have hsource : Function.update (Function.update db temp.folded (some new)) actual.name.folded none
      temp.folded = some new := by
    rw [Function.update_of_ne hdiffer.symm, Function.update_self]
  have hfree : Function.update (Function.update db temp.folded (some new)) actual.name.folded none
      target.name.folded = none := by
    by_cases hname : target.name.folded = actual.name.folded
    · rw [hname, Function.update_self]
    · have hself' : target.name.folded ≠ temp.folded := by
        intro heq
        rw [Name.beq_eq_true_iff.2 heq.symm] at hself
        exact absurd hself (by simp)
      have hne : (actual.name == target.name) = false := by
        rw [Bool.eq_false_iff]
        intro heq
        exact hname (Name.beq_eq_true_iff.1 heq).symm
      rw [Function.update_of_ne hname, Function.update_of_ne hself', htarget hne]
  rw [run_cons (run_dropTable hthere), run_cons (run_renameTable hsource hfree), run_nil]

/-- What the first database has under a name other than the target's, the last one has too, but for
    the actual table. -/
theorem Plan.swap_of_ne {temp live final key : String} {new : StoredTable V} (hdiffer : live ≠ temp)
    (htemp : db temp = none) (hkey : key ≠ final) :
    Function.update (Function.update (Function.update (Function.update db temp (some new)) live
      none) temp none) final (some new) key = if key = live then none else db key := by
  rw [Function.update_of_ne hkey]
  by_cases htempKey : key = temp
  · rw [htempKey, Function.update_self, if_neg hdiffer.symm, htemp]
  · rw [Function.update_of_ne htempKey]
    by_cases hlive : key = live
    · rw [hlive, Function.update_self, if_pos rfl]
    · rw [Function.update_of_ne hlive, Function.update_of_ne htempKey, if_neg hlive]

variable (default) in
/-- **Running a plan performs the migration.** No statement fails. The target's name then has the
    target's columns in the target's order. If rows are copied and there is a column in common,
    there is a row for each row of before, and otherwise there is none. The temporary name and the
    actual table's are gone, and no other table has changed. What is copied is a column of both
    tables, and is copied once. -/
theorem Plan.run_between (hdiffer : Comparison.of actual target = .divergent d)
    (hfront : o.tempPrefix ≠ "") (hactual : db actual.name.folded = some old)
    (hold : old.columns = actual.columns)
    (htemp : db (target.name.prepend o.tempPrefix).folded = none)
    (htarget : (actual.name == target.name) = false → db target.name.folded = none) :
    ∃ after new, run default db (between o actual target) = some after ∧
      after target.name.folded = some new ∧ new.columns = target.columns ∧
      (o.copyRows = true → (∃ c ∈ target.columns, actual.hasColumn c.name = true) →
        List.Forall₂ (Row.IsCarried default actual target) old.rows new.rows) ∧
      (o.copyRows = false ∨ (∀ c ∈ target.columns, actual.hasColumn c.name = false) →
        new.rows = []) ∧
      after (target.name.prepend o.tempPrefix).folded = none ∧
      (∀ key, key ≠ target.name.folded →
        after key = if key = actual.name.folded then none else db key) ∧
      ∀ into source columns, Statement.copyRows into source columns ∈ between o actual target →
        (columns.map Name.folded).Nodup ∧
          ∀ n ∈ columns, target.hasColumn n = true ∧ actual.hasColumn n = true := by
  obtain ⟨-, rfl⟩ := Comparison.of_eq_divergent_iff.1 hdiffer
  have hself := Name.prepend_beq_self hfront target.name
  set temp := target.name.prepend o.tempPrefix with htempName
  have hne : actual.name.folded ≠ temp.folded := by
    intro heq
    rw [heq, htemp] at hactual
    exact absurd hactual (by simp)
  have hne' : temp.folded ≠ target.name.folded := by
    intro heq
    rw [Name.beq_eq_true_iff.2 heq] at hself
    exact absurd hself (by simp)
  obtain ⟨rows, hload, hcarried, hnone⟩ := exists_run_load default target o hold hactual htemp
    [.dropTable actual.name, .renameTable temp target.name]
  have hplan : between o actual target = rebuild o actual target (Delta.between actual target) :=
    between_of_divergent hdiffer
  have hrun := hload.trans (run_swap hactual hne hself htarget)
  change run default db (rebuild o actual target (Delta.between actual target)) = _ at hrun
  rw [← hplan] at hrun
  refine ⟨_, ⟨target.columns, rows⟩, hrun, Function.update_self _ _ _, rfl, ?_, ?_, ?_, ?_, ?_⟩
  · intro hcopy hcommon
    exact hcarried ⟨hcopy, Delta.shared_between_ne_nil_iff.2 hcommon⟩
  · intro hno
    apply hnone
    rintro ⟨hcopy, hcommon⟩
    obtain ⟨c, hc, hhas⟩ := Delta.shared_between_ne_nil_iff.1 hcommon
    rcases hno with hno | hno
    · exact absurd hcopy (by simp [hno])
    · exact absurd hhas (by simp [hno c hc])
  · rw [Function.update_of_ne hne', Function.update_self]
  · intro key hkey
    exact swap_of_ne hne htemp hkey
  · intro into source columns hmem
    rw [hplan] at hmem
    obtain ⟨-, -, rfl⟩ := copyRows_mem_rebuild hmem
    exact ⟨Delta.nodup_shared_between, fun n hn => Delta.hasColumn_of_mem_shared hn⟩

/-- A table `Todo` with one row becomes `tasks`: `ID` is kept and spelled in another way, `done`
    goes and `title` comes. -/
theorem Plan.run_between_tasks :
    ∃ (actual target : Table) (d : Delta) (db : Database Nat) (old : StoredTable Nat),
      Comparison.of actual target = .divergent d ∧ ("__temp_" : String) ≠ "" ∧
      db actual.name.folded = some old ∧ old.columns = actual.columns ∧
      db (target.name.prepend "__temp_").folded = none ∧
      ((actual.name == target.name) = false → db target.name.folded = none) ∧
      old.rows.length = 1 ∧
      ∃ after new, run (fun _ => 0) db (between {} actual target) = some after ∧
        after target.name.folded = some new ∧ new.columns = target.columns ∧
        List.Forall₂ (Row.IsCarried (fun _ => 0) actual target) old.rows new.rows ∧
        after actual.name.folded = none := by
  let actual : Table := {
    name := ⟨"Todo"⟩
    columns := [⟨⟨"ID"⟩, .empty, []⟩, ⟨⟨"done"⟩, .empty, []⟩]
    distinct := by decide +kernel }
  let target : Table := {
    name := ⟨"tasks"⟩
    columns := [⟨⟨"title"⟩, .empty, []⟩, ⟨⟨"id"⟩, .empty, []⟩]
    distinct := by decide +kernel }
  let old : StoredTable Nat := ⟨actual.columns, [fun key => if key = "id" then some 7 else some 1]⟩
  let db : Database Nat := fun key => if key = "todo" then some old else none
  have hname : (actual.name == target.name) = false := by decide +kernel
  have hdiffer : Comparison.of actual target = .divergent (Delta.between actual target) := by
    refine Comparison.of_eq_divergent_iff.2 ⟨fun hsame => ?_, rfl⟩
    exact absurd hsame.name (by simp [hname])
  have hactual : db actual.name.folded = some old := if_pos (by decide +kernel)
  have htemp : db (target.name.prepend "__temp_").folded = none := if_neg (by decide +kernel)
  have htarget : (actual.name == target.name) = false → db target.name.folded = none :=
    fun _ => if_neg (by decide +kernel)
  obtain ⟨after, new, hrun, hnew, hcolumns, hrows, -, -, hothers, -⟩ :=
    run_between (fun _ => 0) (o := {}) hdiffer (by simp) hactual rfl htemp htarget
  refine ⟨actual, target, _, db, old, hdiffer, by simp, hactual, rfl, htemp, htarget, rfl, after,
    new, hrun, hnew, hcolumns, hrows rfl ?_, ?_⟩
  · exact ⟨⟨⟨"id"⟩, .empty, []⟩, by simp [target], by decide +kernel⟩
  · rw [hothers _ (by decide +kernel), if_pos rfl]

end

end TableRebuild
