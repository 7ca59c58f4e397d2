import TableRebuild.Plan

/-!
# The statements of a plan

A plan is empty or is a rebuild, and a rebuild has at most one statement of each kind. So a
statement that is found in a rebuild is known but for its place: the temporary name is where it can
be, and what is copied is what the delta says that the tables share.
-/

namespace TableRebuild
namespace Plan

variable {o : RebuildOptions} {actual target : Table} {d : Delta}

theorem between_of_equivalent (h : Comparison.of actual target = .equivalent) :
    between o actual target = [] := by
  unfold between
  rw [h]

theorem between_of_divergent (h : Comparison.of actual target = .divergent d) :
    between o actual target = rebuild o actual target d := by
  unfold between
  rw [h]

theorem createTable_mem_rebuild {name : Name} {columns : List Column} {constraints : List Fragment}
    {options : Fragment}
    (h : Statement.createTable name columns constraints options ∈ rebuild o actual target d) :
    name = target.name.prepend o.tempPrefix := by
  simp only [rebuild, List.mem_append, List.mem_cons, List.not_mem_nil, or_false, reduceCtorEq,
    Statement.createTable.injEq] at h
  rcases h with h | h
  · exact h.1
  · split at h <;> exact absurd h (by simp)

theorem copyRows_mem_rebuild {into source : Name} {columns : List Name}
    (h : Statement.copyRows into source columns ∈ rebuild o actual target d) :
    into = target.name.prepend o.tempPrefix ∧ source = actual.name ∧ columns = d.shared := by
  simp only [rebuild, List.mem_append, List.mem_cons, List.not_mem_nil, or_false, reduceCtorEq,
    false_or] at h
  split at h
  · simpa using h
  · exact absurd h (by simp)

theorem dropTable_mem_rebuild {name : Name}
    (h : Statement.dropTable name ∈ rebuild o actual target d) : name = actual.name := by
  simp only [rebuild, List.mem_append, List.mem_cons, List.not_mem_nil, or_false, reduceCtorEq,
    false_or, Statement.dropTable.injEq] at h
  rcases h with h | h
  · split at h <;> exact absurd h (by simp)
  · exact h

end Plan
end TableRebuild
