import TableRebuild.Column

/-!
# Tables

The definition of a table: its name, columns, table constraints and options, and what the
statement says besides (schema, `TEMP`, `IF NOT EXISTS`).

The columns of a table have different names. That is part of the type, so nobody who holds a table
has to ask; the one operation that could break it, `addColumn`, gives the column back instead.

The columns are kept twice: in order, and in an index that says at which place the column of a name
is. A column is looked up in the index, and whoever adds one has to add it to both. That the two
agree is part of the type as well, so a look-up never leads past the end of the list or to a column
of another name (`Table.column?_eq_find?`).

Two tables are equal when they hold the same data in the same way: equal names, the same columns
in any order, the same constraints in any order and number. Options and what the statement says
besides do not count.
-/

namespace TableRebuild

/-- Whether every element of each list is in the other, in the sense of `==`. -/
def sameElements {α : Type} [BEq α] (as bs : List α) : Bool :=
  as.all bs.contains && bs.all as.contains

/-- Where the columns of a list are: the name of each, with its place. -/
def Column.places (cs : List Column) : List (Name × Nat) :=
  cs.zipIdx.map fun (c, i) => (c.name, i)

/-- Looking a name up gives the first place at which there is a column of that name. -/
theorem Column.lookup_places (n : Name) (cs : List Column) :
    (places cs).lookup n = cs.findIdx? (·.name == n) := by
  have hfrom : ∀ k, ((cs.zipIdx k).map fun (c, i) => (c.name, i)).lookup n =
      (cs.findIdx? (·.name == n)).map (· + k) := by
    induction cs with
    | nil => exact fun _ => rfl
    | cons c cs ih =>
      intro k
      rw [List.zipIdx_cons, List.map_cons, List.lookup_cons, List.findIdx?_cons, BEq.comm]
      cases c.name == n with
      | true => simp
      | false => simp [ih (k + 1), Function.comp_def, Nat.add_assoc, Nat.add_comm 1 k]
  rw [places, hfrom 0]
  exact Option.map_id'

structure Table where
  name : Name
  schema : Option Name := none
  temporary : Bool := false
  ifNotExists : Bool := false
  columns : List Column := []
  /-- The name of each column, with its place among the columns. -/
  index : List (Name × Nat) := Column.places columns
  constraints : List Fragment := []
  options : Fragment := .empty
  distinct : columns.Pairwise fun a b => (a.name == b.name) = false := by exact List.Pairwise.nil
  inStep : index = Column.places columns := by rfl

namespace Table

def new (name : Name) : Table := { name }

def column? (t : Table) (n : Name) : Option Column :=
  (t.index.lookup n).bind fun i => t.columns[i]?

def hasColumn (t : Table) (n : Name) : Bool := (t.index.lookup n).isSome

/-- The index knows a name exactly where a column has it. -/
theorem index_lookup_eq_none_iff {t : Table} {n : Name} :
    t.index.lookup n = none ↔ ∀ c ∈ t.columns, (c.name == n) = false := by
  rw [t.inStep, Column.lookup_places, List.findIdx?_eq_none_iff]

/-- Looking a column up in the index is looking for it in the list. -/
theorem column?_eq_find? (t : Table) (n : Name) : t.column? n = t.columns.find? (·.name == n) := by
  rw [column?, t.inStep, Column.lookup_places, List.find?_eq_bind_findIdx?_getElem?]

theorem hasColumn_eq_isSome (t : Table) (n : Name) : t.hasColumn n = (t.column? n).isSome := by
  rw [hasColumn, t.inStep, Column.lookup_places, column?_eq_find?, List.isSome_find?,
    List.findIdx?_isSome]

/-- The table with one more column behind the others, or the column back if its name is taken. -/
def addColumn (t : Table) (c : Column) : Except Column Table :=
  match h : t.index.lookup c.name with
  | some _ => .error c
  | none =>
    .ok { t with
      columns := t.columns ++ [c]
      index := t.index ++ [(c.name, t.columns.length)]
      distinct := by
        refine List.pairwise_append.2 ⟨t.distinct, List.pairwise_singleton _ _, ?_⟩
        intro a ha b hb
        rw [List.mem_singleton.1 hb]
        exact index_lookup_eq_none_iff.1 h a ha
      inStep := by
        rw [t.inStep, Column.places, Column.places, List.zipIdx_append]
        simp }

def addConstraint (t : Table) (f : Fragment) : Table :=
  { t with constraints := t.constraints ++ [f] }

/-- The table constraints, each once. -/
def distinctConstraints (t : Table) : List Fragment := t.constraints.eraseDups

/-- Whether every column of `t` is in `u` with the same type and constraints. -/
def columnsWithin (t u : Table) : Bool :=
  t.columns.all fun c => (u.column? c.name).any c.sameDefinition

instance : BEq Table where
  beq a b :=
    a.name == b.name && a.columns.length == b.columns.length && a.columnsWithin b &&
      sameElements a.constraints b.constraints

theorem beq_def (a b : Table) : (a == b) =
    (a.name == b.name && a.columns.length == b.columns.length && a.columnsWithin b &&
      sameElements a.constraints b.constraints) := rfl

/-- A column is refused exactly when there is one of its name. -/
theorem addColumn_eq_error_iff {t : Table} {c d : Column} :
    t.addColumn c = .error d ↔ t.hasColumn c.name = true ∧ d = c := by
  unfold addColumn hasColumn
  split
  · rename_i h
    simp [h, eq_comm]
  · rename_i h
    simp [h]

/-- A column that is taken in stands behind the others, and nothing else changes. -/
theorem columns_of_addColumn {t u : Table} {c : Column} (h : t.addColumn c = .ok u) :
    u.columns = t.columns ++ [c] ∧ u.name = t.name ∧ u.schema = t.schema ∧
      u.temporary = t.temporary ∧ u.ifNotExists = t.ifNotExists ∧
      u.constraints = t.constraints ∧ u.options = t.options := by
  unfold addColumn at h
  split at h <;> simp at h
  subst h
  simp

end Table
end TableRebuild
