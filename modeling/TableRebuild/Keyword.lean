import TableRebuild.Text.Fold

/-!
# Keywords

The words that a `CREATE TABLE` statement turns on. Every other word, type names such as `TEXT`
included, is an ordinary name: what a column's type may be is not this library's business.

A keyword is recognised in any case. It is still a word, and where a name is asked for it serves
as one; that is decided by the readers, not here.
-/

namespace TableRebuild

/-- A word with a role in the statement. -/
inductive Keyword where
  | create
  | temp
  | temporary
  | table
  | if_
  | not
  | exists_
  | constraint
  | primary
  | unique
  | check
  | foreign
  | default
  | null
  | collate
  | references
  | generated
  | as
  | without
  | rowid
  | strict
deriving DecidableEq, Repr

namespace Keyword

def all : List Keyword :=
  [create, temp, temporary, table, if_, not, exists_, constraint, primary, unique, check, foreign,
    default, null, collate, references, generated, as, without, rowid, strict]

def text : Keyword → String
  | create => "CREATE"
  | temp => "TEMP"
  | temporary => "TEMPORARY"
  | table => "TABLE"
  | if_ => "IF"
  | not => "NOT"
  | exists_ => "EXISTS"
  | constraint => "CONSTRAINT"
  | primary => "PRIMARY"
  | unique => "UNIQUE"
  | check => "CHECK"
  | foreign => "FOREIGN"
  | default => "DEFAULT"
  | null => "NULL"
  | collate => "COLLATE"
  | references => "REFERENCES"
  | generated => "GENERATED"
  | as => "AS"
  | without => "WITHOUT"
  | rowid => "ROWID"
  | strict => "STRICT"

/-- The keyword that a word spells, in whatever case. -/
def ofText? (word : String) : Option Keyword :=
  all.find? fun k => Text.sameFold k.text word

/-- Whether an item of the column list that begins with this word constrains the table, and is
    not a column of that name. -/
def opensTableConstraint : Keyword → Bool
  | primary | unique | check | foreign | constraint => true
  | _ => false

def opensColumnConstraint : Keyword → Bool
  | constraint | primary | not | null | unique | check | default | collate | references
  | generated | as => true
  | _ => false

theorem mem_all (k : Keyword) : k ∈ all := by
  cases k <;> decide

theorem eq_of_fold_text_eq {a b : Keyword} (h : Text.fold a.text = Text.fold b.text) : a = b := by
  have table : ∀ a ∈ all, ∀ b ∈ all, Text.fold a.text = Text.fold b.text → a = b := by
    decide +kernel
  exact table a (mem_all a) b (mem_all b) h

/-- A word is a keyword exactly when it is its capitals up to case. -/
theorem ofText?_eq_some_iff {word : String} {k : Keyword} :
    ofText? word = some k ↔ Text.fold word = Text.fold k.text := by
  constructor
  · intro h
    have := List.find?_some h
    simp only [Text.sameFold_eq_true_iff] at this
    exact this.symm
  · intro h
    cases hw : ofText? word with
    | none =>
      have := List.find?_eq_none.1 hw k (mem_all k)
      simp [h] at this
    | some k' =>
      have hk := List.find?_some hw
      simp only [Text.sameFold_eq_true_iff] at hk
      rw [eq_of_fold_text_eq (hk.trans h)]

end Keyword
end TableRebuild
