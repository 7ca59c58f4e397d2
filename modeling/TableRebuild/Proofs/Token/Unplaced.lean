import TableRebuild.Column

/-!
# What is left of a token without its place

Two tokens that are the same but for their places are the same to everything that reads or compares
them: a place is only ever looked at to report an error or to cut a text out of its source.
`unplaced` is how this is said, for a token and for what is made of tokens.
`a.unplaced = b.unplaced` is the finest sameness that two statements can have: equal kinds, equal
texts as written, equal spellings of names, the same cuts between clauses. It is much finer than
`==`, which it implies.
-/

namespace TableRebuild

/-- The token without its place: its kind and its text. -/
def Token.unplaced (t : Token) : Token := { t with span := ⟨0, 0⟩ }

/-- The fragment without the places of its tokens: their kinds and texts, and its text. -/
def Fragment.unplaced (f : Fragment) : Fragment := { f with tokens := f.tokens.map Token.unplaced }

/-- The column without the places of its tokens: its name, its type and its clauses. -/
def Column.unplaced (c : Column) : Column :=
  { c with type := c.type.unplaced, clauses := c.clauses.map Fragment.unplaced }

/-! ## Tokens -/

namespace Token

@[simp] theorem kind_unplaced (t : Token) : t.unplaced.kind = t.kind := rfl

@[simp] theorem text_unplaced (t : Token) : t.unplaced.text = t.text := rfl

@[simp] theorem unplaced_unplaced (t : Token) : t.unplaced.unplaced = t.unplaced := rfl

@[simp] theorem isWord_unplaced (t : Token) : t.unplaced.isWord = t.isWord := rfl

@[simp] theorem keyword?_unplaced (t : Token) : t.unplaced.keyword? = t.keyword? := rfl

@[simp] theorem isKeyword_unplaced (t : Token) (k : Keyword) :
    t.unplaced.isKeyword k = t.isKeyword k := rfl

@[simp] theorem isDelimiter_unplaced (t : Token) (d : Delimiter) :
    t.unplaced.isDelimiter d = t.isDelimiter d := rfl

@[simp] theorem spelling_unplaced (t : Token) : t.unplaced.spelling = t.spelling := rfl

@[simp] theorem spells_unplaced (t : Token) (word : String) :
    t.unplaced.spells word = t.spells word := rfl

theorem key_unplaced (t : Token) : t.unplaced.key = t.key := rfl

theorem beq_of_unplaced_eq {as bs : List Token} (h : as.map unplaced = bs.map unplaced) :
    (as == bs) = true := by
  have hkey : ∀ ts : List Token, (ts.map unplaced).map key = ts.map key := by
    intro ts
    rw [List.map_map]
    exact List.map_congr_left fun t _ => key_unplaced t
  rw [list_beq_eq_true_iff, ← hkey as, ← hkey bs, h]

end Token

/-! ## Fragments and columns -/

namespace Fragment

@[simp] theorem text_unplaced (f : Fragment) : f.unplaced.text = f.text := rfl

@[simp] theorem tokens_unplaced (f : Fragment) :
    f.unplaced.tokens = f.tokens.map Token.unplaced := rfl

theorem ext_unplaced {f g : Fragment} (htokens : f.tokens.map Token.unplaced =
    g.tokens.map Token.unplaced) (htext : f.text = g.text) : f.unplaced = g.unplaced := by
  rw [unplaced, unplaced, htokens, htext]

theorem beq_of_unplaced_eq {f g : Fragment} (h : f.unplaced = g.unplaced) : (f == g) = true :=
  Token.beq_of_unplaced_eq (congrArg Fragment.tokens h)

end Fragment

namespace Column

@[simp] theorem name_unplaced (c : Column) : c.unplaced.name = c.name := rfl

@[simp] theorem type_unplaced (c : Column) : c.unplaced.type = c.type.unplaced := rfl

@[simp] theorem clauses_unplaced (c : Column) :
    c.unplaced.clauses = c.clauses.map Fragment.unplaced := rfl

theorem clauseTokens_unplaced (c : Column) :
    c.unplaced.clauseTokens = c.clauseTokens.map Token.unplaced := by
  simp [clauseTokens, List.flatMap_map, List.map_flatMap]

/-- Columns that are the same but for places are equal. -/
theorem beq_of_unplaced_eq {c d : Column} (h : c.unplaced = d.unplaced) : (c == d) = true := by
  have hname : c.name = d.name := by simpa using congrArg Column.name h
  have htype : (c.type == d.type) = true := by
    apply Fragment.beq_of_unplaced_eq
    simpa using congrArg Column.type h
  have hclauses : (c.clauseTokens == d.clauseTokens) = true := by
    apply Token.beq_of_unplaced_eq
    rw [← clauseTokens_unplaced, ← clauseTokens_unplaced, h]
  rw [beq_def, sameDefinition, sameType, sameConstraints, hname, htype, hclauses]
  simp

end Column
end TableRebuild
