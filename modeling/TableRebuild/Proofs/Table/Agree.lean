import TableRebuild.Proofs.Definition.Agree
import TableRebuild.Proofs.Migration
import TableRebuild.Proofs.Table.Printable

/-!
# One table in two spellings

Two statements may differ in white space, comments, the case of letters and the quotes around names,
and define one table. `Table.agree_parse_of_similar` says when they do: their tokens are similar,
one by one. Nothing else about the two texts is compared, and the equality that comes out is the one
that decides whether there is anything to migrate.

One step in this is not as it looks. `NULL` behind `SET` does not begin a clause and behind `"SET"`
it does, because the cutting of clauses goes by words as they are written. So the clauses of a
column may differ in number between two spellings of it. What saves the equality is that columns are
compared by the tokens of all their clauses together, and cutting loses none of these
(`Column.agree_ofItem`).
-/

namespace TableRebuild

/-- Equal in the sense of `==`. -/
abbrev Same {α : Type} [BEq α] (a b : α) : Prop := (a == b) = true

/-! ## Columns -/

theorem Name.same_ofToken {a b : Token} (h : a.Alike b) : Same (Name.ofToken a) (Name.ofToken b) :=
  Name.beq_eq_true_iff.2 h.fold_spelling

theorem Fragment.same_ofTokens {as bs : List Token} (h : AllAlike as bs) (source source' : String) :
    Same (Fragment.ofTokens as source) (Fragment.ofTokens bs source') :=
  Token.beq_of_alike h

/-- **Alike items are equal columns**, whatever their clauses are. -/
theorem Column.agree_ofItem {source source' : String} {i j : Item} (h : i.Alike j) :
    Agree Same (ofItem source i) (ofItem source' j) := by
  have hword := h.first.isWord
  cases hi : i.first.isWord with
  | false =>
    rw [ofItem, ofItem, ← hword, hi]
    exact .error rfl
  | true =>
    obtain ⟨c, hc⟩ : ∃ c, ofItem source i = .ok c := ⟨_, ofItem_eq_ok_iff.2 ⟨hi, rfl⟩⟩
    obtain ⟨d, hd⟩ : ∃ d, ofItem source' j = .ok d :=
      ⟨_, ofItem_eq_ok_iff.2 ⟨hword ▸ hi, rfl⟩⟩
    obtain ⟨hctype, hcclauses, -⟩ := tokens_of_ofItem hc
    obtain ⟨hdtype, hdclauses, -⟩ := tokens_of_ofItem hd
    obtain ⟨htype, hconstraints⟩ := splitType_alike h.others 0
    have hname : Same c.name d.name := by
      rw [(ofItem_eq_ok_iff.1 hc).2, (ofItem_eq_ok_iff.1 hd).2]
      exact Name.same_ofToken h.first
    have hsameType : c.sameType d = true := by
      rw [sameType, Fragment.beq_def, hctype, hdtype]
      exact Token.beq_of_alike htype
    have hsameConstraints : c.sameConstraints d = true := by
      rw [sameConstraints, hcclauses, hdclauses]
      exact Token.beq_of_alike hconstraints
    rw [hc, hd]
    refine .ok ?_
    show (c == d) = true
    rw [beq_def, sameDefinition, hname, hsameType, hsameConstraints]
    rfl

/-! ## Tables -/

namespace Table

/-- The tables have equal parts, one by one and in the same order. -/
structure SameParts (t u : Table) : Prop where
  name : Same t.name u.name
  schema : Option.Rel Same t.schema u.schema
  temporary : t.temporary = u.temporary
  ifNotExists : t.ifNotExists = u.ifNotExists
  columns : List.Forall₂ Same t.columns u.columns
  constraints : List.Forall₂ Same t.constraints u.constraints
  options : Same t.options u.options

variable {t u : Table} {source source' : String}

/-- Tables with equal parts hold the same data in the same way. -/
theorem SameParts.sameSchema (h : t.SameParts u) : t.SameSchema u := by
  have hflip : ∀ {α : Type} [BEq α] [EquivBEq α] {xs ys : List α}, List.Forall₂ Same xs ys →
      ∀ x ∈ xs, ∃ y ∈ ys, (x == y) = true := by
    intro α _ _ xs ys hsame x hx
    exact exists_mem_of_forall₂ hsame.flip hx
  have hdirect : ∀ {α : Type} [BEq α] [EquivBEq α] {xs ys : List α}, List.Forall₂ Same xs ys →
      ∀ y ∈ ys, ∃ x ∈ xs, (y == x) = true := by
    intro α _ _ xs ys hsame y hy
    obtain ⟨x, hx, hxy⟩ := exists_mem_of_forall₂ hsame hy
    exact ⟨x, hx, PartialEquivBEq.symm hxy⟩
  exact ⟨h.name, hflip h.columns, hdirect h.columns, hflip h.constraints, hdirect h.constraints⟩

/-- Tables with equal parts have equal parts still when equal entries are put behind them. -/
theorem SameParts.of_extends {t' u' : Table} {es fs : List Entry} (h : t.SameParts u)
    (ht : t.Extends es t') (hu : u.Extends fs u')
    (hcolumns : List.Forall₂ Same (es.filterMap Entry.column?) (fs.filterMap Entry.column?))
    (hconstraints :
      List.Forall₂ Same (es.filterMap Entry.constraint?) (fs.filterMap Entry.constraint?)) :
    t'.SameParts u' where
  name := by
    rw [ht.name, hu.name]
    exact h.name
  schema := by
    rw [ht.schema, hu.schema]
    exact h.schema
  temporary := ht.temporary.trans (h.temporary.trans hu.temporary.symm)
  ifNotExists := ht.ifNotExists.trans (h.ifNotExists.trans hu.ifNotExists.symm)
  columns := by
    rw [ht.columns, hu.columns]
    exact List.rel_append h.columns hcolumns
  constraints := by
    rw [ht.constraints, hu.constraints]
    exact List.rel_append h.constraints hconstraints
  options := by
    rw [ht.options, hu.options]
    exact h.options

theorem agree_addItem (h : t.SameParts u) {i j : Item} (hij : i.Alike j) :
    Agree SameParts (addItem source t i) (addItem source' u j) := by
  unfold addItem
  rw [hij.isConstraint]
  split
  · refine .ok { h with constraints := ?_ }
    exact List.rel_append h.constraints (.cons (Fragment.same_ofTokens hij.tokens _ _) .nil)
  · refine (Column.agree_ofItem hij).bind ?_
    intro c d _ _ hcd
    have hname : Same c.name d.name := by
      have hboth : (c.name == d.name && c.sameDefinition d) = true := hcd
      exact (Bool.and_eq_true_iff.1 hboth).1
    have hhas : t.hasColumn c.name = u.hasColumn d.name := by
      rw [h.sameSchema.hasColumn, hasColumn_congr hname]
    cases hc : t.addColumn c with
    | error refused =>
      -- The name is taken in both tables.
      obtain ⟨htaken, rfl⟩ := addColumn_eq_error_iff.1 hc
      rw [addColumn_eq_error_iff.2 ⟨hhas ▸ htaken, rfl⟩]
      exact .error (congrArg Fault.duplicateColumn (Name.beq_eq_true_iff.1 hname))
    | ok t' =>
      cases hd : u.addColumn d with
      | error refused =>
        have htaken := (addColumn_eq_error_iff.1 hd).1
        rw [← hhas] at htaken
        rw [addColumn_eq_error_iff.2 ⟨htaken, rfl⟩] at hc
        exact absurd hc (by simp)
      | ok u' =>
        have ht := addColumn_eq_ok_iff.1 hc
        have hu := addColumn_eq_ok_iff.1 hd
        exact .ok (h.of_extends ht hu (.cons hcd .nil) .nil)

theorem sameParts_ofHeader (source source' : String) {header header' : Header}
    {options options' : List Token} (h : header.Alike header')
    (hoptions : AllAlike options options') :
    (ofHeader source header options).SameParts (ofHeader source' header' options') where
  name := Name.same_ofToken h.name
  schema := by
    have hschema := h.schema
    show Option.Rel Same (header.schema.map Name.ofToken) (header'.schema.map Name.ofToken)
    generalize header.schema = x at hschema ⊢
    generalize header'.schema = y at hschema ⊢
    cases hschema with
    | none => exact .none
    | some hab => exact .some (Name.same_ofToken hab)
  temporary := h.temporary
  ifNotExists := h.ifNotExists
  columns := .nil
  constraints := .nil
  options := Fragment.same_ofTokens hoptions _ _

/-- **Alike outlines define tables with equal parts**, or are refused for the same reason. -/
theorem agree_ofOutline {o o' : Outline} (h : o.Alike o') :
    Agree SameParts (ofOutline source o) (ofOutline source' o') := by
  unfold ofOutline
  refine (Body.agree_items h.inner).bind ?_
  intro items items' _ _ hitems
  have hstart := sameParts_ofHeader source source' h.header h.options
  refine (Agree.foldlM hitems hstart fun t u i j htu hij => agree_addItem htu hij).bind ?_
  intro t u _ _ htu
  rw [isEmpty_eq_of_forall₂ htu.columns]
  split
  · exact .error rfl
  · exact .ok htu

/-- Alike tokens make the same of two texts, whatever the texts are. -/
theorem agree_parse {s t : String} {ss ts : List Token} (hs : tokenize s = .ok ss)
    (ht : tokenize t = .ok ts) (h : AllAlike ss ts) : Agree SameParts (parse s) (parse t) := by
  unfold parse Outline.ofText
  rw [hs, ht]
  refine Agree.bind (Outline.agree_read h) ?_
  intro o o' _ _ ho
  exact agree_ofOutline ho

/-! ## Similar texts -/

/-- Between tables with equal parts there is nothing to migrate. -/
theorem migrationSql_of_sameSchema {s t : String} {a b : Table} (ha : parse s = .ok a)
    (hb : parse t = .ok b) (h : a.SameSchema b) : migrationSql s t = .ok [] := by
  refine migrationSql_eq_ok_iff.2 ⟨a, b, ha, hb, ?_⟩
  rw [Plan.between_eq_nil_iff.2 h]
  rfl

/-- **White space, comments, case and quotes make no difference.** Of two texts with similar tokens
    both define a table or neither does. If neither does, it is for the same reason. If both do, the
    tables are equal, part by part and in the same order, and there is nothing to do to get from
    either text to the other. -/
theorem agree_parse_of_similar {s t : String} {ss ts : List Token} (hs : tokenize s = .ok ss)
    (ht : tokenize t = .ok ts) (h : List.Forall₂ Token.Similar ss ts) :
    Agree (fun a b => (a == b) = true ∧ a.SameParts b ∧ migrationSql s t = .ok [] ∧
      migrationSql t s = .ok []) (parse s) (parse t) := by
  have halike := Token.alike_of_similar h (Token.spellsKeyword_of_tokenize hs)
    (Token.spellsKeyword_of_tokenize ht)
  refine (agree_parse hs ht halike).imp ?_
  intro a b ha hb hab
  exact ⟨beq_eq_true_iff.2 hab.sameSchema, hab, migrationSql_of_sameSchema ha hb hab.sameSchema,
    migrationSql_of_sameSchema hb ha hab.sameSchema.symm⟩

/-- Two spellings of which the first has one clause more than the second, because `"set"` does not
    keep the `NULL` behind it from beginning a clause and `SET` does. -/
theorem agree_parse_of_quoted_set : ∃ s t ss ts,
    s = "CREATE TABLE t (\"l\" int REFERENCES m ON DELETE \"set\" NULL, UNIQUE (L))" ∧
    t = "create table [T](L INT references \"M\"\non delete SET null,-- once\nunique([l]))" ∧
    tokenize s = .ok ss ∧ tokenize t = .ok ts ∧ List.Forall₂ Token.Similar ss ts ∧
    Agree (fun a b => (a == b) = true ∧ a.SameParts b ∧ migrationSql s t = .ok [] ∧
      migrationSql t s = .ok []) (parse s) (parse t) := by
  refine ⟨"CREATE TABLE t (\"l\" int REFERENCES m ON DELETE \"set\" NULL, UNIQUE (L))",
    "create table [T](L INT references \"M\"\non delete SET null,-- once\nunique([l]))",
    ?_⟩
  generalize hs :
    "CREATE TABLE t (\"l\" int REFERENCES m ON DELETE \"set\" NULL, UNIQUE (L))" = s
  generalize ht :
    "create table [T](L INT references \"M\"\non delete SET null,-- once\nunique([l]))" = t
  have hsimilar : (match tokenize s, tokenize t with
      | .ok ss, .ok ts => decide (List.Forall₂ Token.Similar ss ts)
      | _, _ => false) = true := by
    rw [← hs, ← ht]
    decide +kernel
  split at hsimilar
  · rename_i ss ts hss hts
    have h := of_decide_eq_true hsimilar
    exact ⟨ss, ts, rfl, rfl, hss, hts, h, agree_parse_of_similar hss hts h⟩
  · exact absurd hsimilar Bool.false_ne_true

end Table
end TableRebuild
