import TableRebuild.Table.Parse
import TableRebuild.Proofs.Definition.ColumnList
import TableRebuild.Proofs.Indexed.Outline
import TableRebuild.Proofs.Table.Content
import TableRebuild.Proofs.Token.Marked

/-!
# Columns by position

The column list is cut into items, an item into name, type and constraints, and the constraints into
clauses. All of it is done by index: a loop goes over the tokens, remembers where the piece that it
is in began, and slices the piece out when it comes to its end. Its text is sliced out of the source
by the spans of its first and its last token. The first token of an item is looked at, and the last
token of a clause, though nothing here says that there is one.

What makes these accesses safe is found elsewhere. The column list is balanced, so a depth is never
taken below zero, and it stays so in items, types and clauses; an item that is empty is refused when
the list is cut; a clause is looked at only where the loop is behind its beginning; and pieces are
tokens that follow each other in the source, whose spans are places in it.
-/

namespace TableRebuild
namespace Indexed

open Nesting
open Text (byteLength)

/-! ## The reader -/

section

variable {ε : Type}

/-- A name out of its quotes: the text from behind its first character up to its last. -/
def unquote (raw : List Char) : Run ε (List Char) :=
  match raw.head?, raw.tail.getLast? with
  | some first, some last => do
    let inner ← textBetween raw first.utf8Size (← minus (byteLength raw) last.utf8Size)
    match (Quote.ofOpener? first).filter fun q => q.quotesName && last == q.closer with
    | some q => return q.unescape inner
    | none => return raw
  | _, _ => return raw

def nameOf (t : Token) : Run ε Name :=
  match t.kind with
  | .quotedName => do return ⟨String.ofList (← unquote t.text.toList)⟩
  | _ => return ⟨t.text⟩

/-- The fragment that tokens of the source are. Its text is sliced out, from the first token up to
    the last. -/
def fragment (source : String) (ts : List Token) : Run ε Fragment :=
  match Fragment.spanOf? ts with
  | some s => do
    let text ← textBetween source.toList s.start s.stop
    return ⟨ts, String.ofList text⟩
  | none => return ⟨ts, ""⟩

/-- A loop that cuts tokens: the depth, where the piece that it is in began, and the pieces before
    that. -/
structure Pieces where
  depth : Nat
  start : Nat
  done : List (List Token)

def itemStep (body : List Token) (s : Pieces) : Token × Nat → Run DefinitionError Pieces
  | (t, i) =>
    if t.isDelimiter .comma ∧ s.depth = 0 then
      if s.start = i then refuse (.emptyItem t.span)
      else do
        let item ← elements body s.start i
        return { s with start := i + 1, done := s.done ++ [item] }
    else do return { s with depth := ← nest s.depth t }

def lastItem (body : List Token) (close : Span) (s : Pieces) :
    Run DefinitionError (List (List Token)) :=
  if s.start = body.length then refuse (.emptyItem close)
  else do return s.done ++ [← elements body s.start body.length]

def splitItems (body : List Token) (close : Span) : Run DefinitionError (List (List Token)) :=
  if body.isEmpty then refuse (.noColumns close)
  else do
    let s ← body.zipIdx.foldlM (itemStep body) ⟨0, 0, []⟩
    lastItem body close s

/-- The index of the first constraint among the tokens behind a column's name. -/
def typeLength (tokens : List Token) : Nat × Nat → Run ε Nat :=
  loop (fun s => tokens.length - s.1) fun (i, depth) =>
    match tokens[i]? with
    | none => return .inr tokens.length
    | some t => do
      let depth ← nest depth t
      if depth = 0 ∧ t.opensColumnConstraint then return .inr i else return .inl (i + 1, depth)

/-- Whether a clause is `CONSTRAINT` and a name so far. -/
def isNameOnly (current : List Token) : Run ε Bool :=
  if current.length = 2 then do
    let first ← element current 0
    return first.isKeyword .constraint
  else return false

/-- Whether the word `k` begins a new clause behind the clause `current`. -/
def beginsClause (current : List Token) (k : Keyword) (next : Option Token) : Run ε Bool :=
  if !k.opensColumnConstraint then return false
  else do
    if ← isNameOnly current then return false
    else
      let before ← element current (← minus current.length 1)
      return !Clause.continues k before next

def clauseStep (tokens : List Token) (s : Pieces) : Token × Nat → Run ε Pieces
  | (t, i) =>
    match t.keyword? with
    | some k =>
      if s.depth = 0 ∧ s.start < i then do
        let current ← elements tokens s.start i
        if ← beginsClause current k tokens[i + 1]? then
          return { s with start := i, done := s.done ++ [current] }
        else return s
      else return s
    | none => do return { s with depth := ← nest s.depth t }

def lastClause (tokens : List Token) (s : Pieces) : Run ε (List (List Token)) :=
  if s.start < tokens.length then do
    return s.done ++ [← elements tokens s.start tokens.length]
  else return s.done

def splitClauses (tokens : List Token) : Run ε (List (List Token)) := do
  let s ← tokens.zipIdx.foldlM (clauseStep tokens) ⟨0, 0, []⟩
  lastClause tokens s

def column (source : String) (item : List Token) : Run DefinitionError Column := do
  let first ← element item 0
  if first.isWord then
    let others ← elements item 1 item.length
    let length ← typeLength others (0, 0)
    let type ← elements others 0 length
    let constraints ← elements others length others.length
    let clauses ← splitClauses constraints
    let name ← nameOf first
    let type ← fragment source type
    let clauses ← clauses.mapM (fragment source)
    return { name, type, clauses }
  else refuse (.unexpected .columnName first.text first.span)

def addItem (source : String) (t : Table) (item : List Token) : Run DefinitionError Table := do
  let first ← element item 0
  if first.keyword?.any (·.opensTableConstraint) then
    let constraint ← fragment source item
    return t.addConstraint constraint
  else
    let column ← column source item
    match t.addColumn column with
    | .ok u => return u
    | .error refused =>
      let first ← element item 0
      refuse (.duplicateColumn refused.name.spelling first.span)

end

/-! ## Names and fragments -/

section

variable {ε : Type}

theorem unquote_eq (raw : List Char) :
    (unquote raw : Run ε (List Char)) = .ok (Quote.unquote raw) := by
  cases raw with
  | nil => rfl
  | cons first rest =>
    cases hlast : rest.getLast? with
    | none =>
      obtain rfl := List.getLast?_eq_none_iff.1 hlast
      simp [unquote, Quote.unquote]
    | some last =>
      obtain ⟨inner, rfl⟩ := List.getLast?_eq_some_iff.1 hlast
      have hstop : (minus (byteLength (first :: (inner ++ [last]))) last.utf8Size : Run ε Nat) =
          .ok (byteLength ([first] ++ inner)) := by
        rw [minus_of_le (by simp; omega)]
        simp [← Nat.add_assoc]
      have hinner := @textBetween_append ε [first] inner [last]
      have hfirst : byteLength [first] = first.utf8Size := rfl
      rw [hfirst, List.append_assoc, List.singleton_append] at hinner
      simp only [unquote, List.head?_cons, List.tail_cons, hlast, hstop, hinner, ok_bind]
      rw [Quote.unquote, hlast, List.dropLast_concat]
      simp only [Option.some_beq_some]
      cases (Quote.ofOpener? first).filter fun q => q.quotesName && last == q.closer with
      | none => rfl
      | some q => rfl

theorem nameOf_eq (t : Token) : (nameOf t : Run ε Name) = .ok (.ofToken t) := by
  unfold nameOf Name.ofToken Token.spelling
  cases t.kind with
  | quotedName => simp [unquote_eq]
  | keyword k => rfl
  | bareName => rfl
  | delimiter d => rfl
  | verbatim => rfl

theorem textBetween_of_marks {s : Span} {text : String} {marked : List Char}
    (h : s.Marks text marked) :
    (textBetween text.toList s.start s.stop : Run ε (List Char)) = .ok marked := by
  obtain ⟨before, behind, htext, rfl⟩ := h
  rw [htext]
  exact textBetween_append before marked behind

/-- Tokens that follow each other begin and end at places in the text. -/
theorem fragment_eq {source : String} {ts sub : List Token} (hts : tokenize source = .ok ts)
    (hsub : sub <:+: ts) :
    (fragment source sub : Run ε Fragment) = .ok (.ofTokens sub source) := by
  unfold fragment
  cases hspan : Fragment.spanOf? sub with
  | none => simp [Fragment.ofTokens, hspan]
  | some s =>
    have hmarks := Lexeme.marks_of_spanOf? hts hsub hspan
    dsimp only
    rw [textBetween_of_marks hmarks, ok_bind, String.ofList_toList]
    rfl

end

/-! ## Items -/

/-- What is left of tokens behind an index that is not their end is an item. -/
theorem exists_item {front : List Token} {start : Nat} (h : start ≤ front.length)
    (hne : start ≠ front.length) : ∃ i : Item, front.drop start = i.tokens := by
  obtain ⟨t, more, hdrop⟩ := List.exists_cons_of_ne_nil
    (mt List.drop_eq_nil_iff.1 (Nat.not_le_of_lt (Nat.lt_of_le_of_ne h hne)))
  exact ⟨⟨t, more⟩, hdrop⟩

/-- The loop that cuts a column list, from any place on: the tokens `front` are behind it, and what
    it is to find are the items from the one that it is in. -/
theorem refines_items {body front rest : List Token} {s : Pieces} {close : Token}
    (hbody : body = front ++ rest) (hstart : s.start ≤ front.length)
    (hbal : balanced s.depth rest = true) :
    Refines (fun a b => a = s.done ++ b.map Item.tokens)
      ((rest.zipIdx front.length).foldlM (itemStep body) s >>= lastItem body close.span)
      ((Item.withEnders close (front.drop s.start ++ (Item.cut s.depth rest).1)
        (Item.cut s.depth rest).2).mapM Item.ofPiece) := by
  induction rest generalizing front s with
  | nil =>
    obtain rfl : body = front := by simpa using hbody
    simp only [List.zipIdx_nil, List.foldlM_nil, pure_eq_ok, ok_bind, Item.cut, Item.withEnders,
      List.append_nil, List.mapM_cons, List.mapM_nil, lastItem, elements_drop hstart]
    split_ifs with hempty
    · rw [hempty, List.drop_length]
      exact refines_refuse (DefinitionError.emptyItem close.span)
    · obtain ⟨i, hi⟩ := exists_item hstart hempty
      rw [Item.ofPiece_eq_ok_iff.2 hi, hi]
      exact .ok rfl
  | cons t rest ih =>
    have hbody' : body = (front ++ [t]) ++ rest := by rw [hbody]; simp
    have hlen : front.length + 1 = (front ++ [t]).length := by simp
    rw [balanced_cons_iff] at hbal
    rw [List.zipIdx_cons, List.foldlM_cons, Item.cut, itemStep]
    split_ifs with hcomma hempty
    · rw [hempty, List.drop_length]
      exact refines_refuse (DefinitionError.emptyItem t.span)
    · obtain ⟨i, hi⟩ := exists_item hstart hempty
      have hslice := @elements_append DefinitionError _ _ _ hstart (t :: rest)
      rw [← hbody] at hslice
      obtain ⟨hcomma, hdepth⟩ := hcomma
      rw [hdepth, after_comma hcomma] at hbal
      have hmore := @ih (front ++ [t]) ⟨s.depth, front.length + 1, s.done ++ [front.drop s.start]⟩
        hbody' hlen.le (by rw [hdepth]; exact hbal.2)
      rw [List.drop_eq_nil_of_le hlen.ge, List.nil_append, ← hlen, hdepth] at hmore
      have hpiece : Item.ofPiece (front.drop s.start, t) = .ok i := Item.ofPiece_eq_ok_iff.2 hi
      rw [hslice, List.append_nil, Item.withEnders, List.mapM_cons, hpiece, ok_bind]
      simp only [ok_bind, pure_eq_ok, hdepth]
      refine @Refines.map _ _ _ _ _ _ _ _ (i :: ·) hmore ?_
      rintro _ items rfl
      simp [hi]
    · have hmore := @ih (front ++ [t]) { s with depth := after s.depth t } hbody'
        (hlen ▸ Nat.le_succ_of_le hstart) hbal.2
      rw [← hlen, List.drop_append_of_le_length hstart, List.append_assoc] at hmore
      rw [nest_eq hbal.1]
      exact hmore

theorem refines_splitItems {b : Body} (hbal : balanced 0 b.inner = true) :
    Refines (fun a items => a = items.map Item.tokens) (splitItems b.inner b.closing.span)
      b.items := by
  unfold splitItems Body.items
  split_ifs
  · exact refines_refuse _
  · exact @refines_items b.inner [] b.inner ⟨0, 0, []⟩ b.closing rfl (Nat.le_refl 0) hbal

/-! ## Types and clauses -/

section

variable {ε : Type} {tokens front rest : List Token}

theorem typeLength_eq {depth : Nat} (htokens : tokens = front ++ rest)
    (hbal : balanced depth rest = true) : (typeLength tokens (front.length, depth) : Run ε Nat) =
      .ok (front.length + (splitType depth rest).1.length) := by
  induction rest generalizing front depth with
  | nil =>
    obtain rfl : tokens = front := by simpa using htokens
    exact loop_of_answer (by simp [splitType])
  | cons t rest ih =>
    have hget : tokens[front.length]? = some t := by simp [htokens]
    have hlen : tokens.length = front.length + 1 + rest.length := by
      rw [htokens, List.length_append, List.length_cons]
      omega
    rw [balanced_cons_iff] at hbal
    -- The depth is taken behind the token here, and before it by the reader; a keyword keeps it.
    have hopens : (after depth t = 0 ∧ t.opensColumnConstraint = true) ↔
        (t.opensColumnConstraint = true ∧ depth = 0) := by
      rw [and_comm]
      exact and_congr_right fun h => by rw [after_of_opensColumnConstraint h]
    rw [splitType]
    split_ifs with hcut
    · exact loop_of_answer (by simp [hget, nest_eq hbal.1, hopens.2 hcut])
    · have hnext : (typeLength tokens (front.length, depth) : Run ε Nat) =
          typeLength tokens ((front ++ [t]).length, after depth t) :=
        loop_of_next (by simp [hget, nest_eq hbal.1, hopens, hcut]) (by simp; omega)
      rw [hnext, ih (by rw [htokens]; simp) hbal.2]
      simp [Nat.add_assoc, Nat.add_comm 1]

theorem isNameOnly_eq (current : List Token) :
    (isNameOnly current : Run ε Bool) = .ok (Clause.isNameOnly current.reverse) := by
  unfold isNameOnly
  split_ifs with htwo
  · obtain ⟨c, d, rfl⟩ := List.length_eq_two.1 htwo
    rfl
  · unfold Clause.isNameOnly
    split
    · rename_i d c hrev
      exact absurd (by rw [← List.length_reverse, hrev]; rfl) htwo
    · rfl

/-- A clause is looked at only if it has begun, and then it has a last token. -/
theorem beginsClause_eq {current : List Token} {t : Token} {k : Keyword} (hne : current ≠ [])
    (hk : t.keyword? = some k) (next : Option Token) :
    (beginsClause current k next : Run ε Bool) = .ok (Clause.opens current.reverse t next) := by
  obtain rfl | ⟨init, before, rfl⟩ := List.eq_nil_or_concat' current
  · exact absurd rfl hne
  have hlast : (element (init ++ [before]) ((init ++ [before]).length - 1) : Run ε Token) =
      .ok before := element_of_getElem? (by simp)
  have hminus : (minus (init ++ [before]).length 1 : Run ε Nat) =
      .ok ((init ++ [before]).length - 1) := minus_of_le (by simp)
  have hopens : Clause.opens (init ++ [before]).reverse t next =
      (k.opensColumnConstraint && !Clause.isNameOnly (init ++ [before]).reverse &&
        !Clause.continues k before next) := by
    simp [Clause.opens, hk]
  rw [hopens, beginsClause, hminus, isNameOnly_eq]
  simp only [ok_bind, hlast]
  cases k.opensColumnConstraint with
  | false => rfl
  | true =>
    cases Clause.isNameOnly (init ++ [before]).reverse with
    | false => rfl
    | true => rfl

/-- One token of the constraints: a new clause begins, or the clause goes on. -/
theorem clauseStep_eq {s : Pieces} {t : Token} (htokens : tokens = front ++ t :: rest)
    (hstart : s.start ≤ front.length)
    (hclose : ¬(t.isDelimiter .rightParen = true ∧ s.depth = 0)) :
    (clauseStep tokens s (t, front.length) : Run ε Pieces) =
      if Clause.opens (front.drop s.start).reverse t rest.head? = true ∧ s.depth = 0 then
        .ok { s with start := front.length, done := s.done ++ [front.drop s.start] }
      else .ok { s with depth := after s.depth t } := by
  obtain ⟨depth, start, done⟩ := s
  have hslice := @elements_append ε _ _ _ hstart (t :: rest)
  have hbehind : tokens[front.length + 1]? = rest.head? := by
    rw [htokens, List.getElem?_append_right (Nat.le_add_right _ 1)]
    simp [List.head?_eq_getElem?]
  rw [← htokens] at hslice
  simp only [clauseStep, hbehind]
  cases hk : t.keyword? with
  | none =>
    have hopens : Clause.opens (front.drop start).reverse t rest.head? = false := by
      simp [Clause.opens, hk]
    simp [hopens, nest_eq hclose]
  | some k =>
    rw [after_of_isWord (Token.isWord_of_keyword? hk)]
    dsimp only
    by_cases hin : depth = 0 ∧ start < front.length
    · obtain ⟨rfl, hlt⟩ := hin
      have hne : front.drop start ≠ [] := mt List.drop_eq_nil_iff.1 (Nat.not_le_of_lt hlt)
      simp only [hlt, and_self, and_true, if_true, hslice, ok_bind, beginsClause_eq hne hk]
      split_ifs <;> rfl
    · -- The first clause has only begun behind its first token.
      have hopens : ¬(Clause.opens (front.drop start).reverse t rest.head? = true ∧
          depth = 0) := by
        rintro ⟨hopens, hdepth⟩
        rw [List.drop_eq_nil_of_le (Nat.le_of_not_lt fun h => hin ⟨hdepth, h⟩)] at hopens
        exact absurd hopens (by simp [Clause.opens])
      rw [if_neg hin, if_neg hopens]
      rfl

/-- The loop that cuts constraints, from any place on: the tokens `front` are behind it, and what
    it is to find are the clauses from the one that it is in. -/
theorem clauses_eq {s : Pieces} (htokens : tokens = front ++ rest) (hstart : s.start ≤ front.length)
    (hlt : s.start < tokens.length) (hbal : balanced s.depth rest = true) :
    ((rest.zipIdx front.length).foldlM (clauseStep tokens) s >>= lastClause tokens :
      Run ε (List (List Token))) =
      .ok (s.done ++ ((front.drop s.start ++
        (Clause.cut s.depth (front.drop s.start).reverse rest).1) ::
          (Clause.cut s.depth (front.drop s.start).reverse rest).2)) := by
  induction rest generalizing front s with
  | nil =>
    obtain rfl : tokens = front := by simpa using htokens
    simp [lastClause, hlt, elements_drop hstart, Clause.cut]
  | cons t rest ih =>
    have htokens' : tokens = (front ++ [t]) ++ rest := by rw [htokens]; simp
    have hlen : front.length + 1 = (front ++ [t]).length := by simp
    rw [balanced_cons_iff] at hbal
    rw [List.zipIdx_cons, List.foldlM_cons, clauseStep_eq htokens hstart hbal.1, Clause.cut]
    split_ifs with hopens
    · obtain ⟨hbegins, hdepth⟩ := hopens
      rw [after_of_opensColumnConstraint (Clause.opensColumnConstraint_of_opens hbegins)] at hbal
      have hmore := @ih (front ++ [t])
        { s with start := front.length, done := s.done ++ [front.drop s.start] } htokens'
        (by simp) (by simp [htokens]) hbal.2
      rw [List.drop_left, ← hlen] at hmore
      simp only [hdepth] at hmore ⊢
      rw [ok_bind, hmore]
      simp
    · have hmore := @ih (front ++ [t]) { s with depth := after s.depth t } htokens'
        (hlen ▸ Nat.le_succ_of_le hstart) hlt hbal.2
      rw [← hlen, List.drop_append_of_le_length hstart] at hmore
      rw [ok_bind, hmore]
      simp

theorem splitClauses_eq (hbal : balanced 0 tokens = true) :
    (splitClauses tokens : Run ε (List (List Token))) = .ok (Clause.split tokens) := by
  cases tokens with
  | nil => rfl
  | cons t ts =>
    have hmore := @clauses_eq ε (t :: ts) [] (t :: ts) ⟨0, 0, []⟩ rfl (Nat.le_refl 0)
      (Nat.zero_lt_succ _) hbal
    exact hmore

end

/-! ## Columns -/

variable {source : String} {ts : List Token} {i : Item}

/-- The parts of an item that begins with a word are sliced out of it as the reader cuts them. -/
theorem column_eq (hts : tokenize source = .ok ts) (hsub : i.tokens <:+: ts)
    (hpiece : Item.isPiece i.tokens = true) :
    column source i.tokens = (Column.ofItem source i).mapError .refused := by
  have hfirst : (element i.tokens 0 : Run DefinitionError Token) = .ok i.first := rfl
  rw [column, Column.ofItem, hfirst, ok_bind]
  split_ifs with hword
  · rw [Item.tokens, Item.isPiece_cons hword] at hpiece
    have hbal := (Bool.and_eq_true_iff.1 hpiece).1
    obtain ⟨-, hconstraints, -⟩ := Item.isPiece_parts hpiece
    rw [← balanced_eq_true_iff] at hconstraints
    have hothers : (elements i.tokens 1 i.tokens.length : Run DefinitionError (List Token)) =
        .ok i.others := elements_drop (Nat.le_add_left 1 _)
    have hlength : (typeLength i.others (0, 0) : Run DefinitionError Nat) =
        .ok (splitType 0 i.others).1.length := by
      have := @typeLength_eq DefinitionError i.others [] i.others 0 rfl hbal
      simpa using this
    obtain ⟨htype, hrest⟩ := @elements_parts DefinitionError _ _ _ _ (splitType_append 0 i.others)
    have hin : i.others <:+: ts := (List.suffix_cons _ _).isInfix.trans hsub
    obtain ⟨htypeIn, hclausesIn⟩ := Clause.isInfix_parts i.others
    have hclauses : (Clause.split (splitType 0 i.others).2).mapM (fragment source) =
        (.ok ((Clause.split (splitType 0 i.others).2).map (Fragment.ofTokens · source)) :
          Run DefinitionError (List Fragment)) :=
      mapM_eq_ok fun clause hclause => fragment_eq hts ((hclausesIn clause hclause).trans hin)
    simp only [hothers, hlength, htype, hrest, splitClauses_eq hconstraints, nameOf_eq,
      fragment_eq hts (htypeIn.trans hin), hclauses, ok_bind]
    rfl
  · rfl

/-- One item of the list, and the first token of an item that is refused. -/
theorem addItem_eq (t : Table) (hts : tokenize source = .ok ts) (hsub : i.tokens <:+: ts)
    (hpiece : Item.isPiece i.tokens = true) :
    addItem source t i.tokens = (Table.addItem source t i).mapError .refused := by
  have hfirst : (element i.tokens 0 : Run DefinitionError Token) = .ok i.first := rfl
  rw [addItem, Table.addItem, hfirst, ok_bind, column_eq hts hsub hpiece, Item.isConstraint]
  split_ifs with hconstraint
  · rw [fragment_eq hts hsub]
    rfl
  · cases Column.ofItem source i with
    | error e => rfl
    | ok c =>
      cases hadd : t.addColumn c with
      | error refused =>
        simp only [hadd, Except.mapError, ok_bind]
        rfl
      | ok u =>
        simp only [hadd, Except.mapError, ok_bind]
        rfl

theorem foldlM_addItem_eq (t : Table) {items : List Item} (hts : tokenize source = .ok ts)
    (hitems : ∀ i ∈ items, i.tokens <:+: ts ∧ Item.isPiece i.tokens = true) :
    (items.map Item.tokens).foldlM (addItem source) t =
      (items.foldlM (Table.addItem source) t).mapError .refused := by
  induction items generalizing t with
  | nil => rfl
  | cons i items ih =>
    obtain ⟨⟨hsub, hpiece⟩, hmore⟩ := List.forall_mem_cons.1 hitems
    rw [List.map_cons, List.foldlM_cons, List.foldlM_cons, addItem_eq t hts hsub hpiece]
    cases Table.addItem source t i with
    | error e => rfl
    | ok u => exact ih u hmore

end Indexed
end TableRebuild
