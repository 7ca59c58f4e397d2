import Mathlib.Data.List.Chain
import TableRebuild.Proofs.Definition.Depth
import TableRebuild.Proofs.Token.Wording

/-!
# Clauses in a row

The constraints of a column stand one behind the other with nothing between them, and several words
that begin a clause also occur inside one. `Clause.split` tells the clauses apart by the token in
front of such a word, the token behind it and how long the clause is so far. Here this is held
against what the clauses are: `Form` is the grammar of one clause, and `split_flatten_iff` says when
clauses that are written in a row fall into the same clauses again.

They do, in any order and number, unless a clause ends in a word that has the first word of the next
clause for its argument elsewhere (`Token.governs`). Three of these words are ordinary ones, and a
clause ends in them only if something is called so. The fourth is the keyword `DEFAULT`, and a
clause that ends in `SET DEFAULT` needs no odd names: a `NULL` behind it is taken for a default
value.

The pieces of a clause are put to it one after the other, whatever comes behind. That is `Joins`,
with one lemma for each piece of the grammar. What remains of a clause then is its first word and
its last, and the induction over the clauses (`cut_flatten_iff`) sees nothing else of them.
-/

namespace TableRebuild

/-! ## Words of a clause -/

namespace Token

/-- A word that stands for a name or an argument: no constraint begins with it. -/
def isArgument (t : Token) : Bool := t.isWord && !t.opensColumnConstraint

/-- A word that is no keyword, in whatever case. -/
def isBare (t : Token) (word : String) : Bool := t.kind == .bareName && t.spells word

/-- A literal, an operator or an argument. -/
def isValue (t : Token) : Bool := t.kind == .verbatim || t.isArgument

/-- Whether the token, at the end of a clause, takes the first word of the next one for its
    argument: `SET` and `IS` and the keyword `DEFAULT` take a `NULL`, `SET` takes a `DEFAULT`, and
    `ALWAYS` takes an `AS`. -/
def governs (last first : Token) : Bool :=
  first.isKeyword .null && (last.isKeyword .default || last.spells "SET" || last.spells "IS") ||
    first.isKeyword .default && last.spells "SET" ||
    first.isKeyword .as && last.spells "ALWAYS"

/-- Whether a token may begin a clause. Of `NOT` the token behind decides. -/
def begins (t : Token) (next : Option Token) : Bool :=
  t.opensColumnConstraint && (!t.isKeyword .not || next.any (·.isKeyword .null))

variable {t : Token}

theorem kind_of_keyword? {k : Keyword} (h : t.keyword? = some k) : t.kind = .keyword k := by
  unfold keyword? at h
  split at h
  · rename_i k' hk
    rw [hk, Option.some.inj h]
  · exact absurd h (by simp)

theorem keyword?_of_isKeyword {k : Keyword} (h : t.isKeyword k = true) : t.keyword? = some k := by
  rw [keyword?, eq_of_beq h]

theorem isKeyword_eq {k : Keyword} (h : t.isKeyword k = true) (k' : Keyword) :
    t.isKeyword k' = (k == k') := by
  rw [isKeyword, eq_of_beq h]
  cases k <;> cases k' <;> rfl

theorem opensColumnConstraint_of_isKeyword {k : Keyword} (h : t.isKeyword k = true) :
    t.opensColumnConstraint = k.opensColumnConstraint := by
  rw [opensColumnConstraint, keyword?_of_isKeyword h]
  rfl

theorem isArgument_of_isBare {word : String} (h : t.isBare word = true) : t.isArgument = true := by
  have hkind : t.kind = .bareName := eq_of_beq (Bool.and_eq_true_iff.1 h).1
  simp [isArgument, isWord, opensColumnConstraint, keyword?, hkind, Kind.isWord]

theorem isValue_of_isArgument (h : t.isArgument = true) : t.isValue = true := by
  rw [isValue, h, Bool.or_true]

/-- A value begins no clause and is no parenthesis. -/
theorem of_isValue (h : t.isValue = true) :
    t.opensColumnConstraint = false ∧ Nesting.after 0 t = 0 := by
  rcases (Bool.or_eq_true_iff.1 h) with hkind | harg
  · have hverbatim : t.kind = .verbatim := eq_of_beq hkind
    simp [opensColumnConstraint, keyword?, Nesting.after, hverbatim]
  · obtain ⟨hword, hopens⟩ := Bool.and_eq_true_iff.1 harg
    exact ⟨by simpa using hopens, Nesting.after_of_isWord hword 0⟩

end Token

namespace Clause

open Nesting

/-! ## The grammar -/

/-- Tokens between parentheses. -/
inductive Group : List Token → Prop
  | intro {left right : Token} {inside : List Token} (hleft : left.isDelimiter .leftParen = true)
      (hinside : balanced 0 inside = true) (hright : right.isDelimiter .rightParen = true) :
      Group (left :: (inside ++ [right]))

/-- Any number of arguments. -/
def Tail (ts : List Token) : Prop := ∀ t ∈ ts, t.isArgument = true

/-- What a reference does on an event. -/
inductive Action : List Token → Prop
  | setNull {on event set null : Token} (hon : on.isBare "ON" = true)
      (hevent : event.isArgument = true) (hset : set.isBare "SET" = true)
      (hnull : null.isKeyword .null = true) : Action [on, event, set, null]
  | setDefault {on event set default : Token} (hon : on.isBare "ON" = true)
      (hevent : event.isArgument = true) (hset : set.isBare "SET" = true)
      (hdefault : default.isKeyword .default = true) : Action [on, event, set, default]
  | words {on event : Token} {words : List Token} (hon : on.isBare "ON" = true)
      (hevent : event.isArgument = true) (hwords : Tail words) : Action (on :: event :: words)

/-- The words `ON DELETE SET DEFAULT`. -/
def onDeleteSetDefault : List Token :=
  [.ofBare "ON", .ofBare "DELETE", .ofBare "SET", .ofKeyword .default]

theorem action_onDeleteSetDefault : Action onDeleteSetDefault :=
  .setDefault (by decide +kernel) (by decide +kernel) (by decide +kernel) rfl

/-- `NOT DEFERRABLE` and what else is said about when a reference is checked, or nothing. -/
inductive Deferral : List Token → Prop
  | absent : Deferral []
  | present {not deferrable : Token} {tail : List Token} (hnot : not.isKeyword .not = true)
      (hdeferrable : deferrable.isBare "DEFERRABLE" = true) (htail : Tail tail) :
      Deferral (not :: deferrable :: tail)

/-- What stands behind the word that a clause begins with. -/
inductive Arguments : Keyword → List Token → Prop
  | primary {key : Token} {tail : List Token} (hkey : key.isBare "KEY" = true) (htail : Tail tail) :
      Arguments .primary (key :: tail)
  | not {null : Token} {tail : List Token} (hnull : null.isKeyword .null = true)
      (htail : Tail tail) : Arguments .not (null :: tail)
  | null : Arguments .null []
  | unique {tail : List Token} (htail : Tail tail) : Arguments .unique tail
  | check {group : List Token} (hgroup : Group group) : Arguments .check group
  | collate {name : Token} (hname : name.isArgument = true) : Arguments .collate [name]
  | defaultNull {null : Token} (hnull : null.isKeyword .null = true) : Arguments .default [null]
  | defaultGroup {group : List Token} (hgroup : Group group) : Arguments .default group
  | defaultValues {values : List Token} (hne : values ≠ [])
      (hvalues : ∀ t ∈ values, t.isValue = true) : Arguments .default values
  | references {name : Token} {columns deferral : List Token} {actions : List (List Token)}
      (hname : name.isArgument = true) (hcolumns : columns = [] ∨ Group columns)
      (hactions : ∀ action ∈ actions, Action action) (hdeferral : Deferral deferral) :
      Arguments .references (name :: (columns ++ (actions.flatten ++ deferral)))
  | generated {always as : Token} {group tail : List Token}
      (halways : always.isBare "ALWAYS" = true) (has : as.isKeyword .as = true)
      (hgroup : Group group) (htail : Tail tail) :
      Arguments .generated (always :: as :: (group ++ tail))
  | as {group tail : List Token} (hgroup : Group group) (htail : Tail tail) :
      Arguments .as (group ++ tail)

/-- A clause, with `CONSTRAINT` and a name in front or without. -/
inductive Form : List Token → Prop
  | plain {k : Keyword} {t : Token} {args : List Token} (ht : t.isKeyword k = true)
      (hargs : Arguments k args) : Form (t :: args)
  | named {k : Keyword} {constraint name t : Token} {args : List Token}
      (hconstraint : constraint.isKeyword .constraint = true) (hname : name.isArgument = true)
      (ht : t.isKeyword k = true) (hargs : Arguments k args) :
      Form (constraint :: name :: t :: args)

/-! ## Pieces of a clause -/

/-- A token that is no word with its argument still to come. -/
def isSettled (t : Token) : Bool := !t.isKeyword .not && !t.isKeyword .generated

/-- Behind `soFar` (last token first) the tokens are put to the clause, whatever follows them, and
    they end in a settled token. -/
structure Joins (soFar ts : List Token) : Prop where
  cut_append : ∀ rest, cut 0 soFar (ts ++ rest) =
    (ts ++ (cut 0 (ts.reverse ++ soFar) rest).1, (cut 0 (ts.reverse ++ soFar) rest).2)
  settled : ∀ t ∈ ts.getLast?, isSettled t = true

variable {soFar ts as bs : List Token} {t : Token}

theorem isSettled_of_isKeyword {k : Keyword} (h : t.isKeyword k = true) :
    isSettled t = (k != .not && k != .generated) := by
  rw [isSettled, Token.isKeyword_eq h, Token.isKeyword_eq h]
  rfl

theorem isSettled_of_isValue (h : t.isValue = true) : isSettled t = true := by
  have hopens := (Token.of_isValue h).1
  rw [isSettled, Bool.and_eq_true_iff, Bool.not_eq_true', Bool.not_eq_true', Bool.eq_false_iff,
    Bool.eq_false_iff]
  constructor
  · intro hnot
    rw [Token.opensColumnConstraint_of_isKeyword hnot] at hopens
    exact absurd hopens (by decide)
  · intro hgenerated
    rw [Token.opensColumnConstraint_of_isKeyword hgenerated] at hopens
    exact absurd hopens (by decide)

theorem opens_of_isValue (h : t.isValue = true) (next : Option Token) :
    opens soFar t next = false := by
  rw [Bool.eq_false_iff]
  intro hopens
  have hconstraint := opensColumnConstraint_of_opens hopens
  rw [(Token.of_isValue h).1] at hconstraint
  exact absurd hconstraint (by simp)

theorem after_of_isKeyword {k : Keyword} (h : t.isKeyword k = true) (depth : Nat) :
    after depth t = depth :=
  after_of_isWord (Token.isWord_of_keyword? (Token.keyword?_of_isKeyword h)) depth

namespace Joins

theorem nil : Joins soFar [] := ⟨fun _ => rfl, by simp⟩

theorem append (has : Joins soFar as) (hbs : Joins (as.reverse ++ soFar) bs) :
    Joins soFar (as ++ bs) := by
  refine ⟨fun rest => ?_, ?_⟩
  · rw [List.append_assoc, has.cut_append, hbs.cut_append, List.reverse_append, List.append_assoc,
      List.append_assoc]
  · intro t ht
    rw [List.getLast?_append] at ht
    cases hlast : bs.getLast? with
    | none =>
      rw [hlast] at ht
      exact has.settled t ht
    | some u =>
      rw [hlast] at ht
      exact hbs.settled t (hlast.trans ht)

/-- A token at which no clause begins, in front of tokens that are put to the clause behind it. -/
theorem cons (hopens : ∀ rest, opens soFar t (ts ++ rest).head? = false) (hafter : after 0 t = 0)
    (hsettled : ts = [] → isSettled t = true) (hts : Joins (t :: soFar) ts) :
    Joins soFar (t :: ts) := by
  refine ⟨fun rest => ?_, ?_⟩
  · rw [List.cons_append, cut, if_neg (by rw [hopens]; simp), hafter, hts.cut_append]
    simp
  · cases ts with
    | nil => simpa using hsettled rfl
    | cons u ts => simpa using hts.settled

theorem value (ht : t.isValue = true) (hts : Joins (t :: soFar) ts) : Joins soFar (t :: ts) :=
  cons (fun _ => opens_of_isValue ht _) (Token.of_isValue ht).2
    (fun _ => isSettled_of_isValue ht) hts

theorem argument (ht : t.isArgument = true) (hts : Joins (t :: soFar) ts) : Joins soFar (t :: ts) :=
  value (Token.isValue_of_isArgument ht) hts

theorem bare {word : String} (ht : t.isBare word = true) (hts : Joins (t :: soFar) ts) :
    Joins soFar (t :: ts) :=
  argument (Token.isArgument_of_isBare ht) hts

theorem values (h : ∀ t ∈ ts, t.isValue = true) : Joins soFar ts := by
  induction ts generalizing soFar with
  | nil => exact nil
  | cons t ts ih =>
    rw [List.forall_mem_cons] at h
    exact value h.1 (ih h.2)

/-- A keyword that the token in front of it, or the one behind, has for its own. -/
theorem keyword {k : Keyword} (ht : t.isKeyword k = true)
    (hcontinues : ∀ before ∈ soFar.head?, ∀ rest, continues k before (ts ++ rest).head? = true)
    (hsettled : ts = [] → (k != .not && k != .generated) = true) (hts : Joins (t :: soFar) ts) :
    Joins soFar (t :: ts) := by
  refine cons (fun rest => ?_) (after_of_isKeyword ht 0) ?_ hts
  · cases soFar with
    | nil => rfl
    | cons before soFar =>
      simp only [opens, Token.keyword?_of_isKeyword ht, hcontinues before rfl, Bool.not_true,
        Bool.and_false]
  · rw [isSettled_of_isKeyword ht]
    exact hsettled

end Joins

theorem Tail.joins (h : Tail ts) : Joins soFar ts :=
  .values fun t ht => Token.isValue_of_isArgument (h t ht)

/-! ### Groups -/

/-- Nothing begins inside parentheses. -/
theorem cut_inside {depth : Nat} {inside rest : List Token} {right : Token}
    (hinside : balanced depth inside = true) (hright : right.isDelimiter .rightParen = true) :
    cut (depth + 1) soFar (inside ++ right :: rest) =
      (inside ++ right :: (cut 0 (right :: (inside.reverse ++ soFar)) rest).1,
        (cut 0 (right :: (inside.reverse ++ soFar)) rest).2) := by
  induction inside generalizing depth soFar with
  | nil =>
    obtain rfl : depth = 0 := by simpa [balanced] using hinside
    have hafter : after (0 + 1) right = 0 := by simp [after, eq_of_beq hright]
    rw [List.nil_append, cut, if_neg (by simp), hafter]
    rfl
  | cons t inside ih =>
    rw [balanced_cons_iff] at hinside
    rw [List.cons_append, cut, if_neg (by simp), after_succ hinside.1, ih hinside.2]
    simp

theorem Group.joins (h : Group ts) : Joins soFar ts := by
  cases h with
  | @intro left right inside hleft hinside hright =>
    have hopens : ∀ next, opens soFar left next = false := by
      intro next
      have hkeyword : left.keyword? = none := by simp [Token.keyword?, eq_of_beq hleft]
      cases soFar <;> simp [opens, hkeyword]
    have hafter : after 0 left = 0 + 1 := by simp [after, eq_of_beq hleft]
    refine ⟨fun rest => ?_, ?_⟩
    · rw [List.cons_append, List.append_assoc, List.singleton_append, cut,
        if_neg (by simp [hopens]), hafter, cut_inside hinside hright]
      simp
    · have hsettled : isSettled right = true := by
        simp [isSettled, Token.isKeyword, eq_of_beq hright]
      simpa [List.getLast?_cons] using hsettled

/-! ### References -/

theorem Action.joins (h : Action ts) : Joins soFar ts := by
  cases h with
  | setNull hon hevent hset hnull =>
    have hspells := (Bool.and_eq_true_iff.1 hset).2
    exact .bare hon (.argument hevent (.bare hset (.keyword hnull (by simp [continues, hspells])
      (fun _ => rfl) .nil)))
  | setDefault hon hevent hset hdefault =>
    have hspells := (Bool.and_eq_true_iff.1 hset).2
    exact .bare hon (.argument hevent (.bare hset (.keyword hdefault (by simp [continues, hspells])
      (fun _ => rfl) .nil)))
  | words hon hevent hwords => exact .bare hon (.argument hevent hwords.joins)

theorem joins_actions {actions : List (List Token)} (h : ∀ action ∈ actions, Action action) :
    Joins soFar actions.flatten := by
  induction actions generalizing soFar with
  | nil => exact .nil
  | cons action actions ih =>
    rw [List.forall_mem_cons] at h
    exact .append h.1.joins (ih h.2)

theorem Deferral.joins (h : Deferral ts) : Joins soFar ts := by
  cases h with
  | absent => exact .nil
  | @present not deferrable tail hnot hdeferrable htail =>
    -- `NOT` is told by what stands behind it, and that is no `NULL` here.
    have hnull : deferrable.isKeyword .null = false := by
      have hkind : deferrable.kind = .bareName := eq_of_beq (Bool.and_eq_true_iff.1 hdeferrable).1
      simp [Token.isKeyword, hkind]
    exact .keyword hnot (by simp [continues, hnull]) (by simp) (.bare hdeferrable htail.joins)

/-! ### What stands behind the first word -/

namespace Arguments

variable {k : Keyword} {args : List Token}

theorem joins (h : Arguments k args) (ht : t.isKeyword k = true) : Joins (t :: soFar) args := by
  cases h with
  | primary hkey htail => exact .bare hkey htail.joins
  | not hnull htail =>
    exact .keyword hnull (by simp [continues, ht]) (fun _ => rfl) htail.joins
  | null => exact .nil
  | unique htail => exact htail.joins
  | check hgroup => exact hgroup.joins
  | collate hname => exact .argument hname .nil
  | defaultNull hnull =>
    exact .keyword hnull (by simp [continues, ht]) (fun _ => rfl) .nil
  | defaultGroup hgroup => exact hgroup.joins
  | defaultValues hne hvalues => exact .values hvalues
  | @references name columns deferral actions hname hcolumns hactions hdeferral =>
    have hgroup : ∀ soFar, Joins soFar columns := by
      intro soFar
      rcases hcolumns with rfl | hgroup
      · exact .nil
      · exact hgroup.joins
    exact .argument hname ((hgroup _).append ((joins_actions hactions).append hdeferral.joins))
  | generated halways has hgroup htail =>
    have hspells := (Bool.and_eq_true_iff.1 halways).2
    exact .bare halways (.keyword has (by simp [continues, hspells]) (fun _ => rfl)
      (hgroup.joins.append htail.joins))
  | as hgroup htail => exact hgroup.joins.append htail.joins

theorem opensColumnConstraint (h : Arguments k args) :
    k.opensColumnConstraint = true ∧ k ≠ .constraint := by
  cases h <;> decide

theorem begins (h : Arguments k args) (ht : t.isKeyword k = true) (rest : List Token) :
    t.begins (args ++ rest).head? = true := by
  rw [Token.begins, Token.opensColumnConstraint_of_isKeyword ht, h.opensColumnConstraint.1,
    Bool.true_and, Token.isKeyword_eq ht]
  cases h with
  | not hnull htail => simpa using hnull
  | _ => rfl

theorem isSettled_of_nil (h : Arguments k args) (ht : t.isKeyword k = true) (hargs : args = []) :
    isSettled t = true := by
  rw [isSettled_of_isKeyword ht]
  cases h with
  | not => exact absurd hargs (by simp)
  | generated => exact absurd hargs (by simp)
  | _ => rfl

end Arguments

/-! ## First and last words -/

/-- What is seen of a clause when others are around it: the first word may begin a clause, the rest
    is put to it, and the last token neither waits for anything nor is the name behind
    `CONSTRAINT`. -/
structure Seen (t : Token) (ts : List Token) : Prop where
  begins : ∀ rest, t.begins (ts ++ rest).head? = true
  joins : Joins [t] ts
  isSettled_of_nil : ts = [] → isSettled t = true
  isNameOnly : isNameOnly (t :: ts).reverse = false

theorem isNameOnly_of_length_ne {c : List Token} (h : c.length ≠ 2) : isNameOnly c = false := by
  unfold isNameOnly
  split
  · exact absurd rfl h
  · rfl

theorem Form.exists_seen {c : List Token} (h : Form c) : ∃ t ts, c = t :: ts ∧ Seen t ts := by
  cases h with
  | @plain k t args ht hargs =>
    refine ⟨t, args, rfl, hargs.begins ht, hargs.joins ht, hargs.isSettled_of_nil ht, ?_⟩
    have hconstraint : t.isKeyword .constraint = false := by
      rw [Token.isKeyword_eq ht]
      simpa using hargs.opensColumnConstraint.2
    by_cases hlength : args.length = 1
    · obtain ⟨u, rfl⟩ := List.length_eq_one_iff.1 hlength
      exact hconstraint
    · exact isNameOnly_of_length_ne (by simpa using hlength)
  | @named k constraint name t args hconstraint hname ht hargs =>
    have hopens : ∀ next, opens [name, constraint] t next = false := by
      intro next
      simp [opens, Token.keyword?_of_isKeyword ht, isNameOnly, hconstraint]
    refine ⟨constraint, name :: t :: args, rfl, ?_, ?_, by simp, isNameOnly_of_length_ne (by simp)⟩
    · intro rest
      rw [Token.begins, Token.opensColumnConstraint_of_isKeyword hconstraint,
        Token.isKeyword_eq hconstraint]
      rfl
    · exact .argument hname (.cons (fun _ => hopens _) (after_of_isKeyword ht 0)
        (hargs.isSettled_of_nil ht) (hargs.joins ht))

/-- **Where a clause begins is decided by its first token and the last of the clause before.** -/
theorem opens_eq_not_governs {before first : Token} {next : Option Token}
    (hbegins : first.begins next = true) (hsettled : isSettled before = true)
    (hname : isNameOnly (before :: soFar) = false) :
    opens (before :: soFar) first next = !before.governs first := by
  obtain ⟨hopens, hnot⟩ := Bool.and_eq_true_iff.1 hbegins
  obtain ⟨k, hk, hkopens⟩ := (Option.any_eq_true _ _).1 hopens
  have hkind : first.kind = .keyword k := Token.kind_of_keyword? hk
  obtain ⟨hbeforeNot, hbeforeGenerated⟩ := Bool.and_eq_true_iff.1 hsettled
  have hfirst : ∀ k', first.isKeyword k' = true ↔ k = k' := by simp [Token.isKeyword, hkind]
  rw [Bool.not_eq_true'] at hbeforeNot hbeforeGenerated
  have hcontinues : continues k before next = before.governs first := by
    rw [Bool.eq_iff_iff]
    simp only [Token.governs, Bool.or_eq_true_iff, Bool.and_eq_true_iff, hfirst]
    cases k with
    | null => simp [continues, hbeforeNot]
    | not => simpa [continues, (hfirst .not).2 rfl] using hnot
    | default => simp [continues]
    | as => simp [continues, hbeforeGenerated]
    | _ => simp [continues]
  simp only [opens, hk, hkopens, hname, hcontinues, Bool.not_false, Bool.true_and]

namespace Seen

variable {rest : List Token}

theorem isSettled_getLast (h : Seen t ts) : ∀ last ∈ (t :: ts).getLast?, isSettled last = true := by
  intro last hlast
  cases ts with
  | nil =>
    obtain rfl : t = last := by simpa using hlast
    exact h.isSettled_of_nil rfl
  | cons u ts => exact h.joins.settled last (by simpa using hlast)

/-- A clause at the beginning is put together from its tokens. -/
theorem split_append (h : Seen t ts) (rest : List Token) : split (t :: ts ++ rest) =
    (t :: ts ++ (cut 0 (t :: ts).reverse rest).1) :: (cut 0 (t :: ts).reverse rest).2 := by
  have hconstraint := (Bool.and_eq_true_iff.1 (h.begins rest)).1
  have hopens : opens [] t (ts ++ rest).head? = false := rfl
  have hsplit : split (t :: (ts ++ rest)) =
      (cut 0 [] (t :: (ts ++ rest))).1 :: (cut 0 [] (t :: (ts ++ rest))).2 := rfl
  rw [List.cons_append, hsplit, cut, if_neg (by rw [hopens]; simp),
    after_of_opensColumnConstraint hconstraint, h.joins.cut_append, List.reverse_cons]
  rfl

/-- A clause of which the first word begins one is cut off and put together again. -/
theorem cut_append (h : Seen t ts) {rest : List Token}
    (hopens : opens soFar t (ts ++ rest).head? = true) :
    cut 0 soFar (t :: ts ++ rest) = ([], (t :: ts ++ (cut 0 (t :: ts).reverse rest).1) ::
      (cut 0 (t :: ts).reverse rest).2) := by
  rw [List.cons_append, cut, if_pos ⟨hopens, rfl⟩, h.joins.cut_append, List.reverse_cons]
  rfl

end Seen

/-! ## Clauses in a row -/

/-- The last token of a clause does not have the first of the next for its argument. -/
def Apart (c d : List Token) : Prop :=
  ∀ last ∈ c.getLast?, ∀ first ∈ d.head?, last.governs first = false

/-- **Clauses behind a clause are cut off as they are** just if no first word is governed. -/
theorem cut_flatten_iff {c : List Token} {cs : List (List Token)} (hc : Form c)
    (hcs : ∀ d ∈ cs, Form d) :
    cut 0 c.reverse cs.flatten = ([], cs) ↔ (c :: cs).IsChain Apart := by
  induction cs generalizing c with
  | nil => simp [cut]
  | cons d cs ih =>
    rw [List.forall_mem_cons] at hcs
    have hnext := ih hcs.1 hcs.2
    obtain ⟨t, ts, rfl, hd⟩ := hcs.1.exists_seen
    obtain ⟨u, us, rfl, hseen⟩ := hc.exists_seen
    obtain ⟨soFar, before, hlast⟩ := (List.eq_nil_or_concat (u :: us)).resolve_left (by simp)
    have hsettled := hseen.isSettled_getLast
    have hname := hseen.isNameOnly
    rw [List.concat_eq_append] at hlast
    rw [hlast] at hsettled hname ⊢
    rw [List.reverse_append, List.reverse_singleton, List.singleton_append] at hname ⊢
    have hopens := opens_eq_not_governs (hd.begins cs.flatten) (hsettled before (by simp)) hname
    have hapart : Apart (soFar ++ [before]) (t :: ts) ↔ before.governs t = false := by
      simp [Apart]
    rw [List.isChain_cons_cons, hapart, ← hnext, List.flatten_cons]
    cases hgoverns : before.governs t with
    | true =>
      rw [hgoverns] at hopens
      rw [List.cons_append, cut, if_neg (by rw [hopens]; simp)]
      simp
    | false =>
      rw [hgoverns] at hopens
      rw [hd.cut_append hopens]
      simp [Prod.ext_iff]

/-- **When clauses in a row are told apart.** They fall into the same clauses again just if no
    clause ends in a token that has the first word of the next for its argument. Where no clause
    ends in one of the words `SET`, `IS` and `ALWAYS`, only one thing can go wrong: a clause that
    ends in the keyword `DEFAULT` stands in front of one that begins with `NULL`. -/
theorem split_flatten_iff {cs : List (List Token)} (h : ∀ c ∈ cs, Form c) :
    (split cs.flatten = cs ↔ cs.IsChain Apart) ∧
      ((∀ c ∈ cs, ∀ last ∈ c.getLast?, last.spells "SET" = false ∧ last.spells "IS" = false ∧
          last.spells "ALWAYS" = false) →
        (split cs.flatten = cs ↔ cs.IsChain fun c d =>
          ¬(c.getLast?.any (·.isKeyword .default) = true ∧
            d.head?.any (·.isKeyword .null) = true))) := by
  have hsplit : split cs.flatten = cs ↔ cs.IsChain Apart := by
    cases cs with
    | nil => simp [split]
    | cons c cs =>
      rw [List.forall_mem_cons] at h
      rw [← cut_flatten_iff h.1 h.2]
      obtain ⟨t, ts, rfl, hseen⟩ := h.1.exists_seen
      rw [List.flatten_cons, hseen.split_append]
      simp [Prod.ext_iff]
  refine ⟨hsplit, fun hwords => hsplit.trans (List.IsChain.iff_of_mem_imp ?_)⟩
  intro c d hc hd
  have hlast := hwords c hc
  unfold Apart
  cases hc' : c.getLast? with
  | none => simp
  | some last =>
    obtain ⟨hset, his, halways⟩ := hlast last hc'
    cases d.head? with
    | none => simp
    | some first => simp [Token.governs, hset, his, halways, and_comm]

/-- Where more is said of the reference behind `SET DEFAULT`, a `NULL` is told apart from it. -/
theorem split_flatten_of_deferral :
    let references : List Token := .ofKeyword .constraint :: .ofBare "n" ::
      .ofKeyword .references :: .ofBare "u" ::
        (onDeleteSetDefault ++ [.ofKeyword .not, .ofBare "DEFERRABLE"])
    let null : List Token := [.ofKeyword .null]
    (∀ c ∈ [references, null], Form c) ∧ split [references, null].flatten = [references, null] := by
  intro references null
  have hdeferral : Deferral [.ofKeyword .not, .ofBare "DEFERRABLE"] :=
    .present rfl (by decide +kernel) (by simp [Tail])
  have hargs : Arguments .references (.ofBare "u" :: ([] ++ ([onDeleteSetDefault].flatten ++
      [.ofKeyword .not, .ofBare "DEFERRABLE"]))) :=
    .references rfl (.inl rfl) (by simpa using action_onDeleteSetDefault) hdeferral
  have hreferences : Form references := .named rfl rfl rfl hargs
  have hnull : Form null := .plain rfl .null
  have hform : ∀ c ∈ [references, null], Form c := by simp [hreferences, hnull]
  have hwords : ∀ c ∈ [references, null], ∀ last ∈ c.getLast?, last.spells "SET" = false ∧
      last.spells "IS" = false ∧ last.spells "ALWAYS" = false := by
    rw [List.forall_mem_cons, List.forall_mem_singleton]
    constructor
    · rintro last ⟨⟩
      decide +kernel
    · rintro last ⟨⟩
      decide +kernel
  refine ⟨hform, ((split_flatten_iff hform).2 hwords).2 ?_⟩
  rw [List.isChain_pair]
  decide +kernel

/-- A `NULL` behind `SET DEFAULT` is not told apart from the reference in front of it. -/
theorem split_flatten_of_setDefault :
    let references : List Token := .ofKeyword .references :: .ofBare "u" :: onDeleteSetDefault
    let null : List Token := [.ofKeyword .null]
    Form references ∧ Form null ∧ split [references, null].flatten = [references ++ null] ∧
      split [references, null].flatten ≠ [references, null] := by
  intro references null
  have hargs : Arguments .references
      (.ofBare "u" :: ([] ++ ([onDeleteSetDefault].flatten ++ []))) :=
    .references rfl (.inl rfl) (by simpa using action_onDeleteSetDefault) .absent
  have hreferences : Form references := .plain rfl hargs
  have hnull : Form null := .plain rfl .null
  have hsplit : split [references, null].flatten = [references ++ null] := rfl
  refine ⟨hreferences, hnull, hsplit, ?_⟩
  rw [hsplit]
  intro heq
  exact absurd (congrArg List.length heq) (by simp)

end Clause
end TableRebuild
