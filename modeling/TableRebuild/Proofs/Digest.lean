import TableRebuild.Digest
import TableRebuild.Proofs.Comparison.SameParts

/-!
# What is equal is hashed alike

A set that looks for a value by its hash finds it only if what is equal has one hash, and tells
values apart by it only if what is not equal was handed to the hasher as something else. For tokens
neither is a matter of course. Equality and hashing are two programs, they go about it differently,
and both have to see through three ways of quoting and the two halves of tokens.

`Token.append_digest_iff` is all there is to it: a hasher is handed the same pieces for two tokens
just if they are equal, and it is never handed one token as the beginning of another. What holds of
tokens then holds of their sequences and of whatever is compared by sequences, and the main result,
`equality_respected`, says so of all that the library compares.
-/

namespace TableRebuild

/-! ## Case -/

namespace Text

/-- An ASCII capital and its small letter. -/
def IsCapitalOf (c d : Char) : Prop :=
  'A' ≤ c ∧ c ≤ 'Z' ∧ d.toNat = c.toNat + 32

/-- The characters differ in the case of an ASCII letter at most. -/
def SameLetter (c d : Char) : Prop :=
  c = d ∨ IsCapitalOf c d ∨ IsCapitalOf d c

variable {c d : Char}

theorem isCapitalOf_iff :
    IsCapitalOf c d ↔ 65 ≤ c.toNat ∧ c.toNat ≤ 90 ∧ d.toNat = c.toNat + 32 :=
  Iff.rfl

theorem toNat_toLower (c : Char) :
    c.toLower.toNat = if 65 ≤ c.toNat ∧ c.toNat ≤ 90 then c.toNat + 32 else c.toNat := by
  by_cases h : 65 ≤ c.toNat ∧ c.toNat ≤ 90
  · have hlower : c.toLower = _ := dif_pos h
    rw [if_pos h, hlower]
    show (c.val + 32).toNat = c.toNat + 32
    rw [UInt32.toNat_add]
    exact Nat.mod_eq_of_lt (Nat.lt_of_le_of_lt (Nat.add_le_add_right h.2 32) (by decide))
  · have hlower : c.toLower = c := dif_neg h
    rw [if_neg h, hlower]

theorem toLower_eq_iff : c.toLower = d.toLower ↔ SameLetter c d := by
  simp only [SameLetter, isCapitalOf_iff, ← Char.toNat_inj, toNat_toLower]
  split <;> split <;> omega

/-- **To fold is to compare letter by letter.** -/
theorem fold_eq_iff {a b : String} :
    fold a = fold b ↔ List.Forall₂ SameLetter a.toList b.toList := by
  rw [← String.toList_inj, toList_fold, toList_fold, ← List.forall₂_eq_eq_eq,
    List.forall₂_map_left_iff, List.forall₂_map_right_iff]
  simp only [toLower_eq_iff]

end Text

/-! ## Sets by hash -/

section

variable {α : Type} [BEq α]

/-- Whether a set that is made of a list, and looks for a value by its hash, has the value. -/
def Hasher.holds (h : Hasher) (digest : α → List Hasher.Input) (as : List α) (a : α) : Bool :=
  letI : Hashable α := ⟨fun a => h.hash (digest a)⟩
  (Std.HashSet.ofList as).contains a

/-- Equality is an equivalence, and hashing respects it: equal values and no others are handed to a
    hasher alike, also where more is handed to it behind them. So whatever the hasher makes of them,
    a set has what is equal to one of its values, and nothing else. -/
structure Faithful (digest : α → List Hasher.Input) : Prop where
  equivalence : Equivalence fun a b : α => (a == b) = true
  digest_eq (a b : α) : digest a = digest b ↔ (a == b) = true
  append_eq (a b : α) (us vs : List Hasher.Input) :
    digest a ++ us = digest b ++ vs ↔ (a == b) = true ∧ us = vs
  holds (h : Hasher) (as : List α) (a : α) : h.holds digest as a = as.contains a
  holds_singleton (h : Hasher) (a b : α) : h.holds digest [a] b = (a == b)

variable [EquivBEq α] {digest : α → List Hasher.Input}

theorem equivalence_beq : Equivalence fun a b : α => (a == b) = true :=
  ⟨fun _ => ReflBEq.rfl, PartialEquivBEq.symm, PartialEquivBEq.trans⟩

/-- Where what is equal is handed over alike, hashing loses nothing: a set has what a list has. -/
theorem Hasher.holds_eq_contains (hdigest : ∀ a b : α, (a == b) = true → digest a = digest b)
    (h : Hasher) (as : List α) (a : α) : h.holds digest as a = as.contains a := by
  let : Hashable α := ⟨fun a => h.hash (digest a)⟩
  have : LawfulHashable α := ⟨fun a b hab => congrArg h.hash (hdigest a b hab)⟩
  exact Std.HashSet.contains_ofList

/-- What is handed over for a value has to tell the value and where it ends. All else follows. -/
theorem Faithful.of_append_iff (h : ∀ (a b : α) (us vs : List Hasher.Input),
    digest a ++ us = digest b ++ vs ↔ (a == b) = true ∧ us = vs) : Faithful digest := by
  have hdigest : ∀ a b, digest a = digest b ↔ (a == b) = true := by
    intro a b
    simpa using h a b [] []
  have hholds := Hasher.holds_eq_contains fun a b => (hdigest a b).2
  refine ⟨equivalence_beq, hdigest, h, hholds, ?_⟩
  intro hasher a b
  rw [hholds, List.contains_cons, List.contains_nil, Bool.or_false]
  exact BEq.comm

end

/-! ## Tokens -/

theorem Keyword.ctorIdx_inj {k k' : Keyword} : k.ctorIdx = k'.ctorIdx ↔ k = k' := by
  constructor
  · intro h
    rw [← Keyword.ofNat_ctorIdx k, h, Keyword.ofNat_ctorIdx]
  · exact congrArg _

theorem Delimiter.ctorIdx_inj {d d' : Delimiter} : d.ctorIdx = d'.ctorIdx ↔ d = d' := by
  constructor
  · intro h
    rw [← Delimiter.ofNat_ctorIdx d, h, Delimiter.ofNat_ctorIdx]
  · exact congrArg _

theorem Kind.append_digest_iff {k k' : Kind} {us vs : List Hasher.Input} :
    k.digest ++ us = k'.digest ++ vs ↔ k = k' ∧ us = vs := by
  cases k <;> cases k' <;>
    simp [digest, Keyword.digest, Delimiter.digest, Keyword.ctorIdx_inj, Delimiter.ctorIdx_inj]

namespace Token

variable {a b : Token}

theorem beq_of_isWord (ha : a.isWord = true) (hb : b.isWord = true) :
    (a == b) = true ↔ Text.fold a.spelling = Text.fold b.spelling := by
  simp [beq_eq_true_iff, key, ha, hb]

theorem beq_of_not_isWord (ha : a.isWord = false) (hb : b.isWord = false) :
    (a == b) = true ↔ a.kind = b.kind ∧ a.text = b.text := by
  simp [beq_eq_true_iff, key, ha, hb]

theorem beq_of_isWord_ne (h : a.isWord ≠ b.isWord) : (a == b) = false := by
  rw [Bool.eq_false_iff, Ne, beq_eq_true_iff]
  cases ha : a.isWord <;> cases hb : b.isWord <;> simp_all [key]

/-- **What is handed to a hasher for a token tells the token up to equality**, and where it ends. -/
theorem append_digest_iff (a b : Token) (us vs : List Hasher.Input) :
    a.digest ++ us = b.digest ++ vs ↔ (a == b) = true ∧ us = vs := by
  by_cases h : a.isWord = b.isWord
  · cases hb : b.isWord with
    | true =>
      have ha : a.isWord = true := h.trans hb
      simp [digest, ha, hb, beq_of_isWord ha hb]
    | false =>
      have ha : a.isWord = false := h.trans hb
      simp [digest, ha, hb, beq_of_not_isWord ha hb, Kind.append_digest_iff, and_assoc]
  · -- The byte in front tells the two halves apart.
    have hbeq := beq_of_isWord_ne h
    cases ha : a.isWord <;> cases hb : b.isWord <;> simp_all [digest]

end Token

/-! ## Sequences of tokens -/

theorem list_beq_iff_same {α : Type} [BEq α] {as bs : List α} :
    (as == bs) = true ↔ List.Forall₂ Same as bs := by
  constructor
  · intro h
    induction as generalizing bs with
    | nil =>
      cases bs with
      | nil => exact .nil
      | cons b bs => exact absurd h (by simp)
    | cons a as ih =>
      cases bs with
      | nil => exact absurd h (by simp)
      | cons b bs =>
        rw [List.cons_beq_cons, Bool.and_eq_true_iff] at h
        exact .cons h.1 (ih h.2)
  · exact list_beq_of_same

namespace Token

/-- Sequences of one length are told apart as their tokens are. -/
theorem append_flatMap_digest_iff {as bs : List Token} (h : as.length = bs.length)
    (us vs : List Hasher.Input) : as.flatMap digest ++ us = bs.flatMap digest ++ vs ↔
      (as == bs) = true ∧ us = vs := by
  induction as generalizing bs with
  | nil =>
    obtain rfl := List.length_eq_zero_iff.1 h.symm
    simp
  | cons a as ih =>
    obtain ⟨b, bs, rfl⟩ := List.exists_cons_of_length_eq_add_one h.symm
    rw [List.flatMap_cons, List.flatMap_cons, List.append_assoc, List.append_assoc,
      append_digest_iff, ih (by simpa using h), List.cons_beq_cons, Bool.and_eq_true_iff, and_assoc]

theorem append_beq_append {as as' : List Token} (h : as.length = as'.length) (bs bs' : List Token) :
    (as ++ bs == as' ++ bs') = (as == as' && bs == bs') := by
  rw [Bool.eq_iff_iff, Bool.and_eq_true_iff, list_beq_eq_true_iff, list_beq_eq_true_iff,
    list_beq_eq_true_iff, List.map_append, List.map_append]
  constructor
  · exact fun hmap => List.append_inj hmap (by simpa using h)
  · rintro ⟨hfront, hback⟩
    rw [hfront, hback]

theorem length_eq_of_beq {as bs : List Token} (h : (as == bs) = true) : as.length = bs.length :=
  (list_beq_iff_same.1 h).length_eq

/-- Behind equal tokens, and in front of them, there may be any that are equal, and no others. -/
theorem append_beq_of_front {as as' : List Token} (h : (as == as') = true) (bs bs' : List Token) :
    (as ++ bs == as' ++ bs') = (bs == bs') := by
  rw [append_beq_append (length_eq_of_beq h), h, Bool.true_and]

theorem append_beq_of_back {bs bs' : List Token} (h : (bs == bs') = true) (as as' : List Token) :
    (as ++ bs == as' ++ bs') = (as == as') := by
  by_cases hlength : as.length = as'.length
  · rw [append_beq_append hlength, h, Bool.and_true]
  · -- Where the fronts have different lengths, nothing is equal on either side.
    have hfront : ¬(as == as') = true := fun hbeq => hlength (length_eq_of_beq hbeq)
    have hwhole : ¬(as ++ bs == as' ++ bs') = true := by
      intro hbeq
      have hsum := length_eq_of_beq hbeq
      rw [List.length_append, List.length_append, length_eq_of_beq h] at hsum
      exact hlength (Nat.add_right_cancel hsum)
    rw [Bool.eq_false_iff.2 hfront, Bool.eq_false_iff.2 hwhole]

end Token

namespace Fragment

theorem append_digest_iff (f g : Fragment) (us vs : List Hasher.Input) :
    f.digest ++ us = g.digest ++ vs ↔ (f == g) = true ∧ us = vs := by
  rw [digest, digest, List.cons_append, List.cons_append, List.cons.injEq,
    Hasher.Input.length.injEq, beq_def]
  constructor
  · rintro ⟨hlength, hrest⟩
    exact (Token.append_flatMap_digest_iff hlength us vs).1 hrest
  · intro h
    have hlength := Token.length_eq_of_beq h.1
    exact ⟨hlength, (Token.append_flatMap_digest_iff hlength us vs).2 h⟩

end Fragment

theorem Name.append_digest_iff (m n : Name) (us vs : List Hasher.Input) :
    m.digest ++ us = n.digest ++ vs ↔ (m == n) = true ∧ us = vs := by
  simp [digest, beq_eq_true_iff]

/-! ## All that is compared -/

/-- How two tokens compare. Words are compared as names and letter by letter, the rest as written,
    and no word is equal to anything else. -/
structure Token.Compared (a b : Token) : Prop where
  names : a.isWord = true → b.isWord = true → (a == b) = (Name.ofToken a == Name.ofToken b)
  letters : a.isWord = true → b.isWord = true →
    ((a == b) = true ↔ List.Forall₂ Text.SameLetter a.spelling.toList b.spelling.toList)
  written : a.isWord = false → b.isWord = false →
    ((a == b) = true ↔ a.kind = b.kind ∧ a.text = b.text)
  apart : a.isWord ≠ b.isWord → (a == b) = false

/-- How two fragments compare: token by token, whatever their texts and the places of their
    tokens. -/
structure Fragment.Compared (f g : Fragment) : Prop where
  tokens : (f == g) = (f.tokens == g.tokens)
  pairwise : (f == g) = true ↔ List.Forall₂ Same f.tokens g.tokens
  unplaced : f.tokens.map Token.unplaced = g.tokens.map Token.unplaced →
    (f == g) = true ∧ f.digest = g.digest

/-- How a column compares when its clauses are cut in one way or another: alike with any column, on
    either side. -/
structure Column.Recut (c : Column) (fs gs : List Fragment) : Prop where
  definition_left (d : Column) : ({ c with clauses := fs } : Column).sameDefinition d =
    ({ c with clauses := gs } : Column).sameDefinition d
  definition_right (d : Column) : d.sameDefinition { c with clauses := fs } =
    d.sameDefinition { c with clauses := gs }
  beq_left (d : Column) :
    (({ c with clauses := fs } : Column) == d) = (({ c with clauses := gs } : Column) == d)
  beq_right (d : Column) :
    (d == ({ c with clauses := fs } : Column)) = (d == ({ c with clauses := gs } : Column))

theorem Token.compared (a b : Token) : a.Compared b where
  names ha hb := by
    rw [Bool.eq_iff_iff, beq_of_isWord ha hb, Name.beq_eq_true_iff]
    rfl
  letters ha hb := (beq_of_isWord ha hb).trans Text.fold_eq_iff
  written := beq_of_not_isWord
  apart := beq_of_isWord_ne

theorem Fragment.compared (f g : Fragment) : f.Compared g where
  tokens := beq_def f g
  pairwise := list_beq_iff_same
  unplaced h := by
    have hbeq : (f == g) = true := Token.beq_of_unplaced_eq h
    have hdigest := (append_digest_iff f g [] []).2 ⟨hbeq, rfl⟩
    rw [List.append_nil, List.append_nil] at hdigest
    exact ⟨hbeq, hdigest⟩

theorem Column.recut (c : Column) {fs gs : List Fragment}
    (h : (fs.flatMap (·.tokens) == gs.flatMap (·.tokens)) = true) : c.Recut fs gs := by
  have hbeq : (({ c with clauses := fs } : Column) == { c with clauses := gs }) = true := by
    rw [beq_def, sameDefinition, sameType, sameConstraints, clauseTokens, clauseTokens]
    simp [h]
  exact ⟨sameDefinition_congr hbeq, fun d => sameDefinition_congr_right d hbeq,
    fun _ => BEq.congr_left hbeq, fun _ => BEq.congr_right hbeq⟩

/-- **Equality is respected by hashing, for all that is compared.** Equality is an equivalence on
    tokens, names, fragments and columns. A hasher is handed the same for two values just if they
    are equal, so a set has what is equal to one of its values and nothing else. Two words are equal
    just if they are one name, and sequences of tokens are equal just if they are so token by token,
    so they can be joined and cut. Therefore it does not matter how the constraints of a column are
    cut into clauses. -/
theorem equality_respected :
    (Faithful Token.digest ∧ Faithful Name.digest ∧ Faithful Fragment.digest) ∧
    (∀ a b : Token, a.Compared b) ∧
    (∀ f g : Fragment, f.Compared g) ∧
    (∀ as as' bs bs' : List Token,
      ((as == as') = true → (as ++ bs == as' ++ bs') = (bs == bs')) ∧
      ((bs == bs') = true → (as ++ bs == as' ++ bs') = (as == as'))) ∧
    (Equivalence fun c d : Column => c.sameDefinition d = true) ∧
    (Equivalence fun c d : Column => (c == d) = true) ∧
    ∀ (c : Column) (fs gs : List Fragment),
      (fs.flatMap (·.tokens) == gs.flatMap (·.tokens)) = true → c.Recut fs gs := by
  refine ⟨⟨.of_append_iff Token.append_digest_iff, .of_append_iff Name.append_digest_iff,
    .of_append_iff Fragment.append_digest_iff⟩, Token.compared, Fragment.compared, ?_,
    ⟨Column.sameDefinition_refl, Column.sameDefinition_symm, Column.sameDefinition_trans⟩,
    equivalence_beq, fun c _ _ => c.recut⟩
  intro as as' bs bs'
  exact ⟨fun h => Token.append_beq_of_front h bs bs', fun h => Token.append_beq_of_back h as as'⟩

/-- A name that was never read, for its bracket is not closed, and a keyword that is no keyword's
    text: they are one word, and in front of a string they are one clause or two. -/
theorem equality_respected_of_malformed : ∃ a b t : Token,
    a = ⟨.quotedName, "[nUll", ⟨4, 2⟩⟩ ∧ b = ⟨.keyword .null, "[Null", ⟨0, 0⟩⟩ ∧
    t = ⟨.verbatim, "'é'", ⟨0, 4⟩⟩ ∧ (a == b) = true ∧
    (∀ h : Hasher, h.holds Token.digest [t, a] b = true) ∧
    (Name.ofToken a == Name.ofToken b) = true ∧ ([a] ++ [t] == [b] ++ [t]) = true ∧
    ∀ c : Column, c.Recut [⟨[a, t], "[nUll 'é'"⟩] [⟨[b], "[Null"⟩, ⟨[t], "'é'"⟩] := by
  obtain ⟨⟨htoken, -, -⟩, hcompared, -, hjoined, -, -, hrecut⟩ := equality_respected
  -- The kinds differ, and so do cases and places.
  have hbeq : ((⟨.quotedName, "[nUll", ⟨4, 2⟩⟩ : Token) == ⟨.keyword .null, "[Null", ⟨0, 0⟩⟩) =
      true := by
    decide +kernel
  refine ⟨_, _, _, rfl, rfl, rfl, hbeq, ?_, ?_, ?_, ?_⟩
  · intro h
    rw [htoken.holds]
    decide +kernel
  · rw [← (hcompared _ _).names rfl rfl]
    exact hbeq
  · rw [(hjoined _ _ _ _).1 (by simpa using hbeq)]
    exact ReflBEq.rfl
  · intro c
    refine hrecut c _ _ ?_
    simp [hbeq]

end TableRebuild
