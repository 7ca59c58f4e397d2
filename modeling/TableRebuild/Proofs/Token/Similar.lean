import Mathlib.Data.List.Forall2
import TableRebuild.Proofs.Token.Lexing
import TableRebuild.Token.Placed

/-!
# Tokens that say the same

`Token.Similar` is what a user would call the same token in two statements: the same keyword in
whatever case, the same name in whatever case and between whatever marks, or anything else that is
written alike. It is about kinds and texts, and it is finer than `==`. A keyword and a quoted name
of the same letters are equal tokens, and nobody who reads a statement may take the one for the
other.

What the readers look at is less. `Token.Alike` is that: which keyword a token is, if any, and its
key. Similar tokens are alike, provided that a keyword is written as itself
(`Token.SpellsKeyword`). That proviso is no part of the type of tokens, but all tokens that come
from a text keep it (`Token.spellsKeyword_of_tokenize`).

There is one thing that a reader looks at and that alike tokens need not have in common: the text of
a word as written, quotes included. The cutting of clauses asks for it, and so similar statements
may be cut into clauses differently.
-/

namespace TableRebuild
namespace Token

/-- The same keyword, the same name up to case and quotes, or the same thing written alike. -/
inductive Similar : Token → Token → Prop
  | keyword {a b : Token} {k : Keyword} (ha : a.kind = .keyword k) (hb : b.kind = .keyword k) :
      Similar a b
  | name {a b : Token} (ha : a.kind = .quotedName ∨ a.kind = .bareName)
      (hb : b.kind = .quotedName ∨ b.kind = .bareName)
      (hname : Text.fold a.spelling = Text.fold b.spelling) : Similar a b
  | written {a b : Token} (ha : a.isWord = false) (hkind : a.kind = b.kind)
      (htext : a.text = b.text) : Similar a b

theorem similar_iff {a b : Token} : a.Similar b ↔
    a.kind = b.kind ∧ (a.keyword?.isSome ∨ a.isWord = false ∧ a.text = b.text) ∨
      (a.kind = .quotedName ∨ a.kind = .bareName) ∧ (b.kind = .quotedName ∨ b.kind = .bareName) ∧
        Text.fold a.spelling = Text.fold b.spelling := by
  constructor
  · intro h
    cases h with
    | keyword ha hb => exact .inl ⟨ha.trans hb.symm, .inl (by simp [keyword?, ha])⟩
    | name ha hb hname => exact .inr ⟨ha, hb, hname⟩
    | written ha hkind htext => exact .inl ⟨hkind, .inr ⟨ha, htext⟩⟩
  · rintro (⟨hkind, hkeyword | ⟨hword, htext⟩⟩ | ⟨ha, hb, hname⟩)
    · unfold keyword? at hkeyword
      split at hkeyword
      · rename_i k hk
        exact .keyword hk (hkind ▸ hk)
      · exact absurd hkeyword (by simp)
    · exact .written hword hkind htext
    · exact .name ha hb hname

instance (a b : Token) : Decidable (a.Similar b) := decidable_of_iff _ similar_iff.symm

/-- Whoever asks only for keywords, kinds and names cannot tell the tokens apart. -/
structure Alike (a b : Token) : Prop where
  keyword : a.keyword? = b.keyword?
  key : a.key = b.key

/-- A token that is a keyword is written as this keyword, in some case. -/
def SpellsKeyword (t : Token) : Prop :=
  ∀ k, t.kind = .keyword k → Text.fold t.text = Text.fold k.text

end Token

/-! ## Keywords are written as themselves -/

/-- Only a bare word is a keyword, and it is the keyword that it spells. -/
theorem Front.fold_of_keyword {cs text rest : List Char} {k : Keyword}
    (h : of cs = .token (.keyword k) text rest) :
    Text.fold (String.ofList text) = Text.fold k.text := by
  have hquoted : ∀ q start cs', quoted q start cs' ≠ .token (.keyword k) text rest := by
    intro q start cs' hq
    unfold quoted at hq
    split at hq
    · simp only [token.injEq] at hq
      have hkind := hq.1
      split at hkind <;> exact absurd hkind (by simp)
    · exact absurd hq (by simp)
  cases cs with
  | nil => exact absurd h (by simp [of])
  | cons c cs =>
    rw [of] at h
    split at h
    · split at h
      · exact absurd h (by simp [number])
      · exact absurd h (by simp)
    · exact absurd h (hquoted _ _ _)
    · split at h
      · exact absurd h (hquoted _ _ _)
      · split at h
        · exact absurd h (by simp [number])
        · split at h
          · simp only [word, token.injEq] at h
            obtain ⟨hkind, rfl, -⟩ := h
            unfold Kind.ofWord at hkind
            split at hkind
            · rename_i k' hk'
              rw [Kind.keyword.injEq] at hkind
              rw [← hkind]
              exact Keyword.ofText?_eq_some_iff.1 hk'
            · exact absurd hkind (by simp)
          · exact absurd h (by simp [operator])

namespace Token

theorem spellsKeyword_of_allRead {ls : List Lexeme} {rest : List Char} (h : Lexeme.AllRead ls rest)
    (offset : Nat) : ∀ t ∈ Lexeme.placeAll offset ls, t.SpellsKeyword := by
  induction ls generalizing offset with
  | nil =>
    intro t ht
    exact absurd ht List.not_mem_nil
  | cons l ls ih =>
    obtain ⟨hl, hls⟩ := h
    refine List.forall_mem_cons.2 ⟨?_, ih hls _⟩
    intro k hk
    obtain ⟨-, -, hfront⟩ := Lexeme.reads_iff.1 hl
    rw [show l.kind = .keyword k from hk] at hfront
    exact Front.fold_of_keyword hfront

/-- **In the tokens of a text every keyword is written as itself.** -/
theorem spellsKeyword_of_tokenize {text : String} {ts : List Token}
    (h : tokenize text = .ok ts) : ∀ t ∈ ts, t.SpellsKeyword := by
  simp only [tokenize] at h
  split at h
  · exact absurd h (by simp)
  · rw [← Except.ok.inj h]
    exact spellsKeyword_of_allRead (Lexing.allRead_of text.toList) 0

/-! ## What alike tokens have in common -/

variable {a b : Token}

theorem Alike.isWord (h : a.Alike b) : a.isWord = b.isWord := by
  have hkey := h.key
  unfold Token.key at hkey
  cases ha : a.isWord with
  | true =>
    cases hb : b.isWord with
    | true => rfl
    | false => simp [ha, hb] at hkey
  | false =>
    cases hb : b.isWord with
    | true => simp [ha, hb] at hkey
    | false => rfl

theorem Alike.isKeyword (h : a.Alike b) (k : Keyword) : a.isKeyword k = b.isKeyword k := by
  have hiff : ∀ t : Token, t.isKeyword k = true ↔ t.keyword? = some k := by
    intro t
    unfold Token.isKeyword keyword?
    cases t.kind <;> simp
  rw [Bool.eq_iff_iff, hiff, hiff, h.keyword]

theorem Alike.isDelimiter (h : a.Alike b) (d : Delimiter) : a.isDelimiter d = b.isDelimiter d := by
  have hword := h.isWord
  cases ha : a.isWord with
  | true => rw [isDelimiter_of_isWord ha, isDelimiter_of_isWord (hword ▸ ha)]
  | false =>
    have hkey := h.key
    simp only [Token.key, ha, ← hword, Bool.false_eq_true, ↓reduceIte, Key.written.injEq] at hkey
    rw [Token.isDelimiter, Token.isDelimiter, hkey.1]

/-- Alike tokens are one name. Only words are ever used as names, but for the rest it holds too. -/
theorem Alike.fold_spelling (h : a.Alike b) : Text.fold a.spelling = Text.fold b.spelling := by
  have hkey := h.key
  cases ha : a.isWord with
  | true =>
    simp only [Token.key, ha, ← h.isWord, ↓reduceIte, Key.word.injEq] at hkey
    exact hkey
  | false =>
    simp only [Token.key, ha, ← h.isWord, Bool.false_eq_true, ↓reduceIte, Key.written.injEq] at hkey
    rw [spelling, spelling, hkey.1, hkey.2]

/-- Alike lists of tokens are equal. -/
theorem beq_of_alike {as bs : List Token} (h : List.Forall₂ Alike as bs) : (as == bs) = true := by
  rw [list_beq_eq_true_iff]
  induction h with
  | nil => rfl
  | cons hab _ ih => rw [List.map_cons, List.map_cons, hab.key, ih]

/-! ## Similar tokens are alike -/

theorem Similar.alike (h : a.Similar b) (ha : a.SpellsKeyword) (hb : b.SpellsKeyword) :
    a.Alike b := by
  cases h with
  | @keyword k hka hkb =>
    have hfold : Text.fold a.text = Text.fold b.text := (ha k hka).trans (hb k hkb).symm
    constructor
    · simp [keyword?, hka, hkb]
    · simp [key, Token.isWord, hka, hkb, Kind.isWord, spelling, hfold]
  | name hka hkb hname =>
    have hword : ∀ t : Token, t.kind = .quotedName ∨ t.kind = .bareName →
        t.isWord = true ∧ t.keyword? = none := by
      rintro t (ht | ht)
      · simp [Token.isWord, keyword?, ht, Kind.isWord]
      · simp [Token.isWord, keyword?, ht, Kind.isWord]
    constructor
    · rw [(hword a hka).2, (hword b hkb).2]
    · simp [key, (hword a hka).1, (hword b hkb).1, hname]
  | written hword hkind htext =>
    have hword' : b.isWord = false := by
      rw [← hword, Token.isWord, Token.isWord, hkind]
    constructor
    · rw [keyword?, keyword?, hkind]
    · simp [key, hword, hword', hkind, htext]

theorem alike_of_similar {as bs : List Token} (h : List.Forall₂ Similar as bs)
    (has : ∀ t ∈ as, t.SpellsKeyword) (hbs : ∀ t ∈ bs, t.SpellsKeyword) :
    List.Forall₂ Alike as bs := by
  induction h with
  | nil => exact .nil
  | cons hab _ ih =>
    obtain ⟨ha, has⟩ := List.forall_mem_cons.1 has
    obtain ⟨hb, hbs⟩ := List.forall_mem_cons.1 hbs
    exact .cons (hab.alike ha hb) (ih has hbs)

end Token
end TableRebuild
