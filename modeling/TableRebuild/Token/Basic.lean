import TableRebuild.Keyword
import TableRebuild.Span
import TableRebuild.Text.Quote

/-!
# Tokens

A token is a piece of a statement with its kind, its text as written and its place. The kinds fall
into two halves, and everything that compares tokens follows that division.

* **Words** (keywords, bare names, quoted names) name something. Which of the three a word is does
  not matter to what it names, nor does its case: `Title`, `"TITLE"` and a keyword used as a
  column name are compared by their spelling without quotes, folded.
* **The rest** (delimiters, numbers, strings, operators) is compared as written: `'a'` and `'A'`
  are two strings.

So `==` on tokens is coarser than equality of the records, and it is the only comparison the
library uses. The place of a token never matters to it.
-/

namespace TableRebuild

inductive Delimiter where
  | leftParen
  | rightParen
  | comma
  | semicolon
  | dot
deriving DecidableEq, Repr

namespace Delimiter

def ofChar? : Char → Option Delimiter
  | '(' => some .leftParen
  | ')' => some .rightParen
  | ',' => some .comma
  | ';' => some .semicolon
  | '.' => some .dot
  | _ => none

def char : Delimiter → Char
  | .leftParen => '('
  | .rightParen => ')'
  | .comma => ','
  | .semicolon => ';'
  | .dot => '.'

theorem ofChar?_eq_some_iff {c : Char} {d : Delimiter} : ofChar? c = some d ↔ c = d.char := by
  constructor
  · intro h
    unfold ofChar? at h
    split at h <;> simp at h <;> subst h <;> rfl
  · rintro rfl
    cases d <;> rfl

end Delimiter

inductive Kind where
  | keyword (k : Keyword)
  | quotedName
  /-- A word that is no keyword. -/
  | bareName
  | delimiter (d : Delimiter)
  /-- A number, a string or a run of operator characters: whatever is compared as written. -/
  | verbatim
deriving DecidableEq, Repr

namespace Kind

def isWord : Kind → Bool
  | keyword _ | quotedName | bareName => true
  | delimiter _ | verbatim => false

/-- The kind of a bare word, which its text decides. -/
def ofWord (word : String) : Kind :=
  match Keyword.ofText? word with
  | some k => .keyword k
  | none => .bareName

end Kind

structure Token where
  kind : Kind
  /-- The token as written, quotes included. -/
  text : String
  span : Span
deriving Repr

namespace Token

def isWord (t : Token) : Bool := t.kind.isWord

def keyword? (t : Token) : Option Keyword :=
  match t.kind with
  | .keyword k => some k
  | _ => none

def isKeyword (t : Token) (k : Keyword) : Bool := t.kind == .keyword k

def isDelimiter (t : Token) (d : Delimiter) : Bool := t.kind == .delimiter d

/-- The token's text without the quotes of a quoted name. -/
def spelling (t : Token) : String :=
  match t.kind with
  | .quotedName => String.ofList (Quote.unquote t.text.toList)
  | _ => t.text

/-- Whether the token's text as written is this word, up to case. Quotes count: `"set"` does not
    spell `set`. -/
def spells (t : Token) (word : String) : Bool :=
  t.isWord && Text.sameFold t.text word

theorem isWord_of_keyword? {t : Token} {k : Keyword} (h : t.keyword? = some k) :
    t.isWord = true := by
  unfold keyword? at h
  unfold isWord
  cases hk : t.kind with
  | keyword k' => rfl
  | quotedName | bareName | delimiter _ | verbatim => simp [hk] at h

/-- What names something separates nothing. -/
theorem isDelimiter_of_isWord {t : Token} (h : t.isWord = true) (d : Delimiter) :
    t.isDelimiter d = false := by
  rw [isDelimiter, beq_eq_false_iff_ne]
  intro hk
  rw [isWord, hk] at h
  exact absurd h Bool.false_ne_true

/-- The same token in a text that has `n` bytes put before it. -/
def shift (n : Nat) (t : Token) : Token := { t with span := t.span.shift n }

/-- Words by what they name, the rest as written, and never one with the other. -/
instance : BEq Token where
  beq a b :=
    match a.isWord, b.isWord with
    | true, true => Text.sameFold a.spelling b.spelling
    | false, false => a.kind == b.kind && a.text == b.text
    | _, _ => false

/-- What a token is filed under in a set of tokens. -/
inductive Key where
  | word (folded : String)
  | written (kind : Kind) (text : String)
deriving DecidableEq, Repr

/-- The key of a token: the folded name of a word, the kind and text of anything else. -/
def key (t : Token) : Key :=
  if t.isWord then .word (Text.fold t.spelling) else .written t.kind t.text

/-- Two tokens are equal exactly when they have the same key, so a look-up by key finds what a
    search with `==` would. -/
theorem beq_eq_true_iff {a b : Token} : (a == b) = true ↔ a.key = b.key := by
  show (match a.isWord, b.isWord with
    | true, true => Text.sameFold a.spelling b.spelling
    | false, false => a.kind == b.kind && a.text == b.text
    | _, _ => false) = true ↔ _
  cases ha : a.isWord <;> cases hb : b.isWord <;> simp [key, ha, hb]

instance : EquivBEq Token where
  rfl := beq_eq_true_iff.2 rfl
  symm h := beq_eq_true_iff.2 (beq_eq_true_iff.1 h).symm
  trans h h' := beq_eq_true_iff.2 ((beq_eq_true_iff.1 h).trans (beq_eq_true_iff.1 h'))

/-- Sequences of tokens are equal exactly when their sequences of keys are. -/
theorem list_beq_eq_true_iff {as bs : List Token} :
    (as == bs) = true ↔ as.map key = bs.map key := by
  induction as generalizing bs with
  | nil => cases bs <;> simp
  | cons a as ih => cases bs <;> simp [beq_eq_true_iff, ih]

instance : EquivBEq (List Token) where
  rfl := list_beq_eq_true_iff.2 rfl
  symm h := list_beq_eq_true_iff.2 (list_beq_eq_true_iff.1 h).symm
  trans h h' :=
    list_beq_eq_true_iff.2 ((list_beq_eq_true_iff.1 h).trans (list_beq_eq_true_iff.1 h'))

end Token
end TableRebuild
