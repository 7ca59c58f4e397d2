import TableRebuild.Fragment
import TableRebuild.Name

/-!
# What is hashed

Tokens, names and fragments are kept in sets that find a value by a number, its hash. How numbers
are made is left to a hasher. It is handed a value in pieces, one after the other, and what the
pieces are is the value's own business and is said here: the `digest` of the value.

`==` and `digest` are two programs. The one compares spellings up to case and the other folds a
spelling and hands it on, and a token says in front which half it belongs to, words or the rest,
where `==` asks it. Nothing in this module makes the two agree.
-/

namespace TableRebuild

/-- What a hasher is handed at once. -/
inductive Hasher.Input where
  | byte (b : UInt8)
  /-- Which of its cases a value is, by the place of the case. -/
  | variant (n : Nat)
  /-- How many values follow. -/
  | length (n : Nat)
  | text (s : String)
deriving DecidableEq, Repr

/-- A way to make numbers of pieces. -/
structure Hasher where
  State : Type
  start : State
  take : State → Hasher.Input → State
  finish : State → UInt64

def Hasher.hash (h : Hasher) (digest : List Hasher.Input) : UInt64 :=
  h.finish (digest.foldl h.take h.start)

def Keyword.digest (k : Keyword) : List Hasher.Input := [.variant k.ctorIdx]

def Delimiter.digest (d : Delimiter) : List Hasher.Input := [.variant d.ctorIdx]

def Kind.digest : Kind → List Hasher.Input
  | keyword k => .variant 0 :: k.digest
  | quotedName => [.variant 1]
  | bareName => [.variant 2]
  | delimiter d => .variant 3 :: d.digest
  | verbatim => [.variant 4]

def Token.digest (t : Token) : List Hasher.Input :=
  if t.isWord then [.byte 0, .text (Text.fold t.spelling)]
  else .byte 1 :: t.kind.digest ++ [.text t.text]

def Name.digest (n : Name) : List Hasher.Input := [.text n.folded]

def Fragment.digest (f : Fragment) : List Hasher.Input :=
  .length f.tokens.length :: f.tokens.flatMap Token.digest

end TableRebuild
