import TableRebuild.Text.Bytes

/-!
# Spans

A span says where in a text something stands: from one byte offset up to another. It is a pair of
numbers and knows nothing of the text, so it may as well be inverted or reach past the end. Only
`textIn` meets a text, and it answers such a span with the empty text.
-/

namespace TableRebuild

/-- The bytes from `start` up to, and not including, `stop`. -/
structure Span where
  start : Nat
  stop : Nat
deriving DecidableEq, Repr, Inhabited

namespace Span

def point (offset : Nat) : Span := ⟨offset, offset⟩

def isEmpty (s : Span) : Bool := s.start == s.stop

/-- The number of bytes covered; `none` for an inverted span. -/
def length? (s : Span) : Option Nat :=
  if s.start ≤ s.stop then some (s.stop - s.start) else none

def join (a b : Span) : Span := ⟨min a.start b.start, max a.stop b.stop⟩

/-- The same span in a text that has `n` bytes put before it. -/
def shift (n : Nat) (s : Span) : Span := ⟨n + s.start, n + s.stop⟩

/-- The text under the span; empty where the span is inverted, reaches past the end or cuts a
    character in two. -/
def textIn (s : Span) (text : String) : String :=
  String.ofList ((Text.slice? s.start s.stop text.toList).getD [])

@[simp] theorem join_self (a : Span) : a.join a = a := by
  simp [join]

end Span
end TableRebuild
