import TableRebuild.Text.Alphabetic
import TableRebuild.Text.Numeric

/-!
# Character classes

Which characters separate tokens, which ones begin a bare name and which ones continue it. All
three are classes of Unicode, not of ASCII: a name may be written in any script, and a no-break
space between two words is a separator like any other.

The alphabetic and the numeric class answer ASCII directly and search their tables only from
U+0080 on. That is not only quicker; it keeps the facts about the punctuation of the language,
which is all ASCII, independent of the tables.
-/

namespace TableRebuild
namespace Text

/-- The characters with the Unicode property *White_Space*. -/
def blankRanges : List CodeRange := [
  ⟨0x0009, 0x000D⟩, ⟨0x0020, 0x0020⟩, ⟨0x0085, 0x0085⟩, ⟨0x00A0, 0x00A0⟩, ⟨0x1680, 0x1680⟩,
  ⟨0x2000, 0x200A⟩, ⟨0x2028, 0x2029⟩, ⟨0x202F, 0x202F⟩, ⟨0x205F, 0x205F⟩, ⟨0x3000, 0x3000⟩]

example : CodeRange.ascending blankRanges = true := by decide

/-- A character that separates tokens and is nothing else. -/
def isBlank (c : Char) : Bool :=
  CodeRange.anyContains blankRanges c

/-- A letter of some script, or a mark that counts as part of a word. -/
def isAlphabetic (c : Char) : Bool :=
  if c.toNat < 0x80 then c.isAlpha else CodeRange.anyContains Alphabetic.ranges c

/-- A digit of some script, or another number character such as a fraction. -/
def isNumeric (c : Char) : Bool :=
  if c.toNat < 0x80 then c.isDigit else CodeRange.anyContains Numeric.ranges c

def isWordStart (c : Char) : Bool :=
  isAlphabetic c || c == '_'

def isWordChar (c : Char) : Bool :=
  isAlphabetic c || isNumeric c || c == '_' || c == '$'

theorem isWordChar_of_isWordStart {c : Char} (h : isWordStart c = true) : isWordChar c = true := by
  simp only [isWordStart, Bool.or_eq_true] at h
  rcases h with h | h <;> simp [isWordChar, h]

end Text
end TableRebuild
