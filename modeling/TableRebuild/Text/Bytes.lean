/-!
# Byte offsets

Positions in a statement are counted in bytes of its UTF-8 form, because that is what editors and
databases report. The text itself is handled as a list of characters, so an offset has to be
turned into a cut between two characters, and not every offset is one: an offset may fall inside
a character or past the end. `cutAt` says which it is, and `slice?` gives the text between two
offsets, or nothing when one of them is no cut. Asking for a slice is thus always safe.
-/

namespace TableRebuild
namespace Text

/-- How many bytes the characters take in UTF-8. -/
def byteLength : List Char → Nat
  | [] => 0
  | c :: cs => c.utf8Size + byteLength cs

/-- The characters before and after a byte offset; `none` where the offset is not between two
    characters. -/
def cutAt : Nat → List Char → Option (List Char × List Char)
  | 0, cs => some ([], cs)
  | _ + 1, [] => none
  | n + 1, c :: cs =>
    if c.utf8Size ≤ n + 1 then
      (cutAt (n + 1 - c.utf8Size) cs).map fun (before, after) => (c :: before, after)
    else none

/-- The characters from one byte offset up to another. -/
def slice? (start stop : Nat) (cs : List Char) : Option (List Char) :=
  if start ≤ stop then do
    let (_, after) ← cutAt start cs
    let (inside, _) ← cutAt (stop - start) after
    return inside
  else none

@[simp] theorem byteLength_nil : byteLength [] = 0 := rfl

@[simp] theorem byteLength_cons (c : Char) (cs : List Char) :
    byteLength (c :: cs) = c.utf8Size + byteLength cs := rfl

@[simp] theorem byteLength_append (as bs : List Char) :
    byteLength (as ++ bs) = byteLength as + byteLength bs := by
  induction as with
  | nil => simp
  | cons c as ih => simp [ih, Nat.add_assoc]

/-- An offset that is the length of a first part cuts behind that part. -/
@[simp] theorem cutAt_byteLength (as bs : List Char) :
    cutAt (byteLength as) (as ++ bs) = some (as, bs) := by
  induction as with
  | nil => simp [cutAt]
  | cons c as ih =>
    have hpos := c.utf8Size_pos
    obtain ⟨n, hn⟩ : ∃ n, byteLength (c :: as) = n + 1 :=
      ⟨byteLength (c :: as) - 1, by simp; omega⟩
    have hle : c.utf8Size ≤ n + 1 := by rw [← hn]; simp
    have hsub : n + 1 - c.utf8Size = byteLength as := by rw [← hn]; simp
    rw [hn, List.cons_append, cutAt, if_pos hle, hsub, ih]
    rfl

/-- The slice between the lengths of a first part and of a first and a second part is the
    second part. -/
theorem slice?_middle (as bs cs : List Char) :
    slice? (byteLength as) (byteLength as + byteLength bs) (as ++ bs ++ cs) = some bs := by
  simp [slice?, List.append_assoc]

end Text
end TableRebuild
