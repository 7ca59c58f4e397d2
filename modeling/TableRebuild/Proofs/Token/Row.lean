import Mathlib.Data.List.Forall2
import TableRebuild.Proofs.Token.Legible

/-!
# Fragments in a row

The parts of a column are written one after the other with a space before each. This file is about
such rows: what they are written as, that every part ends at the space behind it, and that the parts
can be cut out again where they stand (`Fragment.exists_of_row`).

A part without tokens is written as nothing, without a space. That is why a type that is not there
needs no case of its own: it is a part like the others.
-/

namespace TableRebuild

/-- Texts with a separator between them are the first text, and the separator before each of the
    others. -/
theorem toList_intercalate_cons (separator text : String) (texts : List String) :
    (separator.intercalate (text :: texts)).toList =
      text.toList ++ texts.flatMap fun s => separator.toList ++ s.toList := by
  rw [String.toList_intercalate]
  induction texts generalizing text with
  | nil => simp
  | cons next texts ih =>
    have hnext := ih next
    rw [List.map_cons] at hnext
    rw [List.map_cons, List.map_cons, List.intercalate_cons_cons, hnext, List.flatMap_cons]
    simp

namespace Lexeme

/-- The lexemes one after the other, with a space before each group. -/
def row (groups : List (List Lexeme)) : List Lexeme := groups.flatMap (withGap [' '])

theorem row_cons (ls : List Lexeme) (groups : List (List Lexeme)) :
    row (ls :: groups) = withGap [' '] ls ++ row groups := rfl

/-- A row begins with a space, if it is not empty. -/
theorem sameEdge_row (groups : List (List Lexeme)) {rest : List Char}
    (hrest : SameEdge [] rest) : SameEdge [] ((row groups).flatMap written ++ rest) := by
  induction groups with
  | nil => exact hrest
  | cons ls groups ih =>
    cases ls with
    | nil => exact ih
    | cons l ls =>
      have hspace : ' ' ∈ breaks := List.mem_cons_self
      exact SameEdge.cons hspace _ _

theorem allRead_row {groups : List (List Lexeme)} (h : ∀ ls ∈ groups, AllRead ls [])
    {rest : List Char} (hrest : SameEdge [] rest) : AllRead (row groups) rest := by
  induction groups with
  | nil => trivial
  | cons ls groups ih =>
    obtain ⟨hls, hgroups⟩ := List.forall_mem_cons.1 h
    rw [row_cons, allRead_append]
    refine ⟨?_, ih hgroups⟩
    exact (hls.withGap Gap.closed_space).of_sameEdge (sameEdge_row groups hrest)

end Lexeme

namespace Fragment

open Lexeme

/-- The lexemes are what the fragment's text falls into, and its tokens. -/
def Spells (f : Fragment) (ls : List Lexeme) : Prop :=
  Spelled ls f.text.toList ∧ ls.map token = f.tokens.map Token.unplaced

theorem exists_groups {fs : List Fragment} (h : ∀ f ∈ fs, f.Legible) :
    ∃ groups, List.Forall₂ Spells fs groups := by
  induction fs with
  | nil => exact ⟨[], .nil⟩
  | cons f fs ih =>
    obtain ⟨hf, hfs⟩ := List.forall_mem_cons.1 h
    obtain ⟨ls, hls⟩ := hf
    obtain ⟨groups, hgroups⟩ := ih hfs
    exact ⟨ls :: groups, .cons hls hgroups⟩

variable {fs : List Fragment} {groups : List (List Lexeme)}

theorem isEmpty_eq_of_spells {f : Fragment} {ls : List Lexeme} (h : f.Spells ls) :
    f.isEmpty = ls.isEmpty := by
  have hmap := congrArg List.isEmpty h.2
  rw [List.isEmpty_map, List.isEmpty_map] at hmap
  exact hmap.symm

theorem allRead_of_spells (h : List.Forall₂ Spells fs groups) : ∀ ls ∈ groups, AllRead ls [] := by
  induction h with
  | nil => simp
  | cons hf _ ih => exact List.forall_mem_cons.2 ⟨hf.1.allRead, ih⟩

theorem map_token_row (h : List.Forall₂ Spells fs groups) :
    (row groups).map token = (fs.flatMap (·.tokens)).map Token.unplaced := by
  induction h with
  | nil => rfl
  | cons hf _ ih =>
    rw [row_cons, List.map_append, map_token_withGap, hf.2, ih, List.flatMap_cons, List.map_append]

/-- What a row of fragments is written as. -/
theorem written_row (h : List.Forall₂ Spells fs groups) : (row groups).flatMap written =
    fs.flatMap fun f => if f.isEmpty then [] else ' ' :: f.text.toList := by
  induction h with
  | nil => rfl
  | @cons f ls fs groups hf _ ih =>
    have hempty := isEmpty_eq_of_spells hf
    rw [row_cons, List.flatMap_append, ih, List.flatMap_cons, hempty]
    cases ls with
    | nil => rfl
    | cons l ls =>
      rw [hf.1.written_withGap (List.cons_ne_nil _ _)]
      rfl

/-- **The fragments of a row can be cut out of it again**, wherever it stands. -/
theorem exists_of_row (h : List.Forall₂ Spells fs groups) {source : String} {pre post : List Char}
    (hsource : source.toList = pre ++ (row groups).flatMap written ++ post) :
    ∃ parts : List (List Token), placeAll (Text.byteLength pre) (row groups) = parts.flatten ∧
      (parts.map (ofTokens · source)).map Fragment.unplaced = fs.map Fragment.unplaced := by
  induction h generalizing pre with
  | nil => exact ⟨[], rfl, rfl⟩
  | @cons f ls fs groups hf _ ih =>
    rw [row_cons, List.flatMap_append] at hsource
    have hrest : source.toList = (pre ++ (withGap [' '] ls).flatMap written) ++
        (row groups).flatMap written ++ post := by simpa using hsource
    obtain ⟨parts, hparts, hsame⟩ := ih hrest
    have hcut : source.toList = pre ++ (withGap [' '] ls).flatMap written ++
        ((row groups).flatMap written ++ post) := by simpa using hsource
    refine ⟨placeAll (Text.byteLength pre) (withGap [' '] ls) :: parts, ?_, ?_⟩
    · rw [row_cons, placeAll_append, List.flatten_cons, ← hparts, Text.byteLength_append]
    · rw [List.map_cons, List.map_cons, List.map_cons, hsame, unplaced_ofTokens hf.1 hf.2 hcut]

end Fragment
end TableRebuild
