import TableRebuild.Proofs.Definition.Outline

/-!
# The items of a column list

A column list is cut into pieces at its commas, and the pieces become items. The pieces of a list
are stretches of it, and are pieces in the sense of `Item.isPiece`. In the other direction a list
can be built up from such pieces, one piece and one comma at a time, and is cut into them again
(`Item.pieces_append`).

`Body.items_eq_ok_iff` puts what the model does in two steps, cutting and refusing empty pieces,
into one equation between lists of tokens. Everything else here is read off that equation.
-/

namespace TableRebuild
namespace Item

open Nesting

variable {ts piece : List Token}

/-- The pieces between the commas. -/
def pieces (ts : List Token) : List (List Token) := (cut 0 ts).1 :: (cut 0 ts).2.map (·.2)

theorem isInfix_of_mem_pieces (h : piece ∈ pieces ts) : piece <:+: ts := by
  have hflat := flatten_cut 0 ts
  rcases List.mem_cons.1 h with rfl | h
  · exact ⟨[], _, hflat⟩
  · obtain ⟨⟨comma, next⟩, hp, rfl⟩ := List.mem_map.1 h
    have hrest := (⟨(cut 0 ts).1, [], (List.append_nil _).trans hflat⟩ : _ <:+: ts)
    have hcomma := (List.infix_of_mem_flatten (List.mem_map_of_mem hp)).trans hrest
    exact (List.suffix_cons comma next).isInfix.trans hcomma

theorem isPiece_of_mem_pieces (hts : balanced 0 ts = true) (h : piece ∈ pieces ts) :
    isPiece piece = true := by
  obtain ⟨hbal, hwhole, hmore⟩ := balanced_cut hts
  rcases List.mem_cons.1 h with rfl | h
  · rw [isPiece, hbal, hwhole]
    rfl
  · obtain ⟨p, hp, rfl⟩ := List.mem_map.1 h
    exact (hmore p hp).2

theorem pieces_of_isPiece (h : isPiece piece = true) : pieces piece = [piece] := by
  rw [pieces, cut_of_whole (Bool.and_eq_true_iff.1 h).2]
  rfl

/-- **A piece and a comma in front are one piece more.** -/
theorem pieces_append {comma : Token} (h : isPiece piece = true)
    (hcomma : comma.isDelimiter .comma = true) (rest : List Token) :
    pieces (piece ++ comma :: rest) = piece :: pieces rest := by
  obtain ⟨hbal, hwhole⟩ := Bool.and_eq_true_iff.1 h
  rw [pieces, cut_append hbal hwhole hcomma]
  rfl

theorem balanced_append_comma {comma : Token} {rest : List Token} (h : isPiece piece = true)
    (hcomma : comma.isDelimiter .comma = true) (hrest : balanced 0 rest = true) :
    balanced 0 (piece ++ comma :: rest) = true := by
  apply balanced_append (Bool.and_eq_true_iff.1 h).1
  rw [balanced_cons_iff, after_comma hcomma]
  refine ⟨?_, hrest⟩
  rintro ⟨hparen, -⟩
  exact absurd hcomma (by simp [Token.isDelimiter, eq_of_beq hparen])

/-! ## Pieces with commas between them -/

/-- The tokens are the pieces, with one comma between each two of them. -/
inductive Separated : List (List Token) → List Token → Prop
  | last (piece : List Token) : Separated [piece] piece
  | comma {piece ts : List Token} {pieces : List (List Token)} {comma : Token}
      (hcomma : comma.isDelimiter .comma = true) (h : Separated pieces ts) :
      Separated (piece :: pieces) (piece ++ comma :: ts)

/-- A token in front belongs to the first piece. -/
theorem Separated.cons {ps : List (List Token)} (h : Separated (piece :: ps) ts) (t : Token) :
    Separated ((t :: piece) :: ps) (t :: ts) := by
  cases h with
  | last => exact .last _
  | @comma _ rest _ comma hcomma h =>
    rw [← List.cons_append]
    exact .comma hcomma h

theorem separated_cut (depth : Nat) (ts : List Token) :
    Separated ((cut depth ts).1 :: (cut depth ts).2.map (·.2)) ts := by
  fun_induction cut depth ts with
  | case1 => exact .last []
  | case2 depth t rest hcomma piece more hcut ih =>
    rw [hcut] at ih
    rw [← List.nil_append (t :: rest)]
    exact .comma hcomma.1 ih
  | case3 depth t rest hcomma piece more hcut ih =>
    rw [hcut] at ih
    exact ih.cons t

/-- **The pieces of a balanced list** are what it falls into at commas so that each piece is
    balanced and has no comma outside parentheses. There is one such way to cut it. -/
theorem pieces_eq_iff {ps : List (List Token)} (hts : Balanced 0 ts) : pieces ts = ps ↔
    Separated ps ts ∧ ∀ p ∈ ps, Balanced 0 p ∧ OnlyInside 0 (·.isDelimiter .comma) p := by
  simp only [← isPiece_iff]
  constructor
  · rintro rfl
    refine ⟨separated_cut 0 ts, ?_⟩
    intro p hp
    exact isPiece_of_mem_pieces (balanced_eq_true_iff.2 hts) hp
  · rintro ⟨h, hps⟩
    clear hts
    induction h with
    | last piece => exact pieces_of_isPiece (hps piece List.mem_cons_self)
    | comma hcomma _ ih =>
      obtain ⟨hpiece, hmore⟩ := List.forall_mem_cons.1 hps
      rw [pieces_append hpiece hcomma, ih hmore]

/-! ## From pieces to items -/

theorem map_fst_withEnders (last : Token) (piece : List Token) (more : List (Token × List Token)) :
    (withEnders last piece more).map (·.1) = piece :: more.map (·.2) := by
  induction more generalizing piece with
  | nil => rfl
  | cons p more ih => rw [withEnders, List.map_cons, ih, List.map_cons]

theorem mapM_ofPiece_eq_ok_iff {ps : List (List Token × Token)} {items : List Item} :
    ps.mapM ofPiece = .ok items ↔ ps.map (·.1) = items.map tokens := by
  induction ps generalizing items with
  | nil =>
    cases items with
    | nil => simp [pure, Except.pure]
    | cons i items => simp [pure, Except.pure]
  | cons p ps ih =>
    rw [List.mapM_cons]
    constructor
    · intro h
      obtain ⟨i, hi, h⟩ := Except.bind_eq_ok_iff.1 h
      obtain ⟨is, his, h⟩ := Except.bind_eq_ok_iff.1 h
      simp only [pure, Except.pure, Except.ok.injEq] at h
      rw [← h, List.map_cons, List.map_cons, ofPiece_eq_ok_iff.1 hi, ih.1 his]
    · intro h
      obtain ⟨i, is, rfl, hi, his⟩ := List.map_eq_cons_iff.1 h.symm
      rw [ofPiece_eq_ok_iff.2 hi.symm, ih.2 his.symm]
      rfl

end Item

/-- **The items of a column list are its pieces**, of which none may be empty. -/
theorem Body.items_eq_ok_iff {b : Body} {items : List Item} :
    b.items = .ok items ↔ Item.pieces b.inner = items.map Item.tokens := by
  unfold Body.items
  split
  · -- Nothing between the parentheses is a single piece, which is empty.
    rename_i hempty
    rw [List.isEmpty_iff.1 hempty]
    cases items with
    | nil => simp [Item.pieces]
    | cons i items => simp [Item.pieces, Item.cut, Item.tokens]
  · rw [Item.mapM_ofPiece_eq_ok_iff, Item.map_fst_withEnders, Item.pieces]

end TableRebuild
