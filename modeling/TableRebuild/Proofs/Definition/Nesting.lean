import TableRebuild.Definition.Item
import TableRebuild.Proofs.Token.Unplaced

/-!
# Balanced tokens and the pieces between commas

Three readers count parentheses: the one that finds the end of the column list, the one that cuts it
at commas, and the ones that look for the end of a type and of a clause. This file says what they
have in common, as a property of tokens.

`Nesting.balanced depth ts` means that `ts` closes the `depth` parentheses that are open before it
and every one that it opens, and no other. The body of a statement is balanced by construction
(`closing_eq_some_iff`, in both directions), and the pieces between its commas are again
(`Item.balanced_cut`). In balanced tokens no counter is ever asked to go below zero.

`Item.whole depth ts` means that there is no comma at depth zero, so the tokens are one piece and
not several. Balanced whole pieces, put together with commas, fall into the same pieces again.
-/

namespace TableRebuild
namespace Nesting

@[simp] theorem after_unplaced (depth : Nat) (t : Token) : after depth t.unplaced = after depth t :=
  rfl

theorem after_comma {t : Token} (h : t.isDelimiter .comma = true) (depth : Nat) :
    after depth t = depth := by
  simp [after, eq_of_beq h]

theorem after_of_isWord {t : Token} (h : t.isWord = true) (depth : Nat) :
    after depth t = depth := by
  unfold after
  split <;> rename_i hk
  · rw [Token.isWord, hk] at h
    exact absurd h Bool.false_ne_true
  · rw [Token.isWord, hk] at h
    exact absurd h Bool.false_ne_true
  · rfl

/-- One more parenthesis that is open before a token is open behind it as well. -/
theorem after_succ {depth : Nat} {t : Token} (h : ¬(t.isDelimiter .rightParen = true ∧ depth = 0)) :
    after (depth + 1) t = after depth t + 1 := by
  unfold after
  split
  · rfl
  · rename_i hk
    have hright : t.isDelimiter .rightParen = true := by
      rw [Token.isDelimiter, hk, beq_self_eq_true]
    have hdepth : depth ≠ 0 := fun hzero => h ⟨hright, hzero⟩
    omega
  · rfl

/-- Whether the tokens close the `depth` parentheses open before them, and besides these exactly
    the ones that they open. -/
def balanced (depth : Nat) : List Token → Bool
  | [] => depth == 0
  | t :: rest => !(t.isDelimiter .rightParen && depth == 0) && balanced (after depth t) rest

theorem balanced_cons_iff {depth : Nat} {t : Token} {rest : List Token} :
    balanced depth (t :: rest) = true ↔
      ¬(t.isDelimiter .rightParen = true ∧ depth = 0) ∧ balanced (after depth t) rest = true := by
  simp only [balanced, Bool.and_eq_true, Bool.not_eq_true', ← Bool.not_eq_true, beq_iff_eq]

@[simp] theorem balanced_map_unplaced (depth : Nat) (ts : List Token) :
    balanced depth (ts.map Token.unplaced) = balanced depth ts := by
  induction ts generalizing depth with
  | nil => rfl
  | cons t ts ih => simp [balanced, ih]

theorem balanced_append {depth : Nat} {as bs : List Token} (ha : balanced depth as = true)
    (hb : balanced 0 bs = true) : balanced depth (as ++ bs) = true := by
  induction as generalizing depth with
  | nil =>
    have hdepth : depth = 0 := by simpa [balanced] using ha
    rw [hdepth]
    exact hb
  | cons t as ih =>
    rw [balanced_cons_iff] at ha
    rw [List.cons_append, balanced_cons_iff]
    exact ⟨ha.1, ih ha.2⟩

/-- **The body of a list is what is balanced up to a closing parenthesis.** Both directions: what
    is found is balanced, and balanced tokens before a closing parenthesis are found. -/
theorem closing_eq_some_iff {depth : Nat} {ts inside follow : List Token} {close : Token} :
    closing depth ts = some (inside, close, follow) ↔
      ts = inside ++ close :: follow ∧ close.isDelimiter .rightParen = true ∧
        balanced depth inside = true := by
  constructor
  · intro h
    obtain ⟨hts, hclose⟩ := closing_eq_some h
    refine ⟨hts, hclose, ?_⟩
    fun_induction closing depth ts generalizing inside with
    | case1 => exact absurd h (by simp)
    | case2 depth t rest hc =>
      simp only [Option.some.injEq, Prod.mk.injEq] at h
      rw [← h.1, hc.2]
      rfl
    | case3 depth t rest hc ih =>
      obtain ⟨⟨i, c, f⟩, hi, he⟩ := Option.map_eq_some_iff.1 h
      simp only [Prod.mk.injEq] at he
      obtain ⟨rfl, rfl, rfl⟩ := he
      rw [balanced_cons_iff]
      refine ⟨hc, ih hi ?_⟩
      simpa using hts
  · rintro ⟨rfl, hclose, hbal⟩
    induction inside generalizing depth with
    | nil =>
      have hdepth : depth = 0 := by simpa [balanced] using hbal
      rw [List.nil_append, closing, if_pos ⟨hclose, hdepth⟩]
    | cons t inside ih =>
      rw [balanced_cons_iff] at hbal
      rw [List.cons_append, closing, if_neg hbal.1, ih hbal.2]
      rfl

end Nesting

namespace Item

open Nesting

/-- Whether no comma stands outside parentheses. -/
def whole (depth : Nat) : List Token → Bool
  | [] => true
  | t :: rest => !(t.isDelimiter .comma && depth == 0) && whole (after depth t) rest

theorem whole_cons_iff {depth : Nat} {t : Token} {rest : List Token} :
    whole depth (t :: rest) = true ↔
      ¬(t.isDelimiter .comma = true ∧ depth = 0) ∧ whole (after depth t) rest = true := by
  simp only [whole, Bool.and_eq_true, Bool.not_eq_true', ← Bool.not_eq_true, beq_iff_eq]

@[simp] theorem whole_map_unplaced (depth : Nat) (ts : List Token) :
    whole depth (ts.map Token.unplaced) = whole depth ts := by
  induction ts generalizing depth with
  | nil => rfl
  | cons t ts ih => simp [whole, ih]

/-- A piece that may stand between commas. -/
def isPiece (ts : List Token) : Bool := balanced 0 ts && whole 0 ts

@[simp] theorem isPiece_map_unplaced (ts : List Token) :
    isPiece (ts.map Token.unplaced) = isPiece ts := by
  simp [isPiece]

/-- A word in front of a piece changes nothing. -/
theorem isPiece_cons {t : Token} (h : t.isWord = true) (ts : List Token) :
    isPiece (t :: ts) = isPiece ts := by
  simp [isPiece, balanced, whole, Token.isDelimiter_of_isWord h, after_of_isWord h]

/-- **Cutting balanced tokens at commas gives pieces**, each between two commas or at an end. -/
theorem balanced_cut {depth : Nat} {ts : List Token} (h : balanced depth ts = true) :
    balanced depth (cut depth ts).1 = true ∧ whole depth (cut depth ts).1 = true ∧
      ∀ p ∈ (cut depth ts).2, p.1.isDelimiter .comma = true ∧ isPiece p.2 = true := by
  fun_induction cut depth ts with
  | case1 depth => exact ⟨h, rfl, by simp⟩
  | case2 depth t rest hcomma piece more hcut ih =>
    obtain ⟨ht, rfl⟩ := hcomma
    rw [balanced_cons_iff, after_comma ht] at h
    obtain ⟨hbal, hwhole, hmore⟩ := ih h.2
    rw [hcut] at hbal hwhole hmore
    refine ⟨rfl, rfl, ?_⟩
    intro p hp
    rcases List.mem_cons.1 hp with rfl | hp
    · exact ⟨ht, by rw [isPiece, hbal, hwhole]; rfl⟩
    · exact hmore p hp
  | case3 depth t rest hcomma piece more hcut ih =>
    rw [balanced_cons_iff] at h
    obtain ⟨hbal, hwhole, hmore⟩ := ih h.2
    rw [hcut] at hbal hwhole hmore
    refine ⟨?_, ?_, hmore⟩
    · rw [balanced_cons_iff]
      exact ⟨h.1, hbal⟩
    · rw [whole_cons_iff]
      exact ⟨hcomma, hwhole⟩

theorem cut_of_whole {depth : Nat} {ts : List Token} (h : whole depth ts = true) :
    cut depth ts = (ts, []) := by
  induction ts generalizing depth with
  | nil => rfl
  | cons t ts ih =>
    rw [whole_cons_iff] at h
    rw [cut, if_neg h.1, ih h.2]

/-- A piece and a comma are cut off as they are. -/
theorem cut_append {depth : Nat} {piece rest : List Token} {comma : Token}
    (hbal : balanced depth piece = true) (hwhole : whole depth piece = true)
    (hcomma : comma.isDelimiter .comma = true) :
    cut depth (piece ++ comma :: rest) =
      (piece, (comma, (cut 0 rest).1) :: (cut 0 rest).2) := by
  induction piece generalizing depth with
  | nil =>
    have hdepth : depth = 0 := by simpa [balanced] using hbal
    rw [List.nil_append, cut, if_pos ⟨hcomma, hdepth⟩]
  | cons t piece ih =>
    rw [balanced_cons_iff] at hbal
    rw [whole_cons_iff] at hwhole
    rw [List.cons_append, cut, if_neg hwhole.1, ih hbal.2 hwhole.2]

/-- What a piece is as an item. -/
theorem ofPiece_eq_ok_iff {piece : List Token × Token} {i : Item} :
    ofPiece piece = .ok i ↔ piece.1 = i.tokens := by
  obtain ⟨ts, ender⟩ := piece
  cases ts with
  | nil => simp [ofPiece, tokens]
  | cons t ts =>
    obtain ⟨first, others⟩ := i
    simp [ofPiece, tokens]

end Item
end TableRebuild
