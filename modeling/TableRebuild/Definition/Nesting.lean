import TableRebuild.Token.Basic

/-!
# Nesting of parentheses

Commas and keywords inside parentheses belong to what the parentheses enclose. Each splitter of a
statement therefore counts how many parentheses are open, and they all count here.

A closing parenthesis at depth zero leaves the depth at zero. Where tokens are balanced that never
happens, and the splitters are only given balanced tokens: the body of a statement ends at the
first parenthesis that would go below zero.
-/

namespace TableRebuild
namespace Nesting

/-- How many parentheses are open after a token, when `depth` are before it. -/
def after (depth : Nat) (t : Token) : Nat :=
  match t.kind with
  | .delimiter .leftParen => depth + 1
  | .delimiter .rightParen => depth - 1
  | _ => depth

/-- Given the tokens behind an opening parenthesis and `depth` more that are open since: the tokens
    up to the parenthesis that closes the first one, that parenthesis, and what follows it. -/
def closing (depth : Nat) : List Token → Option (List Token × Token × List Token)
  | [] => none
  | t :: rest =>
    if t.isDelimiter .rightParen ∧ depth = 0 then some ([], t, rest)
    else
      (closing (after depth t) rest).map fun (inside, close, follow) =>
        (t :: inside, close, follow)

/-- What `closing` gives back is the tokens it was given, cut at a closing parenthesis. -/
theorem closing_eq_some {depth : Nat} {ts inside follow : List Token} {close : Token}
    (h : closing depth ts = some (inside, close, follow)) :
    ts = inside ++ close :: follow ∧ close.isDelimiter .rightParen = true := by
  fun_induction closing depth ts generalizing inside with
  | case1 => simp at h
  | case2 depth t rest hc =>
    simp at h
    obtain ⟨rfl, rfl, rfl⟩ := h
    exact ⟨rfl, hc.1⟩
  | case3 depth t rest hc ih =>
    obtain ⟨⟨i, c, f⟩, hi, he⟩ := Option.map_eq_some_iff.1 h
    simp at he
    obtain ⟨rfl, rfl, rfl⟩ := he
    obtain ⟨h₁, h₂⟩ := ih hi
    exact ⟨by simp [h₁], h₂⟩

end Nesting
end TableRebuild
