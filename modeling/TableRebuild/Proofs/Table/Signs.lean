import TableRebuild.Proofs.Table.Comments
import TableRebuild.Proofs.Token.Sign

/-!
# Spaces around signs in a statement

Whether an expression is written `a+b` or `a + b` makes no difference to the table that a statement
defines, and no migration comes of it. The spaces count only where the sign would be a part of the
token in front. So the check `a=-1` is not the check `a= -1`: the operator of the first is `=-`.

Nothing is said here of an operator that has the mark of a comment in it, as when `a>` and `--` are
written together. There it is the comment that goes wrong and not the sign.
-/

namespace TableRebuild

open Lexeme

/-- **Where spaces around a sign are transparent.** They are behind a token that does not take the
    sign in: a name, a closing bracket, a number in hexadecimal digits that does not end in an
    exponent mark. The space in front of the sign may be left out whatever follows, and the space
    behind it where no further operator character does. An operator takes in the sign and the
    operator characters behind it, if there is no mark of a comment in the run that they are
    together, and what the text says from there on is what the rest says. -/
theorem sameReading_sign {a : String} {t : Token} {c : Char} (h : EndsWith a t)
    (hc : isSign c = true) :
    ((t.isWord = true ∨ t.isDelimiter .rightParen = true ∨
        t.isHexadecimal = true ∧ endsInMark false t.text.toList = false) → t.takesIn c = false) ∧
      (t.takesIn c = false →
        (∀ r, SameReading (a ++ String.singleton c ++ r) (a ++ " " ++ String.singleton c ++ r)) ∧
        ∀ r : String, (∀ d ∈ r.toList.head?, isOperatorChar d = false) →
          SameReading (a ++ String.singleton c ++ r)
            (a ++ " " ++ String.singleton c ++ " " ++ r)) ∧
      (t.isOperator = true →
        ∃ us, wording a = .ok (us ++ [t.unplaced]) ∧ ∀ r : String,
          Gap.Unmarked (t.text.toList ++ c :: r.toList.takeWhile isOperatorChar) →
          wording (a ++ String.singleton c ++ r) =
            (wording (String.ofList (r.toList.dropWhile isOperatorChar))).map
              (us ++ [⟨.verbatim, t.text ++ String.singleton c ++
                String.ofList (r.toList.takeWhile isOperatorChar), ⟨0, 0⟩⟩] ++ ·)) := by
  simp only [sameReading_iff]
  refine ⟨?_, ?_, ?_⟩
  · rintro (hword | hparen | ⟨hnumber, hlast⟩)
    · exact Token.takesIn_of_isWord hword
    · exact Token.takesIn_of_isDelimiter hparen
    · exact Token.takesIn_of_isHexadecimal hnumber hlast
  · intro ht
    refine ⟨h.wording_space_sign hc ht, ?_⟩
    intro r hr
    exact (h.wording_space_sign hc ht r).trans (h.wording_sign_space hc hr)
  · exact fun hop => h.exists_wording_operator hop hc

/-- Behind a name both spaces may be left out, and behind `=` the sign is read with it. -/
theorem sameReading_sign_of_check :
    (∃ t, EndsWith "CREATE TABLE t (CHECK (a" t ∧
      SameReading ("CREATE TABLE t (CHECK (a" ++ String.singleton '+' ++ "b))")
        ("CREATE TABLE t (CHECK (a" ++ " " ++ String.singleton '+' ++ " " ++ "b))")) ∧
    ∃ t, EndsWith "CREATE TABLE t (CHECK (a=" t ∧ t.text = "=" ∧
      ∃ us, wording "CREATE TABLE t (CHECK (a=" = .ok (us ++ [t.unplaced]) ∧
        wording ("CREATE TABLE t (CHECK (a=" ++ String.singleton '-' ++ "1))") =
          (wording "1))").map
            (us ++ [⟨.verbatim, t.text ++ String.singleton '-' ++ "", ⟨0, 0⟩⟩] ++ ·) := by
  have hname : (finalToken? "CREATE TABLE t (CHECK (a").any Token.isWord = true := by
    decide +kernel
  have hequals : (finalToken? "CREATE TABLE t (CHECK (a=").any
      (fun t => t.isOperator && t.text == "=") = true := by decide +kernel
  obtain ⟨t, ht, hword⟩ := EndsWith.exists_of_finalToken? hname
  obtain ⟨u, hu, hkind⟩ := EndsWith.exists_of_finalToken? hequals
  obtain ⟨hoperator, heq⟩ := Bool.and_eq_true_iff.1 hkind
  have htext : u.text = "=" := eq_of_beq heq
  obtain ⟨hkinds, hspaces, -⟩ := sameReading_sign (c := '+') ht (by decide)
  obtain ⟨-, -, hjoined⟩ := sameReading_sign (c := '-') hu (by decide)
  have hletter : ∀ d ∈ "b))".toList.head?, isOperatorChar d = false := by
    rintro d ⟨⟩
    rfl
  have hmarks : Gap.Unmarked (u.text.toList ++ '-' :: "1))".toList.takeWhile isOperatorChar) := by
    rw [htext]
    decide +kernel
  refine ⟨⟨t, ht, (hspaces (hkinds (.inl hword))).2 "b))" hletter⟩, u, hu, htext, ?_⟩
  obtain ⟨us, hus, hall⟩ := hjoined hoperator
  exact ⟨us, hus, hall "1))" hmarks⟩

/-- A space before a sign is not without effect behind every token that is no `-`: the operator `=`
    takes the sign in, and so the two spellings of a check are two checks. -/
theorem not_forall_wording_sign : ¬∀ (a : String) (t : Token) (c : Char), EndsWith a t →
    isSign c = true →
    (t.isWord = true ∨ t.isDelimiter .rightParen = true ∨ t.isHexadecimal = true ∨
      t.isOperator = true ∧ t.text.toList.getLast? ≠ some '-') →
    ∀ r, wording (a ++ String.singleton c ++ r) =
      wording (a ++ " " ++ String.singleton c ++ r) := by
  intro hall
  have hfinal : (finalToken? "CREATE TABLE t (a CHECK (a=").any
      (fun t => t.isOperator && t.text.toList.getLast? != some '-') = true := by decide +kernel
  obtain ⟨t, ht, hkind⟩ := EndsWith.exists_of_finalToken? hfinal
  obtain ⟨hoperator, hlast⟩ := Bool.and_eq_true_iff.1 hkind
  have hsame := sameReading_iff.2 <| hall _ t '-' ht rfl
    (.inr (.inr (.inr ⟨hoperator, by simpa using hlast⟩))) "1))"
  have hsql : migrationSql "CREATE TABLE t (a CHECK (a=-1))" "CREATE TABLE t (a CHECK (a= -1))" =
      .ok [
        "CREATE TABLE \"__temp_t\" (\"a\" CHECK (a= -1))",
        "INSERT INTO \"__temp_t\" (\"a\") SELECT \"a\" FROM \"t\"",
        "DROP TABLE \"t\"",
        "ALTER TABLE \"__temp_t\" RENAME TO \"t\""] := by decide +kernel
  exact absurd (hsame.migrationSql_eq_nil hsql) (by simp)

end TableRebuild
