import TableRebuild.Text.Bytes

/-!
# Runs that check every access

The library works on lists from the front, and nothing in it can be out of bounds. Programs are
written with positions: a text is an array of bytes, tokens are an array, what has been read is a
number, and every slice, index and subtraction is a place where such a program may fail. A `Run` is
the outcome of a program of this kind. It has an answer, it refuses the text for a reason, as a
reader does, or it ends in a `Trap`, and a trap is what must not happen.

The accesses are partial as they are on a machine: a slice of a text has to begin and end between
two characters, a number cannot be taken from a smaller one, and nothing stops at zero or at the
end. A loop is a step that is repeated until it gives an answer; a step that does not bring the
measure down is a trap as well, so a run without a trap also comes to an end.

`Refines` compares a run with a reader. Where the reader has an answer the run has a related one,
and where it refuses the run refuses for the same reason. So what refines a reader has no trap
(`Refines.ne_trap`), and refinement goes through programs step by step (`Refines.bind`).
-/

namespace TableRebuild
namespace Indexed

/-- Why a run has no outcome. -/
inductive Trap where
  /-- A slice that reaches past the end, is inverted or cuts a character in two. -/
  | slice
  /-- An index past the end. -/
  | index
  /-- A number taken from a smaller one. -/
  | underflow
  /-- A step of a loop that makes no progress. -/
  | stuck
deriving DecidableEq, Repr

inductive Halt (ε : Type) where
  | trap (t : Trap)
  | refused (e : ε)
deriving DecidableEq, Repr

def Halt.map {ε δ : Type} (f : ε → δ) : Halt ε → Halt δ
  | trap t => trap t
  | refused e => refused (f e)

abbrev Run (ε α : Type) := Except (Halt ε) α

variable {ε α β γ σ : Type}

def refuse (e : ε) : Run ε α := .error (.refused e)

@[simp] theorem pure_eq_ok (a : α) : (pure a : Except ε α) = .ok a := rfl

@[simp] theorem ok_bind (a : α) (f : α → Except ε β) : (Except.ok a >>= f) = f a := rfl

@[simp] theorem refuse_bind (e : ε) (f : α → Run ε β) : (refuse e >>= f) = refuse e := rfl

/-! ## Accesses -/

def minus (a b : Nat) : Run ε Nat := if b ≤ a then .ok (a - b) else .error (.trap .underflow)

def element (xs : List α) (i : Nat) : Run ε α :=
  match xs[i]? with
  | some x => .ok x
  | none => .error (.trap .index)

/-- The elements from one index up to another. -/
def elements (xs : List α) (start stop : Nat) : Run ε (List α) :=
  if start ≤ stop ∧ stop ≤ xs.length then .ok (xs.extract start stop) else .error (.trap .slice)

/-- The text from a byte on. -/
def textFrom (cs : List Char) (start : Nat) : Run ε (List Char) :=
  match Text.cutAt start cs with
  | some (_, rest) => .ok rest
  | none => .error (.trap .slice)

/-- The text from one byte up to another. -/
def textBetween (cs : List Char) (start stop : Nat) : Run ε (List Char) :=
  match Text.slice? start stop cs with
  | some inside => .ok inside
  | none => .error (.trap .slice)

theorem minus_of_le {a b : Nat} (h : b ≤ a) : (minus a b : Run ε Nat) = .ok (a - b) := if_pos h

theorem element_of_getElem? {xs : List α} {i : Nat} {x : α} (h : xs[i]? = some x) :
    (element xs i : Run ε α) = .ok x := by
  rw [element, h]

theorem element_append (as : List α) (x : α) (bs : List α) :
    (element (as ++ x :: bs) as.length : Run ε α) = .ok x :=
  element_of_getElem? (by simp)

theorem elements_of_le {xs : List α} {start stop : Nat} (h : start ≤ stop) (h' : stop ≤ xs.length) :
    (elements xs start stop : Run ε (List α)) = .ok (xs.extract start stop) := if_pos ⟨h, h'⟩

/-- The elements from an index within a first part up to the end of that part. -/
theorem elements_append {as : List α} {start : Nat} (h : start ≤ as.length) (bs : List α) :
    (elements (as ++ bs) start as.length : Run ε (List α)) = .ok (as.drop start) := by
  rw [elements_of_le h (by simp), List.extract_eq_take_drop, List.drop_append_of_le_length h,
    List.take_left' (by simp)]

theorem elements_middle (as bs cs : List α) : (elements (as ++ bs ++ cs) as.length
    (as.length + bs.length) : Run ε (List α)) = .ok bs := by
  have h := @elements_append ε _ (as ++ bs) as.length (by simp) cs
  rwa [List.length_append, List.drop_left] at h

theorem elements_drop {as : List α} {start : Nat} (h : start ≤ as.length) :
    (elements as start as.length : Run ε (List α)) = .ok (as.drop start) := by
  rw [← elements_append h [], List.append_nil]

/-- The parts that elements are put together of. -/
theorem elements_parts {as bs cs : List α} (h : as ++ bs = cs) :
    (elements cs 0 as.length : Run ε (List α)) = .ok as ∧
      (elements cs as.length cs.length : Run ε (List α)) = .ok bs := by
  subst h
  constructor
  · exact elements_append (Nat.zero_le _) bs
  · rw [elements_drop (by simp), List.drop_left]

theorem textFrom_append (as bs : List Char) :
    (textFrom (as ++ bs) (Text.byteLength as) : Run ε (List Char)) = .ok bs := by
  rw [textFrom, Text.cutAt_byteLength]

/-- Behind one of the two bytes of a character there is no text to slice. -/
example : (textFrom ['é', 't'] 1 : Run Unit (List Char)) = .error (.trap .slice) := rfl

theorem textBetween_append (as bs cs : List Char) : (textBetween (as ++ bs ++ cs)
    (Text.byteLength as) (Text.byteLength (as ++ bs)) : Run ε (List Char)) = .ok bs := by
  rw [textBetween, Text.byteLength_append, Text.slice?_middle]

theorem mapM_eq_ok {f : α → Run ε β} {g : α → β} {xs : List α} (h : ∀ x ∈ xs, f x = .ok (g x)) :
    xs.mapM f = .ok (xs.map g) := by
  induction xs with
  | nil => rfl
  | cons x xs ih =>
    obtain ⟨hx, hmore⟩ := List.forall_mem_cons.1 h
    rw [List.mapM_cons, hx, ok_bind, ih hmore]
    rfl

/-! ## Loops -/

/-- Repeats the step until it gives an answer. -/
def loop (size : σ → Nat) (step : σ → Run ε (σ ⊕ α)) (s : σ) : Run ε α :=
  match step s with
  | .error halt => .error halt
  | .ok (.inr a) => .ok a
  | .ok (.inl s') => if size s' < size s then loop size step s' else .error (.trap .stuck)
termination_by size s

section

variable {size : σ → Nat} {step : σ → Run ε (σ ⊕ α)} {s s' : σ}

theorem loop_of_error {halt : Halt ε} (h : step s = .error halt) :
    loop size step s = .error halt := by
  rw [loop, h]

theorem loop_of_answer {a : α} (h : step s = .ok (.inr a)) : loop size step s = .ok a := by
  rw [loop, h]

theorem loop_of_next (h : step s = .ok (.inl s')) (hlt : size s' < size s) :
    loop size step s = loop size step s' := by
  rw [loop, h]
  exact if_pos hlt

/-- Two states with the same step have the same outcome, unless that is to be stuck. -/
theorem loop_of_same {ε' : Type} {step : σ → Run ε' (σ ⊕ α)} (h : step s = step s')
    (hle : size s' ≤ size s) (hstuck : loop size step s' ≠ .error (.trap .stuck)) :
    loop size step s = loop size step s' := by
  rcases hs : step s' with halt | s'' | a
  · rw [loop_of_error hs, loop_of_error (h.trans hs)]
  · have hlt : size s'' < size s' := by
      refine Decidable.byContradiction fun hnot => hstuck ?_
      rw [loop, hs]
      exact if_neg hnot
    rw [loop_of_next hs hlt, loop_of_next (h.trans hs) (Nat.lt_of_lt_of_le hlt hle)]
  · rw [loop_of_answer hs, loop_of_answer (h.trans hs)]

end

/-! ## Refinement -/

/-- Where the reader has an answer the run has a related one, and where it refuses the run refuses
    for the same reason. -/
def Refines (R : α → β → Prop) (x : Run ε α) : Except ε β → Prop
  | .ok b => ∃ a, x = .ok a ∧ R a b
  | .error e => x = refuse e

section

variable {R : α → β → Prop} {x : Run ε α} {y : Except ε β}

theorem Refines.ok {a : α} {b : β} (h : R a b) : Refines R (.ok a : Run ε α) (.ok b) := ⟨a, rfl, h⟩

theorem refines_refuse (e : ε) : Refines R (refuse e : Run ε α) (.error e) := rfl

theorem Refines.ne_trap (h : Refines R x y) (t : Trap) : x ≠ .error (.trap t) := by
  cases y with
  | ok b =>
    obtain ⟨a, rfl, -⟩ := h
    simp
  | error e =>
    rw [Refines] at h
    rw [h]
    simp [refuse]

/-- The reader may make something else of its answer. -/
theorem Refines.map {R' : α → γ → Prop} {f : β → γ} (h : Refines R x y)
    (hf : ∀ a b, R a b → R' a (f b)) : Refines R' x (y.map f) := by
  cases y with
  | ok b =>
    obtain ⟨a, ha, hab⟩ := h
    exact ⟨a, ha, hf a b hab⟩
  | error e => exact h

/-- What is known of the reader's answer may be used as well. -/
theorem Refines.and {p : β → Prop} (h : Refines R x y) (hp : ∀ b, y = .ok b → p b) :
    Refines (fun a b => R a b ∧ p b) x y := by
  cases y with
  | ok b =>
    obtain ⟨a, ha, hab⟩ := h
    exact ⟨a, ha, hab, hp b rfl⟩
  | error e => exact h

theorem Refines.bind {δ : Type} {S : γ → δ → Prop} {f : α → Run ε γ} {g : β → Except ε δ}
    (h : Refines R x y) (hfg : ∀ a b, R a b → Refines S (f a) (g b)) :
    Refines S (x >>= f) (y >>= g) := by
  cases y with
  | ok b =>
    obtain ⟨a, rfl, hab⟩ := h
    exact hfg a b hab
  | error e =>
    rw [Refines] at h
    rw [h]
    rfl

/-- To refine a reader up to equality is to have its outcome. -/
theorem refines_eq_iff {x : Run ε α} {y : Except ε α} :
    Refines Eq x y ↔ x = y.mapError .refused := by
  cases y with
  | ok b =>
    show (∃ a, x = .ok a ∧ a = b) ↔ x = .ok b
    simp
  | error e => rfl

end

/-- The run has the outcome of the reader, and it does not end in a trap. -/
structure Performs (x : Run ε α) (y : Except ε α) : Prop where
  outcome : x = y.mapError .refused
  noTrap : ∀ t, x ≠ .error (.trap t)

theorem performs_of_eq {x : Run ε α} {y : Except ε α} (h : x = y.mapError .refused) :
    Performs x y :=
  ⟨h, (refines_eq_iff.2 h).ne_trap⟩

end Indexed
end TableRebuild
