/-!
# JSON values

A value that any writer of JSON can print. The order of an object's fields is kept, so that equal
values are printed alike. Numbers are counts and byte offsets, which are natural numbers.
-/

namespace TableRebuild

inductive Json where
  | null
  | bool (value : Bool)
  | number (value : Nat)
  | string (value : String)
  | array (elements : List Json)
  | object (fields : List (String × Json))
deriving Repr

namespace Json

/-- An array of the images of a list. -/
def ofList {α : Type} (encode : α → Json) (xs : List α) : Json := .array (xs.map encode)

/-- A value that may be missing. -/
def ofOption {α : Type} (encode : α → Json) : Option α → Json
  | none => .null
  | some x => encode x

/-- A value that carries the name of the case it belongs to. -/
def tagged (tag : String) (value : Json) : Json := .object [(tag, value)]

end Json
end TableRebuild
