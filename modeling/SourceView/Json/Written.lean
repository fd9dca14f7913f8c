import SourceView.Json.Token

/-! JSON texts as trees, before it is asked what their strings and numbers stand for.
The reader holds what is open around the place it reads at, so it takes one token after the other
and nesting costs it nothing.
-/

namespace SourceView.Json

/-- The tree of a JSON text. -/
inductive Written where
  | null
  | bool (value : Bool)
  | number (numeral : Numeral)
  | string (marks : List Mark)
  | array (items : List Written)
  | object (members : List (List Mark × Written))
  deriving Repr

namespace Written

/-- What is open around a value, with what was read of it so far, last first. -/
inductive Around where
  | array (before : List Written)
  /-- An object, in which the value of this name comes next. -/
  | object (before : List (List Mark × Written)) (name : List Mark)

mutual

/-- Read a value and all that follows it. -/
def readValue? (around : List Around) : List Token → Option Written
  | .null :: rest => readAfter? .null around rest
  | .bool value :: rest => readAfter? (.bool value) around rest
  | .number numeral :: rest => readAfter? (.number numeral) around rest
  | .string marks :: rest => readAfter? (.string marks) around rest
  | .openArray :: .closeArray :: rest => readAfter? (.array []) around rest
  | .openArray :: rest => readValue? (.array [] :: around) rest
  | .openObject :: .closeObject :: rest => readAfter? (.object []) around rest
  | .openObject :: .string name :: .colon :: rest =>
    readValue? (.object [] name :: around) rest
  | _ => none

/-- Read all that follows a value. -/
def readAfter? (value : Written) : List Around → List Token → Option Written
  | [], [] => some value
  | .array before :: around, .comma :: rest => readValue? (.array (value :: before) :: around) rest
  | .array before :: around, .closeArray :: rest =>
    readAfter? (.array (value :: before).reverse) around rest
  | .object before name :: around, .comma :: .string next :: .colon :: rest =>
    readValue? (.object ((name, value) :: before) next :: around) rest
  | .object before name :: around, .closeObject :: rest =>
    readAfter? (.object ((name, value) :: before).reverse) around rest
  | _, _ => none

end

/-- The tree of a whole JSON text. -/
def read? (text : List UInt8) : Option Written := do
  readValue? [] (← tokens? text)

end Written

end SourceView.Json
