import SourceView.NameMap
import SourceView.Text.Utf8

/-! JSON values, and their compact text.
The text has no blanks, the names of an object are in ascending order, and of characters only the
quote, the backslash and those below the space are escaped.
-/

namespace SourceView

/-- A number as far as a reader of messages tells numbers apart. -/
inductive Json.Number where
  /-- A whole number without a fraction or an exponent that fits into 64 bits. -/
  | whole (value : Int)
  /-- Any other number, as it was written. -/
  | other (digits : String)
  deriving DecidableEq, Repr

/-- A JSON value. -/
inductive Json where
  | null
  | bool (value : Bool)
  | number (value : Json.Number)
  | string (value : String)
  | array (items : List Json)
  /-- The members in the order of the text; the last one of a name counts. -/
  | object (members : List (String × Json))
  deriving Repr, Inhabited

namespace Json

/-- A whole number. -/
def int (value : Int) : Json :=
  .number (.whole value)

/-- A count. -/
def nat (value : Nat) : Json :=
  .int value

/-- An array of strings. -/
def strings (values : List String) : Json :=
  .array (values.map .string)

/-- An object with its members in order, the last one of a name. -/
def record (members : List (String × Json)) : Json :=
  .object (NameMap.ofList members).entries

/-- How a string's text writes a character. -/
def spell (c : Char) : List Char :=
  match c with
  | '"' => ['\\', '"']
  | '\\' => ['\\', '\\']
  | '\n' => ['\\', 'n']
  | '\r' => ['\\', 'r']
  | '\t' => ['\\', 't']
  | '\x08' => ['\\', 'b']
  | '\x0c' => ['\\', 'f']
  | c =>
    if c.toNat < 0x20 then
      ['\\', 'u', '0', '0', Nat.digitChar (c.toNat / 16), Nat.digitChar (c.toNat % 16)]
    else [c]

/-- The text of a string. -/
def renderString (value : String) : List Char :=
  '"' :: (value.toList.flatMap spell ++ ['"'])

/-- The text of a number. -/
def Number.render : Number → List Char
  | whole value => (toString value).toList
  | other digits => digits.toList

/-- Texts with commas between them. -/
def separate : List (List Char) → List Char
  | [] => []
  | [text] => text
  | text :: rest => text ++ ',' :: separate rest

mutual

/-- The compact text of a value, as characters. -/
def chars : Json → List Char
  | null => "null".toList
  | bool true => "true".toList
  | bool false => "false".toList
  | number value => value.render
  | string value => renderString value
  | array items => '[' :: (separate (itemChars items) ++ [']'])
  | object members =>
    '{' :: (separate ((NameMap.ofList (memberChars members)).entries.map Prod.snd) ++ ['}'])

/-- The text of each item. -/
def itemChars : List Json → List (List Char)
  | [] => []
  | item :: rest => chars item :: itemChars rest

/-- The text of each member, by its name. -/
def memberChars : List (String × Json) → List (String × List Char)
  | [] => []
  | (name, value) :: rest =>
    (name, renderString name ++ ':' :: chars value) :: memberChars rest

end

/-- The compact text of a value. -/
def render (value : Json) : String :=
  .ofList value.chars

end Json

end SourceView
