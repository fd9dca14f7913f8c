/-! Blank characters, and trimming a text of them.
A character is blank when it has the Unicode property White_Space; a byte is blank when it is
one of the five blank bytes of ASCII text.
-/

namespace SourceView.Text

/-- A character with the property White_Space. -/
def isBlank (c : Char) : Bool :=
  let n := c.toNat
  (0x09 ≤ n && n ≤ 0x0d) || n == 0x20 || n == 0x85 || n == 0xa0 || n == 0x1680
    || (0x2000 ≤ n && n ≤ 0x200a) || n == 0x2028 || n == 0x2029 || n == 0x202f
    || n == 0x205f || n == 0x3000

/-- A text without the blanks at its start. -/
def trimStart (text : List Char) : List Char :=
  text.dropWhile isBlank

/-- A text without the blanks at its end. -/
def trimEnd (text : List Char) : List Char :=
  (trimStart text.reverse).reverse

/-- A text without the blanks at either end. -/
def trim (text : List Char) : List Char :=
  trimEnd (trimStart text)

/-- A text without the blanks at either end. -/
def trimmed (text : String) : String :=
  .ofList (trim text.toList)

/-- The first maximal run of characters that are not blank, if the text has one. -/
def firstWord? (text : List Char) : Option (List Char) :=
  match trimStart text with
  | [] => none
  | rest => some (rest.takeWhile fun c => !isBlank c)

/-- A space, tab, line feed, form feed or carriage return. -/
def isBlankByte (b : UInt8) : Bool :=
  b == 0x20 || b == 0x09 || b == 0x0a || b == 0x0c || b == 0x0d

end SourceView.Text
