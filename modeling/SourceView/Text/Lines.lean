/-! Cutting bytes and texts into lines.
A line of bytes keeps the line feed that ends it, so that the lines together are the bytes again;
a line of text is without its end.
-/

namespace SourceView.Text

/-- The first line with its line feed, and the rest, if there is a line feed. -/
def cutLine? : List UInt8 → Option (List UInt8 × List UInt8)
  | [] => none
  | b :: rest =>
    if b = 0x0a then some ([b], rest)
    else (cutLine? rest).map fun (line, more) => (b :: line, more)

/-- Every line with the line feed that ends it. The last one need not have any. -/
def byteLines : List UInt8 → List (List UInt8)
  | [] => []
  | b :: rest =>
    if b = 0x0a then [b] :: byteLines rest
    else
      match byteLines rest with
      | [] => [[b]]
      | line :: more => (b :: line) :: more

/-- The lines together are the bytes that were cut. -/
theorem flatten_byteLines (bytes : List UInt8) : (byteLines bytes).flatten = bytes := by
  fun_induction byteLines bytes with
  | case1 => rfl
  | case2 rest ih => simp [ih]
  | case3 b rest h he ih => simp [he] at ih; simp [← ih]
  | case4 b rest h line more he ih => simp [he] at ih; simp [ih]

/-- A line without the carriage return at its end. -/
def dropReturn (line : List Char) : List Char :=
  if line.getLast? = some '\r' then line.dropLast else line

/-- Read lines, of which the characters in `line` were read, last first. -/
def linesFrom (line : List Char) : List Char → List (List Char)
  | [] => if line.isEmpty then [] else [line.reverse]
  | c :: rest =>
    if c = '\n' then dropReturn line.reverse :: linesFrom [] rest
    else linesFrom (c :: line) rest

/-- The lines of a text. A line ends with a line feed, or a carriage return and a line feed; what
stands behind the last line feed is a line if it is not empty.
-/
def lines (text : String) : List String :=
  (linesFrom [] text.toList).map .ofList

end SourceView.Text
