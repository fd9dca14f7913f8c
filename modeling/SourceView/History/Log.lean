import SourceView.History.Basic
import SourceView.Text.Blank
import SourceView.Text.Decimal
import SourceView.Text.Lines
import SourceView.Text.Split
import SourceView.Text.Utf8

/-! Logs of a repository's commits, with the hunks of each.
Four kinds of lines count, and all others are passed over, the lines that were deleted and inserted
among them. A stripped log holds only the lines that count, and marks each hunk as bare.
-/

namespace SourceView

/-- A line of a log that counts. -/
inductive LogRecord where
  | commit (hash : String)
  | oldPath (path : String)
  | newPath (path : String)
  | hunk (hunk : Hunk)
  deriving DecidableEq, Repr

/-- Why a log cannot be read. -/
inductive LogError where
  | io (reason : String)
  | malformedCommit (line : Nat) (text : String)
  | malformedHunk (line : Nat) (text : String)
  /-- A file's header before any commit. -/
  | fileOutsideCommit (line : Nat)
  /-- A hunk before any file of its commit. -/
  | hunkOutsideFile (line : Nat)
  /-- The log ends although lines of the last hunk are due. -/
  | truncated (missing : Nat)
  deriving DecidableEq, Repr

/-- The text that tells of a log that cannot be read. -/
def LogError.message : LogError → String
  | io reason => "IO error reading git log: " ++ reason
  | malformedCommit line text => s!"line {line}: malformed commit line: {text}"
  | malformedHunk line text => s!"line {line}: malformed hunk header: {text}"
  | fileOutsideCommit line => s!"line {line}: file header outside of a commit"
  | hunkOutsideFile line => s!"line {line}: hunk header outside of a file section"
  | truncated missing => s!"git log ended with {missing} payload lines missing"

/-- The text that tells of a log that cannot be read, and behind it that of its own cause. -/
def LogError.account : LogError → String
  | io reason => (io reason).message ++ ": " ++ reason
  | cause => cause.message

namespace Log

/-! ### Single lines -/

/-- A line of bytes without the end of the line. -/
def withoutEnd (line : List UInt8) : List UInt8 :=
  let line := if line.getLast? = some 0x0a then line.dropLast else line
  if line.getLast? = some 0x0d then line.dropLast else line

/-- What follows a word at the start of a line. -/
def behind? (start : String) (line : List UInt8) : Option (List UInt8) :=
  let start := Text.Utf8.bytes start
  if start.isPrefixOf line then some (line.drop start.length) else none

/-- What follows a word at the start of a text. -/
def behindChars? (start text : List Char) : Option (List Char) :=
  if start.isPrefixOf text then some (text.drop start.length) else none

/-- A digit of a hexadecimal number. -/
def isHexDigit (c : Char) : Bool :=
  ('0' ≤ c && c ≤ '9') || ('a' ≤ c && c ≤ 'f') || ('A' ≤ c && c ≤ 'F')

/-- The short hash in a commit's line: its first word, which has to be long enough. -/
def hash? (text : List UInt8) : Option String := do
  let word ← Text.firstWord? (← Text.Utf8.decode? text)
  if hashLength ≤ word.length ∧ word.all isHexDigit then
    return .ofList (word.take hashLength)
  else none

/-- Line numbers and lengths lie below this. -/
def sizeBound : Nat := UInt64.size

/-- A start and a length, or a start alone with the length one. -/
def range? (text : List Char) : Option (Nat × Nat) :=
  match Text.splitOnce? ',' text with
  | some (start, length) => do
    return (← Text.Decimal.read? sizeBound start, ← Text.Decimal.read? sizeBound length)
  | none => (Text.Decimal.read? sizeBound text).map (·, 1)

/-- The numbers of lines that a hunk leads to, and how many lines follow it, stay in bounds. -/
def InBounds (hunk : Hunk) : Prop :=
  hunk.oldStart + hunk.oldLength < sizeBound ∧ hunk.newStart + hunk.newLength < sizeBound
    ∧ hunk.oldLength + hunk.newLength < sizeBound

instance (hunk : Hunk) : Decidable (InBounds hunk) :=
  inferInstanceAs (Decidable (_ ∧ _ ∧ _))

/-- The hunk in its line, and whether it is bare: the lines it is about do not follow it. -/
def hunk? (line : List UInt8) : Option (Hunk × Bool) := do
  let text ← behindChars? "@@ -".toList (← Text.Utf8.decode? line)
  let (old, text) ← Text.splitOnce? ' ' text
  let (new, text) ← Text.splitOnce? ' ' (← behindChars? ['+'] text)
  let heading ← behindChars? ['@', '@'] text
  let (oldStart, oldLength) ← range? old
  let (newStart, newLength) ← range? new
  let hunk : Hunk := { oldStart, oldLength, newStart, newLength }
  if InBounds hunk then return (hunk, heading.head? = some '-') else none

/-- What a line says, which may be nothing that counts, and how many lines to pass over behind
it.
-/
def readLine (number : Nat) (line : List UInt8) : Except LogError (Option (LogRecord × Nat)) :=
  match behind? "commit " line with
  | some rest =>
    match hash? rest with
    | some hash => .ok (some (.commit hash, 0))
    | none => .error (.malformedCommit number (Text.Utf8.readable line))
  | none =>
    match behind? "--- " line with
    | some rest => .ok (some (.oldPath (Text.Utf8.readable rest), 0))
    | none =>
      match behind? "+++ " line with
      | some rest => .ok (some (.newPath (Text.Utf8.readable rest), 0))
      | none =>
        match behind? "@@ " line with
        | none => .ok none
        | some _ =>
          match hunk? line with
          | some (hunk, bare) =>
            .ok (some (.hunk hunk, if bare then 0 else hunk.oldLength + hunk.newLength))
          | none => .error (.malformedHunk number (Text.Utf8.readable line))

/-! ### Whole logs -/

/-- What was read of a log: the records with the numbers of their lines, up to the end or to what
could not be read.
-/
structure Scan where
  records : List (Nat × LogRecord) := []
  failure : Option LogError := none

/-- Put a record in front of others. -/
def Scan.cons (number : Nat) (record : LogRecord) (scan : Scan) : Scan :=
  { scan with records := (number, record) :: scan.records }

/-- Read the lines behind the first `number` ones, when `due` lines of a hunk are to be passed
over. A line that begins with a backslash comes on top of those.
-/
def scanLines (number due : Nat) : List (List UInt8) → Scan
  | [] => if due = 0 then {} else { failure := some (.truncated due) }
  | line :: rest =>
    let text := withoutEnd line
    match due with
    | due + 1 =>
      scanLines (number + 1) (if text.head? = some 0x5c then due + 1 else due) rest
    | 0 =>
      match readLine (number + 1) text with
      | .error failure => { failure := some failure }
      | .ok none => scanLines (number + 1) 0 rest
      | .ok (some (record, due)) =>
        (scanLines (number + 1) due rest).cons (number + 1) record

/-- Read a log. -/
def scan (log : List UInt8) : Scan :=
  scanLines 0 0 (Text.byteLines log)

/-! ### Stripped logs -/

/-- The line that says what a record says, and that nothing follows a hunk. -/
def render : LogRecord → String
  | .commit hash => "commit " ++ hash ++ "\n"
  | .oldPath path => "--- " ++ path ++ "\n"
  | .newPath path => "+++ " ++ path ++ "\n"
  | .hunk hunk =>
    s!"@@ -{hunk.oldStart},{hunk.oldLength} +{hunk.newStart},{hunk.newLength} @@-\n"

/-- A log that was stripped: what was written, and what stopped it if anything did. -/
structure Stripped where
  written : String
  failure : Option LogError
  deriving DecidableEq

/-- Strip a log of the lines that do not count. -/
def strip (log : List UInt8) : Stripped :=
  let scan := scan log
  { written := String.join (scan.records.map fun (_, record) => render record)
    failure := scan.failure }

/-! ### Histories -/

/-- The history read so far, and where in a commit the reading is. -/
structure Reading where
  history : History := {}
  /-- The path of the file before its commit, until the path behind it was read. -/
  oldPath : Option String := none
  /-- The diff that takes the next hunk. -/
  diff : Option Nat := none

/-- The path that stands for a file that is not there. -/
def noFile : String := "/dev/null"

/-- Take in one record. A file keeps the path it had before the commit, unless it was not
there.
-/
def Reading.add (reading : Reading) (number : Nat) : LogRecord → Except LogError Reading
  | .commit hash => .ok { history := reading.history.pushCommit hash }
  | .oldPath path => .ok { reading with oldPath := some path }
  | .newPath newPath =>
    let path := match reading.oldPath with
      | some old => if old = noFile then newPath else old
      | none => newPath
    match reading.history.pushDiff? path with
    | none => .error (.fileOutsideCommit number)
    | some (id, history) => .ok { history, oldPath := none, diff := some id }
  | .hunk hunk =>
    match reading.diff with
    | none => .error (.hunkOutsideFile number)
    | some id => .ok { reading with history := reading.history.pushHunk id hunk }

/-- Take in records, one after the other. -/
def Reading.addAll (reading : Reading) : List (Nat × LogRecord) → Except LogError Reading
  | [] => .ok reading
  | (number, record) :: rest =>
    match reading.add number record with
    | .error e => .error e
    | .ok reading => reading.addAll rest

end Log

/-- The history that a log tells of, whether it is stripped or not. -/
def History.ofLog (log : List UInt8) : Except LogError History :=
  let scan := Log.scan log
  match ({} : Log.Reading).addAll scan.records with
  | .error e => .error e
  | .ok reading =>
    match scan.failure with
    | some e => .error e
    | none => .ok reading.history

end SourceView
