import SourceView.Proofs.History.Built
import SourceView.Proofs.Log.Lines
import SourceView.Proofs.Log.Records

/-! Full logs, in which the lines that each hunk is about stand behind it.
Whatever those lines hold, a full log tells of the commits that it was written for, as they are
counted and never read.
-/

namespace SourceView.Log

open Text (ended)
open Text.Utf8 (bytes encode)

-----------------------------------------------------------------------------------------
-- What full logs are made of
-----------------------------------------------------------------------------------------

/-- A line that says nothing that counts. -/
structure Remark where
  text : List UInt8
  unbroken : 0x0a ∉ text
  plain : ∀ start ∈ starts, behind? start text = none

/-- What a line behind a hunk is there for. -/
inductive Mark where
  | deleted
  | inserted
  /-- It is about the line above it, and the hunk does not count it. -/
  | note
  deriving DecidableEq, Repr

def Mark.byte : Mark → UInt8
  | deleted => 0x2d
  | inserted => 0x2b
  | note => 0x5c

/-- A line behind a hunk. -/
structure PayloadLine where
  mark : Mark
  content : List UInt8
  unbroken : 0x0a ∉ content

def PayloadLine.text (line : PayloadLine) : List UInt8 :=
  line.mark.byte :: line.content

/-- Whether the line is one of those that the hunk announces. -/
def PayloadLine.due (line : PayloadLine) : Bool :=
  line.mark ≠ .note

/-- A hunk with the lines that it is about. -/
structure FullHunk where
  before : List Remark := []
  hunk : Hunk
  /-- Whether a length of one is left out. -/
  briefOld : Bool := false
  briefNew : Bool := false
  heading : Option String := none
  payload : List PayloadLine
  inBounds : InBounds hunk
  unbroken : ∀ text ∈ heading, '\n' ∉ text.toList
  complete : payload.countP PayloadLine.due = hunk.oldLength + hunk.newLength

/-- What a commit did to a file. -/
structure FullDiff where
  before : List Remark := []
  oldPath : String
  newPath : String
  hunks : List FullHunk
  oldFits : FitsLine oldPath.toList
  newFits : FitsLine newPath.toList

/-- A commit with what it did. -/
structure FullCommit where
  before : List Remark := []
  hash : String
  diffs : List FullDiff
  long : hashLength ≤ hash.toList.length
  digits : ∀ c ∈ hash.toList, isHexDigit c = true

/-- A log with all its lines. -/
structure FullLog where
  commits : List FullCommit
  after : List Remark := []

-----------------------------------------------------------------------------------------
-- How they are written
-----------------------------------------------------------------------------------------

/-- What stands behind a hunk in its line. -/
def FullHunk.title (full : FullHunk) : List Char :=
  match full.heading with
  | none => []
  | some heading => ' ' :: heading.toList

def FullHunk.text (full : FullHunk) : List Char :=
  hunkText full.briefOld full.briefNew full.hunk full.title

def FullHunk.lines (full : FullHunk) : List (List UInt8) :=
  full.before.map Remark.text ++ encode full.text :: full.payload.map PayloadLine.text

def FullDiff.lines (diff : FullDiff) : List (List UInt8) :=
  diff.before.map Remark.text
    ++ bytes ("--- " ++ diff.oldPath) :: bytes ("+++ " ++ diff.newPath)
      :: diff.hunks.flatMap FullHunk.lines

def FullCommit.lines (commit : FullCommit) : List (List UInt8) :=
  commit.before.map Remark.text
    ++ bytes ("commit " ++ commit.hash) :: commit.diffs.flatMap FullDiff.lines

def FullLog.lines (log : FullLog) : List (List UInt8) :=
  log.commits.flatMap FullCommit.lines ++ log.after.map Remark.text

/-- The log, with a line feed behind each line. -/
def FullLog.render (log : FullLog) : List UInt8 :=
  log.lines.flatMap ended

-----------------------------------------------------------------------------------------
-- What they tell of
-----------------------------------------------------------------------------------------

/-- The path of the file, which is the one before the commit unless the file was not there. -/
def FullDiff.path (diff : FullDiff) : String :=
  if diff.oldPath = noFile then diff.newPath else diff.oldPath

def pushHunks (history : History) (id : Nat) (hunks : List FullHunk) : History :=
  hunks.foldl (fun history full => history.pushHunk id full.hunk) history

def FullDiff.push? (history : History) (diff : FullDiff) : Option History := do
  let (id, history) ← history.pushDiff? diff.path
  return pushHunks history id diff.hunks

def FullCommit.push? (history : History) (commit : FullCommit) : Option History :=
  commit.diffs.foldlM FullDiff.push? (history.pushCommit commit.hash)

/-- The history that comes of adding commits, diffs and hunks in their order. -/
def FullLog.history? (log : FullLog) : Option History :=
  log.commits.foldlM FullCommit.push? {}

-----------------------------------------------------------------------------------------
-- The lines are whole
-----------------------------------------------------------------------------------------

section Unbroken

variable {line : List UInt8}

/-- Two texts without line feeds have none in their bytes. -/
theorem unbroken_bytes_append {start path : String} (whole : '\n' ∉ start.toList)
    (fits : '\n' ∉ path.toList)
    : 0x0a ∉ bytes (start ++ path) := by
  rw [Text.Utf8.bytes_eq_encode]
  apply unbroken_encode
  simp [whole, fits]

/-- A remark has no line feed. -/
theorem unbroken_of_mem_remarks {remarks : List Remark} (member : line ∈ remarks.map Remark.text)
    : 0x0a ∉ line := by
  obtain ⟨remark, -, rfl⟩ := List.mem_map.mp member
  exact remark.unbroken

/-- The line of a hunk is that of its numbers, and then its title. -/
theorem FullHunk.text_eq (full : FullHunk)
    : full.text = hunkText full.briefOld full.briefNew full.hunk [] ++ full.title :=
  hunkText_append [] full.title

/-- The line of a hunk has no line feed. -/
theorem FullHunk.text_unbroken (full : FullHunk) : '\n' ∉ full.text := by
  rw [full.text_eq, List.mem_append, not_or]
  refine ⟨(fitsLine_hunkText (by decide)).1, ?_⟩
  rw [FullHunk.title]
  split
  · exact List.not_mem_nil
  · next heading titled =>
      rw [List.mem_cons, not_or]
      exact ⟨by decide, full.unbroken heading titled⟩

/-- A line behind a hunk has no line feed. -/
theorem PayloadLine.text_unbroken (line : PayloadLine) : 0x0a ∉ line.text := by
  rw [PayloadLine.text, List.mem_cons, not_or]
  refine ⟨?_, line.unbroken⟩
  cases line.mark <;> decide

/-- The lines of a hunk have no line feeds. -/
theorem FullHunk.unbroken_of_mem {full : FullHunk} (member : line ∈ full.lines)
    : 0x0a ∉ line := by
  rw [FullHunk.lines, List.mem_append, List.mem_cons] at member
  rcases member with before | rfl | behind
  · exact unbroken_of_mem_remarks before
  · exact unbroken_encode full.text_unbroken
  · obtain ⟨payload, -, rfl⟩ := List.mem_map.mp behind
    exact payload.text_unbroken

/-- The lines of a diff have no line feeds. -/
theorem FullDiff.unbroken_of_mem {diff : FullDiff} (member : line ∈ diff.lines)
    : 0x0a ∉ line := by
  rw [FullDiff.lines, List.mem_append, List.mem_cons, List.mem_cons] at member
  rcases member with before | rfl | rfl | behind
  · exact unbroken_of_mem_remarks before
  · exact unbroken_bytes_append (by decide) diff.oldFits.1
  · exact unbroken_bytes_append (by decide) diff.newFits.1
  · obtain ⟨full, -, inside⟩ := List.mem_flatMap.mp behind
    exact full.unbroken_of_mem inside

/-- The lines of a commit have no line feeds. -/
theorem FullCommit.unbroken_of_mem {commit : FullCommit} (member : line ∈ commit.lines)
    : 0x0a ∉ line := by
  rw [FullCommit.lines, List.mem_append, List.mem_cons] at member
  rcases member with before | rfl | behind
  · exact unbroken_of_mem_remarks before
  · exact unbroken_bytes_append (by decide) (fitsLine_hash commit.digits).1
  · obtain ⟨diff, -, inside⟩ := List.mem_flatMap.mp behind
    exact diff.unbroken_of_mem inside

/-- The lines of a log have no line feeds. -/
theorem FullLog.unbroken_of_mem {log : FullLog} (member : line ∈ log.lines)
    : 0x0a ∉ line := by
  rw [FullLog.lines, List.mem_append] at member
  rcases member with inside | after
  · obtain ⟨commit, -, inside⟩ := List.mem_flatMap.mp inside
    exact commit.unbroken_of_mem inside
  · exact unbroken_of_mem_remarks after

end Unbroken

-----------------------------------------------------------------------------------------
-- The records of the lines
-----------------------------------------------------------------------------------------

def FullDiff.records (diff : FullDiff) : List LogRecord :=
  .oldPath diff.oldPath :: .newPath diff.newPath
    :: diff.hunks.map fun full => .hunk full.hunk

def FullCommit.records (commit : FullCommit) : List LogRecord :=
  .commit (shortHash commit.hash) :: commit.diffs.flatMap FullDiff.records

def FullLog.records (log : FullLog) : List LogRecord :=
  log.commits.flatMap FullCommit.records

/-- The lines are read to their end as the records, wherever they stand. -/
def Says (lines : List (List UInt8)) (records : List LogRecord) : Prop :=
  ∀ number, (scanLines number 0 (lines.map ended)).Found records

section Says

variable {line : List UInt8} {rest : List (List UInt8)} {records more : List LogRecord}

/-- No lines say no records. -/
theorem says_nil : Says [] [] :=
  fun _ => Scan.found_empty

/-- A line that is no record is passed over. -/
theorem Says.pass (told : Says rest records)
    (nothing : ∀ number, readLine number (withoutEnd (ended line)) = .ok none)
    : Says (line :: rest) records := by
  intro number
  simp only [List.map_cons, scanLines, nothing]
  exact told (number + 1)

/-- A record is read from its line, by itself. -/
theorem Says.cons {record : LogRecord} (told : Says rest records)
    (first : ∀ number, readLine number (withoutEnd (ended line)) = .ok (some (record, 0)))
    : Says (line :: rest) (record :: records) := by
  intro number
  simp only [List.map_cons, scanLines, first]
  exact (told (number + 1)).cons (number + 1) record

/-- What a line begins with is left when the end of the line goes. -/
theorem behind?_withoutEnd_eq_none {start : String} (other : behind? start line = none)
    : behind? start (withoutEnd (ended line)) = none := by
  cases begins : behind? start (withoutEnd (ended line)) with
  | none => rfl
  | some rest =>
      obtain ⟨more, whole⟩ := withoutEnd_ended_begins line
      rw [behind?_eq_some begins, List.append_assoc] at whole
      rw [← whole, behind?_append] at other
      cases other

/-- A remark says nothing. -/
theorem Says.remark (told : Says rest records) (remark : Remark)
    : Says (remark.text :: rest) records :=
  told.pass fun number => readLine_of_plain number fun start member =>
    behind?_withoutEnd_eq_none (remark.plain start member)

/-- Remarks say nothing, by induction on the remarks. -/
theorem Says.remarks (told : Says rest records) (remarks : List Remark)
    : Says (remarks.map Remark.text ++ rest) records := by
  induction remarks with
  | nil => exact told
  | cons remark remarks ih => exact ih.remark remark

/-- A line behind a hunk keeps its mark, even if its content is gone with the end of the line. -/
theorem PayloadLine.head?_withoutEnd (line : PayloadLine)
    : (withoutEnd (ended line.text)).head? = some line.mark.byte := by
  rw [withoutEnd_ended, PayloadLine.text]
  split
  · next returned =>
      cases content : line.content with
      | nil =>
          rw [content] at returned
          revert returned
          cases line.mark <;> decide
      | cons b rest => rfl
  · rfl

/-- A line behind a hunk begins with a backslash if it is only a note. -/
theorem PayloadLine.head?_eq_backslash_iff (line : PayloadLine)
    : (withoutEnd (ended line.text)).head? = some 0x5c ↔ line.due = false := by
  rw [line.head?_withoutEnd, PayloadLine.due]
  cases line.mark <;> decide

/-- A line that begins with a backslash is no record. -/
theorem readLine_note (number : Nat) {text : List UInt8} (note : text.head? = some 0x5c)
    : readLine number text = .ok none := by
  apply readLine_of_plain
  intro start member
  simp only [starts, List.mem_cons, List.not_mem_nil, or_false] at member
  rcases member with rfl | rfl | rfl | rfl
  · exact behind?_eq_none (by rw [bytes_commit]; rfl) (by rw [note]; decide)
  · exact behind?_eq_none (by rw [bytes_oldPath]; rfl) (by rw [note]; decide)
  · exact behind?_eq_none (by rw [bytes_newPath]; rfl) (by rw [note]; decide)
  · exact behind?_eq_none (by rw [bytes_hunk]; rfl) (by rw [note]; decide)

/-- The lines that are due are passed over whatever they hold, and the notes among them and behind
them as well, by induction on the lines.
-/
theorem Says.payload (told : Says rest records) (payload : List PayloadLine) (number : Nat)
    : (scanLines number (payload.countP PayloadLine.due)
        ((payload.map PayloadLine.text ++ rest).map ended)).Found records := by
  induction payload generalizing number with
  | nil => exact told number
  | cons line payload ih =>
      have note := line.head?_eq_backslash_iff
      cases due : line.due with
      | true =>
          rw [due] at note
          rw [List.countP_cons_of_pos due]
          simp only [List.map_cons, List.cons_append, scanLines, note]
          exact ih (number + 1)
      | false =>
          have backslash := note.mpr due
          rw [List.countP_cons_of_neg (by simp [due])]
          cases missing : payload.countP PayloadLine.due with
          | zero =>
              rw [missing] at ih
              simp only [List.map_cons, List.cons_append, scanLines, readLine_note _ backslash]
              exact ih (number + 1)
          | succ missing' =>
              rw [missing] at ih
              simp only [List.map_cons, List.cons_append, scanLines, backslash]
              exact ih (number + 1)

/-- A heading does not begin like the mark of a bare hunk. -/
theorem FullHunk.head?_ne_of_prefix {full : FullHunk} {kept : List Char}
    (part : kept <+: full.title)
    : kept.head? ≠ some '-' := by
  obtain ⟨more, whole⟩ := part
  intro bare
  cases kept with
  | nil => cases bare
  | cons c kept =>
      obtain rfl := Option.some.inj bare
      rw [FullHunk.title] at whole
      split at whole
      · cases whole
      · cases (List.cons.inj whole).1

/-- A hunk is read from its line, and nothing is read from the lines behind it. -/
theorem Says.hunk (told : Says rest records) (full : FullHunk)
    : Says (full.lines ++ rest) (.hunk full.hunk :: records) := by
  have untitled : FitsLine (hunkText full.briefOld full.briefNew full.hunk []) :=
    fitsLine_hunkText (by decide)
  obtain ⟨kept, part, line⟩ := withoutEnd_ended_encode_append untitled full.title
  rw [← full.text_eq, ← hunkText_append, List.nil_append] at line
  have bare : kept.head? ≠ some '-' := FullHunk.head?_ne_of_prefix part
  rw [FullHunk.lines, List.append_assoc]
  apply Says.remarks
  intro number
  simp only [List.cons_append, List.map_cons, scanLines, line, readLine_hunkText full.inBounds,
    if_neg bare, ← full.complete]
  exact (told.payload full.payload (number + 1)).cons (number + 1) (.hunk full.hunk)

/-- Hunks say their records, by induction on the hunks. -/
theorem Says.hunks (told : Says rest records) (hunks : List FullHunk)
    : Says (hunks.flatMap FullHunk.lines ++ rest)
        (hunks.map (fun full => .hunk full.hunk) ++ records) := by
  induction hunks with
  | nil => exact told
  | cons full hunks ih =>
      rw [List.flatMap_cons, List.append_assoc]
      exact ih.hunk full

/-- The paths are read from their lines. -/
theorem Says.diff (told : Says rest records) (diff : FullDiff)
    : Says (diff.lines ++ rest) (diff.records ++ records) := by
  rw [FullDiff.lines, List.append_assoc]
  apply Says.remarks
  refine Says.cons (Says.cons (told.hunks diff.hunks) ?_) ?_
  · intro number
    rw [withoutEnd_ended_bytes_append (by decide) diff.newFits, readLine_newPath,
      Text.Utf8.readable_bytes]
  · intro number
    rw [withoutEnd_ended_bytes_append (by decide) diff.oldFits, readLine_oldPath,
      Text.Utf8.readable_bytes]

/-- Diffs say their records, by induction on the diffs. -/
theorem Says.diffs (told : Says rest records) (diffs : List FullDiff)
    : Says (diffs.flatMap FullDiff.lines ++ rest)
        (diffs.flatMap FullDiff.records ++ records) := by
  induction diffs with
  | nil => exact told
  | cons diff diffs ih =>
      rw [List.flatMap_cons, List.flatMap_cons, List.append_assoc, List.append_assoc]
      exact ih.diff diff

/-- A commit says its records. -/
theorem Says.commit (told : Says rest records) (commit : FullCommit)
    : Says (commit.lines ++ rest) (commit.records ++ records) := by
  rw [FullCommit.lines, List.append_assoc]
  apply Says.remarks
  refine Says.cons (told.diffs commit.diffs) ?_
  intro number
  have found : hash? (bytes commit.hash) = some (shortHash commit.hash) := by
    rw [Text.Utf8.bytes_eq_encode, hash?_encode commit.long commit.digits, String.ofList_toList]
  rw [withoutEnd_ended_bytes_append (by decide) (fitsLine_hash commit.digits),
    readLine_commit found]

/-- Commits say their records, by induction on the commits. -/
theorem Says.commits (told : Says rest records) (commits : List FullCommit)
    : Says (commits.flatMap FullCommit.lines ++ rest)
        (commits.flatMap FullCommit.records ++ records) := by
  induction commits with
  | nil => exact told
  | cons commit commits ih =>
      rw [List.flatMap_cons, List.flatMap_cons, List.append_assoc, List.append_assoc]
      exact ih.commit commit

/-- A log is scanned as its records. -/
theorem FullLog.found (log : FullLog) : (scan log.render).Found log.records := by
  have after : Says (log.after.map Remark.text ++ []) [] := says_nil.remarks log.after
  have whole := after.commits log.commits
  rw [List.append_nil, List.append_nil] at whole
  rw [scan, FullLog.render, Text.byteLines_flatMap_ended fun _ => log.unbroken_of_mem]
  exact whole 0

end Says

-----------------------------------------------------------------------------------------
-- The history of the records
-----------------------------------------------------------------------------------------

section Told

variable {history next : History} {reading : Reading}

/-- The records of hunks add the hunks to the diff that takes them, by induction on the hunks. -/
theorem follow?_hunks {id : Nat} (takes : reading.diff = some id) (hunks : List FullHunk)
    : reading.follow? (hunks.map fun full => .hunk full.hunk)
      = some { reading with history := pushHunks reading.history id hunks } := by
  induction hunks generalizing reading with
  | nil => rfl
  | cons full hunks ih =>
      have taken : reading.add 0 (.hunk full.hunk)
          = .ok { reading with history := reading.history.pushHunk id full.hunk } := by
        simp only [Reading.add, takes]
      rw [List.map_cons, Reading.follow?, taken]
      exact ih takes

/-- Taking in the records leads to the history. -/
def LeadsTo (reading : Reading) (records : List LogRecord) (history : History) : Prop :=
  ∃ next, reading.follow? records = some next ∧ next.history = history

/-- Records one behind the other lead to where the later ones lead from where the first ones did. -/
theorem LeadsTo.append {first rest : List LogRecord} (leads : LeadsTo reading first history)
    (more : ∀ reading : Reading, reading.history = history → LeadsTo reading rest next)
    : LeadsTo reading (first ++ rest) next := by
  obtain ⟨middle, followed, same⟩ := leads
  obtain ⟨last, followedToo, sameToo⟩ := more middle same
  refine ⟨last, ?_, sameToo⟩
  rw [Reading.follow?_append, followed, Option.bind_some, followedToo]

/-- Where each item leads to the history that it is added to, all of them lead to the history they
are added to one after the other. By induction on the items.
-/
theorem leadsTo_flatMap {Item : Type} {push? : History → Item → Option History}
    {told : Item → List LogRecord}
    (each : ∀ {reading : Reading} {item next}, push? reading.history item = some next
      → LeadsTo reading (told item) next)
    (items : List Item) (pushed : items.foldlM push? reading.history = some next)
    : LeadsTo reading (items.flatMap told) next := by
  induction items generalizing reading with
  | nil => exact ⟨reading, rfl, Option.some.inj pushed⟩
  | cons item items ih =>
      rw [List.foldlM_cons, Option.bind_eq_bind, Option.bind_eq_some_iff] at pushed
      obtain ⟨middle, pushedFirst, pushedRest⟩ := pushed
      rw [List.flatMap_cons]
      refine (each pushedFirst).append fun other same => ?_
      rw [← same] at pushedRest
      exact ih pushedRest

/-- A file is taken in under its path, whatever was read before it. -/
theorem FullDiff.leadsTo {diff : FullDiff} (pushed : diff.push? reading.history = some next)
    : LeadsTo reading diff.records next := by
  simp only [FullDiff.push?, Option.bind_eq_bind, Option.bind_eq_some_iff] at pushed
  obtain ⟨⟨id, added⟩, found, same⟩ := pushed
  have paths : reading.follow? [.oldPath diff.oldPath, .newPath diff.newPath]
      = some { history := added, oldPath := none, diff := some id } := by
    have path : (if diff.oldPath = noFile then diff.newPath else diff.oldPath) = diff.path := rfl
    simp only [Reading.follow?, Reading.add, Except.toOption, Option.bind_some, path, found]
  have hunks : ({ history := added, diff := some id } : Reading).follow?
        (diff.hunks.map fun full => .hunk full.hunk)
      = some { history := pushHunks added id diff.hunks, diff := some id } :=
    follow?_hunks rfl diff.hunks
  have parts : diff.records = [.oldPath diff.oldPath, .newPath diff.newPath]
      ++ diff.hunks.map fun full => .hunk full.hunk :=
    rfl
  rw [LeadsTo, parts, Reading.follow?_append, paths, Option.bind_some, hunks]
  exact ⟨_, rfl, Option.some.inj same⟩

/-- The records of a commit lead to the history with what the commit did. -/
theorem FullCommit.leadsTo {commit : FullCommit}
    (pushed : commit.push? reading.history = some next)
    : LeadsTo reading commit.records next := by
  have first : LeadsTo reading [.commit (shortHash commit.hash)]
      (reading.history.pushCommit commit.hash) := by
    refine ⟨_, rfl, ?_⟩
    simp only [History.pushCommit, History.shortHash_shortHash]
  refine first.append fun other same => ?_
  rw [FullCommit.push?, ← same] at pushed
  exact leadsTo_flatMap FullDiff.leadsTo commit.diffs pushed

-----------------------------------------------------------------------------------------
-- There is such a history
-----------------------------------------------------------------------------------------

/-- Hunks add no commit, by induction on the hunks. -/
theorem hashes_pushHunks (history : History) (id : Nat) (hunks : List FullHunk)
    : (pushHunks history id hunks).hashes = history.hashes := by
  induction hunks generalizing history with
  | nil => rfl
  | cons full hunks ih => exact ih (history.pushHunk id full.hunk)

/-- Behind a commit there is room for files, and there still is behind each. -/
theorem FullDiff.exists_push? {hash : String} (last : history.hashes.back? = some hash)
    (diff : FullDiff)
    : ∃ next, diff.push? history = some next ∧ next.hashes.back? = some hash := by
  simp only [FullDiff.push?, History.pushDiff?, last, Option.bind_eq_bind, Option.bind_some,
    Option.pure_def, Option.some.injEq, exists_eq_left', hashes_pushHunks]

/-- Behind a commit each diff can be added, by induction on the diffs. -/
theorem exists_push?_diffs {hash : String} (last : history.hashes.back? = some hash)
    (diffs : List FullDiff)
    : ∃ next, diffs.foldlM FullDiff.push? history = some next := by
  induction diffs generalizing history with
  | nil => exact ⟨history, rfl⟩
  | cons diff diffs ih =>
      obtain ⟨middle, pushed, still⟩ := diff.exists_push? last
      rw [List.foldlM_cons, pushed]
      exact ih still

/-- Each commit can be added with its diffs, by induction on the commits. -/
theorem exists_push?_commits (history : History) (commits : List FullCommit)
    : ∃ next, commits.foldlM FullCommit.push? history = some next := by
  induction commits generalizing history with
  | nil => exact ⟨history, rfl⟩
  | cons commit commits ih =>
      have last : (history.pushCommit commit.hash).hashes.back? = some (shortHash commit.hash) :=
        Array.back?_push
      obtain ⟨middle, pushed⟩ := exists_push?_diffs last commit.diffs
      rw [List.foldlM_cons, FullCommit.push?, pushed]
      exact ih middle

end Told

/-- A full log can be read, and its history is that of its commits, diffs and hunks in their order,
whatever the other lines hold.
-/
theorem FullLog.history_of_render (log : FullLog)
    : ∃ history, log.history? = some history ∧ History.ofLog log.render = .ok history := by
  obtain ⟨history, pushed⟩ := exists_push?_commits {} log.commits
  obtain ⟨reading, followed, same⟩ : LeadsTo {} log.records history :=
    leadsTo_flatMap FullCommit.leadsTo log.commits pushed
  exact ⟨history, pushed, ofLog_eq_ok_iff.mpr ⟨_, reading, log.found, followed, same⟩⟩

/-- The lines of a hunk can look like the paths of another file. -/
example : ∃ log : FullLog,
    log.render
    = encode ("commit 0123456789abcdef\n--- a\n+++ b\n@@ -1 +1 @@ f\n"
      ++ "--- c\n+++ d\n\\ none\nindex\n").toList :=
  let deleted : PayloadLine := ⟨.deleted, encode "-- c".toList, by decide⟩
  let inserted : PayloadLine := ⟨.inserted, encode "++ d".toList, by decide⟩
  let note : PayloadLine := ⟨.note, encode " none".toList, by decide⟩
  let hunk : FullHunk :=
    { hunk := ⟨1, 1, 1, 1⟩, briefOld := true, briefNew := true, heading := some "f"
      payload := [deleted, inserted, note], inBounds := by decide, unbroken := by simp
      complete := rfl }
  let diff : FullDiff :=
    { oldPath := "a", newPath := "b", hunks := [hunk], oldFits := by decide
      newFits := by decide }
  let commit : FullCommit :=
    { hash := "0123456789abcdef", diffs := [diff], long := by decide
      digits := List.all_eq_true.mp (by decide) }
  ⟨{ commits := [commit], after := [⟨encode "index".toList, by decide, by decide +kernel⟩] },
    by decide +kernel⟩

end SourceView.Log
