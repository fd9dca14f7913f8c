import SourceView.Proofs.Blame.Reversal
import SourceView.Proofs.Blame.Walk

/-! Versions replayed with machine words.
Sums have to fit in 64 bits here, and nothing is taken from what is less, or else there is no value.
The walk over the runs of a version has one wherever the versions on both sides are short enough:
its numbers only grow, and those that it ends with are the numbers behind the last lines.
-/

namespace SourceView

open Segment

namespace Words

-----------------------------------------------------------------------------------------
-- Sums and differences
-----------------------------------------------------------------------------------------

/-- A sum, if it fits in a word. -/
def add? (a b : Nat) : Option Nat :=
  if a + b < UInt64.size then some (a + b) else none

/-- A difference, if it is not less than nothing. -/
def sub? (a b : Nat) : Option Nat :=
  if b ≤ a then some (a - b) else none

/-- A sum that is a word has a value. -/
theorem add?_of_lt {a b : Nat} (fits : a + b < UInt64.size) : add? a b = some (a + b) :=
  if_pos fits

/-- A difference has a value where there is enough to take away from. -/
theorem sub?_of_le {a b : Nat} (enough : b ≤ a) : sub? a b = some (a - b) :=
  if_pos enough

/-- A difference that has a value is the difference, and there was enough to take away from. -/
theorem sub?_eq_some {a b c : Nat} (found : sub? a b = some c) : b ≤ a ∧ c = a - b := by
  unfold sub? at found
  split at found
  · next enough => exact ⟨enough, (Option.some.inj found).symm⟩
  · cases found

/-- A sum that has a value is the sum. -/
theorem add?_eq_some {a b c : Nat} (found : add? a b = some c) : c = a + b := by
  unfold add? at found
  split at found
  · exact (Option.some.inj found).symm
  · cases found

-----------------------------------------------------------------------------------------
-- The walk over the runs of a version
-----------------------------------------------------------------------------------------

/-- A walk whose numbers are words. It has come to a place among the runs and so far in the run
there, and has the numbers of the next line on both sides and the new runs so far.
-/
structure Cursor where
  place : Nat := 0
  offset : Nat := 0
  oldLine : Nat := 1
  newLine : Nat := 1
  new : List Segment := []

namespace Cursor

/-- Write the next lines of a run down, if they are kept. -/
def copy? (cursor : Cursor) (run : Segment) (taken : Nat) (kept : Bool) : Option Cursor :=
  if kept then do
    let start ← add? run.start cursor.offset
    let newLine ← add? cursor.newLine taken
    return { cursor with newLine, new := cursor.new ++ [{ run with count := taken, start }] }
  else some cursor

/-- Leave the next lines of a run behind, and the run itself if these are its last ones. -/
def pass? (cursor : Cursor) (run : Segment) (taken : Nat) : Option Cursor := do
  let oldLine ← add? cursor.oldLine taken
  let offset ← add? cursor.offset taken
  if offset = run.count then
    let place ← add? cursor.place 1
    return { cursor with place, offset := 0, oldLine }
  else return { cursor with offset, oldLine }

/-- Go on by `n` lines, or as many as are left of a run, and tell how many of them are to come. -/
def advance? (cursor : Cursor) (run : Segment) (n : Nat) (kept : Bool) : Option (Nat × Cursor) := do
  let left ← sub? run.count cursor.offset
  let taken := min n left
  let copied ← cursor.copy? run taken kept
  let passed ← copied.pass? run taken
  let more ← sub? n taken
  return (more, passed)

/-- Copying a part of a run leaves the cursor where it is. -/
theorem copy?_eq_some {cursor copied : Cursor} {run : Segment} {taken : Nat} {kept : Bool}
    (found : cursor.copy? run taken kept = some copied)
    : copied.place = cursor.place ∧ copied.offset = cursor.offset := by
  unfold copy? at found
  split at found
  · simp only [Option.bind_eq_bind, Option.bind_eq_some_iff, Option.pure_def,
      Option.some.injEq] at found
    obtain ⟨_, -, _, -, rfl⟩ := found
    exact ⟨rfl, rfl⟩
  · cases found
    exact ⟨rfl, rfl⟩

/-- A cursor goes on to the next run where the part that it passes is the rest of the run. -/
theorem pass?_eq_some {cursor passed : Cursor} {run : Segment} {taken : Nat}
    (found : cursor.pass? run taken = some passed)
    : passed.place
      = if cursor.offset + taken = run.count then cursor.place + 1 else cursor.place := by
  simp only [pass?, Option.bind_eq_bind, Option.bind_eq_some_iff] at found
  obtain ⟨_, -, offset, reached, found⟩ := found
  obtain rfl := add?_eq_some reached
  split at found
  · next last =>
      obtain ⟨place, next, found⟩ := Option.bind_eq_some_iff.mp found
      obtain rfl := add?_eq_some next
      cases found
      rw [if_pos last]
  · next more =>
      cases found
      rw [if_neg more]

/-- A walk that goes on comes to the next run, or has fewer lines to go. -/
theorem advance?_eq_some {cursor next : Cursor} {run : Segment} {n more : Nat} {kept : Bool}
    (wanted : n ≠ 0) (moved : cursor.advance? run n kept = some (more, next))
    : next.place = cursor.place + 1 ∨ next.place = cursor.place ∧ more < n := by
  simp only [advance?, Option.bind_eq_bind, Option.bind_eq_some_iff, Option.pure_def,
    Option.some.injEq, Prod.mk.injEq] at moved
  obtain ⟨left, counted, copied, written, passed, behind, rest, due, rfl, rfl⟩ := moved
  obtain ⟨enough, rfl⟩ := sub?_eq_some counted
  obtain ⟨-, rfl⟩ := sub?_eq_some due
  obtain ⟨samePlace, sameOffset⟩ := copy?_eq_some written
  rw [pass?_eq_some behind, samePlace, sameOffset]
  split
  · exact .inl rfl
  · exact .inr ⟨rfl, by omega⟩

/-- Go on by `n` lines, or as many as are left. -/
def consume? (runs : List Segment) (cursor : Cursor) (n : Nat) (kept : Bool) : Option Cursor :=
  if n = 0 then some cursor
  else
    match _there : runs[cursor.place]? with
    | none => some cursor
    | some run =>
      match _moved : cursor.advance? run n kept with
      | none => none
      | some (more, next) => consume? runs next more kept
termination_by (runs.length - cursor.place, n)
decreasing_by
  have present := (List.getElem?_eq_some_iff.mp _there).1
  rcases advance?_eq_some ‹_› _moved with next | ⟨here, fewer⟩
  · exact Prod.Lex.left _ _ (by omega)
  · rw [here]
    exact Prod.Lex.right _ fewer

/-- Put in `n` lines of a commit. -/
def emit? (cursor : Cursor) (n : Nat) (commit : String) : Option Cursor := do
  let newLine ← add? cursor.newLine n
  return {
    cursor with
    newLine, new := cursor.new ++ [{ count := n, start := cursor.newLine, commit }] }

/-- Replay the part of a hunk that deletes, if there is one. -/
def applyOld? (runs : List Segment) (cursor : Cursor) (hunk : Hunk) : Option Cursor :=
  if hunk.oldLength = 0 then some cursor
  else do
    let reached ← consume? runs cursor (hunk.oldStart - cursor.oldLine) true
    consume? runs reached hunk.oldLength false

/-- Replay the part of a hunk that inserts, if there is one. -/
def applyNew? (runs : List Segment) (commit : String) (cursor : Cursor) (hunk : Hunk)
    : Option Cursor :=
  if hunk.newLength = 0 then some cursor
  else do
    let reached ← consume? runs cursor (hunk.newStart - cursor.newLine) true
    reached.emit? hunk.newLength commit

/-- Replay one hunk. -/
def hunk? (runs : List Segment) (commit : String) (cursor : Cursor) (hunk : Hunk)
    : Option Cursor := do
  let deleted ← applyOld? runs cursor hunk
  applyNew? runs commit deleted hunk

end Cursor

/-- The version after a commit, from the version before it. At the end as many lines are kept as a
word can say.
-/
def step? (runs : List Segment) (hunks : List Hunk) (commit : String) : Option (List Segment) := do
  let replayed ← hunks.foldlM (Cursor.hunk? runs commit) {}
  let finished ← replayed.consume? runs (UInt64.size - 1) true
  return finished.new

-----------------------------------------------------------------------------------------
-- A walk whose numbers fit
-----------------------------------------------------------------------------------------

section Walks

variable {runs : List Segment}

/-- A walk as it is with machine words. -/
def Cursor.ofWalk (walk : Walk runs) : Cursor where
  place := walk.place
  offset := walk.offset
  oldLine := walk.oldLine
  newLine := walk.newLine
  new := walk.new

/-- A walk comes later than another: it has come as far, at least, on both sides. -/
structure Later (walk later : Walk runs) : Prop where
  old : walk.oldLine ≤ later.oldLine
  new : walk.newLine ≤ later.newLine

/-- A walk comes as late as itself. -/
theorem Later.rfl {walk : Walk runs} : Later walk walk :=
  ⟨Nat.le_refl _, Nat.le_refl _⟩

/-- A walk that comes later than a later one comes later. -/
theorem Later.trans {walk later last : Walk runs} (first : Later walk later)
    (second : Later later last)
    : Later walk last :=
  ⟨Nat.le_trans first.old second.old, Nat.le_trans first.new second.new⟩

/-- A walk comes later behind a part of a run. -/
theorem later_pass (walk : Walk runs) {run : Segment} {taken : Nat} {kept : Bool}
    (there : runs[walk.place]? = some run) (short : taken ≤ run.count - walk.offset)
    : Later walk (walk.pass run taken kept there short) := by
  refine ⟨Nat.le_add_right _ _, ?_⟩
  simp only [Walk.pass]
  split
  · exact Nat.le_add_right _ _
  · exact Nat.le_refl _

/-- A walk comes later behind the lines that it consumes, by induction on its recursion. -/
theorem later_consume (walk : Walk runs) (n : Nat) (kept : Bool)
    : Later walk (walk.consume n kept) := by
  fun_induction Walk.consume walk n kept with
  | case1 | case2 => exact .rfl
  | case3 walk n wanted run there taken ih => exact (later_pass walk there _).trans ih

/-- A walk behind the part of a hunk that deletes. -/
def pastOld (walk : Walk runs) (hunk : Hunk) : Walk runs :=
  if hunk.oldLength = 0 then walk
  else (walk.forward (hunk.oldStart - walk.oldLine)).skip hunk.oldLength

/-- A hunk is replayed past its deleted lines, and then up to those that it inserts. -/
theorem apply_eq (commit : String) (walk : Walk runs) (hunk : Hunk)
    : walk.apply commit hunk
      = if hunk.newLength = 0 then pastOld walk hunk
        else
          ((pastOld walk hunk).forward (hunk.newStart - (pastOld walk hunk).newLine)).emit
            hunk.newLength commit := rfl

/-- A walk that inserts comes later on the new side. -/
theorem later_emit (walk : Walk runs) (n : Nat) (commit : String)
    : Later walk (walk.emit n commit) :=
  ⟨Nat.le_refl _, Nat.le_add_right _ _⟩

/-- A walk comes later behind the lines that a hunk deletes. -/
theorem later_pastOld (walk : Walk runs) (hunk : Hunk) : Later walk (pastOld walk hunk) := by
  unfold pastOld
  split
  · exact .rfl
  · exact (later_consume walk _ true).trans (later_consume _ _ false)

/-- A walk behind a hunk comes later than behind the lines that the hunk deletes. -/
theorem pastOld_later (commit : String) (walk : Walk runs) (hunk : Hunk)
    : Later (pastOld walk hunk) (walk.apply commit hunk) := by
  rw [apply_eq]
  split
  · exact .rfl
  · exact (later_consume _ _ true).trans (later_emit ..)

/-- A walk comes later behind hunks, by induction on the hunks. -/
theorem later_foldl_apply (commit : String) (walk : Walk runs) (hunks : List Hunk)
    : Later walk (hunks.foldl (Walk.apply commit) walk) := by
  induction hunks generalizing walk with
  | nil => exact .rfl
  | cons hunk rest ih =>
      exact ((later_pastOld walk hunk).trans (pastOld_later commit walk hunk)).trans (ih _)

/-- The numbers that a walk has come to are words. -/
structure InWords (walk : Walk runs) : Prop where
  old : walk.oldLine < UInt64.size
  new : walk.newLine < UInt64.size

/-- The numbers that a walk has come to are words if those of a later one are. -/
theorem InWords.of_later {walk later : Walk runs} (inWords : InWords later)
    (before : Later walk later)
    : InWords walk :=
  ⟨Nat.lt_of_le_of_lt before.old inWords.old, Nat.lt_of_le_of_lt before.new inWords.new⟩

/-- The numbers of the lines in each run, and the one behind them, lie below a bound. -/
def NumbersBelow (bound : Nat) (runs : List Segment) : Prop :=
  ∀ run ∈ runs, run.start + run.count < bound

/-- The runs of a version can be told with words: none is empty, the lines and the one behind them
have numbers, and the runs begin and end with words.
-/
structure Tellable (runs : List Segment) : Prop where
  solid : Solid runs
  short : lineCount runs + 1 < UInt64.size
  numbers : NumbersBelow UInt64.size runs

/-- There are no more runs than lines where no run is empty, by induction on the runs. -/
theorem length_le_lineCount (solid : Solid runs) : runs.length ≤ lineCount runs := by
  induction runs with
  | nil => exact Nat.le_refl 0
  | cons run rest ih =>
      obtain ⟨here, more⟩ := List.forall_mem_cons.mp solid
      have := ih more
      rw [List.length_cons, lineCount_cons]
      omega

/-- There is a word for the number of runs that words can tell. -/
theorem Tellable.length_lt (tellable : Tellable runs) : runs.length < UInt64.size := by
  have := length_le_lineCount tellable.solid
  have := tellable.short
  omega

/-- Copying a part of a run has a value where the walk stays within words, and it is what the walk
writes.
-/
theorem copy?_ofWalk (tellable : Tellable runs) (walk : Walk runs) {run : Segment} {taken : Nat}
    {kept : Bool} (there : runs[walk.place]? = some run) (short : taken ≤ run.count - walk.offset)
    (inWords : InWords (walk.pass run taken kept there short))
    : (Cursor.ofWalk walk).copy? run taken kept
      = some {
        Cursor.ofWalk walk with
        newLine := (walk.pass run taken kept there short).newLine
        new := (walk.pass run taken kept there short).new } := by
  have inside := walk.inside run there
  have numbers := tellable.numbers run (List.mem_of_getElem? there)
  unfold Cursor.copy?
  cases kept with
  | false => rfl
  | true =>
      have start : add? run.start walk.offset = some (run.start + walk.offset) :=
        add?_of_lt (by omega)
      have newLine : add? walk.newLine taken = some (walk.newLine + taken) :=
        add?_of_lt inWords.new
      simp [Cursor.ofWalk, start, newLine, Walk.pass, behind]

/-- Passing a part of a run has a value where the walk stays within words, and it is where the walk
goes.
-/
theorem pass?_ofWalk (tellable : Tellable runs) (walk : Walk runs) {run : Segment} {taken : Nat}
    {kept : Bool} (there : runs[walk.place]? = some run) (short : taken ≤ run.count - walk.offset)
    (inWords : InWords (walk.pass run taken kept there short))
    : Cursor.pass? {
        Cursor.ofWalk walk with
        newLine := (walk.pass run taken kept there short).newLine
        new := (walk.pass run taken kept there short).new } run taken
      = some (.ofWalk (walk.pass run taken kept there short)) := by
  have inside := walk.inside run there
  have numbers := tellable.numbers run (List.mem_of_getElem? there)
  have present := (List.getElem?_eq_some_iff.mp there).1
  have few := tellable.length_lt
  have oldLine : add? walk.oldLine taken = some (walk.oldLine + taken) := add?_of_lt inWords.old
  have offset : add? walk.offset taken = some (walk.offset + taken) := add?_of_lt (by omega)
  have place : add? walk.place 1 = some (walk.place + 1) := add?_of_lt (by omega)
  by_cases last : walk.offset + taken = run.count
  · simp [Cursor.pass?, Cursor.ofWalk, oldLine, offset, place, Walk.pass, last]
  · simp [Cursor.pass?, Cursor.ofWalk, oldLine, offset, Walk.pass, last]

/-- A walk passes lines of a run with words, if it comes to words. -/
theorem advance?_ofWalk (tellable : Tellable runs) (walk : Walk runs) {run : Segment}
    {n taken : Nat} {kept : Bool} (there : runs[walk.place]? = some run)
    (short : taken ≤ run.count - walk.offset) (most : min n (run.count - walk.offset) = taken)
    (inWords : InWords (walk.pass run taken kept there short))
    : (Cursor.ofWalk walk).advance? run n kept
      = some (n - taken, .ofWalk (walk.pass run taken kept there short)) := by
  have left : sub? run.count walk.offset = some (run.count - walk.offset) :=
    sub?_of_le (walk.inside run there)
  have more : sub? n taken = some (n - taken) := sub?_of_le (most ▸ Nat.min_le_left ..)
  refine Option.bind_eq_some_iff.mpr ⟨_, left, ?_⟩
  rw [most]
  refine Option.bind_eq_some_iff.mpr ⟨_, copy?_ofWalk tellable walk there short inWords, ?_⟩
  refine Option.bind_eq_some_iff.mpr ⟨_, pass?_ofWalk tellable walk there short inWords, ?_⟩
  exact Option.bind_eq_some_iff.mpr ⟨_, more, rfl⟩

/-- A walk goes on with words, if it comes to words, by induction on the walk. -/
theorem consume?_ofWalk (tellable : Tellable runs) (walk : Walk runs) (n : Nat) (kept : Bool)
    (inWords : InWords (walk.consume n kept))
    : (Cursor.ofWalk walk).consume? runs n kept = some (.ofWalk (walk.consume n kept)) := by
  fun_induction Walk.consume walk n kept with
  | case1 walk => rw [Cursor.consume?, if_pos rfl]
  | case2 walk n wanted there =>
      have ends : runs[(Cursor.ofWalk walk).place]? = none := there
      unfold Cursor.consume?
      rw [if_neg wanted]
      split
      · rfl
      · next run found => cases ends.symm.trans found
  | case3 walk n wanted run there taken ih =>
      have here : runs[(Cursor.ofWalk walk).place]? = some run := there
      have passed : InWords (walk.pass run taken kept there (Nat.min_le_right ..)) :=
        inWords.of_later (later_consume _ _ _)
      have moved := advance?_ofWalk tellable walk there (Nat.min_le_right ..) rfl passed
      unfold Cursor.consume?
      rw [if_neg wanted]
      split
      · next ends => cases ends.symm.trans here
      · next other found =>
          cases here.symm.trans found
          split
          · next stuck => cases stuck.symm.trans moved
          · next more next reached =>
              cases moved.symm.trans reached
              exact ih inWords

/-- Inserting lines has a value where the walk stays within words. -/
theorem emit?_ofWalk {walk : Walk runs} {n : Nat} {commit : String}
    (inWords : InWords (walk.emit n commit))
    : (Cursor.ofWalk walk).emit? n commit = some (.ofWalk (walk.emit n commit)) := by
  have newLine : add? (Cursor.ofWalk walk).newLine n = some (walk.newLine + n) :=
    add?_of_lt inWords.new
  simp only [Cursor.emit?, newLine]
  rfl

/-- The part of a hunk that deletes has a value where the walk stays within words. -/
theorem applyOld?_ofWalk (tellable : Tellable runs) (walk : Walk runs) (hunk : Hunk)
    (inWords : InWords (pastOld walk hunk))
    : Cursor.applyOld? runs (.ofWalk walk) hunk = some (.ofWalk (pastOld walk hunk)) := by
  unfold pastOld at inWords
  unfold Cursor.applyOld? pastOld
  split
  · rfl
  · next deletes =>
      rw [if_neg deletes] at inWords
      have reached := consume?_ofWalk tellable walk (hunk.oldStart - walk.oldLine) true
        (inWords.of_later (later_consume _ _ false))
      have skipped := consume?_ofWalk tellable (walk.forward (hunk.oldStart - walk.oldLine))
        hunk.oldLength false inWords
      exact Option.bind_eq_some_iff.mpr ⟨_, reached, skipped⟩

/-- A hunk has a value where the walk stays within words, and it is what the walk comes to. -/
theorem hunk?_ofWalk (tellable : Tellable runs) (commit : String) (walk : Walk runs) (hunk : Hunk)
    (inWords : InWords (walk.apply commit hunk))
    : (Cursor.ofWalk walk).hunk? runs commit hunk = some (.ofWalk (walk.apply commit hunk)) := by
  have deleted := applyOld?_ofWalk tellable walk hunk
    (inWords.of_later (pastOld_later commit walk hunk))
  refine Option.bind_eq_some_iff.mpr ⟨_, deleted, ?_⟩
  rw [apply_eq] at inWords ⊢
  unfold Cursor.applyNew?
  split
  · rfl
  · next inserts =>
      rw [if_neg inserts] at inWords
      have reached := consume?_ofWalk tellable (pastOld walk hunk)
        (hunk.newStart - (pastOld walk hunk).newLine) true
        (inWords.of_later (later_emit _ hunk.newLength commit))
      exact Option.bind_eq_some_iff.mpr ⟨_, reached, emit?_ofWalk inWords⟩

/-- Hunks have a value where the walk behind them stays within words, by induction on the hunks. -/
theorem foldlM_hunk?_ofWalk (tellable : Tellable runs) (commit : String) (walk : Walk runs)
    (hunks : List Hunk) (inWords : InWords (hunks.foldl (Walk.apply commit) walk))
    : hunks.foldlM (Cursor.hunk? runs commit) (.ofWalk walk)
      = some (.ofWalk (hunks.foldl (Walk.apply commit) walk)) := by
  induction hunks generalizing walk with
  | nil => rfl
  | cons hunk rest ih =>
      have here := hunk?_ofWalk tellable commit walk hunk
        (inWords.of_later (later_foldl_apply commit _ rest))
      rw [List.foldlM_cons, here]
      exact ih _ inWords

end Walks

-----------------------------------------------------------------------------------------
-- The numbers behind the last lines
-----------------------------------------------------------------------------------------

/-- A version half replayed has numbered the lines on both sides: those that are not left of `count`
old lines, and those that are written.
-/
structure Numbered (count : Nat) (replay : Replay) : Prop where
  old : replay.oldLine + lineCount replay.old = count + 1
  new : replay.newLine = lineCount replay.new + 1

/-- Runs one behind the other have the lines of both. -/
theorem lineCount_append (front back : List Segment)
    : lineCount (front ++ back) = lineCount front + lineCount back := by
  rw [← length_flatten, flatten_append, List.length_append, length_flatten, length_flatten]

/-- Splitting runs loses no line. -/
theorem lineCount_split (n : Nat) (segments : List Segment)
    : lineCount (split n segments).1 + lineCount (split n segments).2 = lineCount segments := by
  rw [← length_flatten, ← length_flatten, ← length_flatten, flatten_split_fst, flatten_split_snd,
    ← List.length_append, List.take_append_drop]

/-- Each step of a replay numbers the lines on both sides. -/
theorem numbered_preserved (count : Nat) : Replay.Preserved (Numbered count) where
  keep {replay} n numbered := by
    obtain ⟨old, new⟩ := numbered
    have parts := lineCount_split n replay.old
    constructor
    · simp only [Replay.keep]
      omega
    · simp only [Replay.keep, lineCount_append]
      omega
  delete {replay} n numbered := by
    obtain ⟨old, new⟩ := numbered
    have parts := lineCount_split n replay.old
    constructor
    · simp only [Replay.delete]
      omega
    · exact new
  insert {replay n} commit _ numbered := by
    obtain ⟨old, new⟩ := numbered
    have one : lineCount [⟨n, replay.newLine, commit⟩] = n := Nat.add_zero n
    constructor
    · exact old
    · simp only [Replay.insert, lineCount_append, one]
      omega

/-- A replay has numbered the lines on both sides behind any hunks. -/
theorem numbered_foldl_apply (runs : List Segment) (hunks : List Hunk) (commit : String)
    : Numbered (lineCount runs) (hunks.foldl (Replay.apply commit) { old := runs }) :=
  (numbered_preserved _).foldl_apply ⟨Nat.add_comm _ _, rfl⟩ commit hunks

/-- The numbers that a walk ends with are those behind the last lines on both sides. -/
theorem inWords_of_tellable {runs : List Segment} (tellable : Tellable runs) (hunks : List Hunk)
    (commit : String) (short : lineCount (step runs hunks commit) + 1 < UInt64.size)
    : InWords
        ((hunks.foldl (Walk.apply commit) (Walk.start runs)).forward (UInt64.size - 1)) := by
  have enough : lineCount runs < UInt64.size - 1 := by
    have := tellable.short
    omega
  have numbered := (numbered_preserved _).keep (UInt64.size - 1)
    (numbered_foldl_apply runs hunks commit)
  obtain ⟨empty, whole⟩ := Walk.replay_atEnd enough hunks commit
  rw [← Walk.replay_toEnd] at numbered
  obtain ⟨old, new⟩ := numbered
  rw [empty] at old
  rw [whole] at new
  exact ⟨Nat.lt_of_le_of_lt (Nat.le_of_eq old) tellable.short,
    Nat.lt_of_le_of_lt (Nat.le_of_eq new) short⟩

/-- A step of a tellable version to one that is short enough is the step without bounds. -/
theorem step?_eq {runs : List Segment} (tellable : Tellable runs) (hunks : List Hunk)
    (commit : String) (short : lineCount (step runs hunks commit) + 1 < UInt64.size)
    : step? runs hunks commit = some (step runs hunks commit) := by
  have ends := inWords_of_tellable tellable hunks commit short
  have replayed := foldlM_hunk?_ofWalk tellable commit (Walk.start runs) hunks
    (ends.of_later (later_consume _ _ true))
  have finished := consume?_ofWalk tellable _ (UInt64.size - 1) true ends
  have enough : lineCount runs < UInt64.size - 1 := by
    have := tellable.short
    omega
  rw [← Walk.step_eq enough hunks commit]
  refine Option.bind_eq_some_iff.mpr ⟨_, replayed, ?_⟩
  exact Option.bind_eq_some_iff.mpr ⟨_, finished, rfl⟩

-----------------------------------------------------------------------------------------
-- The runs of the next version
-----------------------------------------------------------------------------------------

/-- Numbers below a bound lie below a higher one. -/
theorem NumbersBelow.mono {bound higher : Nat} {runs : List Segment}
    (below : NumbersBelow bound runs) (le : bound ≤ higher)
    : NumbersBelow higher runs :=
  fun run member => Nat.lt_of_lt_of_le (below run member) le

/-- The numbers of runs one behind the other lie below what bounds both. -/
theorem NumbersBelow.append {bound : Nat} {front back : List Segment}
    (first : NumbersBelow bound front) (last : NumbersBelow bound back)
    : NumbersBelow bound (front ++ back) := by
  intro run member
  rcases List.mem_append.mp member with inFront | inBack
  · exact first run inFront
  · exact last run inBack

/-- The parts of a run have numbers that the run has, by induction on the runs. -/
theorem NumbersBelow.split {bound : Nat} {runs : List Segment} (below : NumbersBelow bound runs)
    (n : Nat)
    : NumbersBelow bound (Segment.split n runs).1
      ∧ NumbersBelow bound (Segment.split n runs).2 := by
  induction runs generalizing n with
  | nil => exact ⟨List.forall_mem_nil _, List.forall_mem_nil _⟩
  | cons run rest ih =>
      obtain ⟨here, more⟩ := List.forall_mem_cons.mp below
      unfold Segment.split
      split
      · exact ⟨List.forall_mem_nil _, below⟩
      split
      case isTrue part =>
        refine ⟨List.forall_mem_singleton.mpr ?_, List.forall_mem_cons.mpr ⟨?_, more⟩⟩
        · dsimp only
          omega
        · dsimp only
          omega
      case isFalse =>
        obtain ⟨taken, behind⟩ := ih more (n - run.count)
        exact ⟨List.forall_mem_cons.mpr ⟨here, taken⟩, behind⟩

/-- The runs on both sides of a version half replayed have words for numbers, or numbers that new
lines have already.
-/
structure Reached (replay : Replay) : Prop where
  old : NumbersBelow (max UInt64.size (replay.newLine + 1)) replay.old
  new : NumbersBelow (max UInt64.size (replay.newLine + 1)) replay.new

/-- Each step of a replay leaves words for numbers, or numbers that new lines have already. -/
theorem reached_preserved : Replay.Preserved Reached where
  keep {replay} n reached := by
    have later : max UInt64.size (replay.newLine + 1)
        ≤ max UInt64.size ((replay.keep n).newLine + 1) := by
      simp only [Replay.keep]
      omega
    obtain ⟨taken, rest⟩ := reached.old.split n
    exact ⟨rest.mono later, (reached.new.append taken).mono later⟩
  delete n reached := ⟨(reached.old.split n).2, reached.new⟩
  insert {replay n} commit _ reached := by
    have later : max UInt64.size (replay.newLine + 1)
        ≤ max UInt64.size ((replay.insert n commit).newLine + 1) := by
      simp only [Replay.insert]
      omega
    have inserted : replay.newLine + n
        < max UInt64.size ((replay.insert n commit).newLine + 1) := by
      simp only [Replay.insert]
      omega
    exact ⟨reached.old.mono later,
      (reached.new.mono later).append (List.forall_mem_singleton.mpr inserted)⟩

/-- The next version can be told with words too, if it is short enough. -/
theorem Tellable.step {runs : List Segment} (tellable : Tellable runs) {hunks : List Hunk}
    {commit : String} (short : lineCount (Segment.step runs hunks commit) + 1 < UInt64.size)
    : Tellable (Segment.step runs hunks commit) := by
  refine ⟨tellable.solid.step hunks commit, short, ?_⟩
  have newLine := (numbered_foldl_apply runs hunks commit).new
  rw [Segment.step, Replay.finish, lineCount_append] at short
  have start : Reached { old := runs } :=
    ⟨tellable.numbers.mono (Nat.le_max_left _ _), List.forall_mem_nil _⟩
  have replayed := reached_preserved.foldl_apply start commit hunks
  exact (replayed.new.append replayed.old).mono (by omega)

end Words

end SourceView
