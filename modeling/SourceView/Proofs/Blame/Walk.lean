import SourceView.Proofs.Blame.LineReplay

/-! A version replayed by walking over its runs.
The walk keeps its place among the runs and how far it has come in the run there, and takes runs
apart as it needs them. It writes down the same runs as the replay that splits the runs off, and
the same lines as the plain replay of single lines, whatever the runs and whatever the hunks.
-/

namespace SourceView.Segment

-----------------------------------------------------------------------------------------
-- Runs split off
-----------------------------------------------------------------------------------------

@[simp] theorem lineCount_cons (segment : Segment) (rest : List Segment)
    : lineCount (segment :: rest) = segment.count + lineCount rest := rfl

@[simp] theorem split_zero (segments : List Segment) : split 0 segments = ([], segments) := by
  cases segments <;> rfl

/-- What is left behind a split has no more lines than there were. -/
theorem lineCount_split_snd_le (n : Nat) (segments : List Segment)
    : lineCount (split n segments).2 ≤ lineCount segments := by
  rw [← length_flatten, ← length_flatten, flatten_split_snd, List.length_drop]
  exact Nat.sub_le _ _

/-- More lines than there are is all of them. -/
theorem split_of_lineCount_lt {n : Nat} {segments : List Segment} (enough : lineCount segments < n)
    : split n segments = (segments, []) := by
  induction segments generalizing n with
  | nil => rfl
  | cons segment rest ih =>
      rw [lineCount_cons] at enough
      rw [split, if_neg (by omega), if_neg (by omega), ih (by omega)]

-----------------------------------------------------------------------------------------
-- The walk
-----------------------------------------------------------------------------------------

/-- What is left of a run behind its first `offset` lines. -/
def behind (run : Segment) (offset : Nat) : Segment :=
  { run with count := run.count - offset, start := run.start + offset }

/-- A walk over the runs of a version, with the numbers of the next line on both sides and the new
runs so far. It never stands behind the end of a run.
-/
structure Walk (runs : List Segment) where
  place : Nat := 0
  /-- How many lines of the run at this place are behind. -/
  offset : Nat := 0
  oldLine : Nat := 1
  newLine : Nat := 1
  new : List Segment := []
  inside : ∀ run, runs[place]? = some run → offset ≤ run.count

namespace Walk

variable {runs : List Segment}

/-- A walk that has yet to begin. -/
def start (runs : List Segment) : Walk runs where
  inside := fun _ _ => Nat.zero_le _

/-- Go on by `taken` lines of a run, which are written down if they are kept, to the next run if
these are its last ones.
-/
def pass (walk : Walk runs) (run : Segment) (taken : Nat) (kept : Bool)
    (there : runs[walk.place]? = some run) (short : taken ≤ run.count - walk.offset)
    : Walk runs where
  place := if walk.offset + taken = run.count then walk.place + 1 else walk.place
  offset := if walk.offset + taken = run.count then 0 else walk.offset + taken
  oldLine := walk.oldLine + taken
  newLine := if kept then walk.newLine + taken else walk.newLine
  new := if kept then walk.new ++ [{ run.behind walk.offset with count := taken }] else walk.new
  inside := by
    have inside := walk.inside run there
    intro other found
    split
    · exact Nat.zero_le _
    · next more =>
        rw [if_neg more, there] at found
        obtain rfl := Option.some.inj found
        omega

/-- Go on by `n` lines, or as many as are left. -/
def consume (walk : Walk runs) (n : Nat) (kept : Bool) : Walk runs :=
  if n = 0 then walk
  else
    match there : runs[walk.place]? with
    | none => walk
    | some run =>
      let taken := min n (run.count - walk.offset)
      (walk.pass run taken kept there (Nat.min_le_right ..)).consume (n - taken) kept
termination_by (runs.length - walk.place, n)
decreasing_by
  have inside := walk.inside run there
  have present := (List.getElem?_eq_some_iff.mp there).1
  simp only [pass]
  split
  · exact Prod.Lex.left _ _ (by omega)
  · exact Prod.Lex.right _ (by omega)

/-- Keep the next `n` lines. -/
def forward (walk : Walk runs) (n : Nat) : Walk runs :=
  walk.consume n true

/-- Leave out the next `n` lines. -/
def skip (walk : Walk runs) (n : Nat) : Walk runs :=
  walk.consume n false

/-- Put in `n` lines of a commit. -/
def emit (walk : Walk runs) (n : Nat) (commit : String) : Walk runs :=
  { walk with
    newLine := walk.newLine + n
    new := walk.new ++ [{ count := n, start := walk.newLine, commit }] }

/-- Replay one hunk. -/
def apply (commit : String) (walk : Walk runs) (hunk : Hunk) : Walk runs :=
  let deleted :=
    if hunk.oldLength = 0 then walk
    else (walk.forward (hunk.oldStart - walk.oldLine)).skip hunk.oldLength
  if hunk.newLength = 0 then deleted
  else (deleted.forward (hunk.newStart - deleted.newLine)).emit hunk.newLength commit

/-- The version after a commit: every hunk is replayed, and `all` lines behind the last one are
kept, which are more than are left.
-/
def step (all : Nat) (runs : List Segment) (hunks : List Hunk) (commit : String)
    : List Segment :=
  ((hunks.foldl (apply commit) (start runs)).forward all).new

-----------------------------------------------------------------------------------------
-- What a walk has before it
-----------------------------------------------------------------------------------------

/-- The runs that are still before a walk, the first one without what is behind. -/
def rest (walk : Walk runs) : List Segment :=
  match runs.drop walk.place with
  | [] => []
  | run :: more => run.behind walk.offset :: more

/-- The version half replayed that a walk stands for. -/
def replay (walk : Walk runs) : Replay where
  old := walk.rest
  oldLine := walk.oldLine
  newLine := walk.newLine
  new := walk.new

/-- At the start of a walk all runs are still to be replayed. -/
theorem replay_start (runs : List Segment) : (start runs).replay = { old := runs } := by
  cases runs <;> rfl

/-- Behind the last run nothing is left. -/
theorem rest_of_none {walk : Walk runs} (there : runs[walk.place]? = none) : walk.rest = [] := by
  rw [rest, List.drop_eq_nil_of_le (List.getElem?_eq_none_iff.mp there)]

/-- What is left begins with the rest of the run that the walk has come to. -/
theorem rest_of_some {walk : Walk runs} {run : Segment} (there : runs[walk.place]? = some run)
    : walk.rest = run.behind walk.offset :: runs.drop (walk.place + 1) := by
  obtain ⟨present, rfl⟩ := List.getElem?_eq_some_iff.mp there
  rw [rest, List.drop_eq_getElem_cons present]

/-- Behind the last lines of a run comes the next run. -/
theorem rest_pass_of_eq {walk : Walk runs} {run : Segment} {taken : Nat} {kept : Bool}
    (there : runs[walk.place]? = some run) (short : taken ≤ run.count - walk.offset)
    (last : walk.offset + taken = run.count)
    : (walk.pass run taken kept there short).rest = runs.drop (walk.place + 1) := by
  simp only [rest, pass, if_pos last]
  split
  · next beyond => exact beyond.symm
  · next inside => exact inside.symm

/-- Behind other lines of a run comes what is left of it. -/
theorem rest_pass_of_ne {walk : Walk runs} {run : Segment} {taken : Nat} {kept : Bool}
    (there : runs[walk.place]? = some run) (short : taken ≤ run.count - walk.offset)
    (more : walk.offset + taken ≠ run.count)
    : (walk.pass run taken kept there short).rest
      = (run.behind walk.offset).behind taken :: runs.drop (walk.place + 1) := by
  have stays : runs[(walk.pass run taken kept there short).place]? = some run := by
    simp only [pass, if_neg more, there]
  rw [rest_of_some stays]
  simp only [pass, if_neg more, behind, Nat.sub_sub, Nat.add_assoc]

/-- To split lines off what is before a walk is to pass as many of them as the run there has, and to
split the others off behind.
-/
theorem split_rest {walk : Walk runs} {run : Segment} {n taken : Nat} (kept : Bool)
    (wanted : n ≠ 0) (there : runs[walk.place]? = some run)
    (short : taken ≤ run.count - walk.offset) (most : min n (run.count - walk.offset) = taken)
    : split n walk.rest
      = let more := split (n - taken) (walk.pass run taken kept there short).rest
        ({ run.behind walk.offset with count := taken } :: more.1, more.2) := by
  have inside := walk.inside run there
  rw [rest_of_some there]
  by_cases part : n < (run.behind walk.offset).count
  · obtain rfl : taken = n := by
      simp only [behind] at part
      omega
    have unfinished : walk.offset + taken ≠ run.count := by
      simp only [behind] at part
      omega
    rw [rest_pass_of_ne there short unfinished, Nat.sub_self, split_zero, split, if_neg wanted,
      if_pos part]
    rfl
  · obtain rfl : taken = run.count - walk.offset := by
      simp only [behind] at part
      omega
    rw [rest_pass_of_eq there short (by omega), split, if_neg wanted, if_neg part]
    rfl

/-- Going on splits off what is passed, by induction on the walk. -/
theorem replay_consume (walk : Walk runs) (n : Nat) (kept : Bool)
    : (walk.consume n kept).replay
      = if kept then walk.replay.keep n else walk.replay.delete n := by
  fun_induction consume walk n kept with
  | case1 walk => cases kept <;> simp [replay, Replay.keep, Replay.delete, lineCount]
  | case2 walk n wanted there =>
      cases kept <;> simp [replay, Replay.keep, Replay.delete, rest_of_none there, split, lineCount]
  | case3 walk n wanted run there taken ih =>
      rw [ih]
      cases kept with
      | true =>
          simp only [replay, Replay.keep, if_true,
            split_rest true wanted there (Nat.min_le_right ..) rfl, lineCount_cons]
          simp [pass, taken, Nat.add_assoc]
      | false =>
          simp only [replay, Replay.delete, Bool.false_eq_true, if_false,
            split_rest false wanted there (Nat.min_le_right ..) rfl, lineCount_cons]
          simp [pass, taken, Nat.add_assoc]

/-- A walk inserts as a replay does. -/
theorem replay_emit (walk : Walk runs) (n : Nat) (commit : String)
    : (walk.emit n commit).replay = walk.replay.insert n commit := rfl

/-- A hunk does the same in a walk and in a replay. -/
theorem replay_apply (commit : String) (walk : Walk runs) (hunk : Hunk)
    : (walk.apply commit hunk).replay = walk.replay.apply commit hunk := by
  have deleted : (if hunk.oldLength = 0 then walk
      else (walk.forward (hunk.oldStart - walk.oldLine)).skip hunk.oldLength).replay
      = walk.replay.applyOld hunk := by
    unfold Replay.applyOld
    split
    · rfl
    · rw [skip, replay_consume, forward, replay_consume]
      rfl
  unfold apply Replay.apply Replay.applyNew
  simp only [← deleted]
  split
  · rfl
  · rw [replay_emit, forward, replay_consume]
    rfl

/-- Hunks do the same in a walk and in a replay, by induction on the hunks. -/
theorem replay_foldl_apply (commit : String) (walk : Walk runs) (hunks : List Hunk)
    : (hunks.foldl (apply commit) walk).replay
      = hunks.foldl (Replay.apply commit) walk.replay := by
  induction hunks generalizing walk with
  | nil => rfl
  | cons hunk rest ih => rw [List.foldl_cons, List.foldl_cons, ih, replay_apply]

/-- Replaying hunks leaves no more lines to be read. -/
theorem lineCount_old_foldl_apply_le (commit : String) (replay : Replay) (hunks : List Hunk)
    : lineCount (hunks.foldl (Replay.apply commit) replay).old ≤ lineCount replay.old := by
  have fewer : Replay.Preserved fun later => lineCount later.old ≤ lineCount replay.old := {
    keep := fun n few => Nat.le_trans (lineCount_split_snd_le _ _) few
    delete := fun n few => Nat.le_trans (lineCount_split_snd_le _ _) few
    insert := fun _ _ few => few }
  exact fewer.foldl_apply (Nat.le_refl _) commit hunks

/-- The walk to the end is the replay that keeps what is left. -/
theorem replay_toEnd (all : Nat) (runs : List Segment) (hunks : List Hunk) (commit : String)
    : ((hunks.foldl (apply commit) (start runs)).forward all).replay
      = (hunks.foldl (Replay.apply commit) { old := runs }).keep all := by
  rw [forward, replay_consume, if_pos rfl, replay_foldl_apply, replay_start]

/-- Behind the end nothing is left, and the new version is written. -/
theorem replay_atEnd {all : Nat} {runs : List Segment} (enough : lineCount runs < all)
    (hunks : List Hunk) (commit : String)
    : ((hunks.foldl (apply commit) (start runs)).forward all).replay.old = []
      ∧ ((hunks.foldl (apply commit) (start runs)).forward all).replay.new
        = Segment.step runs hunks commit := by
  have left := lineCount_old_foldl_apply_le commit { old := runs } hunks
  rw [replay_toEnd, Replay.keep, split_of_lineCount_lt (Nat.lt_of_le_of_lt left enough)]
  exact ⟨rfl, rfl⟩

/-- The walk writes down the runs that the replay splits off. -/
theorem step_eq {all : Nat} {runs : List Segment} (enough : lineCount runs < all)
    (hunks : List Hunk) (commit : String)
    : step all runs hunks commit = Segment.step runs hunks commit :=
  (replay_atEnd enough hunks commit).2

end Walk

-----------------------------------------------------------------------------------------
-- The numbers of new lines
-----------------------------------------------------------------------------------------

namespace LineReplay

/-- A hunk replayed up to the place where its lines are put in. -/
def upTo (replay : LineReplay) (hunk : Hunk) : LineReplay :=
  let deleted :=
    if hunk.oldLength = 0 then replay
    else (replay.keep (hunk.oldStart - replay.oldLine)).delete hunk.oldLength
  deleted.keep (hunk.newStart - deleted.newLine)

variable {replay : LineReplay} {commit : String} {hunk : Hunk}

/-- A hunk that inserts goes up to its place and puts its lines there. -/
theorem apply_eq_insert (inserts : hunk.newLength ≠ 0)
    : replay.apply commit hunk = (replay.upTo hunk).insert hunk.newLength commit := by
  simp only [apply, if_neg inserts, upTo]

/-- The next new line has the number of its place. -/
def Numbered (replay : LineReplay) : Prop :=
  replay.newLine = replay.new.length + 1

/-- Kept lines are numbered on. -/
theorem Numbered.keep (numbered : replay.Numbered) (n : Nat) : (replay.keep n).Numbered := by
  simp only [Numbered, LineReplay.keep, List.length_append] at numbered ⊢
  omega

/-- New lines have the numbers of their places up to where a hunk inserts. -/
theorem Numbered.upTo (numbered : replay.Numbered) (hunk : Hunk) : (replay.upTo hunk).Numbered := by
  unfold LineReplay.upTo
  split
  · exact numbered.keep _
  · have kept := numbered.keep (hunk.oldStart - replay.oldLine)
    have deleted : ((replay.keep _).delete hunk.oldLength).Numbered := kept
    exact deleted.keep _

/-- A hunk numbers the lines that it inserts by their places. -/
theorem Numbered.apply (numbered : replay.Numbered) (commit : String) (hunk : Hunk)
    : (replay.apply commit hunk).Numbered := by
  by_cases inserts : hunk.newLength = 0
  · simp only [LineReplay.apply, if_pos inserts]
    split
    · exact numbered
    · exact numbered.keep _
  · rw [apply_eq_insert inserts]
    have reached := numbered.upTo hunk
    unfold Numbered at reached ⊢
    simp only [LineReplay.insert, List.length_append, List.length_map, List.length_range]
    omega

/-- Hunks number all new lines by their places, by induction on the hunks. -/
theorem Numbered.foldl_apply (numbered : replay.Numbered) (commit : String) (hunks : List Hunk)
    : (hunks.foldl (LineReplay.apply commit) replay).Numbered := by
  induction hunks generalizing replay with
  | nil => exact numbered
  | cons hunk rest ih => exact ih (numbered.apply commit hunk)

/-- What is written stays where it is. -/
theorem new_prefix_apply (replay : LineReplay) (commit : String) (hunk : Hunk)
    : replay.new <+: (replay.apply commit hunk).new := by
  unfold apply
  split <;> split <;> simp [keep, delete, insert]

/-- What hunks have written stays at the front of the result, by induction on the hunks. -/
theorem new_prefix_finish (replay : LineReplay) (commit : String) (hunks : List Hunk)
    : replay.new <+: (hunks.foldl (apply commit) replay).finish := by
  induction hunks generalizing replay with
  | nil => exact List.prefix_append _ _
  | cons hunk rest ih => exact (new_prefix_apply replay commit hunk).trans (ih _)

/-- A version begins with what was written before a hunk put its lines in, and these lines, each
with the number of its place.
-/
theorem prefix_step_of_inserts (lines : List Origin) (before later : List Hunk)
    (inserts : hunk.newLength ≠ 0)
    : let front := ((before.foldl (apply commit) { old := lines }).upTo hunk).new
      front ++ (List.range hunk.newLength).map (fun k => ⟨commit, front.length + 1 + k⟩)
        <+: step lines (before ++ hunk :: later) commit := by
  intro front
  have start : Numbered { old := lines } := rfl
  have reached : _ = front.length + 1 := (start.foldl_apply commit before).upTo hunk
  rw [step, List.foldl_append, List.foldl_cons, apply_eq_insert inserts, ← reached]
  exact new_prefix_finish (LineReplay.insert _ hunk.newLength commit) commit later

end LineReplay

-----------------------------------------------------------------------------------------
-- Runs and lines
-----------------------------------------------------------------------------------------

/-- Whatever the runs of a version and whatever the hunks, the walk over the runs writes down the
lines of the plain replay, so that nothing depends on how lines are put together in runs, and each
line that a hunk puts in has the number of its place in the new version.
-/
theorem step_replays_lines (segments : List Segment) (hunks : List Hunk) (commit : String)
    : flatten (step segments hunks commit) = LineReplay.step (flatten segments) hunks commit
      ∧ (∀ all, lineCount segments < all →
          Walk.step all segments hunks commit = step segments hunks commit)
      ∧ (∀ others, flatten others = flatten segments →
          flatten (step others hunks commit) = flatten (step segments hunks commit))
      ∧ ∀ before hunk later,
          hunks = before ++ hunk :: later
          → hunk.newLength ≠ 0
          → let front :=
              ((before.foldl (LineReplay.apply commit) { old := flatten segments }).upTo hunk).new
            front ++ (List.range hunk.newLength).map (fun k => ⟨commit, front.length + 1 + k⟩)
              <+: flatten (step segments hunks commit) := by
  refine ⟨flatten_step segments hunks commit, ?_, ?_, ?_⟩
  · intro all enough
    exact Walk.step_eq enough hunks commit
  · intro others same
    rw [flatten_step, flatten_step, same]
  · rintro before hunk later rfl inserts
    rw [flatten_step]
    exact LineReplay.prefix_step_of_inserts (flatten segments) before later inserts

end SourceView.Segment
