import SourceView.Blame.Basic
import SourceView.Proofs.Blame.Step

/-! Following lines through all diffs of a file.
Replaying diffs keeps account of the diff that inserted each line, and replaying them backwards of
the diff that deletes it, although no line is ever followed.
-/

namespace SourceView.Blame

open Segment

-----------------------------------------------------------------------------------------
-- Diffs in turn, and lines followed through them
-----------------------------------------------------------------------------------------

/-- Diffs lead from a version of `count` lines to the next and the next. -/
def FitInTurn : Nat → List Diff → Prop
  | _, [] => True
  | count, diff :: later =>
    Fits count diff.hunks ∧ FitInTurn (lineCountAfter count diff.hunks) later

instance decidableFitInTurn
    : (count : Nat) → (diffs : List Diff) → Decidable (FitInTurn count diffs)
  | _, [] => .isTrue trivial
  | count, diff :: later =>
    have := decidableFitInTurn (lineCountAfter count diff.hunks) later
    inferInstanceAs (Decidable (_ ∧ _))

/-- How many lines a version has after diffs of one of `count` lines. -/
def lineCountThrough (count : Nat) (diffs : List Diff) : Nat :=
  diffs.foldl (fun count diff => lineCountAfter count diff.hunks) count

/-- The number that a line has after diffs, unless one of them deletes it. -/
def followThrough (diffs : List Diff) (line : Nat) : Option Nat :=
  diffs.foldlM (fun line diff => follow diff.hunks line) line

/-- A line of the version that diffs lead to was inserted by one of them, with the number of its
origin, and is where the diffs behind that one put it.
-/
def CameFrom (diffs : List Diff) (line : Nat) (origin : Origin) : Prop :=
  ∃ earlier diff later,
    diffs = earlier ++ diff :: later
    ∧ diff.commit = origin.commit
    ∧ (∃ hunk ∈ diff.hunks, hunk.Brings origin.line)
    ∧ followThrough later origin.line = some line

/-- What becomes of a line: the commit of the first of the later diffs that deletes it, and its
number just before; if none does, no commit and its number in the newest version.
-/
def fate : List Diff → Nat → Origin
  | [], line => ⟨"", line⟩
  | diff :: later, line =>
    match follow diff.hunks line with
    | none => ⟨diff.commit, line⟩
    | some after => fate later after

/-- Changes fit one behind the other if those in front do and the others fit behind them, by
induction on those in front.
-/
theorem fitInTurn_append {count : Nat} {earlier later : List Diff}
    : FitInTurn count (earlier ++ later)
      ↔ FitInTurn count earlier ∧ FitInTurn (lineCountThrough count earlier) later := by
  induction earlier generalizing count with
  | nil => simp [FitInTurn, lineCountThrough]
  | cons diff rest ih => simp [FitInTurn, lineCountThrough, ih, and_assoc]

/-- Changes leave as many lines as the later ones leave of what the earlier ones left. -/
theorem lineCountThrough_append (count : Nat) (earlier later : List Diff)
    : lineCountThrough count (earlier ++ later)
      = lineCountThrough (lineCountThrough count earlier) later :=
  List.foldl_append

@[simp] theorem followThrough_nil (line : Nat) : followThrough [] line = some line := rfl

@[simp] theorem followThrough_cons (diff : Diff) (later : List Diff) (line : Nat)
    : followThrough (diff :: later) line
      = (follow diff.hunks line).bind (followThrough later) := by
  simp [followThrough]
  rfl

/-- A line is followed through changes by following it through the later ones from where the earlier
ones left it.
-/
theorem followThrough_append (earlier later : List Diff) (line : Nat)
    : followThrough (earlier ++ later) line
      = (followThrough earlier line).bind (followThrough later) := by
  simp [followThrough]
  rfl

/-- A line is followed through one change by its hunks. -/
theorem followThrough_singleton (diff : Diff) (line : Nat)
    : followThrough [diff] line = follow diff.hunks line := by
  rw [followThrough_cons]
  cases follow diff.hunks line <;> rfl

/-- A line that later diffs put elsewhere came from where it came from. -/
theorem CameFrom.append {diffs later : List Diff} {line after : Nat} {origin : Origin}
    (came : CameFrom diffs line origin) (followed : followThrough later line = some after)
    : CameFrom (diffs ++ later) after origin := by
  obtain ⟨earlier, diff, between, rfl, commit, brings, reached⟩ := came
  refine ⟨earlier, diff, between ++ later, by simp, commit, brings, ?_⟩
  rw [followThrough_append, reached]
  exact followed

/-- A line that a diff inserts came from there, by following it through no diff. -/
theorem CameFrom.of_brings (earlier : List Diff) {diff : Diff} {hunk : Hunk} {line : Nat}
    (member : hunk ∈ diff.hunks) (brings : hunk.Brings line)
    : CameFrom (earlier ++ [diff]) line ⟨diff.commit, line⟩ :=
  ⟨earlier, diff, [], rfl, rfl, ⟨hunk, member, brings⟩, rfl⟩

/-- What becomes of a line is what becomes of it where it is put. -/
theorem fate_append_of_followThrough {earlier later : List Diff} {line after : Nat}
    (followed : followThrough earlier line = some after)
    : fate (earlier ++ later) line = fate later after := by
  induction earlier generalizing line with
  | nil =>
      obtain rfl := Option.some.inj followed
      rfl
  | cons diff rest ih =>
      rw [followThrough_cons] at followed
      obtain ⟨next, found, reached⟩ := Option.bind_eq_some_iff.mp followed
      rw [List.cons_append, fate, found]
      exact ih reached

/-- A line is followed to the newest version or to the first diff that deletes it, by induction on
the diffs.
-/
theorem fate_cases (later : List Diff) (line : Nat)
    : (∃ newest, followThrough later line = some newest ∧ fate later line = ⟨"", newest⟩)
      ∨ ∃ between diff rest before,
          later = between ++ diff :: rest
          ∧ followThrough between line = some before
          ∧ (∃ hunk ∈ diff.hunks, hunk.Takes before)
          ∧ fate later line = ⟨diff.commit, before⟩ := by
  induction later generalizing line with
  | nil => exact .inl ⟨line, rfl, rfl⟩
  | cons diff rest ih =>
      cases found : follow diff.hunks line with
      | none =>
          exact .inr ⟨[], diff, rest, line, rfl, rfl, follow_eq_none_iff.mp found,
            by simp [fate, found]⟩
      | some after =>
          rcases ih after with ⟨newest, followed, ends⟩
            | ⟨between, taker, behind, before, rfl, followed, takes, ends⟩
          · exact .inl ⟨newest, by simp [found, followed], by simp [fate, found, ends]⟩
          · exact .inr ⟨diff :: between, taker, behind, before, rfl, by simp [found, followed],
              takes, by simp [fate, found, ends]⟩

-----------------------------------------------------------------------------------------
-- Replaying forwards
-----------------------------------------------------------------------------------------

/-- A version has as many lines as diffs leave, and each has the origin of the line that the diffs
brought there.
-/
structure Attributed (diffs : List Diff) (segments : List Segment) : Prop where
  count : (flatten segments).length = lineCountThrough 0 diffs
  origin
    : ∀ line origin,
        CameFrom diffs line origin ↔ 1 ≤ line ∧ (flatten segments)[line - 1]? = some origin

/-- No changes bring no lines. -/
theorem attributed_nil : Attributed [] [] where
  count := rfl
  origin := by simp [CameFrom]

/-- A line has the origin that it came from, and no other. -/
theorem Attributed.getElem?_eq_some_iff {diffs : List Diff} {segments : List Segment}
    (account : Attributed diffs segments) (index : Nat) (origin : Origin)
    : (flatten segments)[index]? = some origin ↔ CameFrom diffs (index + 1) origin := by
  simp [account.origin]

/-- Lines that came from somewhere behind one more diff were inserted by it or are followed from a
line before it, by cases on whether the diff is the one that inserted them.
-/
theorem cameFrom_concat_iff {diffs : List Diff} {diff : Diff} {line : Nat} {origin : Origin}
    : CameFrom (diffs ++ [diff]) line origin
      ↔ (origin = ⟨diff.commit, line⟩ ∧ ∃ hunk ∈ diff.hunks, hunk.Brings line)
        ∨ ∃ before, CameFrom diffs before origin ∧ follow diff.hunks before = some line := by
  constructor
  · intro came
    obtain ⟨earlier, bringer, later, split, commit, brings, followed⟩ := came
    rcases List.eq_nil_or_concat later with rfl | ⟨between, last, rfl⟩
    · obtain ⟨rfl, same⟩ := List.append_inj' split rfl
      obtain rfl := List.singleton_inj.mp same
      obtain ⟨_, number⟩ := origin
      obtain rfl : number = line := Option.some.inj followed
      exact .inl ⟨by rw [commit], brings⟩
    · rw [List.concat_eq_append, ← List.cons_append, ← List.append_assoc] at split
      obtain ⟨rfl, same⟩ := List.append_inj' split rfl
      obtain rfl := List.singleton_inj.mp same
      rw [List.concat_eq_append, followThrough_append] at followed
      obtain ⟨before, reached, moved⟩ := Option.bind_eq_some_iff.mp followed
      rw [followThrough_singleton] at moved
      exact .inr ⟨before, ⟨earlier, bringer, between, rfl, commit, brings, reached⟩, moved⟩
  · intro either
    rcases either with ⟨rfl, hunk, member, brings⟩ | ⟨before, came, moved⟩
    · exact .of_brings diffs member brings
    · exact came.append (by rwa [followThrough_singleton])

/-- Replaying a diff keeps the account. Witness: each line behind the diff was inserted by it or is
followed from a line before it, and both kinds are found where the diff puts them.
-/
theorem Attributed.step {diffs : List Diff} {segments : List Segment} {diff : Diff}
    (account : Attributed diffs segments)
    (fits : Fits (lineCountThrough 0 diffs) diff.hunks)
    : Attributed (diffs ++ [diff]) (step segments diff.hunks diff.commit) := by
  rw [← account.count] at fits
  constructor
  · rw [length_flatten_step fits, lineCountThrough_append, account.count]
    rfl
  intro line origin
  rw [cameFrom_concat_iff]
  constructor
  · intro either
    rcases either with ⟨rfl, hunk, member, brings⟩ | ⟨before, came, moved⟩
    · exact ⟨Nat.le_trans (FitsFrom.le_newFirst fits member) brings.1,
        getElem?_step_of_brings fits member brings⟩
    · obtain ⟨positive, found⟩ := (account.origin before origin).mp came
      exact ⟨FitsFrom.le_of_follow fits positive moved,
        (getElem?_step_of_follow fits positive moved).trans found⟩
  · intro here
    obtain ⟨positive, found⟩ := here
    rcases fits.brings_or_follow positive with
      ⟨hunk, member, brings⟩ | ⟨before, beforePositive, moved⟩
    · rw [getElem?_step_of_brings fits member brings] at found
      exact .inl ⟨(Option.some.inj found).symm, hunk, member, brings⟩
    · rw [getElem?_step_of_follow fits beforePositive moved] at found
      exact .inr ⟨before, (account.origin before origin).mpr ⟨beforePositive, found⟩, moved⟩

/-- Replaying diffs keeps the account, by induction on the diffs. -/
theorem Attributed.replay {diffs later : List Diff} {segments : List Segment}
    (account : Attributed diffs segments)
    (fits : FitInTurn (lineCountThrough 0 diffs) later)
    : Attributed (diffs ++ later) (replay segments later) := by
  induction later generalizing diffs segments with
  | nil => rwa [List.append_nil]
  | cons diff rest ih =>
      have next := ih (account.step fits.1) (by
        rw [lineCountThrough_append]
        exact fits.2)
      rwa [List.append_assoc] at next

-----------------------------------------------------------------------------------------
-- Replaying backwards
-----------------------------------------------------------------------------------------

/-- The lines of a version of `count` lines with what becomes of them. -/
def fates (count : Nat) (later : List Diff) : List Origin :=
  (List.range' 1 count).map (fate later)

/-- With its origins wiped, a version has for each line the number that the line has in it. -/
theorem flatten_wipe_eq_fates (segments : List Segment)
    : flatten (wipe segments) = fates (lineCount segments) [] := by
  rw [flatten_wipe, fates, origins, List.range'_eq_map_range, List.map_map]
  rfl

/-- Each line of a version has one fate. -/
theorem length_fates (count : Nat) (later : List Diff) : (fates count later).length = count := by
  simp [fates]

/-- The fate of a line stands at the place of its number. -/
theorem getElem?_fates {count line : Nat} (later : List Diff) (positive : 1 ≤ line)
    (inside : line ≤ count)
    : (fates count later)[line - 1]? = some (fate later line) := by
  rw [fates, List.getElem?_map, List.getElem?_range' (by omega), Option.map_some]
  congr 2
  omega

/-- Undoing a diff tells what becomes of the lines before it. Witness: a line that the diff deletes
comes back as a line of the diff, and what becomes of any other is what becomes of it behind.
-/
theorem flatten_stepReverse_eq_fates {count : Nat} {segments : List Segment} {diff : Diff}
    {later : List Diff} (fits : Fits count diff.hunks)
    (known : flatten segments = fates (lineCountAfter count diff.hunks) later)
    : flatten (stepReverse segments diff.hunks diff.commit) = fates count (diff :: later) := by
  have reached : (flatten segments).length = lineCountAfter count diff.hunks := by
    rw [known, length_fates]
  have length : (flatten (stepReverse segments diff.hunks diff.commit)).length = count :=
    length_flatten_stepReverse fits reached
  apply List.ext_getElem?
  intro index
  by_cases inside : index < count
  · rw [← Nat.add_sub_cancel (n := index) (m := 1),
      getElem?_fates _ (Nat.le_add_left 1 index) inside]
    cases followed : follow diff.hunks (index + 1) with
    | none =>
        obtain ⟨hunk, member, takes⟩ := follow_eq_none_iff.mp followed
        rw [getElem?_stepReverse_of_takes fits reached member takes, fate, followed]
    | some after =>
        have positive : 1 ≤ after := FitsFrom.le_of_follow fits (Nat.le_add_left 1 index) followed
        have back : (flatten (stepReverse segments diff.hunks diff.commit))[index + 1 - 1]?
            = (flatten segments)[after - 1]? :=
          getElem?_stepReverse_of_follow fits reached (Nat.le_add_left 1 index) followed
        have present : after - 1 < (flatten segments).length := by
          refine Nat.lt_of_not_le fun beyond => ?_
          rw [List.getElem?_eq_none beyond, List.getElem?_eq_none_iff] at back
          omega
        rw [back, known, getElem?_fates _ positive (by omega), fate, followed]
  · rw [List.getElem?_eq_none (by omega), List.getElem?_eq_none (by rw [length_fates]; omega)]

/-- Undoing diffs tells what becomes of the lines before them, by induction on the diffs. -/
theorem flatten_replayBack_eq_fates {count : Nat} {segments : List Segment} {later : List Diff}
    (fits : FitInTurn count later)
    (known : flatten segments = fates (lineCountThrough count later) [])
    : flatten (replayBack segments later) = fates count later := by
  induction later generalizing count with
  | nil => exact known
  | cons diff rest ih => exact flatten_stepReverse_eq_fates fits.1 (ih fits.2 known)

end SourceView.Blame
