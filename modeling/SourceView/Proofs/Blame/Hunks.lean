import SourceView.History.Basic

/-! Hunks that fit a version, and the number that a line has behind them.
A line is followed through hunks in either direction, and following it back undoes following it.
-/

namespace SourceView

-----------------------------------------------------------------------------------------
-- The ranges of a hunk
-----------------------------------------------------------------------------------------

namespace Hunk

/-- The old line that a hunk starts with, or the one before which it stands if it takes none. -/
def oldFirst (hunk : Hunk) : Nat :=
  if hunk.oldLength = 0 then hunk.oldStart + 1 else hunk.oldStart

/-- The new line that a hunk starts with, or the one before which it stands if it brings none. -/
def newFirst (hunk : Hunk) : Nat :=
  if hunk.newLength = 0 then hunk.newStart + 1 else hunk.newStart

/-- The first old line behind a hunk. -/
def oldEnd (hunk : Hunk) : Nat :=
  hunk.oldFirst + hunk.oldLength

/-- The first new line behind a hunk. -/
def newEnd (hunk : Hunk) : Nat :=
  hunk.newFirst + hunk.newLength

/-- A hunk deletes this line of the old version. -/
def Takes (hunk : Hunk) (line : Nat) : Prop :=
  hunk.oldFirst ≤ line ∧ line < hunk.oldEnd

/-- A hunk inserts this line of the new version. -/
def Brings (hunk : Hunk) (line : Nat) : Prop :=
  hunk.newFirst ≤ line ∧ line < hunk.newEnd

instance (hunk : Hunk) (line : Nat) : Decidable (hunk.Takes line) :=
  inferInstanceAs (Decidable (_ ∧ _))

instance (hunk : Hunk) (line : Nat) : Decidable (hunk.Brings line) :=
  inferInstanceAs (Decidable (_ ∧ _))

/-- The lines that a hunk deletes end behind their number. -/
theorem oldEnd_eq (hunk : Hunk) : hunk.oldEnd = hunk.oldFirst + hunk.oldLength := rfl

/-- The lines that a hunk inserts end behind their number. -/
theorem newEnd_eq (hunk : Hunk) : hunk.newEnd = hunk.newFirst + hunk.newLength := rfl

theorem oldFirst_le_oldEnd (hunk : Hunk) : hunk.oldFirst ≤ hunk.oldEnd :=
  Nat.le_add_right _ _

@[simp] theorem oldFirst_swapped (hunk : Hunk) : hunk.swapped.oldFirst = hunk.newFirst := rfl

@[simp] theorem newFirst_swapped (hunk : Hunk) : hunk.swapped.newFirst = hunk.oldFirst := rfl

@[simp] theorem oldEnd_swapped (hunk : Hunk) : hunk.swapped.oldEnd = hunk.newEnd := rfl

@[simp] theorem newEnd_swapped (hunk : Hunk) : hunk.swapped.newEnd = hunk.oldEnd := rfl

/-- The lines that a hunk deletes are the ones that it inserts when it is undone. -/
@[simp] theorem takes_swapped (hunk : Hunk) (line : Nat)
    : hunk.swapped.Takes line ↔ hunk.Brings line :=
  .rfl

/-- The lines that a hunk inserts are the ones that it deletes when it is undone. -/
@[simp] theorem brings_swapped (hunk : Hunk) (line : Nat)
    : hunk.swapped.Brings line ↔ hunk.Takes line :=
  .rfl

end Hunk

namespace Blame

-----------------------------------------------------------------------------------------
-- Hunks in order, with as many unchanged lines before each of them on both sides
-----------------------------------------------------------------------------------------

/-- How many lines hunks delete. -/
def deletedCount (hunks : List Hunk) : Nat :=
  hunks.foldr (·.oldLength + ·) 0

/-- How many lines hunks insert. -/
def insertedCount (hunks : List Hunk) : Nat :=
  hunks.foldr (·.newLength + ·) 0

/-- How many lines a version has after hunks. -/
def lineCountAfter (count : Nat) (hunks : List Hunk) : Nat :=
  count + insertedCount hunks - deletedCount hunks

/-- Hunks lead on from a version of `count` lines, of which those from line `old` on are still to
be read, to a version of which those from line `new` on are still to be written.
-/
def FitsFrom (count : Nat) : Nat → Nat → List Hunk → Prop
  | old, _, [] => old ≤ count + 1
  | old, new, hunk :: rest =>
    (hunk.oldLength ≠ 0 ∨ hunk.newLength ≠ 0)
      ∧ old ≤ hunk.oldFirst
      ∧ hunk.oldFirst + new = hunk.newFirst + old
      ∧ FitsFrom count hunk.oldEnd hunk.newEnd rest

instance decidableFitsFrom (count : Nat)
    : (old new : Nat) → (hunks : List Hunk) → Decidable (FitsFrom count old new hunks)
  | old, _, [] => inferInstanceAs (Decidable (old ≤ count + 1))
  | _, _, hunk :: rest =>
    have := decidableFitsFrom count hunk.oldEnd hunk.newEnd rest
    inferInstanceAs (Decidable (_ ∧ _ ∧ _ ∧ _))

/-- Hunks lead from a version of `count` lines to a next one. -/
def Fits (count : Nat) (hunks : List Hunk) : Prop :=
  FitsFrom count 1 1 hunks

instance (count : Nat) (hunks : List Hunk) : Decidable (Fits count hunks) :=
  inferInstanceAs (Decidable (FitsFrom count 1 1 hunks))

@[simp] theorem deletedCount_cons (hunk : Hunk) (rest : List Hunk)
    : deletedCount (hunk :: rest) = hunk.oldLength + deletedCount rest := by
  simp [deletedCount]

@[simp] theorem insertedCount_cons (hunk : Hunk) (rest : List Hunk)
    : insertedCount (hunk :: rest) = hunk.newLength + insertedCount rest := by
  simp [insertedCount]

/-- Undoing hunks deletes as many lines as they insert. -/
@[simp] theorem deletedCount_swapped (hunks : List Hunk)
    : deletedCount (hunks.map Hunk.swapped) = insertedCount hunks := by
  simp [deletedCount, insertedCount, List.foldr_map, Hunk.swapped]

/-- Undoing hunks inserts as many lines as they delete. -/
@[simp] theorem insertedCount_swapped (hunks : List Hunk)
    : insertedCount (hunks.map Hunk.swapped) = deletedCount hunks := by
  simp [deletedCount, insertedCount, List.foldr_map, Hunk.swapped]

/-- No hunk stands before the lines that are still to be read, by induction on the hunks. -/
theorem FitsFrom.le_oldFirst {count old new : Nat} {hunks : List Hunk}
    (fits : FitsFrom count old new hunks) {hunk : Hunk} (member : hunk ∈ hunks)
    : old ≤ hunk.oldFirst := by
  induction hunks generalizing old new with
  | nil => cases member
  | cons first rest ih =>
      obtain ⟨_, start, _, more⟩ := fits
      rcases List.mem_cons.mp member with rfl | later
      · exact start
      · exact Nat.le_trans (Nat.le_trans start first.oldFirst_le_oldEnd) (ih more later)

/-- What hunks delete is there to be deleted, by induction on the hunks. -/
theorem FitsFrom.old_add_deletedCount_le {count old new : Nat} {hunks : List Hunk}
    (fits : FitsFrom count old new hunks)
    : old + deletedCount hunks ≤ count + 1 := by
  induction hunks generalizing old new with
  | nil => simpa [deletedCount, FitsFrom] using fits
  | cons hunk rest ih =>
      obtain ⟨_, start, _, more⟩ := fits
      have := ih more
      have := hunk.oldEnd_eq
      rw [deletedCount_cons]
      omega

/-- Swapped hunks lead back from a version that is long enough. Witness: what remains to be read on
one side remains to be written on the other, and each hunk keeps the surplus of the one over the
other.
-/
theorem FitsFrom.swapped {count after old new : Nat} {hunks : List Hunk}
    (fits : FitsFrom count old new hunks)
    (long : count + new + insertedCount hunks ≤ after + old + deletedCount hunks)
    : FitsFrom after new old (hunks.map Hunk.swapped) := by
  induction hunks generalizing old new with
  | nil =>
      have last : old ≤ count + 1 := fits
      simp only [deletedCount, insertedCount, List.foldr_nil] at long
      simp only [List.map_nil, FitsFrom]
      omega
  | cons hunk rest ih =>
      obtain ⟨nonempty, start, between, more⟩ := fits
      simp only [deletedCount_cons, insertedCount_cons] at long
      have surplus : count + hunk.newEnd + insertedCount rest
          ≤ after + hunk.oldEnd + deletedCount rest := by
        rw [hunk.oldEnd_eq, hunk.newEnd_eq]
        omega
      refine ⟨nonempty.symm, ?_, between.symm, ih more surplus⟩
      rw [Hunk.oldFirst_swapped]
      omega

/-- No hunk stands before the lines that are still to be written: swapped, it would stand before
lines that are still to be read.
-/
theorem FitsFrom.le_newFirst {count old new : Nat} {hunks : List Hunk}
    (fits : FitsFrom count old new hunks) {hunk : Hunk} (member : hunk ∈ hunks)
    : new ≤ hunk.newFirst := by
  have back : FitsFrom (count + new + insertedCount hunks) new old (hunks.map Hunk.swapped) :=
    fits.swapped (by omega)
  exact back.le_oldFirst (List.mem_map_of_mem member)

/-- The version after a change has the lines of the one before it less the deleted and with the
inserted ones.
-/
theorem Fits.lineCountAfter_add {count : Nat} {hunks : List Hunk} (fits : Fits count hunks)
    : lineCountAfter count hunks + deletedCount hunks = count + insertedCount hunks := by
  have := fits.old_add_deletedCount_le
  unfold lineCountAfter
  omega

/-- The hunks of a change fit the version after it when the change is undone. -/
theorem Fits.swapped {count : Nat} {hunks : List Hunk} (fits : Fits count hunks)
    : Fits (lineCountAfter count hunks) (hunks.map Hunk.swapped) := by
  have := fits.lineCountAfter_add
  exact FitsFrom.swapped fits (by omega)

/-- Undoing a change leads back to as many lines as there were. -/
theorem Fits.lineCountAfter_swapped {count : Nat} {hunks : List Hunk} (fits : Fits count hunks)
    : lineCountAfter (lineCountAfter count hunks) (hunks.map Hunk.swapped) = count := by
  have := fits.lineCountAfter_add
  have := fits.old_add_deletedCount_le
  rw [lineCountAfter, insertedCount_swapped, deletedCount_swapped]
  omega

-----------------------------------------------------------------------------------------
-- Following one line
-----------------------------------------------------------------------------------------

/-- The number that a line has after hunks, unless one of them deletes it: it moves by what the
hunks before it insert and delete.
-/
def follow (hunks : List Hunk) (line : Nat) : Option Nat :=
  if ∃ hunk ∈ hunks, hunk.Takes line then none
  else
    let before := hunks.filter (·.oldEnd ≤ line)
    some (line + insertedCount before - deletedCount before)

/-- A line that no hunk deletes is followed to the next version. -/
theorem exists_follow_eq_some {hunks : List Hunk} {line : Nat}
    (kept : ¬∃ hunk ∈ hunks, hunk.Takes line)
    : ∃ after, follow hunks line = some after := by
  simp [follow, kept]

/-- A line is gone exactly if a hunk takes it. -/
theorem follow_eq_none_iff {hunks : List Hunk} {line : Nat}
    : follow hunks line = none ↔ ∃ hunk ∈ hunks, hunk.Takes line := by
  simp [follow]

@[simp] theorem follow_nil (line : Nat) : follow [] line = some line := by
  simp [follow, insertedCount, deletedCount]

/-- The hunks before a line delete only lines before it, by induction on the hunks. -/
theorem FitsFrom.deletedCount_before_le {count old new line : Nat} {hunks : List Hunk}
    (fits : FitsFrom count old new hunks) (unread : old ≤ line)
    : old + deletedCount (hunks.filter (·.oldEnd ≤ line)) ≤ line := by
  induction hunks generalizing old new with
  | nil => simpa [deletedCount] using unread
  | cons hunk rest ih =>
      obtain ⟨_, start, _, more⟩ := fits
      by_cases before : hunk.oldEnd ≤ line
      · have := ih more before
        have := hunk.oldEnd_eq
        simp only [before, decide_true, List.filter_cons_of_pos, deletedCount_cons]
        omega
      · have skipped : rest.filter (·.oldEnd ≤ line) = [] := by
          simp only [List.filter_eq_nil_iff, decide_eq_true_eq]
          intro later member
          have := more.le_oldFirst member
          have := later.oldFirst_le_oldEnd
          omega
        simp only [before, decide_false, Bool.false_eq_true, not_false_eq_true,
          List.filter_cons_of_neg, skipped]
        simpa [deletedCount] using unread

/-- A line before the first hunk keeps its number, since the other hunks stand behind that one. -/
theorem FitsFrom.follow_of_lt {count old new line : Nat} {hunk : Hunk} {rest : List Hunk}
    (fits : FitsFrom count old new (hunk :: rest)) (before : line < hunk.oldFirst)
    : follow (hunk :: rest) line = some line := by
  have behind : ∀ other ∈ hunk :: rest, line < other.oldFirst := by
    intro other member
    rcases List.mem_cons.mp member with rfl | later
    · exact before
    · have := fits.2.2.2.le_oldFirst later
      have := hunk.oldFirst_le_oldEnd
      omega
  have kept : ¬∃ other ∈ hunk :: rest, other.Takes line := by
    intro taken
    obtain ⟨other, member, takes, _⟩ := taken
    have := behind other member
    omega
  have nothing : (hunk :: rest).filter (·.oldEnd ≤ line) = [] := by
    simp only [List.filter_eq_nil_iff, decide_eq_true_eq]
    intro other member
    have := behind other member
    have := other.oldFirst_le_oldEnd
    omega
  simp only [follow, kept, nothing, if_false]
  rfl

/-- A line behind the first hunk moves by that hunk's surplus over where the rest puts it. -/
theorem FitsFrom.follow_of_oldEnd_le {count old new line : Nat} {hunk : Hunk} {rest : List Hunk}
    (fits : FitsFrom count old new (hunk :: rest)) (behind : hunk.oldEnd ≤ line)
    : follow (hunk :: rest) line
      = (follow rest line).map (fun after => after + hunk.newLength - hunk.oldLength) := by
  have passed : ¬hunk.Takes line := by
    intro takes
    obtain ⟨_, before⟩ := takes
    omega
  have := fits.2.2.2.deletedCount_before_le behind
  by_cases taken : ∃ other ∈ rest, other.Takes line
  · simp [follow, taken]
  · simp only [follow, List.mem_cons, exists_eq_or_imp, passed, taken, or_self, if_false, behind,
      decide_true, List.filter_cons_of_pos, insertedCount_cons, deletedCount_cons, Option.map_some]
    congr 1
    omega

/-- The cases of following a line through hunks, the first of which is looked at alone. -/
theorem FitsFrom.follow_cases {count old new line after : Nat} {hunk : Hunk} {rest : List Hunk}
    (fits : FitsFrom count old new (hunk :: rest))
    (followed : follow (hunk :: rest) line = some after)
    : (line < hunk.oldFirst ∧ after = line)
      ∨ (hunk.oldEnd ≤ line
        ∧ ∃ next, follow rest line = some next
          ∧ after = next + hunk.newLength - hunk.oldLength) := by
  by_cases before : line < hunk.oldFirst
  · rw [fits.follow_of_lt before] at followed
    exact .inl ⟨before, (Option.some.inj followed).symm⟩
  · have behind : hunk.oldEnd ≤ line := by
      refine Nat.le_of_not_lt fun short => ?_
      have gone : follow (hunk :: rest) line = none :=
        follow_eq_none_iff.mpr ⟨hunk, by simp, by omega, short⟩
      simp [gone] at followed
    rw [fits.follow_of_oldEnd_le behind] at followed
    obtain ⟨next, found, rfl⟩ := Option.map_eq_some_iff.mp followed
    exact .inr ⟨behind, next, found, rfl⟩

/-- An unread line stays unread, by induction on the hunks. -/
theorem FitsFrom.le_of_follow {count old new line after : Nat} {hunks : List Hunk}
    (fits : FitsFrom count old new hunks) (unread : old ≤ line)
    (followed : follow hunks line = some after)
    : old ≤ after := by
  induction hunks generalizing old new after with
  | nil =>
      rw [follow_nil] at followed
      exact Option.some.inj followed ▸ unread
  | cons hunk rest ih =>
      rcases fits.follow_cases followed with ⟨_, rfl⟩ | ⟨behind, next, found, rfl⟩
      · exact unread
      · obtain ⟨_, start, _, more⟩ := fits
        have := ih more behind found
        have := hunk.oldEnd_eq
        omega

/-- Following a line back undoes following it. Witness: induction on the hunks, where a line of
number `after` among those unread has number `there` among those unwritten.
-/
theorem FitsFrom.follow_swapped {count old new line after there : Nat} {hunks : List Hunk}
    (fits : FitsFrom count old new hunks) (unread : old ≤ line)
    (followed : follow hunks line = some after) (same : there + old = after + new)
    : ∃ back, follow (hunks.map Hunk.swapped) there = some back ∧ back + old = line + new := by
  induction hunks generalizing old new after there with
  | nil =>
      rw [follow_nil] at followed
      obtain rfl := Option.some.inj followed
      exact ⟨there, by simp, same⟩
  | cons hunk rest ih =>
      have back : FitsFrom (count + new + insertedCount (hunk :: rest)) new old
          (hunk.swapped :: rest.map Hunk.swapped) :=
        fits.swapped (by omega)
      rw [List.map_cons]
      rcases fits.follow_cases followed with ⟨before, rfl⟩ | ⟨behind, next, found, rfl⟩
      · obtain ⟨_, start, between, _⟩ := fits
        refine ⟨there, back.follow_of_lt ?_, same⟩
        rw [Hunk.oldFirst_swapped]
        omega
      · obtain ⟨_, start, between, more⟩ := fits
        have reached := more.le_of_follow behind found
        have oldEnd := hunk.oldEnd_eq
        have newEnd := hunk.newEnd_eq
        have ends : there + hunk.oldEnd = next + hunk.newEnd := by omega
        obtain ⟨origin, foundBack, sameBack⟩ := ih more behind found ends
        refine ⟨origin + hunk.oldLength - hunk.newLength, ?_, ?_⟩
        · rw [back.follow_of_oldEnd_le (by rw [Hunk.oldEnd_swapped]; omega), foundBack]
          rfl
        · omega

/-- Following a line to the next version and back leads to the same line. -/
theorem Fits.follow_swapped {count line after : Nat} {hunks : List Hunk} (fits : Fits count hunks)
    (positive : 1 ≤ line) (followed : follow hunks line = some after)
    : follow (hunks.map Hunk.swapped) after = some line := by
  obtain ⟨back, found, same⟩ := FitsFrom.follow_swapped fits positive followed rfl
  rwa [show back = line by omega] at found

/-- Every line behind fitting hunks is inserted by one of them or was there before. Witness: follow
the line back, and the line found there leads to it.
-/
theorem Fits.brings_or_follow {count line : Nat} {hunks : List Hunk} (fits : Fits count hunks)
    (positive : 1 ≤ line)
    : (∃ hunk ∈ hunks, hunk.Brings line)
      ∨ ∃ before, 1 ≤ before ∧ follow hunks before = some line := by
  by_cases inserted : ∃ hunk ∈ hunks.map Hunk.swapped, hunk.Takes line
  · obtain ⟨_, swappedMember, takes⟩ := inserted
    obtain ⟨hunk, member, rfl⟩ := List.mem_map.mp swappedMember
    exact .inl ⟨hunk, member, takes⟩
  · obtain ⟨before, followed⟩ := exists_follow_eq_some inserted
    have back := fits.swapped.follow_swapped positive followed
    rw [List.map_map, show Hunk.swapped ∘ Hunk.swapped = id from rfl, List.map_id] at back
    exact .inr ⟨before, FitsFrom.le_of_follow fits.swapped positive followed, back⟩

end Blame

end SourceView
