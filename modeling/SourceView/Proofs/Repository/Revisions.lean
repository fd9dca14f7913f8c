import Mathlib.Data.List.Nodup
import Mathlib.Data.List.TakeWhile
import SourceView.History.Basic
import SourceView.Repository.Basic

/-! Which commit a name leads to.
The digits at the start of a name tell of one commit, and the steps behind them lead from it to one
that came before, so that only a name without such steps leads to the commit that it tells of.
-/

namespace SourceView

-----------------------------------------------------------------------------------------
-- Repositories with hashes
-----------------------------------------------------------------------------------------

/-- A hash in digits, long enough to be told by the part that is kept. -/
structure IsHash (id : String) : Prop where
  long : hashLength ≤ id.toList.length
  digits : ∀ c ∈ id.toList, c ∈ "0123456789abcdef".toList

/-- The part of a hash that is kept, as a list of digits. -/
def shortDigits (id : String) : List Char :=
  id.toList.take hashLength

/-- Short hashes are the same if their digits are. -/
theorem shortHash_eq_iff {first second : String}
    : shortHash first = shortHash second ↔ shortDigits first = shortDigits second := by
  rw [shortHash, shortHash, String.ofList_inj]
  rfl

namespace Repository

/-- The hashes are in digits and the kept parts tell the commits apart. The parents of a commit are
there, and come before it.
-/
structure Sound (repository : Repository) : Prop where
  hashes : ∀ commit ∈ repository.commits, IsHash commit.id
  distinct : (repository.commits.map fun commit => shortHash commit.id).Nodup
  parents
    : ∀ commit ∈ repository.commits, ∀ parent ∈ commit.parents,
        ∃ other ∈ repository.commits, other.id = parent
  order
    : ∃ age : String → Nat, ∀ commit ∈ repository.commits, ∀ parent ∈ commit.parents,
        age parent < age commit.id

end Repository

/-- A hash has no character that begins a step. -/
theorem IsHash.not_isMark {id : String} (hash : IsHash id)
    : ∀ c ∈ id.toList, (!Revision.isMark c) = true := by
  have digits : "0123456789abcdef".toList.all (!Revision.isMark ·) = true := by decide
  exact fun c member => List.all_eq_true.mp digits c (hash.digits c member)

/-- A hash is written in small letters. -/
theorem IsHash.map_toLower {id : String} (hash : IsHash id)
    : id.toList.map Char.toLower = id.toList := by
  have digits : "0123456789abcdef".toList.all (fun c => c.toLower = c) = true := by decide
  calc
    id.toList.map Char.toLower = id.toList.map fun c => c :=
      List.map_congr_left fun c member =>
        of_decide_eq_true (List.all_eq_true.mp digits c (hash.digits c member))
    _ = id.toList := List.map_id' _

/-- A short hash is written in small letters. -/
theorem IsHash.map_toLower_shortDigits {id : String} (hash : IsHash id)
    : (shortDigits id).map Char.toLower = shortDigits id := by
  rw [shortDigits, List.map_take, hash.map_toLower]

namespace Repository

section Sound

variable {repository : Repository} (sound : repository.Sound)

include sound

/-- Commits with the same short hash are the same. -/
theorem Sound.eq_of_shortDigits {commit other : Commit} (member : commit ∈ repository.commits)
    (otherMember : other ∈ repository.commits) (same : shortDigits commit.id = shortDigits other.id)
    : commit = other :=
  List.inj_on_of_nodup_map sound.distinct member otherMember (shortHash_eq_iff.mpr same)

-----------------------------------------------------------------------------------------
-- The commit that digits tell of
-----------------------------------------------------------------------------------------

omit sound in
/-- A commit that is found is one of the repository, and its hash begins with what was looked for.
-/
theorem mem_of_find? {start : String} {commit : Commit}
    (found : repository.find? start = some commit)
    : commit ∈ repository.commits ∧ start.toList.map Char.toLower <+: commit.id.toList := by
  rw [find?] at found
  split at found
  · cases found
  · split at found
    · next only listed =>
        obtain rfl := Option.some.inj found
        have member : only ∈ [only] := List.mem_singleton_self only
        rw [← listed, List.mem_filter, List.isPrefixOf_iff_prefix] at member
        exact member
    · cases found

/-- A whole hash is found, since no other hash begins like it. -/
theorem Sound.find?_id {commit : Commit} (member : commit ∈ repository.commits)
    : repository.find? commit.id = some commit := by
  have hash := sound.hashes commit member
  have alone : repository.commits.filter
      (fun other => commit.id.toList.isPrefixOf other.id.toList) = [commit] := by
    apply List.perm_singleton.mp
    rw [List.perm_ext_iff_of_nodup ((List.Nodup.of_map _ sound.distinct).filter _)
      (List.nodup_singleton commit)]
    intro other
    rw [List.mem_filter, List.mem_singleton, List.isPrefixOf_iff_prefix]
    constructor
    · rintro ⟨otherMember, begins⟩
      refine (sound.eq_of_shortDigits member otherMember ?_).symm
      obtain ⟨rest, split⟩ := begins
      rw [shortDigits, shortDigits, ← split, List.take_append_of_le_length hash.long]
    · rintro rfl
      exact ⟨member, List.prefix_refl _⟩
  have enough : ¬commit.id.toList.length < minHashLength :=
    Nat.not_lt.mpr (Nat.le_trans (by decide) hash.long)
  simp only [find?, hash.map_toLower, if_neg enough, alone]

/-- A commit is found by its whole hash. -/
theorem Sound.resolve?_id {commit : Commit} (member : commit ∈ repository.commits)
    : repository.resolve? commit.id = some commit := by
  have hash := sound.hashes commit member
  have read : Revision.ofString? commit.id = some { base := commit.id } := by
    simp only [Revision.ofString?, List.takeWhile_eq_self_iff.mpr hash.not_isMark,
      List.dropWhile_eq_nil_iff.mpr hash.not_isMark, String.ofList_toList]
    rw [Revision.steps?]
    rfl
  have begun : repository.find? commit.id = some commit := sound.find?_id member
  simp only [resolve?, read, begun, Option.bind_eq_bind, Option.bind_some]
  rfl

-----------------------------------------------------------------------------------------
-- Steps to commits that came before
-----------------------------------------------------------------------------------------

/-- A parent that is found is one of the commit's parents. -/
theorem Sound.mem_of_parent? {commit parent : Commit} {number : Nat}
    (member : commit ∈ repository.commits) (led : repository.parent? commit number = some parent)
    : parent ∈ repository.commits ∧ parent.id ∈ commit.parents := by
  obtain ⟨id, listed, found⟩ := Option.bind_eq_some_iff.mp led
  have named := List.mem_of_getElem? listed
  obtain ⟨other, otherMember, rfl⟩ := sound.parents commit member id named
  rw [sound.find?_id otherMember] at found
  obtain rfl := Option.some.inj found
  exact ⟨otherMember, named⟩

end Sound

end Repository

/-- A step that leads to another commit. -/
def RevisionStep.moves : RevisionStep → Bool
  | .parent number => number ≠ 0
  | .ancestor distance => distance ≠ 0

/-- A commit is reached from another one: from an older one if anything moved, and else from
itself.
-/
def Reached (age : String → Nat) (moved : Bool) (start found : Commit) : Prop :=
  if moved then age found.id < age start.id else found = start

/-- A commit that was reached is the one at the start if no step has moved. -/
theorem Reached.eq_iff {age : String → Nat} {moved : Bool} {start found : Commit}
    (reached : Reached age moved start found) : found = start ↔ moved = false := by
  cases moved with
  | true =>
      have younger : age found.id < age start.id := reached
      constructor
      · rintro rfl
        exact absurd younger (Nat.lt_irrefl _)
      · exact nofun
  | false => exact iff_of_true reached rfl

/-- What is reached from what was reached is reached from the start. -/
theorem Reached.trans {age : String → Nat} {first second : Bool} {start middle found : Commit}
    (there : Reached age first start middle) (on : Reached age second middle found)
    : Reached age (first || second) start found := by
  cases first with
  | false =>
      obtain rfl : middle = start := there
      exact on
  | true =>
      have step : age middle.id < age start.id := there
      cases second with
      | false =>
          obtain rfl : found = middle := on
          exact step
      | true => exact Nat.lt_trans on step

namespace Repository

section Steps

variable {repository : Repository} (sound : repository.Sound) {age : String → Nat}
  (older : ∀ commit ∈ repository.commits, ∀ parent ∈ commit.parents, age parent < age commit.id)

include sound older

/-- An ancestor that is found is reached from the commit, by induction on the distance. -/
theorem Sound.reached_of_ancestor? {distance : Nat} {commit found : Commit}
    (member : commit ∈ repository.commits)
    (led : repository.ancestor? commit distance = some found)
    : found ∈ repository.commits ∧ Reached age (distance ≠ 0) commit found := by
  induction distance generalizing commit with
  | zero =>
      obtain rfl := Option.some.inj led
      exact ⟨member, rfl⟩
  | succ distance ih =>
      obtain ⟨parent, first, rest⟩ := Option.bind_eq_some_iff.mp led
      obtain ⟨there, named⟩ := sound.mem_of_parent? member first
      obtain ⟨foundMember, reached⟩ := ih there rest
      have step : Reached age true commit parent := older commit member _ named
      exact ⟨foundMember, step.trans reached⟩

/-- Steps lead to a commit of the repository, and to another one if any of them moves. -/
theorem Sound.reached_of_follow? {steps : List RevisionStep} {commit found : Commit}
    (member : commit ∈ repository.commits) (led : repository.follow? commit steps = some found)
    : found ∈ repository.commits ∧ Reached age (steps.any RevisionStep.moves) commit found := by
  fun_induction follow? repository commit steps with
  | case1 commit =>
      obtain rfl := Option.some.inj led
      exact ⟨member, rfl⟩
  | case2 commit rest ih => exact ih member led
  | case3 commit rest number ih =>
      obtain ⟨parent, first, more⟩ := Option.bind_eq_some_iff.mp led
      obtain ⟨there, named⟩ := sound.mem_of_parent? member first
      obtain ⟨foundMember, reached⟩ := ih parent there more
      have step : Reached age true commit parent := older commit member _ named
      exact ⟨foundMember, step.trans reached⟩
  | case4 commit distance rest ih =>
      obtain ⟨middle, first, more⟩ := Option.bind_eq_some_iff.mp led
      obtain ⟨there, step⟩ := sound.reached_of_ancestor? older member first
      obtain ⟨foundMember, reached⟩ := ih middle there more
      exact ⟨foundMember, step.trans reached⟩

end Steps

-----------------------------------------------------------------------------------------
-- The commit that a name tells of
-----------------------------------------------------------------------------------------

section Names

variable {repository : Repository} (sound : repository.Sound) {name : String} {told : Commit}
  (member : told ∈ repository.commits) (short : shortHash name = shortHash told.id)

include sound member short

/-- The digits of a name go on at least as far as they are kept. -/
theorem Sound.shortDigits_base {revision : Revision}
    (read : Revision.ofString? name = some revision)
    : shortDigits told.id <+: revision.base.toList := by
  have hash := sound.hashes told member
  obtain ⟨steps, -, made⟩ := Option.bind_eq_some_iff.mp read
  obtain rfl := Option.some.inj made
  have unmarked : ∀ c ∈ shortDigits told.id, (!Revision.isMark c) = true :=
    fun c kept => hash.not_isMark c (List.mem_of_mem_take kept)
  have split : name.toList = shortDigits told.id ++ name.toList.drop hashLength := by
    rw [← shortHash_eq_iff.mp short, shortDigits, List.take_append_drop]
  rw [split, String.toList_ofList, List.takeWhile_append_of_pos unmarked]
  exact List.prefix_append _ _

/-- The steps of a name are taken from the commit that has its digits. -/
theorem Sound.exists_follow?_of_resolve? {found : Commit}
    (resolved : repository.resolve? name = some found)
    : ∃ revision,
        Revision.ofString? name = some revision
        ∧ repository.follow? told revision.steps = some found := by
  obtain ⟨revision, read, rest⟩ := Option.bind_eq_some_iff.mp resolved
  obtain ⟨start, begun, led⟩ := Option.bind_eq_some_iff.mp rest
  obtain ⟨startMember, begins⟩ := mem_of_find? begun
  have same : shortDigits start.id = shortDigits told.id := by
    have lower := (sound.shortDigits_base member short read).map Char.toLower
    rw [(sound.hashes told member).map_toLower_shortDigits] at lower
    obtain ⟨rest, split⟩ := lower.trans begins
    have length : (shortDigits told.id).length = hashLength :=
      List.length_take_of_le (sound.hashes told member).long
    rw [shortDigits, ← split, ← length, List.take_left]
  obtain rfl := sound.eq_of_shortDigits startMember member same
  exact ⟨revision, read, led⟩

end Names

end Repository

end SourceView
