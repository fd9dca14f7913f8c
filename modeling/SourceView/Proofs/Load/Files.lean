import SourceView.Load.Files
import SourceView.Proofs.NameMap

/-! The files of the working directory, and the paths that lead to them.
What a path leads to does not depend on the files that are there, and a file that is beside another
one under another path is another file.
-/

namespace SourceView

-----------------------------------------------------------------------------------------
-- The pieces of a text
-----------------------------------------------------------------------------------------

namespace Text

variable {separator : Char}

/-- A text without the separator is one piece, by induction on the text. -/
theorem split_of_not_mem {text : List Char} (unbroken : separator ∉ text)
    : split separator text = [text] := by
  induction text with
  | nil => rfl
  | cons c text ih =>
      rw [List.mem_cons, not_or] at unbroken
      rw [split, if_neg (Ne.symm unbroken.1), ih unbroken.2]

/-- Another text may stand in place of the last piece, by induction on the text. -/
theorem exists_split_last (separator : Char) (text : List Char)
    : ∃ lead pieces last,
        text = lead ++ last
        ∧ separator ∉ last
        ∧ ∀ other,
          separator ∉ other → split separator (lead ++ other) = pieces ++ [other] := by
  induction text with
  | nil => exact ⟨[], [], [], rfl, List.not_mem_nil, fun _ => split_of_not_mem⟩
  | cons c text ih =>
      obtain ⟨lead, pieces, last, rfl, unbroken, others⟩ := ih
      by_cases separates : c = separator
      · refine ⟨c :: lead, [] :: pieces, last, rfl, unbroken, fun other unbroken => ?_⟩
        rw [List.cons_append, split, if_pos separates, others other unbroken, List.cons_append]
      · cases pieces with
        | nil =>
            have first : lead = [] := by
              have whole := intercalate_split separator (lead ++ last)
              rw [others last unbroken] at whole
              simpa [List.intercalate] using whole
            subst first
            refine ⟨[], [], c :: last, rfl, ?_, fun _ => split_of_not_mem⟩
            rw [List.mem_cons, not_or]
            exact ⟨Ne.symm separates, unbroken⟩
        | cons piece pieces =>
            refine ⟨c :: lead, (c :: piece) :: pieces, last, rfl, unbroken, ?_⟩
            intro other unbroken
            rw [List.cons_append, split, if_neg separates, others other unbroken]
            rfl

end Text

-----------------------------------------------------------------------------------------
-- Paths
-----------------------------------------------------------------------------------------

namespace FilePath

variable {path : String} {name : List Char}

/-- A part of a path that leads on. -/
def Solid (part : List Char) : Prop :=
  part ≠ [] ∧ part ≠ ['.']

/-- A part that leads on is the last step of a path that ends with it. -/
theorem steps_of_parts {pieces : List (List Char)} (cut : parts path = pieces ++ [name])
    (solid : Solid name)
    : steps path = pieces.filter (fun part => part ≠ [] && part ≠ ['.']) ++ [name] := by
  rw [steps, cut, List.filter_append]
  simp [solid.1, solid.2]

/-- A path that need not lead to a directory ends with a part that leads on. -/
theorem solid_of_endsAtDirectory {pieces : List (List Char)} (cut : parts path = pieces ++ [name])
    (ends : endsAtDirectory path = false)
    : Solid name := by
  simpa [endsAtDirectory, cut, Solid] using ends

/-- Nothing is dropped in front of anything but a slash, or a dot and a slash. -/
theorem dropSlashes_cons {c : Char} {rest : List Char} (apart : c ≠ '/')
    (other : c = '.' → rest.head? ≠ some '/')
    : dropSlashes (c :: rest) = c :: rest := by
  unfold dropSlashes
  split
  · next slash =>
      cases slash
      exact absurd rfl apart
  · next dotted =>
      cases dotted
      exact absurd rfl (other rfl)
  · rfl

/-- A path that ends in a solid part does not say that it leads to a directory. -/
theorem dropSlashes_reverse (front : List Char) (solid : Solid name) (unbroken : '/' ∉ name)
    : dropSlashes (front ++ name).reverse = (front ++ name).reverse := by
  rw [List.reverse_append]
  have other : name.reverse ≠ ['.'] := by simpa [List.reverse_eq_iff] using solid.2
  have present : name.reverse ≠ [] := by simpa using solid.1
  rw [← List.mem_reverse] at unbroken
  generalize name.reverse = back at *
  cases back with
  | nil => exact absurd rfl present
  | cons c back =>
      rw [List.mem_cons, not_or] at unbroken
      refine dropSlashes_cons (Ne.symm unbroken.1) fun dot => ?_
      cases back with
      | nil => exact absurd (congrArg (· :: []) dot) other
      | cons d back =>
          rw [List.mem_cons, not_or] at unbroken
          simpa using Ne.symm unbroken.2.1

/-- A name begins with its stem. -/
theorem stem_prefix_name (name : List Char) : stem name <+: name := by
  unfold stem
  split
  · exact List.prefix_rfl
  · exact List.prefix_rfl
  · next dot before _ cut =>
      have suffix := List.dropWhile_suffix (l := name.reverse) (· ≠ '.')
      rw [cut] at suffix
      have behind := (List.suffix_cons dot before).trans suffix
      rwa [← List.reverse_prefix, List.reverse_reverse] at behind

/-- Another extension changes only the name at the end of a path. -/
theorem steps_withExtension {extension : String} (single : steps path = [name])
    (below : name ≠ ['.', '.']) (ends : endsAtDirectory path = false)
    (unbroken : '/' ∉ extension.toList) (present : extension.toList ≠ [])
    : ∃ front,
        path.toList = front ++ name
        ∧ (withExtension path extension).toList
          = front ++ (stem name ++ '.' :: extension.toList)
        ∧ steps (withExtension path extension) = [stem name ++ '.' :: extension.toList] := by
  obtain ⟨front, pieces, last, whole, apart, others⟩ := Text.exists_split_last '/' path.toList
  have cut : parts path = pieces ++ [last] := by
    rw [parts, whole, others last apart]
  have solid := solid_of_endsAtDirectory cut ends
  have found := steps_of_parts cut solid
  rw [single] at found
  obtain ⟨alone, same⟩ := List.append_inj' (show [] ++ [name] = _ ++ [last] from found) rfl
  cases same
  have extended : (withExtension path extension).toList
      = front ++ (stem name ++ '.' :: extension.toList) := by
    have named : fileName? path = some name := by
      rw [fileName?, single]
      exact if_neg below
    rw [withExtension, named]
    dsimp only
    rw [whole, dropSlashes_reverse front solid apart, String.toList_ofList, List.reverse_append,
      ← List.length_reverse, List.drop_left, List.reverse_reverse, List.append_assoc]
  have cutToo : parts (withExtension path extension)
      = pieces ++ [stem name ++ '.' :: extension.toList] := by
    rw [parts, extended, others]
    simp only [List.mem_append, List.mem_cons, not_or]
    exact ⟨fun member => apart ((stem_prefix_name name).subset member), by decide, unbroken⟩
  have solidToo : Solid (stem name ++ '.' :: extension.toList) := by
    refine ⟨by simp, fun same => present ?_⟩
    have lengths := congrArg List.length same
    rw [List.length_append, List.length_cons, List.length_singleton] at lengths
    exact List.eq_nil_of_length_eq_zero (by omega)
  refine ⟨front, whole, extended, ?_⟩
  rw [steps_of_parts cutToo solidToo, ← alone, List.nil_append]

end FilePath

namespace FileStore

/-- A path that leads to a file has the file's name for its only step. -/
theorem locate_eq_file {store : FileStore} {path name : String}
    (found : store.locate path = .ok (.file name))
    : FilePath.steps path = [name.toList]
      ∧ name.toList ≠ ['.', '.']
      ∧ FilePath.endsAtDirectory path = false := by
  unfold locate at found
  split at found
  · split at found <;> cases found
  · split at found
    · cases found
    · split at found
      · cases found
      · next only steps =>
          split at found
          · cases found
          · next other =>
              split at found
              · cases found
              · next ends =>
                  cases found
                  simpa [steps, other] using ends
      · split at found <;> cases found

/-- The files that are there only matter for what is wrong with a path. -/
theorem locate_of_locate {store : FileStore} {path : String} {target : PathTarget}
    (found : store.locate path = .ok target) (other : FileStore)
    : other.locate path = .ok target := by
  unfold locate at found ⊢
  grind

/-- If a path leads to a file, the path with another extension leads to another file or is the same
path.
-/
theorem withExtension_eq_of_locate {store other : FileStore} {path extension name : String}
    (found : store.locate path = .ok (.file name))
    (beside : other.locate (FilePath.withExtension path extension) = .ok (.file name))
    (unbroken : '/' ∉ extension.toList) (present : extension.toList ≠ [])
    : FilePath.withExtension path extension = path := by
  obtain ⟨single, below, ends⟩ := locate_eq_file found
  obtain ⟨front, whole, extended, steps⟩ :=
    FilePath.steps_withExtension single below ends unbroken present
  obtain ⟨singleToo, -, -⟩ := locate_eq_file beside
  rw [singleToo, List.cons.injEq] at steps
  rw [← steps.1] at extended
  rw [← String.toList_inj, extended, whole]

-----------------------------------------------------------------------------------------
-- What is done to a file
-----------------------------------------------------------------------------------------

/-- A path leads to a file of the working directory, whether it is there or not. -/
def LeadsTo (path name : String) : Prop :=
  ∀ store : FileStore, store.locate path = .ok (.file name)

variable {store after : FileStore} {path name : String} {content : List UInt8}

/-- A path that leads to a file leads there in any store. -/
theorem leadsTo_of_locate (found : store.locate path = .ok (.file name)) : LeadsTo path name :=
  locate_of_locate found

/-- A path to a file has something at its end if the file is there. -/
theorem LeadsTo.has (leads : LeadsTo path name) (store : FileStore)
    : store.has path = store.files.contains name := by
  rw [FileStore.has, leads]

/-- Reading through a path gives the content of the file. -/
theorem LeadsTo.read_of_get? (leads : LeadsTo path name)
    (stands : store.files.get? name = some content)
    : store.read path = .ok content := by
  rw [FileStore.read, leads]
  dsimp only
  rw [stands]

/-- Writing through a path writes the file. -/
theorem LeadsTo.write (leads : LeadsTo path name) (store : FileStore) (content : List UInt8)
    : store.write path content = .ok ⟨store.files.insert name content⟩ := by
  rw [FileStore.write, leads]

/-- Removing through a path removes the file. -/
theorem LeadsTo.remove (leads : LeadsTo path name) (store : FileStore)
    : store.remove path = ⟨store.files.erase name⟩ := by
  rw [FileStore.remove, leads]

/-- What can be read is there. -/
theorem has_of_read (stands : store.read path = .ok content) : store.has path = true := by
  unfold FileStore.read at stands
  rw [FileStore.has]
  split at stands
  · cases stands
  · cases stands
  · next name found =>
      rw [found]
      split at stands
      · next stored => simp [NameMap.contains, stored]
      · cases stands

/-- A file that is there is moved where its content can be written. -/
theorem LeadsTo.move (leads : LeadsTo path name) (stands : store.files.get? name = some content)
    (target : String)
    : store.move path target
      = if FilePath.endsAtDirectory target then .error .notDirectory
        else FileStore.write ⟨store.files.erase name⟩ target content := by
  rw [FileStore.move, leads.read_of_get? stands, leads.remove]
  cases FilePath.endsAtDirectory target <;> rfl

/-- Nothing can be written where a path does not lead to a file. -/
theorem not_leadsTo_of_write {cause : FileError} (failed : store.write path content = .error cause)
    : ¬ LeadsTo path name := by
  intro leads
  cases failed.symm.trans (leads.write store content)

/-- A file that cannot be moved has no place to go to. -/
theorem not_leadsTo_of_move {target other : String} {cause : FileError} (leads : LeadsTo path name)
    (stands : store.files.get? name = some content) (failed : store.move path target = .error cause)
    : ¬ LeadsTo target other := by
  intro there
  obtain ⟨-, -, ends⟩ := locate_eq_file (there store)
  rw [leads.move stands, if_neg (by simp [ends])] at failed
  exact not_leadsTo_of_write failed there

/-- What can be written leads to a file. -/
theorem leadsTo_of_write (written : store.write path content = .ok after)
    : ∃ name, LeadsTo path name ∧ after = ⟨store.files.insert name content⟩ := by
  unfold FileStore.write at written
  split at written
  · cases written
  · cases written
  · next name found =>
      cases written
      exact ⟨name, leadsTo_of_locate found, rfl⟩

/-- There is something at a path just if there was, where that holds of every file to which the path
may lead.
-/
theorem has_congr
    (same : ∀ name,
      LeadsTo path name → after.files.contains name = store.files.contains name)
    : after.has path = store.has path := by
  rcases found : store.locate path with cause | ⟨name⟩ | _
  · have lost : ∃ cause, after.locate path = .error cause := by
      rcases still : after.locate path with cause | target
      · exact ⟨cause, rfl⟩
      · cases found.symm.trans (locate_of_locate still store)
    obtain ⟨_, lost⟩ := lost
    rw [FileStore.has, FileStore.has, found, lost]
  · have leads := leadsTo_of_locate found
    rw [leads.has, leads.has, same name leads]
  · rw [FileStore.has, FileStore.has, found, locate_of_locate found after]

end FileStore

end SourceView
