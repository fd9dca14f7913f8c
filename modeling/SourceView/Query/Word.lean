import SourceView.Text.Blank

/-! The words of a search expression.
A word ends at the first blank outside of every group and character class that no backslash
escapes, so a parenthesised group or a class is part of one word, blanks included.
-/

namespace SourceView.Query

/-- A text cut in two: what was taken from its start, and the rest. -/
abbrev Cut := List Char × List Char

/-- Put a character in front of what was taken. -/
def Cut.cons (c : Char) (cut : Cut) : Cut :=
  (c :: cut.1, cut.2)

/-- Up to the bracket that closes a character class, of which this is the inside. -/
def throughClass : List Char → Cut
  | [] => ([], [])
  | '\\' :: c :: rest => ((throughClass rest).cons c).cons '\\'
  | ']' :: rest => ([']'], rest)
  | c :: rest => (throughClass rest).cons c

/-- Up to the end of a character class, of which this follows the opening bracket. A closing
bracket that comes first, also behind a caret, is a member of the class.
-/
def throughOpenedClass : List Char → Cut
  | '^' :: ']' :: rest => ((throughClass rest).cons ']').cons '^'
  | '^' :: rest => (throughClass rest).cons '^'
  | ']' :: rest => (throughClass rest).cons ']'
  | rest => throughClass rest

/-- Nothing behind a class is longer than what it was cut from. -/
theorem length_throughClass_snd_le (text : List Char)
    : (throughClass text).2.length ≤ text.length := by
  fun_induction throughClass text with
  | case1 => simp
  | case2 c rest ih => simp only [Cut.cons, List.length_cons]; omega
  | case3 rest => simp
  | case4 c rest _ _ ih => simp only [Cut.cons, List.length_cons]; omega

/-- Nothing behind an opened class is longer than what it was cut from. -/
theorem length_throughOpenedClass_snd_le (text : List Char)
    : (throughOpenedClass text).2.length ≤ text.length := by
  unfold throughOpenedClass
  split
  · next rest =>
      have := length_throughClass_snd_le rest
      simp only [Cut.cons, List.length_cons]; omega
  · next rest _ =>
      have := length_throughClass_snd_le rest
      simp only [Cut.cons, List.length_cons]; omega
  · next rest =>
      have := length_throughClass_snd_le rest
      simp only [Cut.cons, List.length_cons]; omega
  · exact length_throughClass_snd_le _

/-- Up to the parenthesis that closes a group, of which this is the inside, or to the end of
the text if none does. The group stands inside of `outer` more groups, which end with it.
-/
def throughGroup (outer : Nat) (text : List Char) : Cut :=
  match text with
  | [] => ([], [])
  | '\\' :: c :: rest => ((throughGroup outer rest).cons c).cons '\\'
  | '[' :: rest =>
    let cls := throughOpenedClass rest
    let more := throughGroup outer cls.2
    ('[' :: (cls.1 ++ more.1), more.2)
  | '(' :: rest => (throughGroup (outer + 1) rest).cons '('
  | ')' :: rest =>
    match outer with
    | 0 => ([')'], rest)
    | outer + 1 => (throughGroup outer rest).cons ')'
  | c :: rest => (throughGroup outer rest).cons c
termination_by text.length
decreasing_by
  all_goals simp only [List.length_cons]
  · omega
  · have := length_throughOpenedClass_snd_le rest
    omega
  all_goals omega

/-- Nothing behind a group is longer than what it was cut from. -/
theorem length_throughGroup_snd_le (outer : Nat) (text : List Char)
    : (throughGroup outer text).2.length ≤ text.length := by
  fun_induction throughGroup outer text <;>
    simp only [Cut.cons, List.length_cons, List.length_nil] <;> try omega
  next rest cls more ih =>
    have := length_throughOpenedClass_snd_le rest
    simp only [more, cls] at ih ⊢; omega

/-- The word at the start of a text, which is empty where the text begins with a blank. -/
def readWord (text : List Char) : Cut :=
  match text with
  | [] => ([], [])
  | '\\' :: c :: rest => ((readWord rest).cons c).cons '\\'
  | '(' :: rest =>
    let group := throughGroup 0 rest
    let more := readWord group.2
    ('(' :: (group.1 ++ more.1), more.2)
  | '[' :: rest =>
    let cls := throughOpenedClass rest
    let more := readWord cls.2
    ('[' :: (cls.1 ++ more.1), more.2)
  | c :: rest => if Text.isBlank c then ([], c :: rest) else (readWord rest).cons c
termination_by text.length
decreasing_by
  all_goals simp only [List.length_cons]
  · omega
  · have := length_throughGroup_snd_le 0 rest
    omega
  · have := length_throughOpenedClass_snd_le rest
    omega
  · omega

/-- Nothing behind a word is longer than what it was cut from. -/
theorem length_readWord_snd_le (text : List Char)
    : (readWord text).2.length ≤ text.length := by
  fun_induction readWord text <;>
    simp only [Cut.cons, List.length_cons, List.length_nil] <;> try omega
  · next rest group more ih =>
      have := length_throughGroup_snd_le 0 rest
      simp only [more, group] at ih ⊢; omega
  · next rest cls more ih =>
      have := length_throughOpenedClass_snd_le rest
      simp only [more, cls] at ih ⊢; omega

/-- A word is taken from the start of the text, character by character, unless a blank comes
first.
-/
theorem length_readWord_snd_lt {c : Char} {rest : List Char} (h : Text.isBlank c = false)
    : (readWord (c :: rest)).2.length < (c :: rest).length := by
  rw [readWord.eq_def]
  split
  · contradiction
  · next e =>
      cases e
      have := length_readWord_snd_le (by assumption)
      simp only [Cut.cons, List.length_cons]; omega
  · next r e =>
      cases e
      have := length_throughGroup_snd_le 0 rest
      have := length_readWord_snd_le (throughGroup 0 rest).2
      simp only [List.length_cons]; omega
  · next r e =>
      cases e
      have := length_throughOpenedClass_snd_le rest
      have := length_readWord_snd_le (throughOpenedClass rest).2
      simp only [List.length_cons]; omega
  · next e =>
      cases e
      have := length_readWord_snd_le rest
      simp only [h, Cut.cons, List.length_cons]
      simp; omega

end SourceView.Query
