import SourceView.Query.Word

/-! Where the words of a search expression end.
One scan from left to right, which keeps the depth of groups, its place in a character class and
whether the next character is escaped, ends a word where the nested readers of groups and classes
end it.
-/

namespace SourceView.Query

-----------------------------------------------------------------------------------------
-- The scan
-----------------------------------------------------------------------------------------

/-- Where a scan stands as to character classes. -/
inductive ClassPlace where
  | outside
  /-- Directly behind the bracket that opens a class. -/
  | opened
  /-- Directly behind the caret that negates a class. -/
  | negated
  | inside
  deriving DecidableEq, Repr

/-- What a scan remembers of the characters that it has passed. -/
structure Scan where
  /-- How many groups are open. -/
  depth : Nat := 0
  place : ClassPlace := .outside
  /-- The last character escapes the next one. -/
  escaped : Bool := false
  deriving DecidableEq, Repr

namespace Scan

/-- Pass a character that is neither escaped nor a backslash. -/
def stepPlain (scan : Scan) (c : Char) : Scan :=
  match scan.place with
  | .outside =>
    if c = '[' then { scan with place := .opened }
    else if c = '(' then { scan with depth := scan.depth + 1 }
    else if c = ')' ∧ 0 < scan.depth then { scan with depth := scan.depth - 1 }
    else scan
  | .opened => { scan with place := if c = '^' then .negated else .inside }
  | .negated => { scan with place := .inside }
  | .inside => if c = ']' then { scan with place := .outside } else scan

/-- Pass a character. Whatever stands first in a class is a member of it. -/
def step (scan : Scan) (c : Char) : Scan :=
  if scan.escaped then { scan with escaped := false }
  else if c = '\\' then
    { scan with
      escaped := true
      place := if scan.place = .outside then .outside else .inside }
  else scan.stepPlain c

/-- Pass a text. -/
def after (scan : Scan) (text : List Char) : Scan :=
  text.foldl step scan

/-- A word ends at this character: it is blank, and nothing is open or escaped. -/
def Stops (scan : Scan) (c : Char) : Prop :=
  Text.isBlank c = true ∧ scan = {}

instance (scan : Scan) (c : Char) : Decidable (scan.Stops c) :=
  inferInstanceAs (Decidable (_ ∧ _))

/-- Cut a text at the first character at which a word ends. -/
def cut (scan : Scan) : List Char → Cut
  | [] => ([], [])
  | c :: rest => if scan.Stops c then ([], c :: rest) else ((scan.step c).cut rest).cons c

/-- The scan ends a word at this place of a text. -/
def EndsAt (scan : Scan) (text : List Char) (index : Nat) : Prop :=
  ∃ c, text[index]? = some c ∧ (scan.after (text.take index)).Stops c

end Scan

/-- Put a text in front of what was taken. -/
def Cut.behind (taken : List Char) (cut : Cut) : Cut :=
  (taken ++ cut.1, cut.2)

/-- What is put before a cut is put there piece by piece. -/
theorem Cut.behind_append (first second : List Char) (cut : Cut)
    : Cut.behind (first ++ second) cut = Cut.behind first (Cut.behind second cut) := by
  simp [Cut.behind]

/-- The scan cuts at the first place at which it ends a word, by induction on the text. -/
theorem Scan.exists_cut_eq (scan : Scan) (text : List Char)
    : ∃ length ≤ text.length,
        scan.cut text = (text.take length, text.drop length)
        ∧ (∀ index < length, ¬scan.EndsAt text index)
        ∧ (length = text.length ∨ scan.EndsAt text length) := by
  induction text generalizing scan with
  | nil => exact ⟨0, Nat.le_refl _, rfl, nofun, .inl rfl⟩
  | cons c rest ih =>
      by_cases stops : scan.Stops c
      · exact ⟨0, Nat.zero_le _, by simp [cut, stops], nofun, .inr ⟨c, rfl, stops⟩⟩
      · obtain ⟨length, inside, cuts, before, last⟩ := ih (scan.step c)
        refine ⟨length + 1, Nat.succ_le_succ inside, ?_, ?_, ?_⟩
        · rw [cut, if_neg stops, cuts]
          rfl
        · intro index low
          cases index with
          | zero =>
              rintro ⟨_, same, ends⟩
              cases same
              exact stops ends
          | succ index => exact before index (Nat.lt_of_succ_lt_succ low)
        · exact last.imp (congrArg (· + 1)) id

-----------------------------------------------------------------------------------------
-- The scan beside the nested readers
-----------------------------------------------------------------------------------------

namespace Scan

variable {c : Char}

@[simp] theorem cut_nil (scan : Scan) : scan.cut [] = ([], []) := rfl

/-- No word ends where something is open or escaped. -/
theorem cut_cons_of_ne {scan : Scan} (busy : scan ≠ {}) (c : Char) (rest : List Char)
    : scan.cut (c :: rest) = ((scan.step c).cut rest).cons c :=
  if_neg fun stops => busy stops.2

/-- No word ends at a character that is not blank. -/
theorem cut_cons_of_not_blank (scan : Scan) (solid : Text.isBlank c = false) (rest : List Char)
    : scan.cut (c :: rest) = ((scan.step c).cut rest).cons c :=
  if_neg fun stops => absurd stops.1 (by simp [solid])

/-- Outside of classes, only brackets count, and a parenthesis that closes nothing does not. -/
theorem step_ordinary {depth : Nat} {c : Char} (notEscape : c ≠ '\\') (notClass : c ≠ '[')
    (notOpening : c ≠ '(') (notClosing : c = ')' → depth = 0)
    : (⟨depth, .outside, false⟩ : Scan).step c = ⟨depth, .outside, false⟩ := by
  have unclosed : ¬(c = ')' ∧ 0 < depth) := fun closes => by
    have := notClosing closes.1
    omega
  simp only [step, stepPlain, notEscape, notClass, notOpening, unclosed, if_false]
  rfl

/-- Inside of a class, everything but the bracket that closes it is a member. -/
theorem step_member {depth : Nat} {c : Char} (notEscape : c ≠ '\\') (notClosing : c ≠ ']')
    : (⟨depth, .inside, false⟩ : Scan).step c = ⟨depth, .inside, false⟩ := by
  simp only [step, stepPlain, notEscape, notClosing, if_false]
  rfl

/-- A backslash takes the next character with it. -/
theorem cut_escape (depth : Nat) (place : ClassPlace) (c : Char) (rest : List Char)
    : (⟨depth, place, false⟩ : Scan).cut ('\\' :: c :: rest)
      = (((⟨depth, if place = .outside then .outside else .inside, false⟩ : Scan).cut
          rest).cons c).cons '\\' := by
  rw [cut_cons_of_not_blank _ (by decide), cut_cons_of_ne (by simp [step])]
  simp [step]

/-- A backslash at the end of a text escapes nothing. -/
theorem cut_backslash (scan : Scan) : scan.cut ['\\'] = (['\\'], []) :=
  cut_cons_of_not_blank scan (by decide) []

/-- A backslash that escapes nothing is the last character. -/
theorem nothing_behind_backslash {rest : List Char}
    (notEscape : ∀ other more, c = '\\' → rest = other :: more → False) (backslash : c = '\\')
    : rest = [] := by
  cases rest with
  | nil => rfl
  | cons other more => exact (notEscape other more backslash rfl).elim

/-- Inside of a class the scan goes on to the end of the class, by induction along the class. -/
theorem cut_inside (depth : Nat) (text : List Char)
    : (⟨depth, .inside, false⟩ : Scan).cut text
      = Cut.behind (throughClass text).1
          ((⟨depth, .outside, false⟩ : Scan).cut (throughClass text).2) := by
  fun_induction throughClass text with
  | case1 => rfl
  | case2 c rest ih =>
      rw [cut_escape, if_neg (by simp), ih]
      rfl
  | case3 rest => exact cut_cons_of_ne (by simp) _ _
  | case4 c rest notEscape notClosing ih =>
      by_cases backslash : c = '\\'
      · obtain rfl := nothing_behind_backslash notEscape backslash
        rw [backslash, cut_backslash]
        rfl
      · rw [cut_cons_of_ne (by simp), step_member backslash notClosing, ih]
        rfl

/-- The first member of a class is inside of it whatever it is, unless it closes or negates. -/
theorem cut_first_member (depth : Nat) {place : ClassPlace} {rest : List Char}
    (first : place = .opened ∧ (∀ more, rest ≠ '^' :: more) ∨ place = .negated)
    (unclosed : ∀ more, rest ≠ ']' :: more)
    : (⟨depth, place, false⟩ : Scan).cut rest = (⟨depth, .inside, false⟩ : Scan).cut rest := by
  cases rest with
  | nil => rfl
  | cons c rest =>
      have notClosing : c ≠ ']' := fun closing => unclosed rest (by rw [closing])
      have busy : (⟨depth, place, false⟩ : Scan) ≠ {} := by
        rcases first with ⟨rfl, -⟩ | rfl <;> simp
      have same : (⟨depth, place, false⟩ : Scan).step c
          = (⟨depth, .inside, false⟩ : Scan).step c := by
        rcases first with ⟨rfl, unnegated⟩ | rfl
        · have notCaret : c ≠ '^' := fun caret => unnegated rest (by rw [caret])
          simp [step, stepPlain, notClosing, notCaret]
        · simp [step, stepPlain, notClosing]
      rw [cut_cons_of_ne busy, cut_cons_of_ne (by simp), same]

/-- Behind the bracket that opens a class the scan goes on to the end of the class. -/
theorem cut_opened (depth : Nat) (text : List Char)
    : (⟨depth, .opened, false⟩ : Scan).cut text
      = Cut.behind (throughOpenedClass text).1
          ((⟨depth, .outside, false⟩ : Scan).cut (throughOpenedClass text).2) := by
  unfold throughOpenedClass
  split
  · next rest =>
      have member : (⟨depth, .negated, false⟩ : Scan).step ']' = ⟨depth, .inside, false⟩ := rfl
      have negates : (⟨depth, .opened, false⟩ : Scan).step '^' = ⟨depth, .negated, false⟩ := rfl
      rw [cut_cons_of_ne (by simp), negates, cut_cons_of_ne (by simp), member, cut_inside]
      rfl
  · next rest unclosed =>
      have negates : (⟨depth, .opened, false⟩ : Scan).step '^' = ⟨depth, .negated, false⟩ := rfl
      rw [cut_cons_of_ne (by simp), negates, cut_first_member depth (.inr rfl) unclosed, cut_inside]
      rfl
  · next rest =>
      have member : (⟨depth, .opened, false⟩ : Scan).step ']' = ⟨depth, .inside, false⟩ := rfl
      rw [cut_cons_of_ne (by simp), member, cut_inside]
      rfl
  · next unnegated unclosed =>
      rw [cut_first_member depth (.inl ⟨rfl, unnegated⟩) unclosed, cut_inside]

/-- A bracket takes the class that it opens with it. -/
theorem cut_class (depth : Nat) (rest : List Char)
    : (⟨depth, .outside, false⟩ : Scan).cut ('[' :: rest)
      = (Cut.behind (throughOpenedClass rest).1
          ((⟨depth, .outside, false⟩ : Scan).cut (throughOpenedClass rest).2)).cons '[' := by
  have opens : (⟨depth, .outside, false⟩ : Scan).step '[' = ⟨depth, .opened, false⟩ := rfl
  rw [cut_cons_of_not_blank _ (by decide), opens, cut_opened]

/-- Inside of a group the scan goes on to the end of the group, by induction along the group. -/
theorem cut_group (outer : Nat) (text : List Char)
    : (⟨outer + 1, .outside, false⟩ : Scan).cut text
      = Cut.behind (throughGroup outer text).1
          ((⟨0, .outside, false⟩ : Scan).cut (throughGroup outer text).2) := by
  fun_induction throughGroup outer text with
  | case1 => rfl
  | case2 outer c rest ih =>
      rw [cut_escape, if_pos rfl, ih]
      rfl
  | case3 outer rest cls more ih =>
      rw [cut_class, ih, ← Cut.behind_append]
      rfl
  | case4 outer rest ih =>
      have opens : (⟨outer + 1, .outside, false⟩ : Scan).step '('
          = ⟨outer + 1 + 1, .outside, false⟩ := rfl
      rw [cut_cons_of_ne (by simp), opens, ih]
      rfl
  | case5 rest => exact cut_cons_of_ne (by simp) _ _
  | case6 rest outer ih =>
      have closes : (⟨outer + 1 + 1, .outside, false⟩ : Scan).step ')'
          = ⟨outer + 1, .outside, false⟩ := by
        simp [step, stepPlain]
      rw [cut_cons_of_ne (by simp), closes, ih]
      rfl
  | case7 outer c rest notEscape notClass notOpening notClosing ih =>
      -- A backslash that comes here is the last character.
      by_cases backslash : c = '\\'
      · obtain rfl := nothing_behind_backslash notEscape backslash
        rw [backslash, cut_backslash]
        simp [throughGroup, Cut.cons, Cut.behind]
      · rw [cut_cons_of_ne (by simp),
          step_ordinary backslash notClass notOpening (absurd · notClosing), ih]
        rfl

/-- The scan cuts a word as the nested readers do, by induction along the word. -/
theorem cut_eq_readWord (text : List Char) : ({} : Scan).cut text = readWord text := by
  fun_induction readWord text with
  | case1 => rfl
  | case2 c rest ih =>
      rw [cut_escape, if_pos rfl, ih]
  | case3 rest group more ih =>
      have opens : ({} : Scan).step '(' = ⟨1, .outside, false⟩ := rfl
      rw [cut_cons_of_not_blank _ (by decide), opens, cut_group, ih]
      rfl
  | case4 rest cls more ih =>
      rw [cut_class, ih]
      rfl
  | case5 c rest notEscape notGroup notClass blank =>
      exact if_pos ⟨blank, rfl⟩
  | case6 c rest notEscape notGroup notClass solid ih =>
      rw [cut_cons_of_not_blank _ (Bool.eq_false_iff.mpr solid)]
      by_cases backslash : c = '\\'
      · obtain rfl := nothing_behind_backslash notEscape backslash
        rw [cut_nil, ← ih, cut_nil]
      · rw [step_ordinary backslash notClass notGroup fun _ => rfl, ih]

end Scan

-----------------------------------------------------------------------------------------
-- Groups by counting
-----------------------------------------------------------------------------------------

/-- Up to the end of a group by counting parentheses. The count goes up at each that opens and down
at each that closes, and the group ends where that makes it zero. There is no result if a
parenthesis closes while the count is zero.
-/
def countGroup? (count : Nat) (text : List Char) : Option Cut :=
  match text with
  | [] => some ([], [])
  | '\\' :: c :: rest => (countGroup? count rest).map fun more => (more.cons c).cons '\\'
  | '[' :: rest =>
    (countGroup? count (throughOpenedClass rest).2).map fun more =>
      (more.behind (throughOpenedClass rest).1).cons '['
  | '(' :: rest => (countGroup? (count + 1) rest).map (Cut.cons '(')
  | ')' :: rest =>
    match count with
    | 0 => none
    | 1 => some ([')'], rest)
    | count + 2 => (countGroup? (count + 1) rest).map (Cut.cons ')')
  | c :: rest => (countGroup? count rest).map (Cut.cons c)
termination_by text.length
decreasing_by
  all_goals simp only [List.length_cons]
  · omega
  · have := length_throughOpenedClass_snd_le rest
    omega
  all_goals omega

/-- Behind the parenthesis that opens it, a group is counted to its end, by induction along the
group.
-/
theorem countGroup?_succ (outer : Nat) (text : List Char)
    : countGroup? (outer + 1) text = some (throughGroup outer text) := by
  fun_induction throughGroup outer text with
  | case1 => rw [countGroup?]
  | case2 outer c rest ih =>
      rw [countGroup?, ih]
      rfl
  | case3 outer rest cls more ih =>
      rw [countGroup?, ih]
      rfl
  | case4 outer rest ih =>
      rw [countGroup?, ih]
      rfl
  | case5 rest => rw [countGroup?]
  | case6 rest outer ih =>
      rw [countGroup?, ih]
      rfl
  | case7 outer c rest notEscape notClass notOpening notClosing ih =>
      rw [countGroup?, ih]
      · rfl
      all_goals assumption

/-- A group is counted from the parenthesis that opens it. -/
theorem countGroup?_zero (rest : List Char)
    : countGroup? 0 ('(' :: rest) = some ((throughGroup 0 rest).cons '(') := by
  rw [countGroup?, countGroup?_succ]
  rfl

/-- The word at the start of a text, where groups are counted. -/
def countWord? (text : List Char) : Option Cut :=
  match text with
  | [] => some ([], [])
  | '\\' :: c :: rest => (countWord? rest).map fun more => (more.cons c).cons '\\'
  | '(' :: rest =>
    match _counted : countGroup? 0 ('(' :: rest) with
    | none => none
    | some group => (countWord? group.2).map (Cut.behind group.1)
  | '[' :: rest =>
    (countWord? (throughOpenedClass rest).2).map fun more =>
      (more.behind (throughOpenedClass rest).1).cons '['
  | c :: rest =>
    if Text.isBlank c then some ([], c :: rest) else (countWord? rest).map (Cut.cons c)
termination_by text.length
decreasing_by
  · simp only [List.length_cons]; omega
  · have := length_throughGroup_snd_le 0 rest
    obtain rfl := Option.some.inj ((countGroup?_zero rest).symm.trans _counted)
    simp only [Cut.cons, List.length_cons]; omega
  · have := length_throughOpenedClass_snd_le rest
    simp only [List.length_cons]; omega
  · simp only [List.length_cons]; omega

/-- A character that begins neither an escape nor a group nor a class ends a word if it is blank, by
cases on how the text begins.
-/
theorem countWord?_plain {c : Char} {rest : List Char}
    (notEscape : ∀ d more, c = '\\' → rest = d :: more → False)
    (notGroup : c = '(' → False) (notClass : c = '[' → False)
    : countWord? (c :: rest)
      = if Text.isBlank c then some ([], c :: rest) else (countWord? rest).map (Cut.cons c) := by
  rw [countWord?.eq_def]
  split
  · next empty => cases empty
  · next d more escape =>
      cases escape
      exact (notEscape d more rfl rfl).elim
  · next more group =>
      cases group
      exact (notGroup rfl).elim
  · next more cls =>
      cases cls
      exact (notClass rfl).elim
  · next plain =>
      cases plain
      rfl

/-- No parenthesis is counted in a word that closes no group, by induction along the word. -/
theorem countWord?_eq (text : List Char) : countWord? text = some (readWord text) := by
  fun_induction readWord text with
  | case1 => rw [countWord?.eq_def]
  | case2 c rest ih =>
      have step : countWord? ('\\' :: c :: rest)
          = (countWord? rest).map fun more => (more.cons c).cons '\\' :=
        countWord?.eq_def _
      rw [step, ih]
      rfl
  | case3 rest group more ih =>
      have step : countWord? ('(' :: rest)
          = match _counted : countGroup? 0 ('(' :: rest) with
            | none => none
            | some group => (countWord? group.2).map (Cut.behind group.1) :=
        countWord?.eq_def _
      rw [step]
      split
      · next missing => cases (countGroup?_zero rest).symm.trans missing
      · next found counted =>
          obtain rfl := Option.some.inj ((countGroup?_zero rest).symm.trans counted)
          exact congrArg (Option.map _) ih
  | case4 rest cls more ih =>
      have step : countWord? ('[' :: rest)
          = (countWord? (throughOpenedClass rest).2).map fun more =>
              (more.behind (throughOpenedClass rest).1).cons '[' :=
        countWord?.eq_def _
      rw [step, ih]
      rfl
  | case5 c rest notEscape notGroup notClass blank =>
      rw [countWord?_plain notEscape notGroup notClass, if_pos blank]
  | case6 c rest notEscape notGroup notClass solid ih =>
      rw [countWord?_plain notEscape notGroup notClass, if_neg solid, ih]
      rfl

/-- A word ends at the first blank at which the scan has nothing open and nothing escaped, and at
the end of the text if there is none. The nested readers end it there as well, and never count a
parenthesis that closes none.
-/
theorem readWord_ends_at_free_blank (text : List Char)
    : countWord? text = some (readWord text)
      ∧ ∃ length ≤ text.length,
          readWord text = (text.take length, text.drop length)
          ∧ (∀ index < length, ¬({} : Scan).EndsAt text index)
          ∧ (length = text.length ∨ ({} : Scan).EndsAt text length) := by
  refine ⟨countWord?_eq text, ?_⟩
  rw [← Scan.cut_eq_readWord]
  exact Scan.exists_cut_eq {} text

/-- A parenthesis in a class closes no group, and a blank in a group ends no word. -/
example : ({} : Scan).cut "a(b [)] c) d".toList = ("a(b [)] c)".toList, " d".toList) := by decide

end SourceView.Query
