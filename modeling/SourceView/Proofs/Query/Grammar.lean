import SourceView.Proofs.Query.Words
import SourceView.Proofs.Text.Blank

/-! Complete words, by what they consist of.
Everything that opens in a complete word closes in it, so that it is read as one word wherever it
stands before a blank or at the end.
-/

namespace SourceView.Query

-----------------------------------------------------------------------------------------
-- What words consist of
-----------------------------------------------------------------------------------------

/-- Members of a character class, of which none closes it. -/
inductive Members : List Char → Prop
  | nil : Members []
  | escape (c : Char) {rest} (more : Members rest) : Members ('\\' :: c :: rest)
  | plain {c rest} (notEscape : c ≠ '\\') (notClosing : c ≠ ']') (more : Members rest)
    : Members (c :: rest)

/-- A character class with the bracket that closes it. A bracket that comes first is a member. -/
inductive ClosedClass : List Char → Prop
  | bracketFirst {members} (rest : Members members) : ClosedClass ('[' :: ']' :: (members ++ [']']))
  | memberFirst {members} (all : Members members) (present : members ≠ [])
    (unnegated : members.head? ≠ some '^')
    : ClosedClass ('[' :: (members ++ [']']))
  | negatedBracketFirst {members} (rest : Members members)
    : ClosedClass ('[' :: '^' :: ']' :: (members ++ [']']))
  | negatedMemberFirst {members} (all : Members members) (present : members ≠ [])
    : ClosedClass ('[' :: '^' :: (members ++ [']']))

/-- A character that stands for itself: it begins nothing, and in a group it is no parenthesis that
closes. Blanks stand for themselves only in a group.
-/
def Ordinary (inGroup : Bool) (c : Char) : Prop :=
  c ≠ '\\' ∧ c ≠ '[' ∧ c ≠ '(' ∧ if inGroup then c ≠ ')' else Text.isBlank c = false

/-- Ordinary characters, escapes, closed classes and balanced groups, one after the other. -/
inductive Balanced : Bool → List Char → Prop
  | nil {inGroup} : Balanced inGroup []
  | plain {inGroup c rest} (ordinary : Ordinary inGroup c) (more : Balanced inGroup rest)
    : Balanced inGroup (c :: rest)
  | escape {inGroup} (c : Char) {rest} (more : Balanced inGroup rest)
    : Balanced inGroup ('\\' :: c :: rest)
  | cls {inGroup cls rest} (closed : ClosedClass cls) (more : Balanced inGroup rest)
    : Balanced inGroup (cls ++ rest)
  | group {inGroup inside rest} (balanced : Balanced true inside) (more : Balanced inGroup rest)
    : Balanced inGroup ('(' :: (inside ++ ')' :: rest))

/-- A word in which everything that opens closes. -/
structure Word where
  text : List Char
  balanced : Balanced false text
  present : text ≠ []
  /-- The word does not end in an escaped blank, which is the only blank that it could end in. -/
  solid : ∀ c, text.getLast? = some c → Text.isBlank c = false

/-- A complete word may have blanks in its groups. -/
example : ∃ word : Word, word.text = "(a b)".toList := by
  have inside : Balanced true ['a', ' ', 'b'] :=
    .plain (by simp [Ordinary]) (.plain (by simp [Ordinary]) (.plain (by simp [Ordinary]) .nil))
  exact ⟨⟨['(', 'a', ' ', 'b', ')'], .group inside .nil, by simp, by simp; decide⟩, rfl⟩

-----------------------------------------------------------------------------------------
-- The scan over what words consist of
-----------------------------------------------------------------------------------------

/-- The scan passes the members of a class, by induction on them. -/
theorem Members.cut {members : List Char} (all : Members members) (depth : Nat) (rest : List Char)
    : (⟨depth, .inside, false⟩ : Scan).cut (members ++ rest)
      = Cut.behind members ((⟨depth, .inside, false⟩ : Scan).cut rest) := by
  induction all with
  | nil => rfl
  | escape c more ih =>
      rw [List.cons_append, List.cons_append, Scan.cut_escape, if_neg (by simp), ih]
      rfl
  | plain notEscape notClosing more ih =>
      rw [List.cons_append, Scan.cut_cons_of_ne (by simp),
        Scan.step_member notEscape notClosing, ih]
      rfl

/-- The scan passes the rest of a class. -/
theorem Members.cut_closing {members : List Char} (all : Members members) (depth : Nat)
    (rest : List Char)
    : (⟨depth, .inside, false⟩ : Scan).cut (members ++ [']'] ++ rest)
      = Cut.behind (members ++ [']']) ((⟨depth, .outside, false⟩ : Scan).cut rest) := by
  have closes : (⟨depth, .inside, false⟩ : Scan).step ']' = ⟨depth, .outside, false⟩ := rfl
  rw [List.append_assoc, all.cut, List.singleton_append, Scan.cut_cons_of_ne (by simp), closes,
    Cut.behind_append]
  rfl

/-- The members of a class do not begin with its closing bracket. -/
theorem Members.ne_closing {members : List Char} (all : Members members) (present : members ≠ [])
    (rest more : List Char)
    : members ++ rest ≠ ']' :: more := by
  cases all with
  | nil => exact absurd rfl present
  | escape c more => simp
  | plain notEscape notClosing more => simp [notClosing]

/-- The scan passes a closed class. -/
theorem ClosedClass.cut {cls : List Char} (closed : ClosedClass cls) (depth : Nat)
    (rest : List Char)
    : (⟨depth, .outside, false⟩ : Scan).cut (cls ++ rest)
      = Cut.behind cls ((⟨depth, .outside, false⟩ : Scan).cut rest) := by
  have opens : (⟨depth, .outside, false⟩ : Scan).step '[' = ⟨depth, .opened, false⟩ := rfl
  have negates : (⟨depth, .opened, false⟩ : Scan).step '^' = ⟨depth, .negated, false⟩ := rfl
  have member : (⟨depth, .opened, false⟩ : Scan).step ']' = ⟨depth, .inside, false⟩ := rfl
  have negatedMember : (⟨depth, .negated, false⟩ : Scan).step ']' = ⟨depth, .inside, false⟩ := rfl
  cases closed with
  | bracketFirst all =>
      rw [List.cons_append, Scan.cut_cons_of_not_blank _ (by decide), opens, List.cons_append,
        Scan.cut_cons_of_ne (by simp), member, all.cut_closing]
      rfl
  | @memberFirst members all present unnegated =>
      have notCaret : ∀ more, members ++ [']'] ++ rest ≠ '^' :: more := by
        obtain ⟨first, others, rfl⟩ := List.exists_cons_of_ne_nil present
        simpa using unnegated
      have notClosing : ∀ more, members ++ [']'] ++ rest ≠ ']' :: more := by
        intro more
        rw [List.append_assoc]
        exact all.ne_closing present _ more
      rw [List.cons_append, Scan.cut_cons_of_not_blank _ (by decide), opens,
        Scan.cut_first_member depth (.inl ⟨rfl, notCaret⟩) notClosing, all.cut_closing]
      rfl
  | negatedBracketFirst all =>
      rw [List.cons_append, Scan.cut_cons_of_not_blank _ (by decide), opens, List.cons_append,
        Scan.cut_cons_of_ne (by simp), negates, List.cons_append,
        Scan.cut_cons_of_ne (by simp), negatedMember, all.cut_closing]
      rfl
  | @negatedMemberFirst members all present =>
      have notClosing : ∀ more, members ++ [']'] ++ rest ≠ ']' :: more := by
        intro more
        rw [List.append_assoc]
        exact all.ne_closing present _ more
      rw [List.cons_append, Scan.cut_cons_of_not_blank _ (by decide), opens, List.cons_append,
        Scan.cut_cons_of_ne (by simp), negates,
        Scan.cut_first_member depth (.inr rfl) notClosing, all.cut_closing]
      rfl

/-- The scan passes what is balanced, by induction on what that consists of. -/
theorem Balanced.cut {inGroup : Bool} {text : List Char} (balanced : Balanced inGroup text)
    {depth : Nat} (level : inGroup = true ↔ 0 < depth) (rest : List Char)
    : (⟨depth, .outside, false⟩ : Scan).cut (text ++ rest)
      = Cut.behind text ((⟨depth, .outside, false⟩ : Scan).cut rest) := by
  induction balanced generalizing depth rest with
  | nil => rfl
  | @plain inGroup c more ordinary balanced ih =>
      obtain ⟨notEscape, notClass, notOpening, stands⟩ := ordinary
      have goesOn : ¬(⟨depth, .outside, false⟩ : Scan).Stops c := by
        rintro ⟨blank, free⟩
        cases inGroup with
        | false => simp [blank] at stands
        | true =>
            cases free
            exact absurd (level.mp rfl) (Nat.lt_irrefl 0)
      have notClosing : c = ')' → depth = 0 := by
        intro closing
        cases inGroup with
        | false => simpa using level
        | true => exact absurd closing stands
      rw [List.cons_append, Scan.cut, if_neg goesOn,
        Scan.step_ordinary notEscape notClass notOpening notClosing, ih level]
      rfl
  | escape c more ih =>
      rw [List.cons_append, List.cons_append, Scan.cut_escape, if_pos rfl, ih level]
      rfl
  | cls closed more ih =>
      rw [List.append_assoc, closed.cut, ih level, Cut.behind_append]
  | @group inGroup inside more balanced others ihInside ih =>
      have opens : (⟨depth, .outside, false⟩ : Scan).step '(' = ⟨depth + 1, .outside, false⟩ := rfl
      have closes : (⟨depth + 1, .outside, false⟩ : Scan).step ')' = ⟨depth, .outside, false⟩ := by
        simp [Scan.step, Scan.stepPlain]
      rw [List.cons_append, Scan.cut_cons_of_not_blank _ (by decide), opens, List.append_assoc,
        ihInside (by simp), List.cons_append, Scan.cut_cons_of_ne (by simp), closes, ih level]
      simp [Cut.behind, Cut.cons]

/-- What is balanced outside of groups does not begin with a blank. -/
theorem Balanced.first {text : List Char} (balanced : Balanced false text) {c : Char}
    (here : text.head? = some c)
    : Text.isBlank c = false := by
  cases balanced with
  | nil => cases here
  | plain ordinary more =>
      obtain rfl := Option.some.inj here
      exact ordinary.2.2.2
  | escape other more =>
      obtain rfl := Option.some.inj here
      decide
  | cls closed more =>
      have bracket : '[' = c := by
        cases closed <;> exact Option.some.inj here
      rw [← bracket]
      decide
  | group balanced more =>
      obtain rfl := Option.some.inj here
      decide

-----------------------------------------------------------------------------------------
-- Complete words in a text
-----------------------------------------------------------------------------------------

namespace Word

/-- A complete word is read to its end. -/
theorem readWord_append (word : Word) (rest : List Char)
    : readWord (word.text ++ rest) = Cut.behind word.text (readWord rest) := by
  rw [← Scan.cut_eq_readWord, ← Scan.cut_eq_readWord]
  exact word.balanced.cut (by simp) rest

/-- A word neither begins nor ends with a blank. -/
theorem tight (word : Word) : Text.Tight word.text :=
  ⟨fun _ here => word.balanced.first here, word.solid⟩

end Word

end SourceView.Query
