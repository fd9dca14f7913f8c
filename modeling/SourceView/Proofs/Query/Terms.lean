import SourceView.Query.Parser
import SourceView.Proofs.Query.Grammar
import SourceView.Proofs.Text.Decimal

/-! Search expressions as lists of words, and what they mean.
An expression of complete words is read as its words say, wherever they stand in it.
-/

namespace SourceView.Query

-----------------------------------------------------------------------------------------
-- Expressions and what they mean
-----------------------------------------------------------------------------------------

/-- One of the words of an expression. -/
inductive Term where
  /-- A key with its value, which may be empty. -/
  | operator (key : Key) (value : Option Word)
  /-- A word that does not begin with a key and a colon. -/
  | bare (word : Word) (unkeyed : ∀ key : Key, ¬key.name.toList ++ [':'] <+: word.text)

/-- The text of a value, which is none if the value is empty. -/
def valueText (value : Option Word) : List Char :=
  (value.map Word.text).getD []

namespace Term

def text : Term → List Char
  | operator key value => key.name.toList ++ ':' :: valueText value
  | bare word _ => word.text

/-- A key with its value. -/
def entry? : Term → Option (Key × List Char)
  | operator key value => some (key, valueText value)
  | bare _ _ => none

def word? : Term → Option (List Char)
  | operator _ _ => none
  | bare word _ => some word.text

end Term

/-- The text of an expression, with a space between its words. -/
def expression (terms : List Term) : List Char :=
  [' '].intercalate (terms.map Term.text)

/-- The keys of an expression with their values. -/
def entries (terms : List Term) : List (Key × List Char) :=
  terms.filterMap Term.entry?

def keys (terms : List Term) : List Key :=
  (entries terms).map Prod.fst

/-- The value of a key, or nothing if the key is not there. -/
def valueOf (key : Key) (terms : List Term) : List Char :=
  ((entries terms).lookup key).getD []

/-- The words without a key, with a space between them. -/
def bareText (terms : List Term) : List Char :=
  [' '].intercalate (terms.filterMap Term.word?)

/-- The first key that was met before. -/
def repeated? (met : List Key) : List Key → Option Key
  | [] => none
  | key :: rest => if key ∈ met then some key else repeated? (met ++ [key]) rest

/-- A text without the plus sign that it may begin with. -/
def withoutPlus : List Char → List Char
  | '+' :: rest => rest
  | text => text

/-- The number of 32 bits that a text spells: digits, which may stand behind a plus sign. -/
def spelled? (text : List Char) : Option UInt32 :=
  let digits := withoutPlus text
  let n := Nat.ofDigitChars 10 digits 0
  if digits ≠ [] ∧ digits.all Char.isDigit = true ∧ n < UInt32.size then some (.ofNat n)
  else none

/-- A character that means something in a regular expression, so that it stands for itself only
behind a backslash.
-/
def IsSpecial (c : Char) : Prop :=
  -- The escape itself, any character, and the ends of a line
  c ∈ ['\\', '.', '^', '$']
    -- Repetitions and alternatives
    ∨ c ∈ ['*', '+', '?', '{', '}', '|']
    -- Groups, classes and what combines classes
    ∨ c ∈ ['(', ')', '[', ']', '-', '&', '~']
    -- Comments, where an expression may have them
    ∨ c = '#'
deriving Decidable

/-- The regular expression that matches a text as it stands: a special character has one backslash
before it, and every other character stays as it is.
-/
def quoted : List Char → List Char
  | [] => []
  | c :: rest => if IsSpecial c then '\\' :: c :: quoted rest else c :: quoted rest

/-- The regular expressions for lines that the words give, of which there should not be two. -/
def given (terms : List Term) : List (List Char) :=
  [bareText terms, valueOf .exact terms, quoted (valueOf .literal terms)].filter (· ≠ [])

/-- What the words of an expression ask for, or what is wrong with them. -/
def meaning (terms : List Term) : Except ParseError Query :=
  match repeated? [] (keys terms) with
  | some key => .error (.duplicate key)
  | none =>
    let limit := valueOf .maxMatches terms
    if (.exact ∈ keys terms ∧ .literal ∈ keys terms) ∨ 1 < (given terms).length then
      .error .multipleRegex
    else if limit ≠ [] ∧ spelled? limit = none then .error (.invalidMaxMatches (.ofList limit))
    else
      .ok {
        line := .ofList (given terms).flatten
        file := .ofList (valueOf .file terms)
        notFile := .ofList (valueOf .notFile terms)
        repo := .ofList (valueOf .repo terms)
        notRepo := .ofList (valueOf .notRepo terms)
        tags := .ofList (valueOf .tags terms)
        notTags := .ofList (valueOf .notTags terms)
        foldCase :=
          .exact ∉ keys terms ∧ .literal ∉ keys terms
            ∧ (given terms).flatten.any Char.isUpper = false
        maxMatches := spelled? limit }

-----------------------------------------------------------------------------------------
-- Texts as expressions for themselves
-----------------------------------------------------------------------------------------

/-- The characters that are escaped are the special ones. -/
theorem mem_special_iff (c : Char) : c ∈ special ↔ IsSpecial c := by
  simp only [special, IsSpecial, List.mem_cons, List.not_mem_nil, or_false]
  tauto

/-- Escaping puts one backslash before each special character and keeps all others, by induction on
the text.
-/
theorem escape_eq_quoted (text : List Char) : escape text = quoted text := by
  induction text with
  | nil => rfl
  | cons c rest ih =>
      rw [escape, List.flatMap_cons, ← escape, ih, quoted]
      by_cases special : IsSpecial c
      · rw [if_pos ((mem_special_iff c).mpr special), if_pos special, List.cons_append,
          List.singleton_append]
      · rw [if_neg (mt (mem_special_iff c).mp special), if_neg special, List.singleton_append]

-----------------------------------------------------------------------------------------
-- Words at the start of a text
-----------------------------------------------------------------------------------------

/-- The texts behind which a word ends: none, and those that begin with a space. -/
inductive Clear : List Char → Prop
  | nil : Clear []
  | space (rest : List Char) : Clear (' ' :: rest)

/-- No word begins where a word ends. -/
theorem Clear.readWord {text : List Char} (clear : Clear text) : readWord text = ([], text) := by
  cases clear with
  | nil => rw [Query.readWord.eq_def]
  | space rest =>
      rw [Query.readWord.eq_def]
      exact if_pos (by decide)

/-- A word is read to its end where a word ends. -/
theorem Word.readWord_clear (word : Word) {rest : List Char} (clear : Clear rest)
    : readWord (word.text ++ rest) = (word.text, rest) := by
  rw [word.readWord_append, clear.readWord, Cut.behind, List.append_nil]

/-- A value is read to its end. -/
theorem readWord_value (value : Option Word) {rest : List Char} (clear : Clear rest)
    : readWord (valueText value ++ rest) = (valueText value, rest) := by
  cases value with
  | none => exact clear.readWord
  | some word => exact word.readWord_clear clear

/-- A key is found with the colon behind it. -/
theorem Key.ofStart?_name (key : Key) (rest : List Char)
    : ofStart? (key.name.toList ++ ':' :: rest) = some (key, rest) := by
  cases key <;> rfl

/-- There is no space in a key and its colon. -/
theorem Key.space_not_mem (key : Key) : ' ' ∉ key.name.toList ++ [':'] := by
  cases key <;> decide

/-- A word without a key has none whatever comes behind it. -/
theorem Key.ofStart?_of_unkeyed {word rest : List Char} (clear : Clear rest)
    (unkeyed : ∀ key : Key, ¬key.name.toList ++ [':'] <+: word)
    : ofStart? (word ++ rest) = none := by
  refine List.findSome?_eq_none_iff.mpr fun key _ => if_neg ?_
  rw [List.isPrefixOf_iff_prefix]
  rintro ⟨more, same⟩
  -- A key that is found ends in the word, or reaches into what is behind it.
  rcases List.append_eq_append_iff.mp same with ⟨left, before, -⟩ | ⟨left, before, behind⟩
  · exact unkeyed key ⟨left, before.symm⟩
  · cases clear with
    | nil =>
        obtain rfl := (List.append_eq_nil_iff.mp behind.symm).1
        exact unkeyed key ⟨[], by rw [before, List.append_nil, List.append_nil]⟩
    | space rest =>
        cases left with
        | nil => exact unkeyed key ⟨[], by rw [before, List.append_nil, List.append_nil]⟩
        | cons c left =>
            obtain rfl := (List.cons.inj behind).1
            exact key.space_not_mem (by simp [before])

-----------------------------------------------------------------------------------------
-- One word after the other
-----------------------------------------------------------------------------------------

section Parts

variable (parts : Parts)

/-- A space is a part of the bare text. -/
theorem readParts_space (rest : List Char)
    : readParts parts (' ' :: rest)
      = readParts { parts with bare := parts.bare ++ [' '] } rest := by
  rw [readParts.eq_def]
  exact dif_pos (by decide)

/-- A key with its value is read as an operator, unless the key was met before. -/
theorem readParts_of_key {text rest : List Char} {key : Key}
    (solid : ∀ c, text.head? = some c → Text.isBlank c = false)
    (found : Key.ofStart? text = some (key, rest))
    : readParts parts text
      = if (parts.value? key).isSome then .error (.duplicate key)
        else
          readParts { parts with values := parts.values ++ [(key, (readWord rest).1)] }
            ((readWord rest).2.drop 1) := by
  cases text with
  | nil => cases found
  | cons c text =>
      rw [readParts.eq_def]
      dsimp only
      rw [dif_neg (by simp [solid c rfl])]
      split
      · next same =>
          cases found.symm.trans same
          rfl
      · next missing => cases found.symm.trans missing

/-- A word without a key is a part of the bare text. -/
theorem readParts_of_unkeyed {text : List Char} (present : text ≠ [])
    (solid : ∀ c, text.head? = some c → Text.isBlank c = false)
    (unkeyed : Key.ofStart? text = none)
    : readParts parts text
      = readParts { parts with bare := parts.bare ++ (readWord text).1 } (readWord text).2 := by
  cases text with
  | nil => exact absurd rfl present
  | cons c text =>
      rw [readParts.eq_def]
      dsimp only
      rw [dif_neg (by simp [solid c rfl])]
      split
      · next same => cases unkeyed.symm.trans same
      · rfl

/-- A key has a value if it was given one. -/
theorem isSome_value?_iff (key : Key)
    : (parts.value? key).isSome = true ↔ key ∈ parts.values.map Prod.fst := by
  rw [Parts.value?, List.lookup_isSome_iff, List.mem_map]
  exact exists_congr fun entry => and_congr_right fun _ => by rw [beq_iff_eq, eq_comm]

end Parts

/-- What stands behind the first word of an expression, of which these are the other words. -/
def following : List Term → List Char
  | [] => []
  | terms => ' ' :: expression terms

/-- An expression is its first word, with a space and the other words behind it. -/
theorem expression_cons (term : Term) (rest : List Term)
    : expression (term :: rest) = term.text ++ following rest := by
  cases rest with
  | nil => rw [expression, List.map_cons, List.map_nil, List.intercalate_singleton, following,
      List.append_nil]
  | cons next rest =>
      rw [expression, List.map_cons, List.intercalate_cons_of_ne_nil (by simp), List.append_assoc]
      rfl

/-- A word ends before the other words of an expression. -/
theorem clear_following (terms : List Term) : Clear (following terms) := by
  cases terms with
  | nil => exact .nil
  | cons term rest => exact .space _

/-- Behind the space the other words are an expression. -/
theorem drop_following (terms : List Term) : (following terms).drop 1 = expression terms := by
  cases terms <;> rfl

/-- The name of a key is not empty, and neither begins nor ends with a blank. -/
theorem Key.tight_name (key : Key) : Text.Tight key.name.toList ∧ key.name.toList ≠ [] := by
  cases key <;> exact ⟨⟨by rintro c ⟨⟩; decide, by rintro c ⟨⟩; decide⟩, by decide⟩

/-- A word of an expression is not empty, and neither begins nor ends with a blank. -/
theorem Term.tight (term : Term) : Text.Tight term.text ∧ term.text ≠ [] := by
  cases term with
  | bare word unkeyed => exact ⟨word.tight, word.present⟩
  | operator key value =>
      obtain ⟨tight, present⟩ := key.tight_name
      refine ⟨?_, by simp [text]⟩
      cases value with
      | none =>
          have colon : Text.Tight [':'] := ⟨by rintro c ⟨⟩; decide, by rintro c ⟨⟩; decide⟩
          exact tight.append colon present (by simp) []
      | some word => exact tight.append word.tight present word.present [':']

/-- An expression neither begins nor ends with a blank, and is empty only without words. -/
theorem tight_expression (terms : List Term)
    : Text.Tight (expression terms) ∧ (terms ≠ [] → expression terms ≠ []) := by
  have each : ∀ text ∈ terms.map Term.text, Text.Tight text ∧ text ≠ [] := by
    intro text member
    obtain ⟨term, -, rfl⟩ := List.mem_map.mp member
    exact term.tight
  obtain ⟨tight, present⟩ := Text.tight_intercalate each
  exact ⟨tight, fun nonempty => present (by simpa using nonempty)⟩

/-- The bare words of an expression, each with the space behind it. -/
def spaced : List Term → List Char
  | [] => []
  | .operator _ _ :: rest => spaced rest
  | .bare word _ :: rest => word.text ++ if rest = [] then [] else ' ' :: spaced rest

section Expression

variable (parts : Parts) (rest : List Term)

/-- An operator in front of an expression gives its value to its key, unless the key was met before.
-/
theorem readParts_operator (key : Key) (value : Option Word)
    : readParts parts (expression (.operator key value :: rest))
      = if key ∈ parts.values.map Prod.fst then .error (.duplicate key)
        else
          readParts { parts with values := parts.values ++ [(key, valueText value)] }
            (expression rest) := by
  have found : Key.ofStart? (expression (.operator key value :: rest))
      = some (key, valueText value ++ following rest) := by
    rw [expression_cons, Term.text, List.append_assoc, List.cons_append]
    exact key.ofStart?_name _
  rw [readParts_of_key parts (tight_expression _).1.first found,
    readWord_value value (clear_following rest), drop_following]
  simp only [isSome_value?_iff]

/-- A bare word in front of an expression is a part of the bare text, with the space behind it. -/
theorem readParts_bare (word : Word)
    (unkeyed : ∀ key : Key, ¬key.name.toList ++ [':'] <+: word.text)
    : readParts parts (expression (.bare word unkeyed :: rest))
      = readParts
          { parts with
            bare := parts.bare ++ word.text ++ if rest = [] then [] else [' '] }
          (expression rest) := by
  have unread : Key.ofStart? (expression (.bare word unkeyed :: rest)) = none := by
    rw [expression_cons]
    exact Key.ofStart?_of_unkeyed (clear_following rest) unkeyed
  obtain ⟨tight, present⟩ := tight_expression (.bare word unkeyed :: rest)
  rw [readParts_of_unkeyed parts (present (by simp)) tight.first unread, expression_cons, Term.text,
    word.readWord_clear (clear_following rest)]
  cases rest with
  | nil => simp [following, expression]
  | cons next rest =>
      have more : following (next :: rest) = ' ' :: expression (next :: rest) := rfl
      rw [more, readParts_space, if_neg (by simp)]

/-- An expression is taken apart into its values and its bare words, unless a key is repeated, by
induction on its words.
-/
theorem readParts_expression (terms : List Term)
    : readParts parts (expression terms)
      = match repeated? (parts.values.map Prod.fst) (keys terms) with
        | some key => .error (.duplicate key)
        | none =>
          .ok { bare := parts.bare ++ spaced terms, values := parts.values ++ entries terms } := by
  induction terms generalizing parts with
  | nil =>
      have done : readParts parts [] = .ok parts := by
        rw [readParts.eq_def]
      simpa [expression, keys, entries, repeated?, spaced] using done
  | cons term rest ih =>
      cases term with
      | operator key value =>
          have keys_eq : keys (.operator key value :: rest) = key :: keys rest := rfl
          have entries_eq : entries (.operator key value :: rest)
              = (key, valueText value) :: entries rest := rfl
          rw [readParts_operator, keys_eq, repeated?]
          by_cases again : key ∈ parts.values.map Prod.fst
          · rw [if_pos again, if_pos again]
          · rw [if_neg again, if_neg again, ih, entries_eq]
            simp [spaced]
      | bare word unkeyed =>
          have keys_eq : keys (.bare word unkeyed :: rest) = keys rest := rfl
          have entries_eq : entries (.bare word unkeyed :: rest) = entries rest := rfl
          -- Unlike the space behind an operator, the one behind this word is kept.
          rw [readParts_bare, ih, keys_eq, entries_eq, spaced]
          by_cases last : rest = []
          · simp [last, spaced]
          · simp [last]

end Expression

-----------------------------------------------------------------------------------------
-- What the parts of an expression say
-----------------------------------------------------------------------------------------

/-- The bare text neither begins nor ends with a blank. -/
theorem tight_bareText (terms : List Term) : Text.Tight (bareText terms) := by
  refine (Text.tight_intercalate fun text member => ?_).1
  obtain ⟨term, -, found⟩ := List.mem_filterMap.mp member
  cases term with
  | operator key value => cases found
  | bare word unkeyed =>
      obtain rfl := Option.some.inj found
      exact ⟨word.tight, word.present⟩

/-- The bare words stand apart by single spaces, and the last space is there if an operator stands
behind them. By induction on the words.
-/
theorem spaced_eq (terms : List Term)
    : spaced terms = bareText terms
      ∨ bareText terms ≠ [] ∧ spaced terms = bareText terms ++ [' '] := by
  induction terms with
  | nil => exact .inl rfl
  | cons term rest ih =>
      cases term with
      | operator key value => exact ih
      | bare word unkeyed =>
          have words : (Term.bare word unkeyed :: rest).filterMap Term.word?
              = word.text :: rest.filterMap Term.word? := rfl
          rw [spaced, bareText, words]
          by_cases last : rest = []
          · subst last
            exact .inl (by simp)
          · rw [if_neg last]
            by_cases alone : rest.filterMap Term.word? = []
            · rw [alone, List.intercalate_singleton]
              have nothing : bareText rest = [] := by rw [bareText, alone]; rfl
              rw [nothing] at ih
              rcases ih with empty | ⟨different, -⟩
              · exact .inr ⟨word.present, by rw [empty]⟩
              · exact absurd rfl different
            · rw [List.intercalate_cons_of_ne_nil alone]
              rcases ih with same | ⟨-, same⟩
              · exact .inl (by rw [same, bareText]; simp)
              · exact .inr ⟨by simp [word.present], by rw [same, bareText]; simp⟩

/-- Trimming the bare words leaves them with single spaces between them. -/
theorem trim_spaced (terms : List Term) : Text.trim (spaced terms) = bareText terms := by
  have tight := tight_bareText terms
  rcases spaced_eq terms with same | ⟨-, same⟩
  · rw [same, tight.trim_eq]
  · rw [same, tight.trim_append_blank (by decide)]

/-- A value neither begins nor ends with a blank. -/
theorem tight_valueOf (key : Key) (terms : List Term) : Text.Tight (valueOf key terms) := by
  rw [valueOf]
  cases found : (entries terms).lookup key with
  | none => exact Text.tight_nil
  | some text =>
      obtain ⟨before, behind, split, -⟩ := List.lookup_eq_some_iff.mp found
      have member : (key, text) ∈ entries terms := by simp [split]
      obtain ⟨term, -, found⟩ := List.mem_filterMap.mp member
      cases term with
      | bare word unkeyed => cases found
      | operator key value =>
          cases found
          cases value with
          | none => exact Text.tight_nil
          | some word => exact word.tight

/-- A number of 32 bits is read where one is spelled. -/
theorem map_readSigned? (text : List Char)
    : (Text.Decimal.readSigned? UInt32.size text).map UInt32.ofNat = spelled? text := by
  have unsigned : Text.Decimal.readSigned? UInt32.size text
      = Text.Decimal.read? UInt32.size (withoutPlus text) := by
    fun_cases withoutPlus text with
    | case1 rest => rfl
    | case2 =>
        rw [Text.Decimal.readSigned?]
        assumption
  rw [unsigned, Text.Decimal.read?_eq, spelled?]
  split <;> rfl

/-- The parts of an expression in which no key is repeated. -/
def partsOf (terms : List Term) : Parts where
  bare := spaced terms
  values := entries terms

section PartsOf

variable (terms : List Term)

/-- The value that was given to a key is the one in its operator. -/
theorem value?_partsOf (key : Key) : ((partsOf terms).value? key).getD [] = valueOf key terms := rfl

/-- A key was given a value if it is one of the keys. -/
theorem isSome_value?_partsOf (key : Key)
    : ((partsOf terms).value? key).isSome = true ↔ key ∈ keys terms :=
  isSome_value?_iff (partsOf terms) key

/-- The line comes from what the words give for it, unless they give two. -/
theorem line?_partsOf
    : (partsOf terms).line?
      = if (.exact ∈ keys terms ∧ .literal ∈ keys terms) ∨ 1 < (given terms).length then
          .error .multipleRegex
        else .ok (given terms).flatten := by
  have candidates : [
      Text.trim (partsOf terms).bare,
      Text.trim (((partsOf terms).value? .exact).getD []),
      escape (Text.trim (((partsOf terms).value? .literal).getD []))].filter (!·.isEmpty)
        = given terms := by
    rw [value?_partsOf, value?_partsOf, (tight_valueOf .exact terms).trim_eq,
      (tight_valueOf .literal terms).trim_eq, escape_eq_quoted, partsOf, trim_spaced, given]
    exact List.filter_congr fun text _ => by cases text <;> rfl
  rw [Parts.line?]
  simp only [candidates, Bool.and_eq_true, isSome_value?_partsOf]
  by_cases both : .exact ∈ keys terms ∧ .literal ∈ keys terms
  · rw [if_pos both, if_pos (.inl both)]
  · rw [if_neg both]
    rcases given terms with _ | ⟨line, _ | ⟨other, more⟩⟩
    · simp [both]
    · simp [both]
    · simp

/-- The limit is the number that its value spells, if there is a value. -/
theorem maxMatches?_partsOf
    : (partsOf terms).maxMatches?
      = if valueOf .maxMatches terms ≠ [] ∧ spelled? (valueOf .maxMatches terms) = none then
          .error (.invalidMaxMatches (.ofList (valueOf .maxMatches terms)))
        else .ok (spelled? (valueOf .maxMatches terms)) := by
  rw [Parts.maxMatches?, value?_partsOf, (tight_valueOf .maxMatches terms).trim_eq]
  generalize valueOf .maxMatches terms = limit
  cases limit with
  | nil => rfl
  | cons c rest =>
      rw [← map_readSigned?]
      cases found : Text.Decimal.readSigned? UInt32.size (c :: rest) with
      | none => simp only [found, Option.map_none, ne_eq, reduceCtorEq, not_false_eq_true, and_self,
          if_true]
      | some limit => simp only [found, Option.map_some, reduceCtorEq, and_false, if_false]

/-- Case counts if a key says so or if the line has a capital letter. -/
theorem foldsCase_partsOf (line : List Char)
    : (partsOf terms).foldsCase line
      = decide (.exact ∉ keys terms ∧ .literal ∉ keys terms ∧ line.any Char.isUpper = false) := by
  rw [Parts.foldsCase]
  simp only [Bool.or_eq_true, isSome_value?_partsOf]
  by_cases keyed : .exact ∈ keys terms ∨ .literal ∈ keys terms
  · rw [if_pos keyed, eq_comm, decide_eq_false_iff_not]
    rintro ⟨noExact, noLiteral, -⟩
    exact keyed.elim noExact noLiteral
  · obtain ⟨noExact, noLiteral⟩ := not_or.mp keyed
    rw [if_neg keyed, Bool.eq_iff_iff]
    simp [noExact, noLiteral]

end PartsOf

/-- An expression of complete words means what its words say. -/
theorem parse_expression (terms : List Term)
    : parse (.ofList (expression terms)) = meaning terms := by
  have taken : readParts {} (expression terms)
      = match repeated? [] (keys terms) with
        | some key => .error (.duplicate key)
        | none => .ok (partsOf terms) :=
    readParts_expression {} terms
  rw [parse, String.toList_ofList, (tight_expression terms).1.trim_eq, taken, meaning]
  cases repeated? [] (keys terms) with
  | some key => rfl
  | none =>
      simp only [bind, Except.bind, line?_partsOf]
      by_cases several : (.exact ∈ keys terms ∧ .literal ∈ keys terms) ∨ 1 < (given terms).length
      · rw [if_pos several, if_pos several]
      · rw [if_neg several, if_neg several, maxMatches?_partsOf]
        by_cases bad : valueOf .maxMatches terms ≠ [] ∧ spelled? (valueOf .maxMatches terms) = none
        · rw [if_pos bad, if_pos bad]
        · rw [if_neg bad, if_neg bad]
          simp only [foldsCase_partsOf]
          rfl

end SourceView.Query
