import SourceView.Query.Parser
import SourceView.Proofs.Outcome
import SourceView.Proofs.Query.Words
import SourceView.Proofs.Text.Blank

/-! Backslashes that escape nothing, and how a search expression comes to end in one.
The words of an expression keep every backslash together with what it escapes. Trimming knows
nothing of escapes, and takes a blank away from the backslash before it.
-/

namespace SourceView.Query

-----------------------------------------------------------------------------------------
-- Dangling backslashes
-----------------------------------------------------------------------------------------

/-- Whether the next character is escaped, one character further on. -/
def escapesNext (escaped : Bool) (c : Char) : Bool :=
  !escaped && c == '\\'

/-- The text ends in a backslash that escapes nothing. From left to right, a backslash escapes the
character behind it unless it is escaped itself.
-/
def Dangles (text : List Char) : Prop :=
  text.foldl escapesNext false = true

instance (text : List Char) : Decidable (Dangles text) :=
  inferInstanceAs (Decidable (_ = _))

/-- The text ends in blanks of which a backslash escapes the first. -/
def EndsEscaped (text : List Char) : Prop :=
  ∃ front c blanks,
    text = front ++ c :: blanks
    ∧ Dangles front
    ∧ ∀ blank ∈ c :: blanks, Text.isBlank blank = true

/-- No backslash dangles in an empty text. -/
theorem not_dangles_nil : ¬Dangles [] := by
  simp [Dangles]

section Dangles

variable {c : Char} {before text : List Char}

/-- What stands behind whole escapes dangles by itself. -/
theorem dangles_append (whole : ¬Dangles before) (behind : List Char)
    : Dangles (before ++ behind) ↔ Dangles behind := by
  rw [Dangles, Dangles, List.foldl_append, Bool.eq_false_iff.mpr whole]

/-- A character other than a backslash leaves nothing to dangle. -/
theorem not_dangles_concat (plain : c ≠ '\\') (text : List Char) : ¬Dangles (text ++ [c]) := by
  simp [Dangles, escapesNext, plain]

/-- A backslash is not blank. -/
theorem ne_backslash_of_blank (blank : Text.isBlank c = true) : c ≠ '\\' := by
  rintro rfl
  cases blank

/-- A text with a dangling backslash does not end in a blank. -/
theorem Dangles.solid (dangles : Dangles text)
    : ∀ c, text.getLast? = some c → Text.isBlank c = false := by
  intro c last
  rcases List.eq_nil_or_concat text with rfl | ⟨front, other, rfl⟩
  · cases last
  · rw [List.concat_eq_append] at dangles last
    rw [List.getLast?_concat] at last
    obtain rfl := Option.some.inj last
    exact Bool.eq_false_iff.mpr fun blank =>
      not_dangles_concat (ne_backslash_of_blank blank) front dangles

/-- No backslash dangles in a text of blanks. -/
theorem not_dangles_of_blank (blank : ∀ c ∈ text, Text.isBlank c = true) : ¬Dangles text := by
  intro dangles
  cases last : text.getLast? with
  | none => exact not_dangles_nil (List.getLast?_eq_none_iff.mp last ▸ dangles)
  | some c => cases (blank c (List.mem_of_getLast? last)).symm.trans (dangles.solid c last)

/-- A text that is trimmed ends in a dangling backslash if it did before, and if it loses a blank
that was escaped.
-/
theorem dangles_trim_iff (text : List Char)
    : Dangles (Text.trim text) ↔ Dangles text ∨ EndsEscaped text := by
  have keeps {text : List Char} (dangles : Dangles text) : Dangles (Text.trim text) := by
    obtain ⟨before, behind, split, blankBefore, blankBehind⟩ := Text.exists_eq_append_trim text
    rw [split, List.append_assoc, dangles_append (not_dangles_of_blank blankBefore)] at dangles
    rcases List.eq_nil_or_concat behind with rfl | ⟨front, c, rfl⟩
    · rwa [List.append_nil] at dangles
    · rw [List.concat_eq_append] at dangles blankBehind
      have blank := blankBehind c (by simp)
      cases blank.symm.trans (dangles.solid c (by simp))
  constructor
  · intro dangles
    obtain ⟨before, behind, split, blankBefore, blankBehind⟩ := Text.exists_eq_append_trim text
    have front : Dangles (before ++ Text.trim text) :=
      (dangles_append (not_dangles_of_blank blankBefore) _).mpr dangles
    cases behind with
    | nil =>
        rw [List.append_nil] at split
        exact .inl (split ▸ front)
    | cons c blanks => exact .inr ⟨_, c, blanks, split, front, blankBehind⟩
  · rintro (dangles | ⟨front, c, blanks, rfl, dangles, blank⟩)
    · exact keeps dangles
    · rw [Text.trim_append_blanks blank]
      exact keeps dangles

end Dangles

-----------------------------------------------------------------------------------------
-- Words
-----------------------------------------------------------------------------------------

/-- A character that is no backslash leaves the next one as it is, escaped or not. -/
theorem Scan.escaped_stepPlain (scan : Scan) (c : Char)
    : (scan.stepPlain c).escaped = scan.escaped := by
  rcases scan with ⟨depth, place, escaped⟩
  cases place with
  | outside =>
      simp only [stepPlain]
      split_ifs <;> rfl
  | opened | negated => rfl
  | inside =>
      simp only [stepPlain]
      split_ifs <;> rfl

/-- The scan of a word escapes as any other reading from left to right does. -/
theorem Scan.escaped_step (scan : Scan) (c : Char)
    : (scan.step c).escaped = escapesNext scan.escaped c := by
  rw [step, escapesNext]
  cases escaped : scan.escaped with
  | true => rfl
  | false =>
      by_cases backslash : c = '\\'
      · simp [backslash]
      · simp [backslash, escaped_stepPlain, escaped]

/-- The scan of a text escapes as reading it from left to right does, by induction on the text. -/
theorem Scan.escaped_after (scan : Scan) (text : List Char)
    : (scan.after text).escaped = text.foldl escapesNext scan.escaped := by
  induction text generalizing scan with
  | nil => rfl
  | cons c rest ih =>
      rw [List.foldl_cons, ← scan.escaped_step]
      exact ih (scan.step c)

/-- A word that ends before the text does keeps its backslashes with what they escape. -/
theorem readWord_cases (text : List Char)
    : readWord text = (text, [])
      ∨ ∃ word c rest,
          text = word ++ c :: rest
          ∧ readWord text = (word, c :: rest)
          ∧ Text.isBlank c = true
          ∧ ¬Dangles word := by
  obtain ⟨length, -, cuts, -, last | ⟨c, here, blank, free⟩⟩ := Scan.exists_cut_eq {} text
  · rw [Scan.cut_eq_readWord, last, List.take_length, List.drop_length] at cuts
    exact .inl cuts
  · rw [Scan.cut_eq_readWord] at cuts
    obtain ⟨inside, same⟩ := List.getElem?_eq_some_iff.mp here
    have rest : text.drop length = c :: text.drop (length + 1) := by
      rw [List.drop_eq_getElem_cons inside, same]
    refine .inr ⟨text.take length, c, text.drop (length + 1), ?_, rest ▸ cuts, blank, ?_⟩
    · rw [← rest, List.take_append_drop]
    · have escaped := Scan.escaped_after {} (text.take length)
      rw [free] at escaped
      rw [Dangles, ← escaped]
      simp

-----------------------------------------------------------------------------------------
-- The parts of an expression
-----------------------------------------------------------------------------------------

/-- A key with its value, as an expression has it. -/
def spelling (key : Key) (value : List Char) : List Char :=
  key.name.toList ++ ':' :: value

/-- A backslash dangles behind a key if it dangles in the value. -/
theorem dangles_spelling (key : Key) (value : List Char)
    : Dangles (spelling key value) ↔ Dangles value := by
  rw [spelling, ← List.singleton_append, ← List.append_assoc]
  exact dangles_append (not_dangles_concat (by decide) _) value

/-- A backslash that dangles in a text that ends with a value dangles in the value. -/
theorem dangles_of_spelling_suffix {key : Key} {value text : List Char} (dangles : Dangles text)
    (ends : spelling key value <:+ text)
    : Dangles value := by
  obtain ⟨front, rfl⟩ := ends
  have whole : ¬Dangles (front ++ key.name.toList ++ [':']) := not_dangles_concat (by decide) _
  rwa [spelling, ← List.singleton_append, ← List.append_assoc, ← List.append_assoc,
    dangles_append whole] at dangles

/-- A key that a text begins with is spelled there. -/
theorem eq_spelling_of_ofStart? {text rest : List Char} {key : Key}
    (found : Key.ofStart? text = some (key, rest))
    : text = spelling key rest := by
  obtain ⟨other, -, here⟩ := List.exists_of_findSome?_eq_some found
  simp only [Option.ite_none_right_eq_some, Option.some.injEq, Prod.mk.injEq] at here
  obtain ⟨start, rfl, rfl⟩ := here
  obtain ⟨rest, rfl⟩ := List.isPrefixOf_iff_prefix.mp start
  rw [List.drop_left, spelling, List.append_assoc, List.singleton_append]

/-- What becomes of the dangling backslash of an expression, if it has one: it ends the bare text
or the value that stands last, and nothing else.
-/
inductive Strands (parts : Parts) (text : List Char) : Prop where
  | nowhere (whole : ¬Dangles text) (bare : ¬Dangles parts.bare)
    (values : ∀ entry ∈ parts.values, ¬Dangles entry.2)
  | inBare (dangles : Dangles text) (bare : Dangles parts.bare)
    (values : ∀ entry ∈ parts.values, ¬Dangles entry.2)
  | inValue (dangles : Dangles text) (bare : ¬Dangles parts.bare) {key : Key} {value : List Char}
    (member : (key, value) ∈ parts.values) (strands : Dangles value)
    (ends : spelling key value <:+ text)
    (only : ∀ entry ∈ parts.values, Dangles entry.2 → entry = (key, value))

/-- The bare text and the values have their backslashes together with what they escape. -/
structure Parts.Whole (parts : Parts) : Prop where
  bare : ¬Dangles parts.bare
  values : ∀ entry ∈ parts.values, ¬Dangles entry.2

section Strands

variable {parts final : Parts}

/-- A word with whole escapes leaves the bare text whole. -/
theorem Parts.Whole.addBare (whole : parts.Whole) {word : List Char} (kept : ¬Dangles word)
    : ({ parts with bare := parts.bare ++ word } : Parts).Whole where
  bare := mt (dangles_append whole.bare word).mp kept
  values := whole.values

/-- A value with whole escapes leaves the values whole. -/
theorem Parts.Whole.addValue (whole : parts.Whole) (key : Key) {value : List Char}
    (kept : ¬Dangles value)
    : ({ parts with values := parts.values ++ [(key, value)] } : Parts).Whole where
  bare := whole.bare
  values := by
    intro entry member
    rcases List.mem_append.mp member with before | last
    · exact whole.values entry before
    · rwa [List.mem_singleton.mp last]

/-- Where everything else is whole, a backslash can dangle in the last bare word alone. -/
theorem Parts.Whole.strands_bare (whole : parts.Whole) (word : List Char)
    : Strands { parts with bare := parts.bare ++ word } word := by
  by_cases dangles : Dangles word
  · exact .inBare dangles ((dangles_append whole.bare word).mpr dangles) whole.values
  · exact .nowhere dangles (whole.addBare dangles).bare whole.values

/-- Where everything else is whole, a backslash can dangle in the last value alone. -/
theorem Parts.Whole.strands_value (whole : parts.Whole) (key : Key) (value : List Char)
    : Strands { parts with values := parts.values ++ [(key, value)] } (spelling key value) := by
  by_cases dangles : Dangles value
  · refine .inValue ((dangles_spelling key value).mpr dangles) whole.bare (by simp) dangles
      List.suffix_rfl fun entry member strands => ?_
    rcases List.mem_append.mp member with before | last
    · exact absurd strands (whole.values entry before)
    · exact List.mem_singleton.mp last
  · exact .nowhere (mt (dangles_spelling key value).mp dangles) whole.bare
      (whole.addValue key dangles).values

/-- What is read before the last word has nothing to do with where the backslash goes. -/
theorem Strands.behind {rest : List Char} (strands : Strands final rest) {front : List Char}
    (whole : ¬Dangles front)
    : Strands final (front ++ rest) := by
  have same := dangles_append whole rest
  cases strands with
  | nowhere whole bare values => exact .nowhere (mt same.mp whole) bare values
  | inBare dangles bare values => exact .inBare (same.mpr dangles) bare values
  | inValue dangles bare member strands ends only =>
      exact .inValue (same.mpr dangles) bare member strands (ends.trans (List.suffix_append _ _))
        only

/-- The dangling backslash of an expression goes to one part, by induction along the expression. -/
theorem strands_readParts {text : List Char} (whole : parts.Whole)
    (read : readParts parts text = .ok final)
    : Strands final text := by
  fun_induction readParts parts text with
  | case1 parts =>
      obtain rfl := Except.ok.inj read
      exact .nowhere not_dangles_nil whole.bare whole.values
  | case2 parts c rest blank ih =>
      have plain : ¬Dangles [c] := not_dangles_concat (ne_backslash_of_blank blank) []
      exact (ih (whole.addBare plain) read).behind plain
  | case3 => cases read
  | case4 parts c rest solid key behind found fresh ih =>
      rw [eq_spelling_of_ofStart? found]
      rcases readWord_cases behind with all | ⟨word, blank, more, split, cut, isBlank, kept⟩
      · rw [all, List.drop_nil, readParts.eq_def] at read
        obtain rfl := Except.ok.inj read
        exact whole.strands_value key behind
      · rw [cut] at ih read
        have plain : ¬Dangles (spelling key word ++ [blank]) :=
          not_dangles_concat (ne_backslash_of_blank isBlank) _
        have strands := (ih (whole.addValue key kept) read).behind plain
        simpa [spelling, split] using strands
  | case5 parts c rest solid unkeyed ih =>
      rcases readWord_cases (c :: rest) with all | ⟨word, blank, more, split, cut, -, kept⟩
      · rw [all, readParts.eq_def] at read
        obtain rfl := Except.ok.inj read
        exact whole.strands_bare (c :: rest)
      · rw [cut] at ih read
        rw [split]
        exact (ih (whole.addBare kept) read).behind kept

/-- A backslash dangles in a value if it does in the text and the text ends with that value. -/
theorem Strands.value_iff {text : List Char} (strands : Strands parts text) {key : Key}
    {value : List Char} (member : (key, value) ∈ parts.values)
    : Dangles value ↔ Dangles text ∧ spelling key value <:+ text := by
  refine ⟨fun dangles => ?_, fun ⟨dangles, ends⟩ => dangles_of_spelling_suffix dangles ends⟩
  cases strands with
  | nowhere whole bare values => exact absurd dangles (values _ member)
  | inBare _ bare values => exact absurd dangles (values _ member)
  | inValue here bare other strands ends only =>
      cases only _ member dangles
      exact ⟨here, ends⟩

/-- A backslash dangles in the bare text if it does in the text and the text ends with no value. -/
theorem Strands.bare_iff {text : List Char} (strands : Strands parts text)
    : Dangles parts.bare
      ↔ Dangles text ∧ ∀ entry ∈ parts.values, ¬spelling entry.1 entry.2 <:+ text := by
  cases strands with
  | nowhere whole bare values => exact iff_of_false bare fun found => whole found.1
  | inBare dangles bare values =>
      refine iff_of_true bare ⟨dangles, fun entry member ends => ?_⟩
      exact values entry member (dangles_of_spelling_suffix dangles ends)
  | inValue dangles bare member strands ends only =>
      exact iff_of_false bare fun found => found.2 _ member ends

end Strands

-----------------------------------------------------------------------------------------
-- What a query is made of
-----------------------------------------------------------------------------------------

/-- The filters of a query, each with the key that sets it. -/
def filters (query : Query) : List (Key × String) := [
  (.file, query.file), (.notFile, query.notFile),
  (.repo, query.repo), (.notRepo, query.notRepo),
  (.tags, query.tags), (.notTags, query.notTags)]

/-- What the regular expression for lines is trimmed from, unless a text is searched for as it
stands.
-/
def Parts.lineSources (parts : Parts) : List (List Char) :=
  [parts.bare, (parts.value? .exact).getD []]

/-- An expression that could be read was taken apart into parts, from which its line and its filters
come.
-/
theorem parse_eq_ok {text : String} {query : Query} (parsed : parse text = .ok query)
    : ∃ parts line,
        readParts {} (Text.trim text.toList) = .ok parts
        ∧ parts.line? = .ok line
        ∧ query.line = .ofList line
        ∧ ∀ entry ∈ query.filters, entry.2 = parts.filter entry.1 := by
  rw [parse] at parsed
  obtain ⟨parts, read, rest⟩ := Outcome.bind_eq_ok_iff.mp parsed
  obtain ⟨line, lines, rest⟩ := Outcome.bind_eq_ok_iff.mp rest
  obtain ⟨limit, -, made⟩ := Outcome.bind_eq_ok_iff.mp rest
  obtain rfl := Except.ok.inj made
  exact ⟨parts, line, read, lines, rfl, by simp [filters]⟩

/-- A backslash dangles in the line if it dangles in what the line comes from, trimmed. -/
theorem dangles_line_iff {parts : Parts} {line : List Char}
    (unquoted : parts.value? .literal = none) (read : parts.line? = .ok line)
    : Dangles line ↔ ∃ source ∈ parts.lineSources, Dangles (Text.trim source) := by
  have sources : (∃ source ∈ parts.lineSources, Dangles (Text.trim source))
      ↔ Dangles (Text.trim parts.bare)
        ∨ Dangles (Text.trim ((parts.value? .exact).getD [])) := by
    simp [Parts.lineSources]
  have nothing : escape (Text.trim []) = [] := rfl
  simp only [Parts.line?, unquoted, Option.getD_none, nothing, Option.isSome_none,
    Bool.and_false, Bool.false_eq_true, if_false] at read
  rw [sources]
  generalize Text.trim parts.bare = bare at read ⊢
  generalize Text.trim ((parts.value? .exact).getD []) = exact_ at read ⊢
  rcases bare with _ | ⟨c, rest⟩
  · rcases exact_ with _ | ⟨c, rest⟩
    · obtain rfl := Except.ok.inj read
      exact (or_self_iff).symm
    · obtain rfl := Except.ok.inj read
      exact (or_iff_right not_dangles_nil).symm
  · rcases exact_ with _ | ⟨d, more⟩
    · obtain rfl := Except.ok.inj read
      exact (or_iff_left not_dangles_nil).symm
    · cases read

/-- A value that is found was given. -/
theorem mem_values_of_value? {parts : Parts} {key : Key} {value : List Char}
    (found : parts.value? key = some value)
    : (key, value) ∈ parts.values := by
  obtain ⟨before, behind, split, -⟩ := List.lookup_eq_some_iff.mp found
  simp [split]

/-- A backslash dangles in a filter if it does in the text and the text ends with the filter. -/
theorem Strands.filter_iff {parts : Parts} {text : List Char} (strands : Strands parts text)
    (key : Key)
    : Dangles (parts.filter key).toList
      ↔ Dangles text ∧ spelling key (parts.filter key).toList <:+ text := by
  rw [Parts.filter, String.toList_ofList]
  cases found : parts.value? key with
  | none =>
      refine iff_of_false not_dangles_nil fun ⟨dangles, ends⟩ => ?_
      exact not_dangles_nil (dangles_of_spelling_suffix dangles ends)
  | some value => exact strands.value_iff (mem_values_of_value? found)

/-- What an expression is read into ends in a dangling backslash only where trimming has taken the
escaped blank from it. That may be a blank at the end of the whole expression, which belongs to the
value or the bare word that stands last, or one at the end of all bare words or of the value that
make the regular expression for lines.
-/
theorem trimming_alone_cuts_escapes {text : String} {query : Query}
    (whole : ¬Dangles text.toList) (parsed : parse text = .ok query)
    : (∀ entry ∈ query.filters,
        Dangles entry.2.toList
          ↔ EndsEscaped text.toList
            ∧ spelling entry.1 entry.2.toList <:+ Text.trim text.toList)
      ∧ ∃ parts,
          readParts {} (Text.trim text.toList) = .ok parts
          ∧ (Dangles parts.bare
            ↔ EndsEscaped text.toList
              ∧ ∀ entry ∈ parts.values, ¬spelling entry.1 entry.2 <:+ Text.trim text.toList)
          ∧ (∀ value, parts.value? .exact = some value →
              (Dangles value
                ↔ EndsEscaped text.toList ∧ spelling .exact value <:+ Text.trim text.toList))
          ∧ (parts.value? .literal = none →
              (Dangles query.line.toList
                ↔ ∃ source ∈ parts.lineSources, Dangles source ∨ EndsEscaped source)) := by
  obtain ⟨parts, line, read, lines, lineText, filterTexts⟩ := parse_eq_ok parsed
  have strands : Strands parts (Text.trim text.toList) :=
    strands_readParts ⟨not_dangles_nil, by simp⟩ read
  have trimmed : Dangles (Text.trim text.toList) ↔ EndsEscaped text.toList :=
    (dangles_trim_iff text.toList).trans (or_iff_right whole)
  refine ⟨fun entry member => ?_, parts, read, ?_, fun value found => ?_, fun unquoted => ?_⟩
  · rw [← trimmed, filterTexts entry member]
    exact strands.filter_iff entry.1
  · rw [← trimmed]
    exact strands.bare_iff
  · rw [← trimmed]
    exact strands.value_iff (mem_values_of_value? found)
  · rw [lineText, String.toList_ofList, dangles_line_iff unquoted lines]
    exact exists_congr fun source => and_congr_right fun _ => dangles_trim_iff source

-----------------------------------------------------------------------------------------
-- An expression with an escaped blank at the end of its bare words, and one at its own end
-----------------------------------------------------------------------------------------

/-- The escaped blanks are the last characters of a word and of a value. -/
def blankEndedText : String := "foo\\  file:a\\ "

def blankEndedQuery : Query := { line := "foo\\", file := "a\\", foldCase := true }

/-- The expression with the two escaped blanks can be read. -/
theorem parse_blankEndedText : parse blankEndedText = .ok blankEndedQuery :=
  Outcome.toOption_eq_some_iff.mp (by decide +kernel)

/-- The filter is cut because its operator is the last thing in the expression. -/
theorem filter_of_blankEndedText
    : ¬Dangles blankEndedText.toList
      ∧ parse blankEndedText = .ok blankEndedQuery
      ∧ EndsEscaped blankEndedText.toList
      ∧ spelling .file "a\\".toList <:+ Text.trim blankEndedText.toList := by
  have whole : ¬Dangles blankEndedText.toList := by decide
  have member : (Key.file, "a\\") ∈ blankEndedQuery.filters := by decide
  have dangles : Dangles "a\\".toList := by decide
  obtain ⟨ends, suffix⟩ :=
    ((trimming_alone_cuts_escapes whole parse_blankEndedText).1 _ member).mp dangles
  exact ⟨whole, parse_blankEndedText, ends, suffix⟩

/-- An expression without a dangling backslash may be read into a line and a filter that both have
one. Witness: the expression with the two escaped blanks.
-/
theorem exists_escape_cut
    : ∃ (text : String) (query : Query) (parts : Parts),
        ¬Dangles text.toList
        ∧ parse text = .ok query
        ∧ readParts {} (Text.trim text.toList) = .ok parts
        ∧ parts.value? .literal = none
        ∧ Dangles query.line.toList
        ∧ ∃ entry ∈ query.filters, Dangles entry.2.toList := by
  obtain ⟨parts, -, read, -⟩ := parse_eq_ok parse_blankEndedText
  have unquoted : (readParts {} (Text.trim blankEndedText.toList)).toOption.map
      (·.value? .literal) = some none := by
    decide +kernel
  rw [read] at unquoted
  exact ⟨blankEndedText, blankEndedQuery, parts, by decide, parse_blankEndedText, read,
    Option.some.inj unquoted, by decide, (.file, "a\\"), by decide, by decide⟩

end SourceView.Query
