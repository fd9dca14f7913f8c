import SourceView.Query.Basic
import SourceView.Query.Word
import SourceView.Text.Decimal

/-! Reading search expressions.
Words of the form `key:value` with a known key set a part of the query, and the other words, with
the blanks between them, are a regular expression for lines.
-/

namespace SourceView.Query

/-- The key with which a text begins, a colon behind it, and the rest of the text. -/
def Key.ofStart? (text : List Char) : Option (Key × List Char) :=
  all.findSome? fun key =>
    let start := key.name.toList ++ [':']
    if start.isPrefixOf text then some (key, text.drop start.length) else none

/-- A text behind a key and its colon is shorter. -/
theorem Key.length_lt_of_ofStart? {text rest : List Char} {key : Key}
    (h : ofStart? text = some (key, rest))
    : rest.length < text.length := by
  obtain ⟨k, _, hk⟩ := List.exists_of_findSome?_eq_some h
  simp only [Option.ite_none_right_eq_some, Option.some.injEq, Prod.mk.injEq] at hk
  obtain ⟨hp, rfl, rfl⟩ := hk
  have := List.IsPrefix.length_le ( List.isPrefixOf_iff_prefix.mp hp)
  simp only [List.length_drop, List.length_append, List.length_singleton] at this ⊢
  omega

/-- What a search expression consists of: the bare text, and the values given to keys. -/
structure Parts where
  bare : List Char := []
  values : List (Key × List Char) := []

namespace Parts

/-- The value given to a key. -/
def value? (parts : Parts) (key : Key) : Option (List Char) :=
  parts.values.lookup key

/-- The value given to a key, as the text of a filter. -/
def filter (parts : Parts) (key : Key) : String :=
  .ofList ((parts.value? key).getD [])

end Parts

/-- Take a search expression apart, behind what was taken apart before. The blank that ends an
operator's value belongs to the operator.
-/
def readParts (parts : Parts) (text : List Char) : Except ParseError Parts :=
  match text with
  | [] => .ok parts
  | c :: rest =>
    if _hc : Text.isBlank c then readParts { parts with bare := parts.bare ++ [c] } rest
    else
      match _hk : Key.ofStart? (c :: rest) with
      | some (key, rest) =>
        if (parts.value? key).isSome then .error (.duplicate key)
        else
          readParts { parts with values := parts.values ++ [(key, (readWord rest).1)] }
            ((readWord rest).2.drop 1)
      | none =>
        readParts { parts with bare := parts.bare ++ (readWord (c :: rest)).1 }
          (readWord (c :: rest)).2
termination_by text.length
decreasing_by
  · simp
  · next rest _ =>
      have := Key.length_lt_of_ofStart? _hk
      have := length_readWord_snd_le rest
      simp only [List.length_drop]; omega
  · exact length_readWord_snd_lt (by simpa using _hc)

/-- The characters that mean something in a regular expression. -/
def special : List Char :=
  ['\\', '.', '+', '*', '?', '(', ')', '|', '[', ']', '{', '}', '^', '$', '#', '&', '-', '~']

/-- The regular expression that matches a text as it stands. -/
def escape (text : List Char) : List Char :=
  text.flatMap fun c => if c ∈ special then ['\\', c] else [c]

/-- The regular expression for lines, which comes from the bare text or from one key. -/
def Parts.line? (parts : Parts) : Except ParseError (List Char) :=
  let exact := parts.value? .exact
  let literal := parts.value? .literal
  if exact.isSome && literal.isSome then .error .multipleRegex
  else
    let given := [
      Text.trim parts.bare,
      Text.trim (exact.getD []),
      escape (Text.trim (literal.getD []))].filter (!·.isEmpty)
    match given with
    | [] => .ok []
    | [line] => .ok line
    | _ => .error .multipleRegex

/-- The limit on matches, which an empty value leaves open. -/
def Parts.maxMatches? (parts : Parts) : Except ParseError (Option UInt32) :=
  match Text.trim ((parts.value? .maxMatches).getD []) with
  | [] => .ok none
  | value =>
    match Text.Decimal.readSigned? UInt32.size value with
    | some limit => .ok (some (.ofNat limit))
    | none => .error (.invalidMaxMatches (.ofList value))

/-- Case counts when a key says so or when the expression for lines has a capital letter. -/
def Parts.foldsCase (parts : Parts) (line : List Char) : Bool :=
  if (parts.value? .exact).isSome || (parts.value? .literal).isSome then false
  else !line.any Char.isUpper

/-- Read a search expression such as `foo file:\.rs$ -repo:(vendor|third_party)`. -/
def parse (text : String) : Except ParseError Query := do
  let parts ← readParts {} (Text.trim text.toList)
  let line ← parts.line?
  let maxMatches ← parts.maxMatches?
  return {
    line := .ofList line
    file := parts.filter .file
    notFile := parts.filter .notFile
    repo := parts.filter .repo
    notRepo := parts.filter .notRepo
    tags := parts.filter .tags
    notTags := parts.filter .notTags
    foldCase := parts.foldsCase line
    maxMatches }

end SourceView.Query
