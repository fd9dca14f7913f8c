import SourceView.Text.Quoted

/-! Search queries, and why a search expression is refused.
A query holds a regular expression for lines and filters on where the lines may be.
-/

namespace SourceView

/-- What a search asks of a backend. -/
structure Query where
  /-- The regular expression that a line has to match. -/
  line : String := ""
  /-- Paths have to match this, if it is not empty. -/
  file : String := ""
  /-- Paths must not match this, if it is not empty. -/
  notFile : String := ""
  repo : String := ""
  notRepo : String := ""
  tags : String := ""
  notTags : String := ""
  /-- Letters match whatever their case. -/
  foldCase : Bool := false
  maxMatches : Option UInt32 := none
  deriving DecidableEq, Repr, Inhabited

namespace Query

/-- The names that set a part of a query when a colon follows them. -/
inductive Key where
  | file | notFile | repo | notRepo | tags | notTags
  /-- A regular expression in which case counts. -/
  | exact
  /-- A text that is searched for as it stands. -/
  | literal
  | maxMatches
  deriving DecidableEq, Repr

namespace Key

/-- How a search expression spells a key. -/
def name : Key → String
  | file => "file"
  | notFile => "-file"
  | repo => "repo"
  | notRepo => "-repo"
  | tags => "tags"
  | notTags => "-tags"
  | exact => "case"
  | literal => "lit"
  | maxMatches => "max_matches"

/-- Every key. -/
def all : List Key :=
  [file, notFile, repo, notRepo, tags, notTags, exact, literal, maxMatches]

end Key

/-- Why a search expression is refused. -/
inductive ParseError where
  | duplicate (key : Key)
  /-- More than one of the bare text, a `case:` value and a `lit:` value was given. -/
  | multipleRegex
  | invalidMaxMatches (value : String)
  deriving DecidableEq, Repr

/-- The text that tells of a refused search expression. -/
def ParseError.message : ParseError → String
  | duplicate key => "got " ++ key.name ++ ": twice"
  | multipleRegex => "you cannot provide multiple of case:, lit:, and a bare regex"
  | invalidMaxMatches value =>
    "value given to max_matches: must be a valid integer, got " ++ Text.Quoted.encode value

end Query

end SourceView
