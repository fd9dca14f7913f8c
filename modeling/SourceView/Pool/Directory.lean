import SourceView.Pool.Basic

/-! Backends by their names, in the order in which they were configured. -/

namespace SourceView

/-- What there is under the names of backends. -/
structure Directory (α : Type) where
  entries : List (String × α) := []
  deriving DecidableEq

namespace Directory

variable {α : Type}

/-- Put `value` in the place of the first entry under a name, or else behind all entries. -/
def insertEntry (id : String) (value : α) : List (String × α) → List (String × α)
  | [] => [(id, value)]
  | (other, old) :: rest =>
    if other = id then (other, value) :: rest else (other, old) :: insertEntry id value rest

/-- Put a value under a name. What was there under the name gives up its place. -/
def insert (directory : Directory α) (id : String) (value : α) : Directory α :=
  ⟨insertEntry id value directory.entries⟩

/-- The directory of a list of entries. -/
def ofList (entries : List (String × α)) : Directory α :=
  entries.foldl (fun directory entry => directory.insert entry.1 entry.2) {}

/-- What there is under a name. -/
def get? (directory : Directory α) (id : String) : Option α :=
  directory.entries.lookup id

/-- The entry under a name, or the first entry of all if the name is empty. -/
def resolve (directory : Directory α) (id : String) : Except PoolError (String × α) :=
  let found :=
    if id.isEmpty then directory.entries.head?
    else directory.entries.find? fun entry => entry.1 == id
  match found with
  | some entry => .ok entry
  | none => .error (.unknownBackend id)

/-- Change what there is under a name. -/
def modify (directory : Directory α) (id : String) (change : α → α) : Directory α :=
  ⟨directory.entries.map fun entry => if entry.1 = id then (id, change entry.2) else entry⟩

/-- The names, in order. -/
def ids (directory : Directory α) : List String :=
  directory.entries.map Prod.fst

end Directory

end SourceView
