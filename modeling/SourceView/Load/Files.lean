import SourceView.NameMap
import SourceView.Text.Split

/-! The files of the working directory, which has no directories in it. -/

namespace SourceView

/-- Why a file cannot be used. -/
inductive FileError where
  | notFound
  | notDirectory
  | isDirectory
  deriving DecidableEq, Repr

/-- The text that tells why a file cannot be used. -/
def FileError.message : FileError → String
  | notFound => "No such file or directory (os error 2)"
  | notDirectory => "Not a directory (os error 20)"
  | isDirectory => "Is a directory (os error 21)"

/-- What a path leads to. -/
inductive PathTarget where
  /-- A file of the working directory, which need not be there. -/
  | file (name : String)
  | directory
  deriving DecidableEq, Repr

/-- The files of the working directory, by their names. -/
structure FileStore where
  files : NameMap (List UInt8) := {}
  deriving DecidableEq

namespace FilePath

/-- The parts of a path between slashes. -/
def parts (path : String) : List (List Char) :=
  Text.split '/' path.toList

/-- The parts of a path that lead anywhere. -/
def steps (path : String) : List (List Char) :=
  (parts path).filter fun part => part ≠ [] && part ≠ ['.']

/-- The path can only lead to a directory. -/
def endsAtDirectory (path : String) : Bool :=
  match (parts path).getLast? with
  | some part => part == [] || part == ['.']
  | none => false

/-- A file's name up to its last dot, unless that is at the start, and the rest. -/
def stem (name : List Char) : List Char :=
  match name.reverse.dropWhile (· ≠ '.') with
  | [] | ['.'] => name
  | _ :: before => before.reverse

/-- The name at the end of a path, unless the path leads nowhere or only upwards. -/
def fileName? (path : String) : Option (List Char) :=
  match (steps path).getLast? with
  | some name => if name = ['.', '.'] then none else some name
  | none => none

/-- A reversed path without what only says that it leads to a directory. -/
def dropSlashes : List Char → List Char
  | '/' :: rest => dropSlashes rest
  | '.' :: '/' :: rest => dropSlashes rest
  | rest => rest

/-- The path of a file beside another one: its name has `extension` in place of what stands behind
the last dot.
-/
def withExtension (path extension : String) : String :=
  match fileName? path with
  | none => path
  | some name =>
    let before := (dropSlashes path.toList.reverse).drop name.length
    .ofList (before.reverse ++ stem name ++ '.' :: extension.toList)

end FilePath

namespace FileStore

/-- What a path leads to. -/
def locate (store : FileStore) (path : String) : Except FileError PathTarget :=
  if path.toList.head? = some '/' then
    if FilePath.steps path = [] then .ok .directory else .error .notFound
  else if path.isEmpty then .error .notFound
  else
    match FilePath.steps path with
    | [] => .ok .directory
    | [name] =>
      if name = ['.', '.'] then .ok .directory
      else if FilePath.endsAtDirectory path then
        .error (if store.files.contains (.ofList name) then .notDirectory else .notFound)
      else .ok (.file (.ofList name))
    | name :: rest =>
      if name = ['.', '.'] && rest.all (· = ['.', '.']) then .ok .directory
      else .error (if store.files.contains (.ofList name) then .notDirectory else .notFound)

/-- There is something at a path. -/
def has (store : FileStore) (path : String) : Bool :=
  match store.locate path with
  | .ok (.file name) => store.files.contains name
  | .ok .directory => true
  | .error _ => false

/-- The content of a file. -/
def read (store : FileStore) (path : String) : Except FileError (List UInt8) :=
  match store.locate path with
  | .error cause => .error cause
  | .ok .directory => .error .isDirectory
  | .ok (.file name) =>
    match store.files.get? name with
    | some content => .ok content
    | none => .error .notFound

/-- Write a file, instead of the one there if there is one. -/
def write (store : FileStore) (path : String) (content : List UInt8)
    : Except FileError FileStore :=
  match store.locate path with
  | .error cause => .error cause
  | .ok .directory => .error .isDirectory
  | .ok (.file name) => .ok ⟨store.files.insert name content⟩

/-- Remove a file if it is there. -/
def remove (store : FileStore) (path : String) : FileStore :=
  match store.locate path with
  | .ok (.file name) => ⟨store.files.erase name⟩
  | _ => store

/-- Move a file to another path, instead of the one there if there is one. -/
def move (store : FileStore) (source target : String) : Except FileError FileStore := do
  let content ← store.read source
  if FilePath.endsAtDirectory target then throw .notDirectory
  (store.remove source).write target content

end FileStore

end SourceView
