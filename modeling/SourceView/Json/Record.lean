import SourceView.Json.Meaning

/-! Reading records from JSON: an object, or an array of the fields in their order.
A member that no field is named for means nothing. Fields at the end of an array may be missing as
members may be, and an array has no item behind its fields.
-/

namespace SourceView.Json

/-! ### Single values -/

def asString? : Json → Option String
  | string value => some value
  | _ => none

def asBool? : Json → Option Bool
  | bool value => some value
  | _ => none

/-- A whole number from zero up to a bound. -/
def asNat? (bound : Nat) : Json → Option Nat
  | number (.whole (.ofNat n)) => if n < bound then some n else none
  | _ => none

def asUInt32? (value : Json) : Option UInt32 :=
  (value.asNat? UInt32.size).map .ofNat

def asUInt64? (value : Json) : Option UInt64 :=
  (value.asNat? UInt64.size).map .ofNat

/-- A whole number that fits into 64 bits with a sign. -/
def asInt64? : Json → Option Int64
  | number (.whole n) =>
    if -0x8000000000000000 ≤ n ∧ n < 0x8000000000000000 then some (.ofInt n) else none
  | _ => none

/-- An array of values that are each read alike. -/
def asList? {α : Type} (read : Json → Option α) : Json → Option (List α)
  | array items => items.mapM read
  | _ => none

/-- A value that may be null. -/
def asOption? {α : Type} (read : Json → Option α) : Json → Option (Option α)
  | null => some none
  | value => (read value).map some

/-- An object of strings by name. -/
def asNameMap? : Json → Option (NameMap String)
  | object members => do
    return .ofList (← members.mapM fun (name, value) => return (name, ← value.asString?))
  | _ => none

/-! ### Records -/

/-- The fields found in a record, by name. Of two with one name the first counts. -/
abbrev Fields (α : Type) := List (String × α)

/-- The members of an object, the last of a name first. -/
def members? : Json → Option (Fields Json)
  | object members => some members.reverse
  | _ => none

/-- The fields of a record whose fields are named, in order, by `names`. -/
def fields? (names : List String) : Json → Option (Fields Json)
  | array items => if items.length ≤ names.length then some (names.zip items) else none
  | value => value.members?

namespace Fields

variable {α β : Type}

/-- A field that has to be there. -/
def required (fields : Fields α) (name : String) (read : α → Option β) : Option β := do
  read (← fields.lookup name)

/-- A field that may be missing. -/
def optional (fields : Fields α) (name : String) (missing : β) (read : α → Option β)
    : Option β :=
  match fields.lookup name with
  | none => some missing
  | some value => read value

end Fields

/-! ### Records of texts whose other members are skipped -/

/-- The fields of a record that is read straight from a text. A member that no field is named for
is skipped, whatever it holds, and no field may be given twice.
-/
def Written.fields? (names : List String) : Written → Option (Fields Written)
  | array items => if items.length ≤ names.length then some (names.zip items) else none
  | object members => do
    let named ← members.mapM fun (name, value) => return (← Mark.string? name, value)
    let known := named.filter fun member => names.contains member.1
    if (known.map Prod.fst).Nodup then some known else none
  | _ => none

end SourceView.Json
