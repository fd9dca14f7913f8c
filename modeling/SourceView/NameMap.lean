/-! Finite maps from names, kept in ascending order of the names.
Two maps with the same entries are equal, and listing a map gives its entries in order.
-/

namespace SourceView

/-- A finite map from names. -/
structure NameMap (α : Type) where
  entries : List (String × α) := []
  ascending : (entries.map Prod.fst).Pairwise (· < ·) := by simp
  deriving DecidableEq

namespace NameMap

variable {α : Type}

/-- Put an entry in its place, instead of one of the same name if there is one. -/
def insertEntry (name : String) (value : α) : List (String × α) → List (String × α)
  | [] => [(name, value)]
  | (other, old) :: rest =>
    if name < other then (name, value) :: (other, old) :: rest
    else if name = other then (name, value) :: rest
    else (other, old) :: insertEntry name value rest

/-- Insertion brings in no name but its own. -/
theorem mem_insertEntry {name other : String} {value : α} {entries : List (String × α)}
    (h : other ∈ (insertEntry name value entries).map Prod.fst)
    : other = name ∨ other ∈ entries.map Prod.fst := by
  fun_induction insertEntry name value entries with
  | case1 => simpa using h
  | case2 => simpa using h
  | case3 => simp only [List.map_cons, List.mem_cons] at h ⊢; grind
  | case4 _ _ _ _ _ ih => simp only [List.map_cons, List.mem_cons] at h ⊢; grind

/-- Insertion keeps names in ascending order. -/
theorem ascending_insertEntry (name : String) (value : α) (entries : List (String × α))
    (h : (entries.map Prod.fst).Pairwise (· < ·))
    : ((insertEntry name value entries).map Prod.fst).Pairwise (· < ·) := by
  fun_induction insertEntry name value entries with
  | case1 => simp
  | case2 other old rest hlt =>
      simp only [List.map_cons, List.pairwise_cons, List.mem_cons] at h ⊢
      refine ⟨fun x hx => ?_, h⟩
      rcases hx with rfl | hx
      · exact hlt
      · exact String.lt_trans hlt (h.1 x hx)
  | case3 =>
      simpa only [List.map_cons, List.pairwise_cons] using h
  | case4 other old rest hlt hne ih =>
      simp only [List.map_cons, List.pairwise_cons] at h ⊢
      refine ⟨fun x hx => ?_, ih h.2⟩
      rcases mem_insertEntry hx with rfl | hx
      · have := String.le_total x other
        grind
      · exact h.1 x hx

/-- Put a value under a name, instead of the value there if there is one. -/
def insert (map : NameMap α) (name : String) (value : α) : NameMap α :=
  ⟨insertEntry name value map.entries, ascending_insertEntry name value _ map.ascending⟩

/-- Take away what is under a name. -/
def erase (map : NameMap α) (name : String) : NameMap α :=
  ⟨map.entries.filter fun entry => entry.1 ≠ name,
    map.ascending.sublist (List.filter_sublist.map Prod.fst)⟩

/-- The value under a name. -/
def get? (map : NameMap α) (name : String) : Option α :=
  map.entries.lookup name

/-- There is a value under a name. -/
def contains (map : NameMap α) (name : String) : Bool :=
  (map.get? name).isSome

/-- The map of a list of entries, in which the last of one name counts. -/
def ofList (entries : List (String × α)) : NameMap α :=
  entries.foldl (fun map entry => map.insert entry.1 entry.2) {}

end NameMap

end SourceView
