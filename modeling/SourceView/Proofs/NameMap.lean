import SourceView.NameMap

/-! Maps made of lists.
The last entry of a name counts, and a list that is in order is left as it is.
-/

namespace SourceView.NameMap

variable {α : Type} {name : String} {value : α} {entries : List (String × α)}

-----------------------------------------------------------------------------------------
-- Looking up
-----------------------------------------------------------------------------------------

/-- An entry in front is found under its name. -/
theorem lookup_cons_eq (other name : String) (value : α) (entries : List (String × α))
    : ((name, value) :: entries).lookup other
      = if other = name then some value else entries.lookup other := by
  by_cases same : other = name
  · subst same
    rw [List.lookup_cons_self, if_pos rfl]
  · rw [List.lookup_cons, beq_false_of_ne same, if_neg same]

/-- An inserted entry is found under its name, by induction on the insertion. -/
theorem lookup_insertEntry (other name : String) (value : α) (entries : List (String × α))
    : (insertEntry name value entries).lookup other
      = if other = name then some value else entries.lookup other := by
  fun_induction insertEntry name value entries with
  | case1 => exact lookup_cons_eq other name value []
  | case2 => exact lookup_cons_eq other name value _
  | case3 =>
      rw [lookup_cons_eq, lookup_cons_eq]
      split <;> rfl
  | case4 before _ _ _ apart ih =>
      rw [lookup_cons_eq, lookup_cons_eq, ih]
      by_cases first : other = before
      · subst first
        rw [if_pos rfl, if_pos rfl, if_neg (Ne.symm apart)]
      · rw [if_neg first, if_neg first]

/-- What was put in later is found first. -/
theorem lookup_foldl_insert (other : String) (entries : List (String × α)) (map : NameMap α)
    : (entries.foldl (fun map entry => map.insert entry.1 entry.2) map).entries.lookup other
      = (entries.reverse.lookup other).or (map.entries.lookup other) := by
  induction entries generalizing map with
  | nil => rfl
  | cons entry entries ih =>
      have put : (map.insert entry.1 entry.2).entries.lookup other
          = ([entry].lookup other).or (map.entries.lookup other) := by
        rw [lookup_cons_eq, NameMap.insert, lookup_insertEntry]
        split <;> rfl
      rw [List.foldl_cons, ih, put, List.reverse_cons, List.lookup_append, Option.or_assoc]

/-- Of entries with one name the last one counts. -/
theorem lookup_ofList (other : String) (entries : List (String × α))
    : (ofList entries).entries.lookup other = entries.reverse.lookup other := by
  rw [ofList, lookup_foldl_insert]
  exact Option.or_none

/-- In which order entries stand does not matter where no name is given twice. -/
theorem lookup_reverse (other : String) (distinct : (entries.map Prod.fst).Nodup)
    : entries.reverse.lookup other = entries.lookup other := by
  induction entries with
  | nil => rfl
  | cons entry entries ih =>
      rw [List.map_cons, List.nodup_cons] at distinct
      rw [List.reverse_cons, List.lookup_append, ih distinct.2, lookup_cons_eq, lookup_cons_eq]
      by_cases same : other = entry.1
      · have absent : entries.lookup other = none := by
          rw [List.lookup_eq_none_iff]
          intro found member
          rw [bne_iff_ne]
          rintro rfl
          exact distinct.1 (same ▸ List.mem_map_of_mem member)
        rw [absent, if_pos same, if_pos same]
        rfl
      · rw [if_neg same, if_neg same]
        exact Option.or_none

/-- No name of a map occurs twice. -/
theorem nodup_names (map : NameMap α) : (map.entries.map Prod.fst).Nodup :=
  map.ascending.imp fun less => String.ne_of_lt less

/-- Of two entries of one name in a list the last one is found. -/
theorem lookup_reverse_ofList (other : String) (entries : List (String × α))
    : (ofList entries).entries.reverse.lookup other = entries.reverse.lookup other := by
  rw [lookup_reverse other (ofList entries).nodup_names, lookup_ofList]

/-- An inserted entry is found under its name, and all others as before. -/
theorem get?_insert (map : NameMap α) (name : String) (value : α) (other : String)
    : (map.insert name value).get? other = if other = name then some value else map.get? other :=
  lookup_insertEntry other name value map.entries

/-- An erased entry is not found, and all others as before. -/
theorem get?_erase (map : NameMap α) (name other : String)
    : (map.erase name).get? other = if other = name then none else map.get? other := by
  have kept : ∀ entries : List (String × α),
      (entries.filter fun entry => entry.1 ≠ name).lookup other
        = if other = name then none else entries.lookup other := by
    intro entries
    induction entries with
    | nil => simp
    | cons entry entries ih =>
        rw [List.filter_cons, lookup_cons_eq]
        split
        · rw [lookup_cons_eq, ih]
          grind
        · rw [ih]
          grind
  exact kept map.entries

/-- A map contains a name that was inserted, and all others as before. -/
theorem contains_insert (map : NameMap α) (name : String) (value : α) (other : String)
    : (map.insert name value).contains other = (other = name || map.contains other) := by
  rw [contains, get?_insert]
  split
  · next same => simp [same]
  · next apart => simp [apart, contains]

/-- A map does not contain a name that was erased, and all others as before. -/
theorem contains_erase (map : NameMap α) (name other : String)
    : (map.erase name).contains other = (other ≠ name && map.contains other) := by
  rw [contains, get?_erase]
  split
  · next same => simp [same]
  · next apart => simp [apart, contains]

-----------------------------------------------------------------------------------------
-- Lists in order
-----------------------------------------------------------------------------------------

/-- An entry with the last of all names comes behind all others, by induction on the entries. -/
theorem insertEntry_of_last (last : ∀ before ∈ entries, before.1 < name)
    : insertEntry name value entries = entries ++ [(name, value)] := by
  induction entries with
  | nil => rfl
  | cons first entries ih =>
      have less : first.1 < name := last first List.mem_cons_self
      have ne : name ≠ first.1 := fun same => String.lt_irrefl _ (same ▸ less)
      rw [insertEntry, if_neg (String.lt_asymm less), if_neg ne,
        ih fun before member => last before (List.mem_cons_of_mem first member)]
      rfl

/-- Entries in order are put in one behind the other. -/
theorem foldl_insert_of_ascending {map : NameMap α}
    (ascending : ((map.entries ++ entries).map Prod.fst).Pairwise (· < ·))
    : (entries.foldl (fun map entry => map.insert entry.1 entry.2) map).entries
      = map.entries ++ entries := by
  induction entries generalizing map with
  | nil => exact (List.append_nil _).symm
  | cons entry entries ih =>
      have put : (map.insert entry.1 entry.2).entries = map.entries ++ [entry] := by
        apply insertEntry_of_last
        intro before member
        rw [List.map_append, List.pairwise_append] at ascending
        exact ascending.2.2 before.1 (List.mem_map_of_mem member) entry.1 (by simp)
      rw [List.append_cons, ← put] at ascending ⊢
      exact ih ascending

/-- A map of entries in ascending order has them as they are. -/
theorem entries_ofList_of_ascending (ascending : (entries.map Prod.fst).Pairwise (· < ·))
    : (ofList entries).entries = entries :=
  foldl_insert_of_ascending ascending

/-- A map is made of its entries. -/
theorem ofList_entries (map : NameMap α) : ofList map.entries = map := by
  obtain ⟨entries, ascending⟩ := map
  have same := entries_ofList_of_ascending ascending
  cases built : ofList entries with
  | mk found sorted =>
      rw [built] at same
      subst same
      rfl

/-- Inserting leads to no entry but the new one and the old ones, by induction on the insertion. -/
theorem eq_or_mem_of_mem_insertEntry {entry : String × α}
    (member : entry ∈ insertEntry name value entries)
    : entry = (name, value) ∨ entry ∈ entries := by
  fun_induction insertEntry name value entries with
  | case1 => simpa using member
  | case2 => simpa using member
  | case3 =>
      rcases List.mem_cons.mp member with same | behind
      · exact .inl same
      · exact .inr (List.mem_cons_of_mem _ behind)
  | case4 _ _ _ _ _ ih =>
      rcases List.mem_cons.mp member with same | behind
      · exact .inr (List.mem_cons.mpr (.inl same))
      · exact (ih behind).imp_right (List.mem_cons_of_mem _)

/-- Nothing is in the map that was not in the list. -/
theorem mem_of_mem_ofList {entry : String × α} (member : entry ∈ (ofList entries).entries)
    : entry ∈ entries := by
  have put : ∀ (entries : List (String × α)) (map : NameMap α),
      entry ∈ (entries.foldl (fun map entry => map.insert entry.1 entry.2) map).entries
      → entry ∈ map.entries ∨ entry ∈ entries := by
    intro entries
    induction entries with
    | nil => exact fun _ => .inl
    | cons first entries ih =>
        intro map member
        rcases ih (map.insert first.1 first.2) member with before | behind
        · rcases eq_or_mem_of_mem_insertEntry before with same | old
          · exact .inr (List.mem_cons.mpr (.inl same))
          · exact .inl old
        · exact .inr (List.mem_cons_of_mem first behind)
  exact (put entries {} member).resolve_left List.not_mem_nil

end SourceView.NameMap
