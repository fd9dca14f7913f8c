import Mathlib
import SourceView.Config.Directory
import SourceView.Proofs.Config.Acceptance

/-! Which backends of an accepted configuration are reached by their names.
The names are distinct, so that nothing is displaced in the directory, but an empty name, which only
the configuration file can give, stands for the first backend there.
-/

namespace SourceView

-----------------------------------------------------------------------------------------
-- Directories of distinct names
-----------------------------------------------------------------------------------------

namespace Directory

variable {α : Type} {id : String} {value : α} {entries : List (String × α)}

/-- A name that occurs once does not occur before its place. -/
theorem not_mem_before {before behind : List String}
    (distinct : (before ++ id :: behind).Nodup) : id ∉ before := by
  intro member
  exact (List.nodup_cons.mp (List.nodup_middle.mp distinct)).1 (List.mem_append_left _ member)

/-- A new name comes last, and nothing gives up its place. -/
theorem insertEntry_of_not_mem (absent : id ∉ entries.map Prod.fst)
    : insertEntry id value entries = entries ++ [(id, value)] := by
  induction entries with
  | nil => rfl
  | cons first entries ih =>
      rw [List.map_cons, List.mem_cons, not_or] at absent
      rw [insertEntry, if_neg (Ne.symm absent.1), ih absent.2]
      rfl

/-- Entries with names of their own come behind those of the directory, by induction on the entries.
-/
theorem foldl_insert_of_nodup {directory : Directory α}
    (distinct : ((directory.entries ++ entries).map Prod.fst).Nodup)
    : (entries.foldl (fun directory entry => directory.insert entry.1 entry.2) directory).entries
      = directory.entries ++ entries := by
  induction entries generalizing directory with
  | nil => exact (List.append_nil _).symm
  | cons entry entries ih =>
      have put : (directory.insert entry.1 entry.2).entries = directory.entries ++ [entry] := by
        apply insertEntry_of_not_mem
        rw [List.map_append, List.map_cons] at distinct
        exact not_mem_before distinct
      rw [List.append_cons, ← put] at distinct ⊢
      exact ih distinct

/-- A directory of entries with different names has them in their order. -/
theorem entries_ofList_of_nodup (distinct : (entries.map Prod.fst).Nodup)
    : (ofList entries).entries = entries :=
  foldl_insert_of_nodup distinct

/-- A name that is not there is not found. -/
theorem get?_eq_none_of_not_mem {directory : Directory α}
    (absent : id ∉ directory.entries.map Prod.fst) : directory.get? id = none := by
  rw [get?, List.lookup_eq_none_iff]
  intro found member
  rw [bne_iff_ne]
  rintro rfl
  exact absent (List.mem_map_of_mem member)

section Distinct

variable {entry : String × α} (distinct : (entries.map Prod.fst).Nodup) (member : entry ∈ entries)

include distinct member

/-- Distinct names leave no doubt about which entry is meant. -/
theorem exists_first_of_nodup
    : ∃ before behind,
        entries = before ++ entry :: behind ∧ ∀ other ∈ before, entry.1 ≠ other.1 := by
  obtain ⟨before, behind, rfl⟩ := List.append_of_mem member
  refine ⟨before, behind, rfl, ?_⟩
  intro other earlier same
  rw [List.map_append, List.map_cons] at distinct
  exact not_mem_before distinct (same ▸ List.mem_map_of_mem earlier)

/-- An entry whose name occurs once is what its name looks up. -/
theorem lookup_of_nodup : entries.lookup entry.1 = some entry.2 := by
  obtain ⟨before, behind, rfl, first⟩ := exists_first_of_nodup distinct member
  rw [List.lookup_eq_some_iff]
  exact ⟨before, behind, rfl, fun other earlier => bne_iff_ne.mpr (first other earlier)⟩

/-- An entry whose name occurs once is the first one with that name. -/
theorem find?_of_nodup : entries.find? (fun found => found.1 == entry.1) = some entry := by
  obtain ⟨before, behind, rfl, first⟩ := exists_first_of_nodup distinct member
  rw [List.find?_eq_some_iff_append]
  refine ⟨beq_self_eq_true _, before, behind, rfl, ?_⟩
  intro other earlier
  simpa using Ne.symm (first other earlier)

/-- An entry is resolved by its name unless the name is empty. -/
theorem resolve_of_nodup (named : entry.1 ≠ "")
    : (Directory.mk entries).resolve entry.1 = .ok entry := by
  have solid : entry.1.isEmpty = false := by simpa using named
  simp [resolve, solid, find?_of_nodup distinct member]

end Distinct

/-- The empty name stands for the first entry. -/
theorem resolve_empty {directory : Directory α} {first : String × α}
    (head : directory.entries.head? = some first) : directory.resolve "" = .ok first := by
  simp [resolve, head]

end Directory

namespace Config

-----------------------------------------------------------------------------------------
-- The names of an accepted configuration
-----------------------------------------------------------------------------------------

section Accepted

variable {environment : Environment} {config : Config}
  (accepted : ofEnvironment environment = .ok config)

include accepted

/-- The backends of an accepted configuration have different names. -/
theorem nodup_ids_of_accepted : (config.backends.map BackendConfig.id).Nodup := by
  obtain ⟨acceptable, makes⟩ := acceptable_and_makes environment accepted
  rw [makes.backends, List.map_map]
  exact acceptable.backends

/-- Only the file can leave out a name, since an entry of the short list has to have one. -/
theorem exists_told_of_unnamed {backend : BackendConfig} (member : backend ∈ config.backends)
    (unnamed : backend.id = "") : ∃ told ∈ environment.told.1, told.id = "" := by
  obtain ⟨acceptable, makes⟩ := acceptable_and_makes environment accepted
  rw [makes.backends] at member
  obtain ⟨plain, given, rfl⟩ := List.mem_map.1 member
  rcases List.mem_append.1 given with told | short
  · exact ⟨plain, told, unnamed⟩
  · obtain ⟨entry, listed, rfl⟩ := List.mem_map.1 short
    exact absurd unnamed (acceptable.entries entry listed).id_ne_empty

end Accepted

-----------------------------------------------------------------------------------------
-- What the server opens for an accepted configuration
-----------------------------------------------------------------------------------------

section Opened

variable {α : Type} (opened : BackendConfig → α)

/-- What is opened for the backends stands under their names. -/
theorem map_fst_entries (backends : List BackendConfig)
    : (backends.map fun backend => (backend.id, opened backend)).map Prod.fst
      = backends.map BackendConfig.id := by
  rw [List.map_map]
  rfl

/-- A directory has what was opened for each backend, in the order of the backends. -/
theorem entries_directory {config : Config}
    (distinct : (config.backends.map BackendConfig.id).Nodup)
    : (config.directory opened).entries
      = config.backends.map fun backend => (backend.id, opened backend) := by
  apply Directory.entries_ofList_of_nodup
  rw [map_fst_entries]
  exact distinct

/-- What stands before a backend in the configuration does not have its name. -/
theorem get?_before {config : Config} {before behind : List BackendConfig} {backend : BackendConfig}
    (distinct : (config.backends.map BackendConfig.id).Nodup)
    (split : config.backends = before ++ backend :: behind)
    : (directory { config with backends := before } opened).get? backend.id = none := by
  rw [split, List.map_append, List.map_cons] at distinct
  apply Directory.get?_eq_none_of_not_mem
  rw [entries_directory opened distinct.of_append_left, map_fst_entries]
  exact Directory.not_mem_before distinct

end Opened

/-- The empty name stands for the first backend of all. -/
theorem resolve_directory_empty {α : Type} {config : Config} {first : BackendConfig}
    (distinct : (config.backends.map BackendConfig.id).Nodup) (opened : BackendConfig → α)
    (head : config.backends.head? = some first)
    : (config.directory opened).resolve "" = .ok (first.id, opened first) := by
  apply Directory.resolve_empty
  rw [entries_directory opened distinct, List.head?_map, head]
  rfl

/-- Every backend of an accepted configuration has an entry of its own in the directory, in the
order of the configuration, and nothing that is opened displaces anything. A backend is resolved by
its name unless the name is empty and another backend comes first, which is then resolved instead.
Only the configuration file can leave a name empty.
-/
theorem resolved_iff_named_or_first {α : Type} {environment : Environment} {config : Config}
    (accepted : ofEnvironment environment = .ok config) (opened : BackendConfig → α)
    : (config.directory opened).entries
        = config.backends.map (fun backend => (backend.id, opened backend))
      ∧ (∀ before backend behind, config.backends = before ++ backend :: behind →
          (directory { config with backends := before } opened).get? backend.id = none)
      ∧ (∀ first, config.backends.head? = some first →
          (config.directory opened).resolve "" = .ok (first.id, opened first))
      ∧ ∀ backend ∈ config.backends,
          (config.directory opened).get? backend.id = some (opened backend)
          ∧ ((config.directory opened).resolve backend.id = .ok (backend.id, opened backend)
            ↔ backend.id ≠ "" ∨ config.backends.head? = some backend)
          ∧ (backend.id = "" → ∃ told ∈ environment.told.1, told.id = "") := by
  have distinct := nodup_ids_of_accepted accepted
  have entries := entries_directory opened distinct
  have keys : ((config.directory opened).entries.map Prod.fst).Nodup := by
    rw [entries, map_fst_entries]
    exact distinct
  refine ⟨entries, fun _ _ _ split => get?_before opened distinct split,
    fun _ head => resolve_directory_empty distinct opened head, fun backend member => ?_⟩
  have stored : (backend.id, opened backend) ∈ (config.directory opened).entries := by
    rw [entries]
    exact List.mem_map_of_mem member
  refine ⟨Directory.lookup_of_nodup keys stored, ?_, exists_told_of_unnamed accepted member⟩
  by_cases unnamed : backend.id = ""
  · obtain ⟨first, head⟩ : ∃ first, config.backends.head? = some first := by
      rw [← Option.isSome_iff_exists, List.isSome_head?]
      exact List.ne_nil_of_mem member
    rw [unnamed, resolve_directory_empty distinct opened head, head]
    constructor
    · intro same
      have ids : first.id = backend.id := unnamed ▸ congrArg Prod.fst (Except.ok.inj same)
      have alone := List.inj_on_of_nodup_map distinct (List.mem_of_head? head) member ids
      exact .inr (congrArg some alone)
    · rintro (named | same)
      · exact absurd rfl named
      · rw [Option.some.inj same, unnamed]
  · exact iff_of_true (Directory.resolve_of_nodup keys stored unnamed) (.inl unnamed)

-----------------------------------------------------------------------------------------
-- A backend without a name behind another one
-----------------------------------------------------------------------------------------

def namelessFile : String :=
  "\x7b\"backends\": [\x7b\"id\": \"a\", \"addr\": \"a:1\"\x7d,"
    ++ " \x7b\"id\": \"\", \"addr\": \"b:1\"\x7d]\x7d"

def namelessSource : Environment :=
  .ofLists [("CODESEARCH_CONFIG", "served.json")] [("served.json", namelessFile)]

def namelessConfig : Config where
  backends := [⟨"a", "a:1", 4⟩, ⟨"", "b:1", 4⟩]

/-- The environment with a nameless backend is accepted. -/
theorem ofEnvironment_namelessSource : ofEnvironment namelessSource = .ok namelessConfig := by
  cbv

theorem resolved_of_namelessSource
    : ofEnvironment namelessSource = .ok namelessConfig
      ∧ (namelessConfig.directory BackendConfig.address).entries = [("a", "a:1"), ("", "b:1")]
      ∧ (namelessConfig.directory BackendConfig.address).resolve "a" = .ok ("a", "a:1")
      ∧ (namelessConfig.directory BackendConfig.address).resolve "" ≠ .ok ("", "b:1") := by
  obtain ⟨entries, -, -, each⟩ :=
    resolved_iff_named_or_first ofEnvironment_namelessSource BackendConfig.address
  have named := (each ⟨"a", "a:1", 4⟩ (by decide)).2.1
  have nameless := (each ⟨"", "b:1", 4⟩ (by decide)).2.1
  exact ⟨ofEnvironment_namelessSource, entries, named.mpr (by decide),
    fun resolved => absurd (nameless.mp resolved) (by decide)⟩

/-- A backend of an accepted configuration may be out of reach: its name leads to the pool of
another one. Witness: the backend without a name.
-/
theorem exists_out_of_reach
    : ∃ (environment : Environment) (config : Config) (backend other : BackendConfig),
        ofEnvironment environment = .ok config
        ∧ backend ∈ config.backends
        ∧ other.address ≠ backend.address
        ∧ ∀ κ τ : Type,
            (config.pools : Directory (Pool κ τ)).resolve backend.id
              = .ok (other.id, .create other.address other.poolSize) := by
  refine ⟨namelessSource, namelessConfig, ⟨"", "b:1", 4⟩, ⟨"a", "a:1", 4⟩,
    ofEnvironment_namelessSource, by decide, by decide, fun κ τ => ?_⟩
  exact resolve_directory_empty (by decide) _ rfl

end Config

end SourceView
