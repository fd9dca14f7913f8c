import SourceView.Connection.Client

/-! Clients that are known by names, and what one who holds a client can do with it.
A client that is dead stays dead.
-/

namespace SourceView

-----------------------------------------------------------------------------------------
-- Names
-----------------------------------------------------------------------------------------

section Names

variable {κ α : Type} [DecidableEq κ] {entries : κ → α} {name other : κ} {entry : α}

/-- What goes by one name is now this entry. -/
def override (entries : κ → α) (name : κ) (entry : α) : κ → α :=
  fun other => if other = name then entry else entries other

/-- What was put in the place of an entry is found there. -/
theorem override_self : override entries name entry name = entry :=
  if_pos rfl

/-- The other entries stay as they are. -/
theorem override_of_ne (apart : other ≠ name) : override entries name entry other = entries other :=
  if_neg apart

/-- Of two things put in one place the later one is found. -/
theorem override_override (entries : κ → α) (name : κ) (entry later : α)
    : override (override entries name entry) name later = override entries name later := by
  funext other
  by_cases same : other = name
  · subst same
    rw [override_self, override_self]
  · rw [override_of_ne same, override_of_ne same, override_of_ne same]

end Names

-----------------------------------------------------------------------------------------
-- Clients in use
-----------------------------------------------------------------------------------------

/-- What one who holds a client can do with it. -/
inductive Client.Use : Client → Client → Prop
  | ask {client} (query : Query) : Use client (client.ask query).2
  | read {client outcome after} (arrived : client.nextEvent? = some (outcome, after))
    : Use client after
  | search {client} (query : Query) : Use client (client.search query).2
  | close {client} : Use client client.close

namespace Client

/-- A client that is alive behind an event was alive before it. -/
theorem ending_nextEvent? {client after : Client} {outcome : Except ClientError QueryEvent}
    (arrived : client.nextEvent? = some (outcome, after)) (alive : after.ending = none)
    : client.ending = none := by
  cases dead : client.ending with
  | none => rfl
  | some ending =>
      simp only [nextEvent?, dead, Option.some.injEq, Prod.mk.injEq] at arrived
      rw [← arrived.2, dead] at alive
      cases alive

/-- A client that is alive behind a query was alive before it. -/
theorem ending_ask {client : Client} {query : Query} (alive : (client.ask query).2.ending = none)
    : client.ending = none := by
  cases dead : client.ending with
  | none => rfl
  | some ending => simp [ask, dead] at alive

/-- A client that is alive behind an answer was alive before it, by induction on what is read. -/
theorem ending_collect {client : Client} {found : List Match}
    (alive : (client.collect found).2.ending = none)
    : client.ending = none := by
  fun_induction collect found client with
  | case1 => exact alive
  | case2 _ _ _ _ arrived => exact ending_nextEvent? arrived alive
  | case3 _ _ _ _ arrived ih => exact ending_nextEvent? arrived (ih alive)
  | case4 _ _ _ _ arrived => exact ending_nextEvent? arrived alive
  | case5 _ _ _ _ arrived => exact ending_nextEvent? arrived alive

/-- A client that is alive behind a search was alive before it. -/
theorem ending_search {client : Client} {query : Query}
    (alive : (client.search query).2.ending = none)
    : client.ending = none := by
  have asked : (client.ask query).2.ending = none := by
    unfold search at alive
    split at alive
    · next sent asked =>
        rw [asked]
        exact alive
    · next sent asked =>
        rw [asked]
        exact ending_collect alive
  exact ending_ask asked

/-- A client that is dead stays dead, whatever its holder does with it. -/
theorem Use.ending {client after : Client} (use : Use client after) (alive : after.ending = none)
    : client.ending = none := by
  cases use with
  | ask query => exact ending_ask alive
  | read arrived => exact ending_nextEvent? arrived alive
  | search query => exact ending_search alive
  | close => simp [Client.close] at alive

end Client

end SourceView
