import SourceView.Proofs.Pool.Closing
import SourceView.Proofs.Pool.Orderly

/-! Where the clients of a pool are, while it is open, while it is being closed, and after that.
A client is idle, on its way back, or with someone, and never in two of these places. Whoever has a
client has it for himself, so that nobody else does anything to it but the backend at the other end.
A client that is dead stays dead.
-/

namespace SourceView

/-- Dialling does not change how many clients are out. -/
theorem Pool.checkedOut_dialled {κ τ : Type} (pool : Pool κ τ) (client : κ) (offer : Offer)
    : (pool.dialled client offer).2.checkedOut = pool.checkedOut := by
  simp only [dialled, enqueue?]
  split_ifs <;> rfl

/-- A client is lent to someone who has waited. -/
theorem Pool.mem_waiting_of_lend? {κ τ : Type} {pool after : Pool κ τ} {ticket : τ} {client : κ}
    (lent : pool.lend? = some (ticket, client, after))
    : ticket ∈ pool.waiting := by
  unfold lend? at lent
  split at lent
  · next waiting _ =>
      cases lent
      rw [waiting]
      exact List.mem_cons_self
  · cases lent

namespace Shutdown

variable {κ τ : Type} [DecidableEq κ] {state next : Shutdown κ τ} {name : κ} {client : Client}

-----------------------------------------------------------------------------------------
-- What becomes of a client that is let go
-----------------------------------------------------------------------------------------

/-- A client that is fit for use goes back when it is let go of an open pool. -/
theorem letGo_of_fit (idle : client.isIdle = true) (isOpen : state.pool.closed = false) (name : κ)
    : state.letGo name client
      = { state with
          pool := state.pool.letGo
          held := state.held.erase name
          returning := state.returning ++ [name] } := by
  simp [letGo, idle, isOpen]

/-- A client that is not fit for use is closed when it is let go. -/
theorem letGo_of_busy (busy : client.isIdle = false) (name : κ)
    : state.letGo name client
      = { state with
          pool := state.pool.letGo.returnToken
          held := state.held.erase name
          clients := override state.clients name (some client.close) } := by
  simp [letGo, busy]

/-- A client that is let go is on its way back, or is closed. -/
theorem letGo_cases (state : Shutdown κ τ) (name : κ) (client : Client)
    : state.letGo name client
        = { state with
            pool := state.pool.letGo
            held := state.held.erase name
            returning := state.returning ++ [name] }
      ∨ state.letGo name client
        = { state with
            pool := state.pool.letGo.returnToken
            held := state.held.erase name
            clients := override state.clients name (some client.close) } := by
  cases idle : client.isIdle with
  | false => exact .inr (letGo_of_busy idle name)
  | true =>
      cases closed : state.pool.closed with
      | false => exact .inl (letGo_of_fit idle closed name)
      | true => exact .inr (letGo_of_closed closed name client)

/-- Nobody holds a client that was let go, whatever becomes of it. -/
theorem held_letGo (state : Shutdown κ τ) (name : κ) (client : Client)
    : (state.letGo name client).held = state.held.erase name := by
  rcases state.letGo_cases name client with same | same <;> rw [same]

/-- Those who wait go on waiting when a client is let go. -/
theorem waiting_letGo (state : Shutdown κ τ) (name : κ) (client : Client)
    : (state.letGo name client).pool.waiting = state.pool.waiting := by
  rcases state.letGo_cases name client with same | same <;> rw [same] <;> rfl

/-- Letting a client go does not bring a dead one back to life. -/
theorem Dead.letGo {other : κ} (dead : state.Dead other) (known : state.clients name = some client)
    : (state.letGo name client).Dead other := by
  rcases state.letGo_cases name client with same | same
  · exact same ▸ dead
  · rw [same]
    exact dead.override known rfl nofun

/-- A client on its way back becomes an idle one, or is closed. -/
theorem takeIn_cases (state : Shutdown κ τ) (name : κ) (client : Client)
    : state.takeIn name client
        = { state with
            pool := {
              state.pool with
              idleQueue := state.pool.idleQueue ++ [name]
              idle := state.pool.idle + 1 }
            returning := state.returning.erase name }
      ∨ state.takeIn name client
        = { state with
            pool := state.pool.returnToken
            returning := state.returning.erase name
            clients := override state.clients name (some client.close) } := by
  unfold takeIn
  split
  · next queued =>
      rw [Pool.enqueue?_eq_some queued]
      exact .inl rfl
  · exact .inr rfl

-----------------------------------------------------------------------------------------
-- Places
-----------------------------------------------------------------------------------------

/-- In how many places a client is, if these clients are out. -/
def places (state : Shutdown κ τ) (out : List κ) (name : κ) : Nat :=
  state.pool.idleQueue.count name + state.returning.count name + out.count name

/-- A client that is out is in some place. -/
theorem places_pos {out : List κ} (state : Shutdown κ τ) (member : name ∈ out)
    : 0 < state.places out name :=
  (List.count_pos_iff.mpr member).trans_le (Nat.le_add_left ..)

/-- These clients are out, and they are as many as the pool's tally says. No client is in two
places, and those that are in any are known.
-/
structure Placed (state : Shutdown κ τ) (out : List κ) : Prop where
  once : ∀ name, state.places out name ≤ 1
  known : ∀ name, 0 < state.places out name → state.clients name ≠ none
  tallied : state.pool.checkedOut = out.length

namespace Placed

variable {out rest : List κ}

/-- Clients that are in no more places than before are placed. -/
theorem of_le (placed : state.Placed out)
    (fewer : ∀ name, next.places rest name ≤ state.places out name)
    (clients : ∀ name, state.clients name ≠ none → next.clients name ≠ none)
    (tallied : next.pool.checkedOut = rest.length)
    : next.Placed rest where
  once name := (fewer name).trans (placed.once name)
  known name somewhere := clients name (placed.known name (somewhere.trans_le (fewer name)))
  tallied := tallied

/-- Clients stay placed where the queue and those on their way back are the same. -/
theorem of_same (placed : state.Placed out) (queue : next.pool.idleQueue = state.pool.idleQueue)
    (returning : next.returning = state.returning) (clients : next.clients = state.clients)
    (checkedOut : next.pool.checkedOut = state.pool.checkedOut)
    : next.Placed out := by
  apply placed.of_le
  · intro name
    rw [places, places, queue, returning]
  · intro name known
    rwa [clients]
  · exact checkedOut.trans placed.tallied

/-- A client that is lent is in no other place, and with nobody else. -/
theorem not_mem {held lent : List κ} (placed : state.Placed (held ++ lent)) (member : name ∈ lent)
    : name ∉ state.pool.idleQueue ∧ name ∉ state.returning ∧ name ∉ held := by
  have once := placed.once name
  have counted := List.count_pos_iff.mpr member
  rw [places, List.count_append] at once
  simp only [← List.count_eq_zero]
  omega

/-- It does not matter in which order clients are out. -/
theorem perm (placed : state.Placed out) (same : out.Perm rest) : state.Placed rest := by
  apply placed.of_le
  · intro name
    rw [places, places, same.count_eq]
  · exact fun _ => id
  · exact placed.tallied.trans same.length_eq

/-- Putting a client in an entry takes no entry away. -/
theorem override_ne_none {clients : κ → Option Client} {other : κ} (known : clients other ≠ none)
    (client : Client)
    : override clients name (some client) other ≠ none := by
  unfold override
  split
  · exact Option.some_ne_none client
  · exact known

/-- What happens to a client does not move it. -/
theorem setClient (placed : state.Placed out) (name : κ) (client : Client)
    : Placed { state with toCirculation := state.setClient name client } out :=
  placed.of_le (fun _ => le_rfl) (fun _ known => override_ne_none known client) placed.tallied

/-- The client that has been idle longest goes out. -/
theorem lend {ticket : τ} {pool : Pool κ τ} {held : List κ} (placed : state.Placed out)
    (lent : state.pool.lend? = some (ticket, name, pool))
    : Placed { state with pool, held } (name :: out) := by
  unfold Pool.lend? at lent
  split at lent
  · next waiting queue =>
      cases lent
      apply placed.of_le
      · intro other
        simp only [places, queue, List.count_cons]
        omega
      · exact fun _ => id
      · simp [placed.tallied]
  · cases lent

/-- A client that is let go is no longer out. -/
theorem letGo (placed : state.Placed (name :: out)) (client : Client)
    : (state.letGo name client).Placed out := by
  have tallied := placed.tallied
  rw [List.length_cons] at tallied
  rcases state.letGo_cases name client with same | same
  · rw [same]
    apply placed.of_le
    · intro other
      simp only [places, Pool.letGo, List.count_append, List.count_cons, List.count_nil]
      omega
    · exact fun _ => id
    · simp [Pool.letGo, tallied]
  · rw [same]
    apply placed.of_le
    · intro other
      simp only [places, Pool.letGo, Pool.returnToken, List.count_cons]
      omega
    · exact fun _ known => override_ne_none known _
    · simp [Pool.letGo, Pool.returnToken, tallied]

/-- A client that reaches the queue is moved to it or is in no place any more. -/
theorem takeIn (placed : state.Placed out) (returns : name ∈ state.returning) (client : Client)
    : (state.takeIn name client).Placed out := by
  have split := fun other => (List.perm_cons_erase returns).count_eq other
  simp only [List.count_cons] at split
  rcases state.takeIn_cases name client with same | same
  · rw [same]
    apply placed.of_le
    · intro other
      have split := split other
      simp only [places, List.count_append, List.count_cons, List.count_nil]
      omega
    · exact fun _ => id
    · exact placed.tallied
  · rw [same]
    apply placed.of_le
    · intro other
      have split := split other
      simp only [places, Pool.returnToken]
      omega
    · exact fun _ known => override_ne_none known _
    · exact placed.tallied

/-- A client that was not known is in no place before it is taken in. -/
theorem dialled (placed : state.Placed out) (new : state.clients name = none) (client : Client)
    : Placed { state with toCirculation := state.toCirculation.dialled name client } out := by
  have absent : state.places out name = 0 := by
    by_contra somewhere
    exact placed.known name (Nat.pos_of_ne_zero somewhere) new
  have grown : ∀ other,
      places { state with toCirculation := state.toCirculation.dialled name client } out other
        ≤ state.places out other + [name].count other := by
    intro other
    have queue := (Pool.takesIn_dialled state.pool name client.greeting.offer).queue
    simp only [places, Circulation.dialled, Circulation.setClient, queue, List.count_append]
    split
    · omega
    · rw [List.count_nil]
      omega
  refine ⟨fun other => ?_, fun other somewhere => ?_, ?_⟩
  · have grown := grown other
    have once := placed.once other
    by_cases same : other = name
    · subst same
      rw [absent, List.count_singleton_self] at grown
      exact grown
    · rw [List.count_singleton, if_neg (by simpa using Ne.symm same)] at grown
      omega
  · simp only [Circulation.dialled, Circulation.setClient, override]
    split
    · exact Option.some_ne_none _
    · next apart =>
        refine placed.known other (somewhere.trans_le ((grown other).trans_eq ?_))
        rw [List.count_singleton, if_neg (by simpa using Ne.symm apart), Nat.add_zero]
  · exact (Pool.checkedOut_dialled ..).trans placed.tallied

/-- A turn at the idle queue takes clients from there and moves none. -/
theorem drain (placed : state.Placed out) (place : Nat) : (state.drain place).Placed out := by
  apply placed.of_le
  · intro name
    simp only [places, Shutdown.drain, Circulation.drain, Pool.drain, List.count_nil]
    omega
  · intro name known
    simp only [Shutdown.drain, Circulation.drain]
    split
    · simpa using known
    · exact known
  · exact placed.tallied

end Placed

-----------------------------------------------------------------------------------------
-- Steps of others
-----------------------------------------------------------------------------------------

section Steps

variable [DecidableEq τ] {lent : List κ}

/-- Whatever others do, they do it with the clients that they have. By cases on the step. -/
theorem Step.placed (step : Step state next) (placed : state.Placed (state.held ++ lent))
    : next.Placed (next.held ++ lent) := by
  cases step with
  | request | withdraw | turnAway | stop | call | supervised | abandon =>
      exact placed.of_same rfl rfl rfl rfl
  | lend lent =>
      refine (placed.lend lent).perm ?_
      rw [List.append_assoc]
      exact List.perm_middle.symm
  | use | serve => exact placed.setClient ..
  | @letGo name client holds known =>
      have out := placed.perm ((List.perm_cons_erase holds).append_right lent)
      rw [List.cons_append] at out
      rw [held_letGo]
      exact out.letGo client
  | @takeIn name client returns known =>
      have held : (state.takeIn name client).held = state.held := by
        rcases state.takeIn_cases name client with same | same <;> rw [same]
      rw [held]
      exact placed.takeIn returns client
  | takeToken taken =>
      unfold Pool.takeToken? at taken
      split at taken
      · cases taken
        exact placed.of_same rfl rfl rfl rfl
      · cases taken
  | dialFailed now =>
      unfold Pool.dialFailed
      split <;> exact placed.of_same rfl rfl rfl rfl
  | redial now elapsed =>
      obtain ⟨_, _, -, rfl⟩ := Pool.redial?_eq_some elapsed
      exact placed.of_same rfl rfl rfl rfl
  | dialled dialling new => exact placed.dialled new _
  | @drain place => exact placed.drain place

/-- From the start of a pool, nobody has two clients in one or one client twice. -/
theorem placed_of_run {address : String} {size : Nat} (run : Run (create address size) state)
    : state.Placed state.held := by
  induction run with
  | none =>
      refine ⟨fun name => ?_, fun name somewhere => ?_, rfl⟩
      · exact Nat.zero_le 1
      · cases somewhere
  | next _ step ih =>
      have placed : Placed _ (_ ++ []) := step.placed (by rwa [List.append_nil])
      rwa [List.append_nil] at placed

/-- Nobody brings a client back to life, by cases on the step. -/
theorem Step.dead (step : Step state next) (dead : state.Dead name) : next.Dead name := by
  cases step with
  | request | withdraw | turnAway | lend | takeToken | dialFailed | redial | stop | call
  | supervised | abandon => exact dead
  | use holds known use => exact dead.override known rfl use.ending
  | letGo holds known => exact dead.letGo known
  | @takeIn other client returns known =>
      rcases state.takeIn_cases other client with same | same
      · exact same ▸ dead
      · rw [same]
        exact dead.override known rfl nofun
  | serve known => exact dead.override known rfl id
  | dialled dialling new =>
      obtain ⟨found, located, dead⟩ := dead
      refine ⟨found, (override_of_ne fun same => ?_).trans located, dead⟩
      subst same
      cases located.symm.trans new
  | drain =>
      obtain ⟨found, located, dead⟩ := dead
      simp only [Dead, Shutdown.drain, Circulation.drain]
      split
      · exact ⟨found.close, by rw [located]; rfl, nofun⟩
      · exact ⟨found, located, dead⟩

/-- A client that is out and with none of those who take steps is left alone by them, but for what
is in its pipe. By cases on the step.
-/
theorem Step.aloof {after : Client} (step : Step state next)
    (placed : state.Placed (state.held ++ lent)) (member : name ∈ lent)
    (known : next.clients name = some after)
    : ∃ client pipe, state.clients name = some client ∧ after = { client with pipe } := by
  obtain ⟨unqueued, unreturned, unheld⟩ := placed.not_mem member
  have left : ∀ {other client}, other ≠ name
      → override state.clients other (some client) name = some after
      → ∃ client pipe, state.clients name = some client ∧ after = { client with pipe } := by
    intro other client apart located
    exact ⟨after, after.pipe, (override_of_ne apart.symm).symm.trans located, rfl⟩
  cases step with
  | request | withdraw | turnAway | lend | takeToken | dialFailed | redial | stop | call
  | supervised | abandon => exact ⟨after, after.pipe, known, rfl⟩
  | use holds => exact left (fun same => unheld (same ▸ holds)) known
  | @letGo other client holds =>
      rcases state.letGo_cases other client with same | same
      · rw [same] at known
        exact ⟨after, after.pipe, known, rfl⟩
      · rw [same] at known
        exact left (fun same => unheld (same ▸ holds)) known
  | @takeIn other client returns =>
      rcases state.takeIn_cases other client with same | same
      · rw [same] at known
        exact ⟨after, after.pipe, known, rfl⟩
      · rw [same] at known
        exact left (fun same => unreturned (same ▸ returns)) known
  | @serve other client before pipe =>
      by_cases same : name = other
      · subst same
        exact ⟨client, pipe, before, (Option.some.inj (override_self.symm.trans known)).symm⟩
      · exact left (Ne.symm same) known
  | dialled dialling new =>
      refine left (fun same => ?_) known
      subst same
      exact placed.known _ (state.places_pos (List.mem_append_right _ member)) new
  | drain =>
      exact ⟨after, after.pipe, (if_neg unqueued).symm.trans known, rfl⟩

end Steps

end Shutdown

end SourceView
