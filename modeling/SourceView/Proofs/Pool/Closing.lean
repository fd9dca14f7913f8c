import SourceView.Proofs.Pool.Conservation

/-! The end of a pool, step by step.
A pool that is told to close goes on for a while: those who wait for a client, the supervisor, and
those who are just giving a client back may not have heard of it. So what an operation looks at and
what it does are steps of their own here, wherever something else can come between. Once the first
call to close has come back all of this is over, and it stays over.
-/

namespace SourceView

-----------------------------------------------------------------------------------------
-- What is done while a pool closes
-----------------------------------------------------------------------------------------

namespace Pool

variable {κ τ : Type}

/-- Someone who waits for a client has heard that the pool is closed, and leaves. -/
def turnAway [DecidableEq τ] (pool : Pool κ τ) (ticket : τ) : Pool κ τ :=
  { pool with waiting := pool.waiting.erase ticket }

/-- Someone lets a client go. -/
def letGo (pool : Pool κ τ) : Pool κ τ :=
  { pool with checkedOut := pool.checkedOut - 1 }

/-- Tell everyone that the pool is closed. -/
def signal (pool : Pool κ τ) : Pool κ τ :=
  { pool with closed := true }

/-- The supervisor has heard that the pool is closed, and stops. -/
def stop (pool : Pool κ τ) : Pool κ τ :=
  { pool with supervisor := .stopped }

variable (pool : Pool κ τ)

/-- Whoever is refused has waited for a client of a closed pool, and is turned away. -/
theorem refuse?_eq_some [DecidableEq τ] {ticket : τ} {after : Pool κ τ}
    (refused : pool.refuse? = some (ticket, after))
    : pool.closed = true ∧ after = pool.turnAway ticket := by
  unfold refuse? at refused
  split at refused
  · next closed =>
      split at refused
      · cases refused
      · next first rest waits =>
          cases refused
          exact ⟨closed, by simp [turnAway, waits]⟩
  · cases refused

/-- A client that is released is let go, and then reaches the queue if it is fit for use and the
pool is open.
-/
theorem release_eq (client : κ) (clean : Bool)
    : pool.release client clean
      = if !clean || pool.closed then (false, pool.letGo.returnToken)
        else
          match pool.letGo.enqueue? client with
          | some pool => (true, pool)
          | none => (false, pool.letGo.returnToken) := rfl

/-- Cancelling a pool tells everyone, and stops the supervisor. -/
theorem cancel_eq : pool.cancel = pool.signal.stop := rfl

/-- An operation neither brings the end of a pool nearer nor takes any of it back. -/
structure KeepsEnd (pool after : Pool κ τ) : Prop where
  closed : after.closed = pool.closed
  drained : after.drained = pool.drained
  empty : pool.drained = true → pool.idleQueue = [] → after.idleQueue = []
  stopped : pool.supervisor = .stopped → after.supervisor = .stopped

variable {pool} {after : Pool κ τ} {client : κ} {ticket : τ}

/-- Operations that keep the end of a pool keep it one behind the other. -/
theorem KeepsEnd.trans {final : Pool κ τ} (first : pool.KeepsEnd after)
    (second : after.KeepsEnd final)
    : pool.KeepsEnd final where
  closed := second.closed.trans first.closed
  drained := second.drained.trans first.drained
  empty drained empty := second.empty (first.drained.trans drained) (first.empty drained empty)
  stopped stopped := second.stopped (first.stopped stopped)

/-- A queue that takes no more clients stays empty. -/
theorem keepsEnd_enqueue? (queued : pool.enqueue? client = some after) : pool.KeepsEnd after := by
  unfold enqueue? at queued
  split at queued
  · cases queued
  · next room =>
      cases queued
      exact ⟨rfl, rfl, fun drained _ => absurd (by simp [drained]) room, id⟩

/-- Taking a token keeps the end of a pool. -/
theorem keepsEnd_takeToken? (taken : pool.takeToken? = some after) : pool.KeepsEnd after := by
  unfold takeToken? at taken
  split at taken
  · next able =>
      cases taken
      exact ⟨rfl, rfl, fun _ => id, fun stopped => by simp [stopped] at able⟩
  · cases taken

/-- A failed attempt to dial keeps the end of a pool. -/
theorem keepsEnd_dialFailed (pool : Pool κ τ) (now : Nat)
    : pool.KeepsEnd (pool.dialFailed now) := by
  unfold dialFailed
  split
  · next dialling => exact ⟨rfl, rfl, fun _ => id, fun stopped => by simp [stopped] at dialling⟩
  · exact ⟨rfl, rfl, fun _ => id, id⟩

/-- A wait that is over keeps the end of a pool. -/
theorem keepsEnd_redial? {now : Nat} (elapsed : pool.redial? now = some after)
    : pool.KeepsEnd after := by
  obtain ⟨since, due, waits, rfl⟩ := redial?_eq_some elapsed
  exact ⟨rfl, rfl, fun _ => id, fun stopped => by simp [stopped] at waits⟩

/-- A client that was dialled keeps the end of a pool. -/
theorem keepsEnd_dialled (dialling : pool.supervisor = .dialling) (client : κ) (offer : Offer)
    : pool.KeepsEnd (pool.dialled client offer).2 := by
  have awake : pool.supervisor ≠ .stopped := by simp [dialling]
  have settled : pool.KeepsEnd
      { pool with supervisor := .resting, delay := minDelay, offer, pending := pool.pending - 1 } :=
    ⟨rfl, rfl, fun _ => id, fun stopped => absurd stopped awake⟩
  rw [dialled, if_pos dialling]
  dsimp only
  split
  · next queued => exact settled.trans (keepsEnd_enqueue? queued)
  · exact ⟨rfl, rfl, fun _ => id, fun stopped => absurd stopped awake⟩

/-- Nothing can be lent of an empty queue. -/
theorem lend?_eq_none (empty : pool.idleQueue = []) : pool.lend? = none := by
  unfold lend?
  split
  · next queue => simp [empty] at queue
  · rfl

/-- Lending a client keeps the end of a pool. -/
theorem keepsEnd_lend? (lent : pool.lend? = some (ticket, client, after))
    : pool.KeepsEnd after := by
  have filled : pool.idleQueue ≠ [] := fun empty => by simp [lend?_eq_none empty] at lent
  unfold lend? at lent
  split at lent
  · cases lent
    exact ⟨rfl, rfl, fun _ empty => absurd empty filled, id⟩
  · cases lent

/-- A pool has come to its end: it has no idle clients, takes none, and nobody dials for it. -/
structure Ended (pool : Pool κ τ) : Prop where
  closed : pool.closed = true
  drained : pool.drained = true
  empty : pool.idleQueue = []
  stopped : pool.supervisor = .stopped

/-- A pool that has come to its end stays there where its end is kept. -/
theorem KeepsEnd.ended (keeps : pool.KeepsEnd after) (ended : pool.Ended) : after.Ended where
  closed := keeps.closed.trans ended.closed
  drained := keeps.drained.trans ended.drained
  empty := keeps.empty ended.drained ended.empty
  stopped := keeps.stopped ended.stopped

/-- Everyone has been told of a closed pool. -/
theorem signal_of_closed (closed : pool.closed = true) : pool.signal = pool := by
  rw [signal, ← closed]

/-- There is nothing left to drain in a pool that has come to its end. -/
theorem Ended.drain_eq (ended : pool.Ended) : pool.drain = ([], pool) := by
  have gone : pool.idle - pool.idleQueue.length = pool.idle := by
    rw [ended.empty, List.length_nil, Nat.sub_zero]
  rw [drain, gone, ended.empty, ← ended.drained, ← ended.empty]

/-- To close a pool that has come to its end does nothing. -/
theorem Ended.close_eq (ended : pool.Ended) : pool.close = ([], pool) := by
  have again : pool.stop = pool := by rw [stop, ← ended.stopped]
  rw [close, cancel_eq, signal_of_closed ended.closed, again, ended.drain_eq]

end Pool

-----------------------------------------------------------------------------------------
-- A pool and the calls that close it
-----------------------------------------------------------------------------------------

/-- How far a call to close a pool has come. -/
inductive CloseCall where
  /-- It waits until the supervisor has stopped. -/
  | awaitsSupervisor
  /-- It waits for its turn at the idle queue. -/
  | awaitsQueue
  | returned
  /-- The caller has given it up. -/
  | abandoned
  deriving DecidableEq, Repr

/-- A pool in use, and the calls that close it. -/
structure Shutdown (κ τ : Type) extends Circulation κ τ where
  /-- Clients that were let go and found fit for use, and have not reached the idle queue. -/
  returning : List κ := []
  /-- The calls to close the pool, the first one first. -/
  calls : List CloseCall := []

namespace Shutdown

variable {κ τ : Type}

/-- A pool that has yet to dial. -/
def create (address : String) (size : Nat) : Shutdown κ τ :=
  { toCirculation := .create address size }

/-- Tell a pool to close. The first one to do so waits for the supervisor. -/
def call (state : Shutdown κ τ) : Shutdown κ τ :=
  { state with
    pool := state.pool.signal
    calls := state.calls ++ [if state.calls = [] then .awaitsSupervisor else .awaitsQueue] }

section Steps

variable [DecidableEq κ] [DecidableEq τ]

/-- Someone lets a client go, which is closed if it is not fit for use or the pool is closed. -/
def letGo (state : Shutdown κ τ) (name : κ) (client : Client) : Shutdown κ τ :=
  if !client.isIdle || state.pool.closed then
    { state with
      pool := state.pool.letGo.returnToken
      held := state.held.erase name
      clients := override state.clients name (some client.close) }
  else
    { state with
      pool := state.pool.letGo
      held := state.held.erase name
      returning := state.returning ++ [name] }

/-- A client that was let go reaches the idle queue, and is closed if the queue does not take it. -/
def takeIn (state : Shutdown κ τ) (name : κ) (client : Client) : Shutdown κ τ :=
  match state.pool.enqueue? name with
  | some pool => { state with pool, returning := state.returning.erase name }
  | none =>
    { state with
      pool := state.pool.returnToken
      returning := state.returning.erase name
      clients := override state.clients name (some client.close) }

/-- A call has its turn at the idle queue. It gives up the clients there, and returns. -/
def drain (state : Shutdown κ τ) (place : Nat) : Shutdown κ τ :=
  { state with
    toCirculation := state.toCirculation.drain
    calls := state.calls.set place .returned }

/-- One step of those who run a pool, use it or close it. A call to close may have its turn at the
idle queue at any time.
-/
inductive Step : Shutdown κ τ → Shutdown κ τ → Prop
  -- Those who use clients
  | request {state} (ticket : τ)
    : Step state { state with pool := state.pool.request ticket }
  | withdraw {state} (ticket : τ)
    : Step state { state with pool := state.pool.withdraw ticket }
  | turnAway {state} (ticket : τ) (closed : state.pool.closed = true)
    : Step state { state with pool := state.pool.turnAway ticket }
  | lend {state ticket name pool} (lent : state.pool.lend? = some (ticket, name, pool))
    : Step state { state with pool, held := state.held ++ [name] }
  | use {state name client after} (holds : name ∈ state.held)
    (known : state.clients name = some client) (use : client.Use after)
    : Step state { state with toCirculation := state.setClient name after }
  | letGo {state name client} (holds : name ∈ state.held)
    (known : state.clients name = some client)
    : Step state (state.letGo name client)
  | takeIn {state name client} (returns : name ∈ state.returning)
    (known : state.clients name = some client)
    : Step state (state.takeIn name client)
  -- Backends
  | serve {state name client} (known : state.clients name = some client) (pipe : Pipe)
    : Step state { state with toCirculation := state.setClient name { client with pipe } }
  -- The supervisor
  | takeToken {state pool} (taken : state.pool.takeToken? = some pool)
    : Step state { state with pool }
  | dialFailed {state} (now : Nat)
    : Step state { state with pool := state.pool.dialFailed now }
  | redial {state pool} (now : Nat) (elapsed : state.pool.redial? now = some pool)
    : Step state { state with pool }
  | dialled {state name pipe client} (dialling : state.pool.supervisor = .dialling)
    (new : state.clients name = none) (greeted : Client.handshake? pipe = some (.ok client))
    : Step state { state with toCirculation := state.toCirculation.dialled name client }
  | stop {state} (closed : state.pool.closed = true)
    : Step state { state with pool := state.pool.stop }
  -- Those who close the pool
  | call {state} : Step state state.call
  | supervised {state place} (awaits : state.calls[place]? = some .awaitsSupervisor)
    (stopped : state.pool.supervisor = .stopped)
    : Step state { state with calls := state.calls.set place .awaitsQueue }
  | drain {state place} (awaits : state.calls[place]? = some .awaitsQueue)
    : Step state (state.drain place)
  | abandon {state place call} (made : state.calls[place]? = some call)
    (waits : call ≠ .returned)
    : Step state { state with calls := state.calls.set place .abandoned }

/-- Steps, one after the other. -/
inductive Run : Shutdown κ τ → Shutdown κ τ → Prop
  | none {state} : Run state state
  | next {state middle final} (run : Run state middle) (step : Step middle final)
    : Run state final

/-- Runs follow one behind the other, by induction on the later one. -/
theorem Run.trans {first middle final : Shutdown κ τ} (run : Run first middle)
    (more : Run middle final)
    : Run first final := by
  induction more with
  | none => exact run
  | next _ step ih => exact ih.next step

end Steps

-----------------------------------------------------------------------------------------
-- Every run of a circulation is one here
-----------------------------------------------------------------------------------------

section Lift

variable [DecidableEq κ] [DecidableEq τ]

/-- A client that is put back is let go and reaches the idle queue before anything else happens. -/
theorem Run.putBack {start : Shutdown κ τ} {state : Circulation κ τ} {calls : List CloseCall}
    (run : Run start { toCirculation := state, calls }) {name : κ} {client : Client}
    (holds : name ∈ state.held) (known : state.clients name = some client)
    : Run start { toCirculation := state.putBack name client, calls } := by
  have gone := run.next (.letGo holds known)
  have same : override state.clients name (some client) = state.clients := by
    funext other
    by_cases found : other = name
    · rw [found, override_self, known]
    · rw [override_of_ne found]
  cases unfit : !client.isIdle || state.pool.closed with
  | true =>
      simpa [letGo, unfit, Circulation.putBack, Pool.release_eq, Circulation.setClient] using gone
  | false =>
      have returns : name ∈ (letGo { toCirculation := state, calls } name client).returning := by
        simp [letGo, unfit]
      have there
          : (letGo { toCirculation := state, calls } name client).clients name = some client := by
        simp [letGo, unfit, known]
      have kept := gone.next (.takeIn returns there)
      cases queued : state.pool.letGo.enqueue? name with
      | some pool =>
          simpa [letGo, takeIn, unfit, queued, Circulation.putBack, Pool.release_eq,
            Circulation.setClient, same] using kept
      | none =>
          simpa [letGo, takeIn, unfit, queued, Circulation.putBack, Pool.release_eq,
            Circulation.setClient] using kept

/-- What a circulation can come to it can come to here, by induction on its run. A pool that is
closed has been told so by a call.
-/
theorem exists_run_of_run {address : String} {size : Nat} {state : Circulation κ τ}
    (run : Circulation.Run (.create address size) state)
    : ∃ calls,
        Run (create address size) { toCirculation := state, calls }
        ∧ (state.pool.closed = true → calls ≠ []) := by
  generalize start : Circulation.create address size = first at run
  induction run with
  | none =>
      subst start
      exact ⟨[], .none, nofun⟩
  | @next middle final _ step ih =>
      obtain ⟨calls, run, told⟩ := ih
      cases step with
      | request ticket => exact ⟨calls, run.next (.request ticket), told⟩
      | withdraw ticket => exact ⟨calls, run.next (.withdraw ticket), told⟩
      | grant granted =>
          obtain ⟨_, _, _, rfl⟩ := Pool.grant?_eq_some granted
          rw [Pool.grant?_eq] at granted
          split at granted
          · cases granted
          · exact ⟨calls, run.next (.lend granted), told⟩
      | refuse refused =>
          obtain ⟨closed, rfl⟩ := Pool.refuse?_eq_some _ refused
          exact ⟨calls, run.next (.turnAway _ closed), told⟩
      | use holds known use => exact ⟨calls, run.next (.use holds known use), told⟩
      | putBack holds known =>
          refine ⟨calls, run.putBack holds known, fun closed => told ?_⟩
          simpa only [Circulation.putBack, Circulation.setClient, Pool.closed_release] using closed
      | serve known pipe => exact ⟨calls, run.next (.serve known pipe), told⟩
      | startDial started =>
          obtain ⟨_, _, rfl⟩ := Pool.startDial?_eq_some started
          rw [Pool.startDial?_eq] at started
          split at started
          · cases started
          · exact ⟨calls, run.next (.takeToken started), told⟩
      | dialFailed now =>
          refine ⟨calls, run.next (.dialFailed now), fun closed => told ?_⟩
          rw [← (Pool.keepsEnd_dialFailed middle.pool now).closed]
          exact closed
      | redial now elapsed =>
          refine ⟨calls, run.next (.redial now elapsed), fun closed => told ?_⟩
          rw [← (Pool.keepsEnd_redial? elapsed).closed]
          exact closed
      | dialled dialling new greeted =>
          refine ⟨calls, run.next (.dialled dialling new greeted), fun closed => told ?_⟩
          simpa only [Circulation.dialled, Circulation.setClient, Pool.closed_dialled] using closed
      | cancel =>
          have called := run.next .call
          exact ⟨_, called.next (.stop rfl), fun _ => by simp [call]⟩
      | drain closed =>
          have called := run.next .call
          simp only [call, told closed, if_false, Pool.signal_of_closed closed] at called
          have turn : (calls ++ [CloseCall.awaitsQueue])[calls.length]? = some .awaitsQueue := by
            simp
          exact ⟨_, called.next (.drain turn), fun _ => by simp⟩

end Lift

-----------------------------------------------------------------------------------------
-- How far the calls have brought a pool to its end
-----------------------------------------------------------------------------------------

variable {state next later : Shutdown κ τ}

/-- A pool is as near to its end as the calls to close it say. Only the first of them knows of the
supervisor.
-/
structure Staged (state : Shutdown κ τ) : Prop where
  told : state.calls ≠ [] → state.pool.closed = true
  stopped
    : ∀ point,
        state.calls[0]? = some point → point = .awaitsQueue ∨ point = .returned
        → state.pool.supervisor = .stopped
  drained : .returned ∈ state.calls → state.pool.drained = true
  empty : state.pool.drained = true → state.pool.closed = true ∧ state.pool.idleQueue = []

/-- A pool that has yet to dial is as far from its end as no calls say. -/
theorem Staged.create (address : String) (size : Nat)
    : Staged (create address size : Shutdown κ τ) where
  told called := absurd rfl called
  stopped := nofun
  drained := nofun
  empty := nofun

/-- What keeps the end of a pool and leaves the calls alone keeps the pool as near to its end as
they say.
-/
theorem Staged.of_keepsEnd (staged : state.Staged) (keeps : state.pool.KeepsEnd next.pool)
    (same : next.calls = state.calls)
    : next.Staged where
  told called := keeps.closed.trans (staged.told (same ▸ called))
  stopped call first far := keeps.stopped (staged.stopped call (same ▸ first) far)
  drained returned := keeps.drained.trans (staged.drained (same ▸ returned))
  empty drained :=
    have before := keeps.drained.symm.trans drained
    ⟨keeps.closed.trans (staged.empty before).1, keeps.empty before (staged.empty before).2⟩

/-- A call brings the end of a pool as near as it says, by cases on whether it is the first one. -/
theorem Staged.call (staged : state.Staged) : state.call.Staged where
  told _ := rfl
  stopped point first far := by
    simp only [Shutdown.call] at first
    split at first
    · next uncalled =>
        simp only [uncalled, List.nil_append, List.getElem?_cons_zero, Option.some.injEq] at first
        subst first
        simp at far
    · next called =>
        rw [List.getElem?_append_left (List.length_pos_of_ne_nil called)] at first
        exact staged.stopped point first far
  drained returned := by
    refine staged.drained ((List.mem_append.mp returned).resolve_right fun new => ?_)
    have last := List.mem_singleton.mp new
    split at last <;> cases last
  empty drained := ⟨rfl, (staged.empty drained).2⟩

/-- A call comes to another point. If it goes on towards its return, the supervisor has stopped or
it has had nothing to do with the supervisor, and the queue is closed when it returns.
-/
theorem Staged.set {place : Nat} {call point : CloseCall} (staged : state.Staged)
    (made : state.calls[place]? = some call)
    (goes : point = .awaitsQueue ∨ point = .returned
      → call = .awaitsQueue ∨ state.pool.supervisor = .stopped)
    (drained : point = .returned → state.pool.drained = true)
    : { state with calls := state.calls.set place point }.Staged where
  told _ := staged.told (List.ne_nil_of_mem (List.mem_of_getElem? made))
  stopped first found far := by
    rw [List.getElem?_set] at found
    split at found
    · next here =>
        subst here
        split at found
        · cases found
          rcases goes far with waited | stopped
          · exact staged.stopped call made (.inl waited)
          · exact stopped
        · cases found
    · exact staged.stopped first found far
  drained returned := by
    rcases List.mem_or_eq_of_mem_set returned with before | new
    · exact staged.drained before
    · exact drained new.symm
  empty := staged.empty

/-- When the first call has returned, the pool has come to its end. -/
theorem Staged.ended (staged : state.Staged) (returned : state.calls[0]? = some .returned)
    : state.pool.Ended := by
  have drained := staged.drained (List.mem_of_getElem? returned)
  obtain ⟨closed, empty⟩ := staged.empty drained
  exact ⟨closed, drained, empty, staged.stopped .returned returned (.inr rfl)⟩

section Steps

variable [DecidableEq κ]

/-- A turn at the idle queue brings the end of a pool as near as it says. -/
theorem Staged.drain {place : Nat} (staged : state.Staged)
    (awaits : state.calls[place]? = some .awaitsQueue)
    : (state.drain place).Staged := by
  have closed := staged.told (List.ne_nil_of_mem (List.mem_of_getElem? awaits))
  have drained : { state with toCirculation := state.toCirculation.drain }.Staged :=
    ⟨staged.told, staged.stopped, fun _ => rfl, fun _ => ⟨closed, rfl⟩⟩
  exact drained.set awaits (fun _ => .inl rfl) fun _ => rfl

/-- Letting a client go keeps the end of a pool, and leaves the calls alone. -/
theorem keepsEnd_letGo (state : Shutdown κ τ) (name : κ) (client : Client)
    : state.pool.KeepsEnd (state.letGo name client).pool
      ∧ (state.letGo name client).calls = state.calls := by
  unfold letGo
  split <;> exact ⟨⟨rfl, rfl, fun _ => id, id⟩, rfl⟩

/-- A client that reaches the queue keeps the end of a pool, and leaves the calls alone. -/
theorem keepsEnd_takeIn (state : Shutdown κ τ) (name : κ) (client : Client)
    : state.pool.KeepsEnd (state.takeIn name client).pool
      ∧ (state.takeIn name client).calls = state.calls := by
  unfold takeIn
  split
  · next queued => exact ⟨Pool.keepsEnd_enqueue? queued, rfl⟩
  · exact ⟨⟨rfl, rfl, fun _ => id, id⟩, rfl⟩

variable [DecidableEq τ]

/-- Only those who close a pool bring it nearer to its end, by cases on the step. -/
theorem Step.keepsEnd_or (step : Step state next)
    : (state.pool.KeepsEnd next.pool ∧ next.calls = state.calls)
      ∨ next = state.call
      ∨ (∃ place call point,
        state.calls[place]? = some call
        ∧ (point = .awaitsQueue ∧ state.pool.supervisor = .stopped ∨ point = .abandoned)
        ∧ next = { state with calls := state.calls.set place point })
      ∨ ∃ place, state.calls[place]? = some .awaitsQueue ∧ next = state.drain place := by
  cases step with
  | request | withdraw | turnAway | use | serve =>
      exact .inl ⟨⟨rfl, rfl, fun _ => id, id⟩, rfl⟩
  | lend lent => exact .inl ⟨Pool.keepsEnd_lend? lent, rfl⟩
  | letGo => exact .inl (keepsEnd_letGo ..)
  | takeIn => exact .inl (keepsEnd_takeIn ..)
  | takeToken taken => exact .inl ⟨Pool.keepsEnd_takeToken? taken, rfl⟩
  | dialFailed now => exact .inl ⟨Pool.keepsEnd_dialFailed state.pool now, rfl⟩
  | redial now elapsed => exact .inl ⟨Pool.keepsEnd_redial? elapsed, rfl⟩
  | dialled dialling => exact .inl ⟨Pool.keepsEnd_dialled dialling _ _, rfl⟩
  | stop => exact .inl ⟨⟨rfl, rfl, fun _ => id, fun _ => rfl⟩, rfl⟩
  | call => exact .inr (.inl rfl)
  | supervised awaits stopped =>
      exact .inr (.inr (.inl ⟨_, _, _, awaits, .inl ⟨rfl, stopped⟩, rfl⟩))
  | drain awaits => exact .inr (.inr (.inr ⟨_, awaits, rfl⟩))
  | abandon made => exact .inr (.inr (.inl ⟨_, _, _, made, .inr rfl, rfl⟩))

/-- Each step leaves a pool as near to its end as the calls say, by cases on the step. -/
theorem Step.staged (step : Step state next) (staged : state.Staged) : next.Staged := by
  rcases step.keepsEnd_or with
    ⟨keeps, same⟩ | rfl | ⟨place, call, point, made, goes, rfl⟩ | ⟨place, awaits, rfl⟩
  · exact staged.of_keepsEnd keeps same
  · exact staged.call
  · rcases goes with ⟨rfl, stopped⟩ | rfl
    · exact staged.set made (fun _ => .inr stopped) nofun
    · exact staged.set made (by simp) nofun
  · exact staged.drain awaits

/-- A run leaves a pool as near to its end as the calls say, by induction on the run. -/
theorem Run.staged (run : Run state later) (staged : state.Staged) : later.Staged := by
  induction run with
  | none => exact staged
  | next _ step ih => exact step.staged ih

/-- A pool is always as near to its end as the calls say. -/
theorem staged_of_run {address : String} {size : Nat} (run : Run (create address size) state)
    : state.Staged :=
  run.staged (.create address size)

/-- Only the turn of a call at the idle queue closes the queue. -/
theorem Step.drained_eq_or (step : Step state next)
    : next.pool.drained = state.pool.drained
      ∨ ∃ place, state.calls[place]? = some .awaitsQueue ∧ next = state.drain place := by
  rcases step.keepsEnd_or with ⟨keeps, -⟩ | rfl | ⟨place, call, point, -, -, rfl⟩ | drains
  · exact .inl keeps.drained
  · exact .inl rfl
  · exact .inl rfl
  · exact .inr drains

/-- A queue that was drained stays drained in each step. -/
theorem Step.drained (step : Step state next) (drained : state.pool.drained = true)
    : next.pool.drained = true := by
  rcases step.drained_eq_or with same | ⟨place, -, rfl⟩
  · exact same.trans drained
  · rfl

/-- A queue that was drained stays drained, by induction on the run. -/
theorem Run.drained (run : Run state later) (drained : state.pool.drained = true)
    : later.pool.drained = true := by
  induction run with
  | none => exact drained
  | next _ step ih => exact step.drained ih

/-- Once any call to close a pool has returned, nobody who waits gets a client. The supervisor may
go on until the first call has returned too.
-/
theorem lend?_eq_none_of_returned {address : String} {size : Nat}
    (run : Run (create address size) state) (returned : .returned ∈ state.calls)
    (more : Run state later)
    : later.pool.lend? = none := by
  have staged := staged_of_run run
  have drained := more.drained (staged.drained returned)
  exact Pool.lend?_eq_none ((more.staged staged).empty drained).2

/-- What an open pool can come to it can come to here, and nobody has called to close it. -/
theorem run_of_open {address : String} {size : Nat} {state : Circulation κ τ}
    (run : Circulation.Run (.create address size) state) (isOpen : state.pool.closed = false)
    : Run (create address size) { toCirculation := state } := by
  obtain ⟨calls, lifted, -⟩ := exists_run_of_run run
  have uncalled : calls = [] := by
    by_contra called
    have told := (staged_of_run lifted).told called
    rw [isOpen] at told
    cases told
  exact uncalled ▸ lifted

end Steps

-----------------------------------------------------------------------------------------
-- The end, once it has come
-----------------------------------------------------------------------------------------

/-- A client goes by this name, and it is dead. -/
def Dead (state : Shutdown κ τ) (name : κ) : Prop :=
  ∃ client, state.clients name = some client ∧ client.ending ≠ none

/-- A pool that has come to its end stays there. The clients that are held and those on their way
back only become fewer, and those that are no longer among them are dead.
-/
structure WindsDown (state next : Shutdown κ τ) : Prop where
  ended : next.pool.Ended
  held : next.held.Sublist state.held
  returning : next.returning.Sublist state.returning
  dead : ∀ name, state.Dead name → next.Dead name
  left
    : ∀ name ∈ state.held ++ state.returning,
        name ∈ next.held ++ next.returning ∨ next.Dead name

/-- A pool winds down if its clients stay where they are and as they are. -/
theorem WindsDown.of_same (ended : next.pool.Ended) (held : next.held = state.held)
    (returning : next.returning = state.returning) (clients : next.clients = state.clients)
    : state.WindsDown next where
  ended := ended
  held := held ▸ .refl _
  returning := returning ▸ .refl _
  dead name dead := by rwa [Dead, clients]
  left name member := by
    rw [held, returning]
    exact .inl member

/-- A pool that winds down goes on doing so. -/
theorem WindsDown.trans (first : state.WindsDown next) (second : next.WindsDown later)
    : state.WindsDown later where
  ended := second.ended
  held := second.held.trans first.held
  returning := second.returning.trans first.returning
  dead name dead := second.dead name (first.dead name dead)
  left name member := (first.left name member).elim (second.left name) (.inr ∘ second.dead name)

section Steps

variable [DecidableEq κ]

/-- A client stays dead while one client changes that does not come back to life. -/
theorem Dead.override {name other : κ} {client after : Client} (dead : state.Dead other)
    (known : state.clients name = some client)
    (clients : next.clients = SourceView.override state.clients name (some after))
    (stays : after.ending = none → client.ending = none)
    : next.Dead other := by
  obtain ⟨found, located, dead⟩ := dead
  rw [Dead, clients]
  by_cases same : other = name
  · subst same
    obtain rfl := Option.some.inj (known.symm.trans located)
    exact ⟨after, override_self, mt stays dead⟩
  · exact ⟨found, (override_of_ne same).trans located, dead⟩

/-- One client changes, and does not come back to life. It may leave the hands in which it is if it
is dead then.
-/
theorem WindsDown.of_override {name : κ} {client after : Client} (ended : next.pool.Ended)
    (held : next.held.Sublist state.held) (returning : next.returning.Sublist state.returning)
    (known : state.clients name = some client)
    (clients : next.clients = override state.clients name (some after))
    (stays : after.ending = none → client.ending = none)
    (left
      : ∀ other ∈ state.held ++ state.returning,
          other ∈ next.held ++ next.returning ∨ other = name ∧ after.ending ≠ none)
    : state.WindsDown next where
  ended := ended
  held := held
  returning := returning
  dead _ dead := dead.override known clients stays
  left other member := by
    rcases left other member with stayed | ⟨rfl, dead⟩
    · exact .inl stayed
    · exact .inr ⟨after, by rw [clients, override_self], dead⟩

/-- A name that is not taken out of a list stays there. -/
theorem mem_erase_or_eq {names : List κ} {name other : κ} (member : other ∈ names)
    : other ∈ names.erase name ∨ other = name := by
  by_cases same : other = name
  · exact .inr same
  · exact .inl ((List.mem_erase_of_ne same).mpr member)

/-- A pool that has come to its end has no more clients to give up. -/
theorem drain_of_ended (ended : state.pool.Ended)
    : state.toCirculation.drain = state.toCirculation := by
  simp [Circulation.drain, ended.drain_eq]

/-- A client that is let go when the pool is closed is closed too. -/
theorem letGo_of_closed (closed : state.pool.closed = true) (name : κ) (client : Client)
    : state.letGo name client
      = { state with
          pool := state.pool.letGo.returnToken
          held := state.held.erase name
          clients := override state.clients name (some client.close) } := by
  simp [letGo, closed]

/-- A client that reaches a queue that was drained is closed. -/
theorem takeIn_of_drained (drained : state.pool.drained = true) (name : κ) (client : Client)
    : state.takeIn name client
      = { state with
          pool := state.pool.returnToken
          returning := state.returning.erase name
          clients := override state.clients name (some client.close) } := by
  simp [takeIn, Pool.enqueue?, drained]

variable [DecidableEq τ]

/-- A pool that has come to its end stays there in each step. -/
theorem Step.ended (step : Step state next) (ended : state.pool.Ended) : next.pool.Ended := by
  rcases step.keepsEnd_or with ⟨keeps, -⟩ | rfl | ⟨place, call, point, -, -, rfl⟩ | ⟨place, -, rfl⟩
  · exact keeps.ended ended
  · exact ⟨rfl, ended.drained, ended.empty, ended.stopped⟩
  · exact ended
  · exact ⟨ended.closed, rfl, rfl, ended.stopped⟩

/-- A step of a pool that has come to its end, by cases on the step. -/
theorem Step.windsDown (step : Step state next) (ended : state.pool.Ended)
    : state.WindsDown next := by
  have later := step.ended ended
  cases step with
  | request | withdraw | turnAway | takeToken | dialFailed | redial | stop | call | supervised
  | abandon =>
      exact .of_same later rfl rfl rfl
  | lend lent =>
      rw [Pool.lend?_eq_none ended.empty] at lent
      cases lent
  | use holds known use =>
      exact .of_override later (.refl _) (.refl _) known rfl use.ending fun _ => .inl
  | serve known =>
      exact .of_override later (.refl _) (.refl _) known rfl id fun _ => .inl
  | letGo holds known =>
      rw [letGo_of_closed ended.closed] at later ⊢
      refine .of_override later List.erase_sublist (.refl _) known rfl nofun fun other member => ?_
      rcases List.mem_append.mp member with holds | returns
      · exact (mem_erase_or_eq holds).imp (List.mem_append_left _) fun same => ⟨same, nofun⟩
      · exact .inl (List.mem_append_right _ returns)
  | takeIn returns known =>
      rw [takeIn_of_drained ended.drained] at later ⊢
      refine .of_override later (.refl _) List.erase_sublist known rfl nofun fun other member => ?_
      rcases List.mem_append.mp member with holds | returns
      · exact .inl (List.mem_append_left _ holds)
      · exact (mem_erase_or_eq returns).imp (List.mem_append_right _) fun same => ⟨same, nofun⟩
  | dialled dialling =>
      rw [ended.stopped] at dialling
      cases dialling
  | drain => exact .of_same later rfl rfl (congrArg _ (drain_of_ended ended))

/-- A pool that has come to its end winds down, by induction on the run. -/
theorem Run.windsDown (run : Run state later) (ended : state.pool.Ended)
    : state.WindsDown later := by
  induction run with
  | none => exact .of_same ended rfl rfl rfl
  | next _ step ih => exact ih.trans (step.windsDown ih.ended)

/-- Once the first call to close a pool has returned, the pool has come to its end for good. Nobody
who waits gets a client, there is no idle client, and nobody dials. A client that comes back is
closed, and a client that was on its way back is not let in, so that those that are no longer held
or on their way are dead. To close the pool again does nothing, from beginning to end.
-/
theorem closed_for_good (address : String) (size : Nat) (state later : Shutdown κ τ)
    (run : Run (create address size) state) (returned : state.calls[0]? = some .returned)
    (more : Run state later)
    : later.pool.lend? = none
      ∧ later.pool.idleQueue = []
      ∧ later.pool.supervisor = .stopped
      ∧ later.pool.takeToken? = none
      ∧ (∀ now, later.pool.redial? now = none)
      ∧ (∀ name client,
          (later.letGo name client).clients name = some client.close
          ∧ (later.letGo name client).returning = later.returning
          ∧ (later.letGo name client).pool.idleQueue = [])
      ∧ (∀ name client,
          (later.takeIn name client).clients name = some client.close
          ∧ (later.takeIn name client).pool.idleQueue = [])
      ∧ later.held.Sublist state.held
      ∧ later.returning.Sublist state.returning
      ∧ (∀ name ∈ state.held ++ state.returning,
          name ∈ later.held ++ later.returning ∨ later.Dead name)
      ∧ later.call.toCirculation = later.toCirculation
      ∧ (∀ place, (later.drain place).toCirculation = later.toCirculation)
      ∧ later.pool.close = ([], later.pool) := by
  have down := more.windsDown ((staged_of_run run).ended returned)
  obtain ⟨closed, drained, empty, stopped⟩ := down.ended
  refine ⟨Pool.lend?_eq_none empty, empty, stopped, ?_, ?_, ?_, ?_, down.held, down.returning,
    down.left, ?_, ?_, down.ended.close_eq⟩
  · simp [Pool.takeToken?, stopped]
  · intro now
    simp [Pool.redial?, stopped]
  · intro name client
    rw [letGo_of_closed closed]
    exact ⟨override_self, rfl, empty⟩
  · intro name client
    rw [takeIn_of_drained drained]
    exact ⟨override_self, empty⟩
  · rw [call, Pool.signal_of_closed closed]
  · intro place
    exact drain_of_ended down.ended

end Steps

/-- A pool of two when the call to close it has returned. When it was told to close one client was
held, someone waited for a client, and a connection was being opened, which was there before the
supervisor heard of the end.
-/
def closedPool : Shutdown Nat Nat :=
  let dialling : Circulation Nat Nat := {
    Circulation.heldPool with
    pool := {
      Circulation.heldPool.pool with waiting := [8], tokens := 0, supervisor := .dialling } }
  let called : Shutdown Nat Nat := call { toCirculation := dialling }
  let dialled := called.toCirculation.dialled 1 Circulation.greeted
  let stopped : Shutdown Nat Nat := {
    dialled with
    pool := (dialled.pool.turnAway 8).stop
    calls := [.awaitsQueue] }
  stopped.drain 0

/-- The closed pool comes of closing a pool in use. -/
theorem run_closedPool : Run (create "a:1" 2) closedPool := by
  have held : Run (create "a:1" 2) { toCirculation := Circulation.heldPool } :=
    run_of_open Circulation.run_heldPool rfl
  have dialling := (held.next (.request 8)).next (.takeToken rfl)
  have called := dialling.next .call
  have dialled : Run (create "a:1" 2 : Shutdown Nat Nat) _ :=
    called.next (@Step.dialled Nat Nat _ _ _ 1 _ _ rfl rfl Circulation.handshake_greeted)
  have stopped := (dialled.next (.turnAway 8 rfl)).next (.stop rfl)
  have supervised : Run (create "a:1" 2 : Shutdown Nat Nat) _ :=
    stopped.next (@Step.supervised Nat Nat _ _ _ 0 rfl rfl)
  exact supervised.next (@Step.drain Nat Nat _ _ _ 0 rfl)

/-- The client that was held when the pool came to its end is dead when it has been let go. -/
theorem dead_of_closedPool
    : Run (create "a:1" 2) closedPool
      ∧ closedPool.calls[0]? = some .returned
      ∧ closedPool.held = [0]
      ∧ (closedPool.letGo 0 Circulation.greeted).Dead 0 := by
  have more : Run closedPool (closedPool.letGo 0 Circulation.greeted) :=
    Run.none.next (.letGo List.mem_cons_self rfl)
  obtain ⟨-, -, -, -, -, -, -, -, -, left, -⟩ :=
    closed_for_good "a:1" 2 closedPool _ run_closedPool rfl more
  refine ⟨run_closedPool, rfl, rfl, (left 0 List.mem_cons_self).resolve_left ?_⟩
  decide

end Shutdown

end SourceView
