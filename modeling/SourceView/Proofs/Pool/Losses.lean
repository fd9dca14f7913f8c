import SourceView.Proofs.Pool.Places

/-! The tokens of a pool that is being closed.
A token goes back to the pool from a client that is let go and from a dial whose client is not kept,
but not from a client that was idle when the queue was given up. So many tokens are missing from
then on, and no others.
-/

namespace SourceView

/-- Every token that waits for the supervisor or is with it is in the tally of those that wait. A
pool that is closed counts tokens there that it does not have.
-/
def Pool.CountsTokens {κ τ : Type} (pool : Pool κ τ) : Prop :=
  pool.tokens + pool.supervisor.inHand ≤ pool.pending

/-- A token that is given back is in the tally of those that wait. -/
theorem Pool.CountsTokens.returnToken {κ τ : Type} {pool : Pool κ τ} (counts : pool.CountsTokens)
    : pool.returnToken.CountsTokens := by
  unfold CountsTokens Pool.returnToken at *
  dsimp only
  split <;> omega

/-- A dial that has brought a client moves a token from the tally of those that wait to the tally of
idle clients, unless the client is not kept.
-/
theorem Pool.dialled_cases {κ τ : Type} {pool : Pool κ τ} (dialling : pool.supervisor = .dialling)
    (client : κ) (offer : Offer)
    : (pool.dialled client offer).2
        = { pool with
            supervisor := .resting
            delay := minDelay
            offer
            pending := pool.pending - 1
            idleQueue := pool.idleQueue ++ [client]
            idle := pool.idle + 1 }
      ∨ (pool.dialled client offer).2
        = { pool with
            supervisor := .resting
            delay := minDelay
            offer
            pending := pool.pending - 1 + 1 } := by
  rw [dialled, if_pos dialling]
  dsimp only
  split
  · next queued => exact .inl (enqueue?_eq_some queued)
  · exact .inr rfl

namespace Shutdown

variable {κ τ : Type} {size lost : Nat} {state next later : Shutdown κ τ}

-----------------------------------------------------------------------------------------
-- Tallies that are right but for the tokens that are missing
-----------------------------------------------------------------------------------------

/-- The tallies of a pool count what they stand for, and so many tokens are missing from them. A
client on its way back is in none of them.
-/
structure Accounted (size lost : Nat) (state : Shutdown κ τ) : Prop where
  idle : state.pool.idle = state.pool.idleQueue.length
  pending : state.pool.CountsTokens
  checkedOut : state.pool.checkedOut = state.held.length
  sized : state.pool.size = size
  total
    : state.pool.idle + state.pool.pending + state.pool.checkedOut + state.returning.length + lost
      = size

namespace Accounted

/-- The tallies of a pool that has yet to dial count what they stand for. -/
theorem create (address : String) (size : Nat)
    : Accounted (max size 1) 0 (create address size : Shutdown κ τ) where
  idle := rfl
  pending := le_rfl
  checkedOut := rfl
  sized := rfl
  total := by simp [Shutdown.create, Circulation.create, Pool.create]

/-- What becomes of the supervisor changes no tally. -/
theorem of_supervisor {tokens delay : Nat} {supervisor : Supervisor}
    (accounted : state.Accounted size lost)
    (fewer : tokens + supervisor.inHand ≤ state.pool.tokens + state.pool.supervisor.inHand)
    : Accounted size lost
        { state with pool := { state.pool with tokens, supervisor, delay } } where
  idle := accounted.idle
  pending := Nat.le_trans fewer accounted.pending
  checkedOut := accounted.checkedOut
  sized := accounted.sized
  total := accounted.total

/-- Lending a client moves its token from one tally to another. -/
theorem lend {ticket : τ} {name : κ} {pool : Pool κ τ} (accounted : state.Accounted size lost)
    (lent : state.pool.lend? = some (ticket, name, pool))
    : Accounted size lost { state with pool, held := state.held ++ [name] } := by
  obtain ⟨waiting, idleQueue, queue, rfl⟩ := Pool.lend?_eq_some lent
  obtain ⟨idle, pending, checkedOut, sized, total⟩ := accounted
  rw [queue, List.length_cons] at idle
  refine ⟨?_, pending, ?_, sized, ?_⟩
  · simp [idle]
  · simp [checkedOut]
  · dsimp only
    omega

section Clients

variable [DecidableEq κ] {name : κ}

/-- A client that is let go gives its token back, or keeps it on its way to the queue. -/
theorem letGo (accounted : state.Accounted size lost) (holds : name ∈ state.held) (client : Client)
    : (state.letGo name client).Accounted size lost := by
  have counted := (List.perm_cons_erase holds).length_eq
  rw [List.length_cons] at counted
  obtain ⟨idle, pending, checkedOut, sized, total⟩ := accounted
  rcases state.letGo_cases name client with same | same
  · rw [same]
    refine ⟨idle, pending, ?_, sized, ?_⟩
    · simp only [Pool.letGo]
      omega
    · simp only [Pool.letGo, List.length_append, List.length_singleton]
      omega
  · rw [same]
    refine ⟨idle, pending.returnToken, ?_, sized, ?_⟩
    · simp only [Pool.letGo, Pool.returnToken]
      omega
    · simp only [Pool.letGo, Pool.returnToken]
      omega

/-- A client on its way back becomes an idle one, or gives its token back. -/
theorem takeIn (accounted : state.Accounted size lost) (returns : name ∈ state.returning)
    (client : Client)
    : (state.takeIn name client).Accounted size lost := by
  have counted := (List.perm_cons_erase returns).length_eq
  rw [List.length_cons] at counted
  obtain ⟨idle, pending, checkedOut, sized, total⟩ := accounted
  rcases state.takeIn_cases name client with same | same
  · rw [same]
    refine ⟨?_, pending, checkedOut, sized, ?_⟩
    · simp [idle]
    · dsimp only
      omega
  · rw [same]
    refine ⟨idle, pending.returnToken, checkedOut, sized, ?_⟩
    simp only [Pool.returnToken]
    omega

/-- A dial takes a token from the tally of those that wait, and puts it back if the client is not
kept.
-/
theorem dialled (accounted : state.Accounted size lost)
    (dialling : state.pool.supervisor = .dialling) (client : Client)
    : Accounted size lost
        { state with toCirculation := state.toCirculation.dialled name client } := by
  obtain ⟨idle, pending, checkedOut, sized, total⟩ := accounted
  have owing : 0 < state.pool.pending := by
    rw [Pool.CountsTokens, dialling] at pending
    exact Nat.lt_of_lt_of_le (Nat.succ_pos _) pending
  have rest : state.pool.tokens + 0 ≤ state.pool.pending - 1 := by
    rw [Pool.CountsTokens, dialling] at pending
    exact Nat.le_sub_of_add_le pending
  simp only [Circulation.dialled]
  rcases Pool.dialled_cases dialling name client.greeting.offer with same | same
  · rw [same]
    refine ⟨?_, rest, checkedOut, sized, ?_⟩
    · simp [Circulation.setClient, idle]
    · simp only [Circulation.setClient]
      omega
  · rw [same]
    refine ⟨idle, Nat.le_succ_of_le rest, checkedOut, sized, ?_⟩
    simp only [Circulation.setClient]
    omega

/-- The clients that are idle when the queue is given up take their tokens with them. -/
theorem drain (accounted : state.Accounted size lost) (place : Nat)
    : (state.drain place).Accounted size (lost + state.pool.idleQueue.length) := by
  obtain ⟨idle, pending, checkedOut, sized, total⟩ := accounted
  refine ⟨?_, pending, checkedOut, sized, ?_⟩
  · simp [Shutdown.drain, Circulation.drain, Pool.drain, idle]
  · simp only [Shutdown.drain, Circulation.drain, Pool.drain]
    omega

end Clients

/-- When every client has come back, all tokens that are not missing wait. -/
theorem all_pending (accounted : state.Accounted size lost) (empty : state.pool.idleQueue = [])
    (unheld : state.held = []) (arrived : state.returning = [])
    : state.pool.idle = 0 ∧ state.pool.checkedOut = 0 ∧ state.pool.pending + lost = size := by
  obtain ⟨idle, -, checkedOut, -, total⟩ := accounted
  rw [empty, List.length_nil] at idle
  rw [unheld, List.length_nil] at checkedOut
  rw [arrived, List.length_nil] at total
  exact ⟨idle, checkedOut, by omega⟩

end Accounted

-----------------------------------------------------------------------------------------
-- Runs
-----------------------------------------------------------------------------------------

section Steps

variable [DecidableEq κ] [DecidableEq τ]

/-- Only the turn of a call at the idle queue makes tokens go missing, by cases on the step. -/
theorem Step.accounted (step : Step state next) (accounted : state.Accounted size lost)
    : next.Accounted size lost
      ∨ ∃ place, state.calls[place]? = some .awaitsQueue ∧ next = state.drain place := by
  cases step with
  | request | withdraw | turnAway | use | serve | call | supervised | abandon =>
      exact .inl { accounted with }
  | lend lent => exact .inl (accounted.lend lent)
  | letGo holds => exact .inl (accounted.letGo holds _)
  | takeIn returns => exact .inl (accounted.takeIn returns _)
  | takeToken taken =>
      obtain ⟨resting, tokens, rfl⟩ := Pool.takeToken?_eq_some taken
      refine .inl (accounted.of_supervisor ?_)
      rw [resting]
      exact Nat.le_of_eq (Nat.sub_add_cancel tokens)
  | dialFailed now =>
      unfold Pool.dialFailed
      split
      · next dialling =>
          refine .inl (accounted.of_supervisor ?_)
          rw [dialling]
          rfl
      · exact .inl accounted
  | redial now elapsed =>
      obtain ⟨_, _, waits, rfl⟩ := Pool.redial?_eq_some elapsed
      refine .inl (accounted.of_supervisor ?_)
      rw [waits]
      rfl
  | dialled dialling => exact .inl (accounted.dialled dialling _)
  | stop =>
      refine .inl (accounted.of_supervisor ?_)
      simp [Supervisor.inHand, Supervisor.holdsToken]
  | drain awaits => exact .inr ⟨_, awaits, rfl⟩

/-- Once the queue was given up no more tokens go missing, by induction on the run. -/
theorem Run.accounted (run : Run state later) (staged : state.Staged)
    (drained : state.pool.drained = true) (accounted : state.Accounted size lost)
    : later.Accounted size lost := by
  induction run with
  | none => exact accounted
  | @next middle final run step ih =>
      rcases step.accounted ih with kept | ⟨place, awaits, rfl⟩
      · exact kept
      · have queue := ((run.staged staged).empty (run.drained drained)).2
        have turn := ih.drain place
        rwa [queue, List.length_nil, Nat.add_zero] at turn

/-- A call has had the first turn at the idle queue, and the run goes on from there. -/
structure GaveUp (address : String) (size : Nat) (state before : Shutdown κ τ) (place : Nat)
    : Prop where
  run : Run (Shutdown.create address size) before
  undrained : before.pool.drained = false
  awaits : before.calls[place]? = some .awaitsQueue
  accounted : before.Accounted (max size 1) 0
  more : Run (before.drain place) state

/-- Whatever comes after that, as many tokens are missing as there were idle clients. -/
theorem GaveUp.goesOn {address : String} {place : Nat} {before : Shutdown κ τ}
    (gaveUp : GaveUp address size state before place) (more : Run state later)
    : later.Accounted (max size 1) before.pool.idleQueue.length ∧ later.pool.idleQueue = [] := by
  have staged := (staged_of_run gaveUp.run).drain gaveUp.awaits
  have lost := gaveUp.accounted.drain place
  rw [Nat.zero_add] at lost
  have all := gaveUp.more.trans more
  exact ⟨all.accounted staged rfl lost, ((all.staged staged).empty (all.drained rfl)).2⟩

/-- Until the queue is given up no token is missing, by induction on the run. -/
theorem accounted_or_gaveUp {address : String} (run : Run (Shutdown.create address size) state)
    : (state.pool.drained = false ∧ state.Accounted (max size 1) 0)
      ∨ ∃ before place, GaveUp address size state before place := by
  induction run with
  | none => exact .inl ⟨rfl, .create address size⟩
  | @next middle final run step ih =>
      rcases ih with ⟨undrained, accounted⟩ | ⟨before, place, gaveUp⟩
      · rcases step.drained_eq_or with same | ⟨place, awaits, rfl⟩
        · rcases step.accounted accounted with kept | ⟨place, -, rfl⟩
          · exact .inl ⟨same.trans undrained, kept⟩
          · cases same.trans undrained
        · exact .inr ⟨middle, place, run, undrained, awaits, accounted, .none⟩
      · exact .inr ⟨before, place, { gaveUp with more := gaveUp.more.next step }⟩

/-- When a call to close a pool has returned, a call has had the first turn at the idle queue, and
until then no token was missing. From then on the tallies add up to as many less than the pool is
large as there were idle clients at that turn. When everyone who held a client has let it go, all
tokens but these wait for the supervisor, that is none is missing just if no client was idle.
-/
theorem closing_loses_idle_tokens (address : String) (size : Nat) (state : Shutdown κ τ)
    (run : Run (create address size) state) (returned : .returned ∈ state.calls)
    : ∃ before place,
        Run (create address size) before
        ∧ before.pool.drained = false
        ∧ before.calls[place]? = some .awaitsQueue
        ∧ Run (before.drain place) state
        ∧ before.pool.stats.idle + before.pool.stats.pending + before.pool.stats.checkedOut
          + before.returning.length = max size 1
        ∧ ∀ later,
            Run state later
            → later.pool.stats.size = max size 1
              ∧ later.pool.stats.idle + later.pool.stats.pending + later.pool.stats.checkedOut
                + later.returning.length + before.pool.idleQueue.length = max size 1
              ∧ (later.held = []
                → later.returning = []
                → later.pool.stats.idle = 0
                  ∧ later.pool.stats.checkedOut = 0
                  ∧ later.pool.stats.pending + before.pool.idleQueue.length = max size 1) := by
  rcases accounted_or_gaveUp run with ⟨undrained, -⟩ | ⟨before, place, gaveUp⟩
  · have drained := (staged_of_run run).drained returned
    cases drained.symm.trans undrained
  refine ⟨before, place, gaveUp.run, gaveUp.undrained, gaveUp.awaits, gaveUp.more,
    gaveUp.accounted.total, fun later more => ?_⟩
  obtain ⟨accounted, empty⟩ := gaveUp.goesOn more
  exact ⟨accounted.sized, accounted.total, accounted.all_pending empty⟩

end Steps

/-- One of the two clients of the pool was held when the other, which was idle, was given up. When
it has been let go one token waits, and the other one is missing.
-/
theorem tokens_of_closedPool
    : Run (create "a:1" 2) closedPool
      ∧ .returned ∈ closedPool.calls
      ∧ (closedPool.letGo 0 Circulation.greeted).held = []
      ∧ (closedPool.letGo 0 Circulation.greeted).returning = []
      ∧ ∃ before place,
          Run (create "a:1" 2) before
          ∧ Run (before.drain place) closedPool
          ∧ before.pool.idleQueue.length = 1 := by
  have more : Run closedPool (closedPool.letGo 0 Circulation.greeted) :=
    Run.none.next (.letGo List.mem_cons_self rfl)
  obtain ⟨before, place, run, -, -, gaveUp, -, accounted⟩ :=
    closing_loses_idle_tokens "a:1" 2 closedPool run_closedPool List.mem_cons_self
  obtain ⟨-, -, pending⟩ := (accounted _ more).2.2 rfl rfl
  have waits : (closedPool.letGo 0 Circulation.greeted).pool.stats.pending = 1 := rfl
  exact ⟨run_closedPool, List.mem_cons_self, rfl, rfl, before, place, run, gaveUp, by omega⟩

/-- A pool of one whose client was idle when the pool was closed. No token is idle, waits or is held
any more.
-/
theorem exists_token_lost
    : ∃ state : Shutdown Nat Nat,
        Run (create "a:1" 1) state
        ∧ state.calls = [.returned]
        ∧ state.held = []
        ∧ state.returning = []
        ∧ state.pool.stats = { size := 1, idle := 0, pending := 0, checkedOut := 0 } := by
  have dialling : Run (create "a:1" 1 : Shutdown Nat Nat) _ := Run.none.next (.takeToken rfl)
  have dialled : Run (create "a:1" 1 : Shutdown Nat Nat) _ :=
    dialling.next (@Step.dialled Nat Nat _ _ _ 0 _ _ rfl rfl Circulation.handshake_greeted)
  have stopped := (dialled.next .call).next (.stop rfl)
  have supervised : Run (create "a:1" 1 : Shutdown Nat Nat) _ :=
    stopped.next (@Step.supervised Nat Nat _ _ _ 0 rfl rfl)
  exact ⟨_, supervised.next (@Step.drain Nat Nat _ _ _ 0 rfl), rfl, rfl, rfl, rfl⟩

end Shutdown

end SourceView
