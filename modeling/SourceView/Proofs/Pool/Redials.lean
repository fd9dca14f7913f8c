import SourceView.Network.Run
import SourceView.Proofs.Pool.Losses

/-! How long a supervisor waits before it dials again.
The wait after a failed attempt depends only on how many attempts have failed one after the other.
The clock stands beside the pool here, with a record of what the supervisor has done about its
connections. It does not move past the end of a wait, just as that of a network does not.
-/

namespace SourceView

-----------------------------------------------------------------------------------------
-- Records of attempts to dial
-----------------------------------------------------------------------------------------

/-- Something about an attempt to dial, with its time. -/
inductive DialEvent (κ : Type) where
  | began (time : Nat)
  | failed (time : Nat)
  /-- The attempt has brought a client. -/
  | connected (time : Nat) (client : κ)
  deriving DecidableEq

namespace DialEvent

variable {κ : Type} {dials : List (DialEvent κ)} {event : DialEvent κ}

def begins : DialEvent κ → Bool
  | began _ => true
  | failed _ | connected _ _ => false

/-- How many attempts have begun. -/
def begun (dials : List (DialEvent κ)) : Nat :=
  dials.countP begins

/-- How many attempts have come to an end. -/
def ended (dials : List (DialEvent κ)) : Nat :=
  dials.countP fun event => !event.begins

/-- The number of attempts that have failed one after the other, when one more thing happens. -/
def tally (failures : Nat) : DialEvent κ → Nat
  | began _ => failures
  | failed _ => failures + 1
  | connected _ _ => 0

/-- How many attempts have failed one after the other since the last success, or the start. -/
def failures (dials : List (DialEvent κ)) : Nat :=
  dials.foldl tally 0

/-- How long the supervisor waits after so many failures, in milliseconds. -/
def backoff (failures : Nat) : Nat :=
  min (10 * 2 ^ (failures - 1)) 10000

/-- One more event is one more attempt if it begins one. -/
theorem begun_concat : begun (dials ++ [event]) = begun dials + if event.begins then 1 else 0 := by
  simp [begun, List.countP_append, List.countP_singleton]

/-- One more event ends one more attempt if it does not begin one. -/
theorem ended_concat : ended (dials ++ [event]) = ended dials + if event.begins then 0 else 1 := by
  cases begins : event.begins <;>
    simp [ended, List.countP_append, begins]

/-- One more event counts as a failure or ends the failures in a row. -/
theorem failures_concat : failures (dials ++ [event]) = event.tally (failures dials) := by
  simp [failures, List.foldl_append]

/-- What follows a failure is an attempt that begins at the end of the wait. -/
def KeepsTime (dials : List (DialEvent κ)) : Prop :=
  ∀ before time after,
    dials = before ++ .failed time :: after
    → after = []
      ∨ ∃ rest, after = .began (time + backoff (failures (before ++ [.failed time]))) :: rest

/-- An empty record keeps the time. -/
theorem keepsTime_nil : KeepsTime ([] : List (DialEvent κ)) :=
  fun before _ _ split => absurd split.symm (by simp)

/-- Whatever happens next keeps time unless it comes behind a failure. -/
theorem KeepsTime.concat (keeps : KeepsTime dials)
    (next : ∀ time,
      dials.getLast? = some (.failed time) → event = .began (time + backoff (failures dials)))
    : KeepsTime (dials ++ [event]) := by
  intro before time after split
  rcases List.eq_nil_or_concat after with rfl | ⟨more, last, rfl⟩
  · exact .inl rfl
  · have joined : dials ++ [event] = (before ++ .failed time :: more) ++ [last] := by
      simpa using split
    obtain ⟨rfl, same⟩ := List.append_inj' joined rfl
    obtain rfl := List.singleton_inj.mp same
    rcases keeps before time more rfl with rfl | ⟨rest, rfl⟩
    · obtain rfl := next time (by simp)
      exact .inr ⟨[], rfl⟩
    · exact .inr ⟨rest ++ [event], by simp⟩

end DialEvent

-----------------------------------------------------------------------------------------
-- A pool with a clock
-----------------------------------------------------------------------------------------

/-- A pool in use, the time in milliseconds, and what the supervisor has done so far. -/
structure Supervision (κ τ : Type) extends Shutdown κ τ where
  now : Nat := 0
  dials : List (DialEvent κ) := []

namespace Supervision

open DialEvent

variable {κ τ : Type}

/-- A pool that has yet to dial. -/
def create (address : String) (size : Nat) : Supervision κ τ :=
  { toShutdown := .create address size }

section Steps

variable [DecidableEq κ] [DecidableEq τ]

/-- One step of a pool with a clock. A supervisor that waits after a failure is woken in time.
Whatever those who use the pool or close it do, they leave the supervisor as it is.
-/
inductive Step : Supervision κ τ → Supervision κ τ → Prop
  | pass {state} (time : Nat) (later : state.now ≤ time)
    (inTime : ∀ since due, state.pool.supervisor = .backingOff since due → time ≤ due)
    : Step state { state with now := time }
  | begin {state pool} (taken : state.pool.takeToken? = some pool)
    : Step state { state with pool, dials := state.dials ++ [.began state.now] }
  | fail {state} (dialling : state.pool.supervisor = .dialling)
    : Step state {
        state with
        pool := state.pool.dialFailed state.now, dials := state.dials ++ [.failed state.now] }
  | beginAgain {state pool} (elapsed : state.pool.redial? state.now = some pool)
    : Step state { state with pool, dials := state.dials ++ [.began state.now] }
  | connect {state name pipe client} (dialling : state.pool.supervisor = .dialling)
    (new : state.clients name = none) (greeted : Client.handshake? pipe = some (.ok client))
    : Step state {
        state with
        toCirculation := state.toCirculation.dialled name client
        dials := state.dials ++ [.connected state.now name] }
  | stop {state} (closed : state.pool.closed = true)
    : Step state { state with pool := state.pool.stop }
  | meanwhile {state next} (step : Shutdown.Step state.toShutdown next)
    (apart : next.pool.supervisor = state.pool.supervisor)
    : Step state { state with toShutdown := next }

/-- Steps, one after the other. -/
inductive Run : Supervision κ τ → Supervision κ τ → Prop
  | none {state} : Run state state
  | next {state middle final} (run : Run state middle) (step : Step middle final)
    : Run state final

variable {state next later : Supervision κ τ}

/-- A clock does not change what a pool does. -/
theorem Step.untimed (step : Step state next)
    : next.toShutdown = state.toShutdown ∨ Shutdown.Step state.toShutdown next.toShutdown := by
  cases step with
  | pass => exact .inl rfl
  | begin taken => exact .inr (.takeToken taken)
  | fail => exact .inr (.dialFailed state.now)
  | beginAgain elapsed => exact .inr (.redial state.now elapsed)
  | connect dialling new greeted => exact .inr (.dialled dialling new greeted)
  | stop closed => exact .inr (.stop closed)
  | meanwhile step => exact .inr step

/-- Without the clock a run is one of a pool that may be closed, by induction on the run. -/
theorem Run.untimed (run : Run state later)
    : Shutdown.Run state.toShutdown later.toShutdown := by
  induction run with
  | none => exact .none
  | next _ step ih =>
      rcases step.untimed with same | other
      · rwa [same]
      · exact ih.next other

end Steps

-----------------------------------------------------------------------------------------
-- What a supervisor does goes by the record
-----------------------------------------------------------------------------------------

/-- What a supervisor is doing at a time, by the record. -/
inductive Phase (now : Nat) (dials : List (DialEvent κ)) : Supervisor → Prop
  | resting (quiet : begun dials = ended dials)
    (behind : ∀ time, dials.getLast? ≠ some (.failed time))
    : Phase now dials .resting
  | dialling (underWay : begun dials = ended dials + 1)
    (behind : ∀ time, dials.getLast? ≠ some (.failed time))
    : Phase now dials .dialling
  | backingOff {since} (quiet : begun dials = ended dials)
    (last : dials.getLast? = some (.failed since))
    (early : now ≤ since + backoff (failures dials))
    : Phase now dials (.backingOff since (since + backoff (failures dials)))
  | stopped (few : ended dials ≤ begun dials ∧ begun dials ≤ ended dials + 1)
    : Phase now dials .stopped

/-- A supervisor is in a phase of its record, and its delay is that of the next failure. -/
structure Paced (state : Supervision κ τ) : Prop where
  keepsTime : KeepsTime state.dials
  delay : state.pool.delay = backoff (failures state.dials + 1)
  closed : state.pool.supervisor = .stopped → state.pool.closed = true
  phase : Phase state.now state.dials state.pool.supervisor

variable {now : Nat} {dials : List (DialEvent κ)} {supervisor : Supervisor}
  {state next later : Supervision κ τ}

/-- There is never more than one attempt going on, by cases on the phase. -/
theorem Phase.single (phase : Phase now dials supervisor)
    : ended dials ≤ begun dials ∧ begun dials ≤ ended dials + 1 := by
  cases phase with
  | resting quiet | backingOff quiet => omega
  | dialling underWay => omega
  | stopped few => exact few

/-- The clock moves on, but not past the end of a wait. -/
theorem Phase.pass {time : Nat} (phase : Phase now dials supervisor)
    (inTime : ∀ since due, supervisor = .backingOff since due → time ≤ due)
    : Phase time dials supervisor := by
  cases phase with
  | resting quiet behind => exact .resting quiet behind
  | dialling underWay behind => exact .dialling underWay behind
  | backingOff quiet last => exact .backingOff quiet last (inTime _ _ rfl)
  | stopped few => exact .stopped few

/-- The delay after one more failure. -/
theorem nextDelay_backoff (failures : Nat)
    : Pool.nextDelay (backoff (failures + 1)) = backoff (failures + 1 + 1) := by
  simp only [Pool.nextDelay, Pool.maxDelay, backoff, Nat.add_sub_cancel, Nat.pow_succ]
  omega

/-- A wait that is over has come to its end. -/
theorem due_of_redial? {pool after : Pool κ τ} {since due : Nat}
    (elapsed : pool.redial? now = some after) (waits : pool.supervisor = .backingOff since due)
    : due ≤ now := by
  simp only [Pool.redial?, waits] at elapsed
  split at elapsed
  · assumption
  · cases elapsed

/-- A supervisor that has yet to dial is in the first phase. -/
theorem Paced.create (address : String) (size : Nat)
    : (create address size : Supervision κ τ).Paced where
  keepsTime := keepsTime_nil
  delay := rfl
  closed := nofun
  phase := .resting rfl nofun

/-- A supervisor that takes a token begins an attempt. -/
theorem Paced.begin {pool : Pool κ τ} (paced : state.Paced)
    (taken : state.pool.takeToken? = some pool)
    : Paced { state with pool, dials := state.dials ++ [.began state.now] } := by
  obtain ⟨resting, -, rfl⟩ := Pool.takeToken?_eq_some taken
  obtain ⟨keepsTime, delay, -, phase⟩ := paced
  rw [resting] at phase
  cases phase with
  | resting quiet behind =>
      refine ⟨keepsTime.concat fun time last => absurd last (behind time), ?_, nofun,
        .dialling ?_ ?_⟩
      · rw [failures_concat]
        exact delay
      · simp [begun_concat, ended_concat, begins, quiet]
      · simp

/-- A supervisor whose attempt has failed waits as long as the failures in a row say. -/
theorem Paced.fail (paced : state.Paced) (dialling : state.pool.supervisor = .dialling)
    : Paced {
        state with
        pool := state.pool.dialFailed state.now, dials := state.dials ++ [.failed state.now] } := by
  obtain ⟨keepsTime, delay, -, phase⟩ := paced
  rw [dialling] at phase
  rw [Pool.dialFailed, if_pos dialling, delay]
  have counted : failures (state.dials ++ [.failed state.now]) = failures state.dials + 1 :=
    failures_concat
  cases phase with
  | dialling underWay behind =>
      refine ⟨keepsTime.concat fun time last => absurd last (behind time), ?_, nofun, ?_⟩
      · rw [counted]
        exact nextDelay_backoff (failures state.dials)
      · rw [← counted]
        refine .backingOff ?_ (by simp) (Nat.le_add_right _ _)
        simp [begun_concat, ended_concat, begins, underWay]

/-- A supervisor begins another attempt at the end of its wait. -/
theorem Paced.beginAgain {pool : Pool κ τ} (paced : state.Paced)
    (elapsed : state.pool.redial? state.now = some pool)
    : Paced { state with pool, dials := state.dials ++ [.began state.now] } := by
  obtain ⟨since, due, waits, rfl⟩ := Pool.redial?_eq_some elapsed
  have reached := due_of_redial? elapsed waits
  obtain ⟨keepsTime, delay, -, phase⟩ := paced
  rw [waits] at phase
  cases phase with
  | backingOff quiet last early =>
      -- The clock has not moved past the end of the wait, so it stands there
      have now := Nat.le_antisymm early reached
      refine ⟨keepsTime.concat fun time failed => ?_, ?_, nofun, .dialling ?_ ?_⟩
      · cases last.symm.trans failed
        rw [now]
      · rw [failures_concat]
        exact delay
      · simp [begun_concat, ended_concat, begins, quiet]
      · simp

/-- After a success the supervisor rests with its first delay, and the pool has a new offer. -/
theorem rested_dialled [DecidableEq κ] {circulation : Circulation κ τ}
    (dialling : circulation.pool.supervisor = .dialling) (name : κ) (client : Client)
    : (circulation.dialled name client).pool.supervisor = .resting
      ∧ (circulation.dialled name client).pool.delay = Pool.minDelay
      ∧ (circulation.dialled name client).pool.offer = client.greeting.offer := by
  simp only [Circulation.dialled, Circulation.setClient]
  rcases Pool.dialled_cases dialling name client.greeting.offer with same | same
  · rw [same]
    exact ⟨rfl, rfl, rfl⟩
  · rw [same]
    exact ⟨rfl, rfl, rfl⟩

/-- A supervisor whose attempt has succeeded starts counting failures anew. -/
theorem Paced.connect [DecidableEq κ] {name : κ} {client : Client} (paced : state.Paced)
    (dialling : state.pool.supervisor = .dialling)
    : Paced {
        state with
        toCirculation := state.toCirculation.dialled name client
        dials := state.dials ++ [.connected state.now name] } := by
  obtain ⟨keepsTime, -, -, phase⟩ := paced
  obtain ⟨resting, delay, -⟩ := rested_dialled dialling name client
  rw [dialling] at phase
  have counted : failures (state.dials ++ [.connected state.now name]) = 0 := failures_concat
  cases phase with
  | dialling underWay behind =>
      refine ⟨keepsTime.concat fun time last => absurd last (behind time), ?_, fun stopped => ?_,
        ?_⟩
      · rw [counted]
        exact delay
      · cases resting.symm.trans stopped
      · rw [resting]
        refine .resting ?_ (by simp)
        simp [begun_concat, ended_concat, begins, underWay]

/-- A supervisor whose last attempt has failed waits, or has heard that the pool is closed. -/
theorem Paced.waits {time : Nat} (paced : state.Paced)
    (last : state.dials.getLast? = some (.failed time))
    : (state.pool.supervisor = .backingOff time (time + backoff (failures state.dials))
        ∧ state.now ≤ time + backoff (failures state.dials))
      ∨ state.pool.closed = true := by
  obtain ⟨-, -, closed, phase⟩ := paced
  cases doing : state.pool.supervisor with
  | stopped => exact .inr (closed doing)
  | resting =>
      rw [doing] at phase
      cases phase with
      | resting _ behind => exact absurd last (behind time)
  | dialling =>
      rw [doing] at phase
      cases phase with
      | dialling _ behind => exact absurd last (behind time)
  | backingOff since due =>
      rw [doing] at phase
      cases phase with
      | backingOff quiet failed early =>
          cases last.symm.trans failed
          exact .inl ⟨rfl, early⟩

section Steps

variable [DecidableEq κ] [DecidableEq τ]

/-- Whoever leaves a supervisor as it is leaves its delay as it is. -/
theorem delay_of_apart {state next : Shutdown κ τ} (step : Shutdown.Step state next)
    (apart : next.pool.supervisor = state.pool.supervisor)
    : next.pool.delay = state.pool.delay := by
  cases step with
  | request | withdraw | turnAway | use | serve | stop | call | supervised | drain | abandon =>
      rfl
  | lend lent =>
      obtain ⟨_, _, -, rfl⟩ := Pool.lend?_eq_some lent
      rfl
  | letGo =>
      rcases state.letGo_cases _ _ with same | same
      · rw [same, Pool.letGo]
      · rw [same, Pool.returnToken, Pool.letGo]
  | takeIn =>
      rcases state.takeIn_cases _ _ with same | same
      · rw [same]
      · rw [same, Pool.returnToken]
  | takeToken taken =>
      obtain ⟨resting, -, rfl⟩ := Pool.takeToken?_eq_some taken
      cases apart.trans resting
  | dialFailed now =>
      unfold Pool.dialFailed at apart ⊢
      split
      · next dialling =>
          rw [if_pos dialling, dialling] at apart
          cases apart
      · rfl
  | redial now elapsed =>
      obtain ⟨since, due, waits, rfl⟩ := Pool.redial?_eq_some elapsed
      cases apart.trans waits
  | @dialled name _ client dialling =>
      have resting := (rested_dialled dialling name client).1
      cases resting.symm.trans (apart.trans dialling)

/-- A closed pool stays closed in each step. -/
theorem closed_of_step {state next : Shutdown κ τ} (step : Shutdown.Step state next)
    (closed : state.pool.closed = true)
    : next.pool.closed = true := by
  rcases step.keepsEnd_or with ⟨keeps, -⟩ | rfl | ⟨_, _, _, -, -, rfl⟩ | ⟨_, -, rfl⟩
  · exact keeps.closed.trans closed
  · rfl
  · exact closed
  · exact closed

/-- What leaves the supervisor alone leaves it in its phase. -/
theorem Paced.meanwhile {next : Shutdown κ τ} (paced : state.Paced)
    (step : Shutdown.Step state.toShutdown next)
    (apart : next.pool.supervisor = state.pool.supervisor)
    : Paced { state with toShutdown := next } where
  keepsTime := paced.keepsTime
  delay := (delay_of_apart step apart).trans paced.delay
  closed stopped := closed_of_step step (paced.closed (apart.symm.trans stopped))
  phase := by
    rw [apart]
    exact paced.phase

/-- What a pool and its clock do keeps the supervisor paced, by cases on the step. -/
theorem Step.paced (step : Step state next) (paced : state.Paced) : next.Paced := by
  cases step with
  | pass time later inTime => exact { paced with phase := paced.phase.pass inTime }
  | begin taken => exact paced.begin taken
  | fail dialling => exact paced.fail dialling
  | beginAgain elapsed => exact paced.beginAgain elapsed
  | connect dialling => exact paced.connect dialling
  | stop closed =>
      exact ⟨paced.keepsTime, paced.delay, fun _ => closed, .stopped paced.phase.single⟩
  | meanwhile step apart => exact paced.meanwhile step apart

/-- A supervisor is in the phase of its record, by induction on the run. -/
theorem Run.paced {address : String} {size : Nat} (run : Run (create address size) state)
    : state.Paced := by
  induction run with
  | none => exact .create address size
  | next _ step ih => exact step.paced ih

-----------------------------------------------------------------------------------------
-- The next attempt, and the client that an attempt has brought
-----------------------------------------------------------------------------------------

/-- A supervisor that waits begins its next attempt when the clock gets to the end of the wait. -/
theorem exists_next_attempt {since due : Nat}
    (waits : state.pool.supervisor = .backingOff since due) (early : state.now ≤ due)
    : ∃ next, Run state next ∧ next.now = due ∧ next.dials = state.dials ++ [.began due] := by
  have moved : Step state { state with now := due } := by
    refine .pass due early fun since' due' waits' => ?_
    cases waits.symm.trans waits'
    exact le_rfl
  have elapsed : state.pool.redial? due = some { state.pool with supervisor := .dialling } := by
    simp [Pool.redial?, waits]
  have begun := (Run.none.next moved).next (.beginAgain elapsed)
  exact ⟨_, begun, rfl, rfl⟩

/-- While the idle queue takes clients, it has room for the one that an attempt may bring. -/
theorem room_of_dialling {address : String} {size : Nat} (run : Run (create address size) state)
    (dialling : state.pool.supervisor = .dialling) (undrained : state.pool.drained = false)
    : state.pool.idleQueue.length < state.pool.size := by
  rcases Shutdown.accounted_or_gaveUp run.untimed with ⟨-, accounted⟩ | ⟨_, place, gaveUp⟩
  · obtain ⟨idle, pending, -, sized, total⟩ := accounted
    rw [Pool.CountsTokens, dialling] at pending
    have token : 1 ≤ state.pool.pending := Nat.le_trans (Nat.le_add_left 1 _) pending
    omega
  · cases (gaveUp.more.drained rfl).symm.trans undrained

/-- The idle queue takes clients until the pool has been told to close, at least. -/
theorem undrained_of_open {address : String} {size : Nat} (run : Run (create address size) state)
    (isOpen : state.pool.closed = false)
    : state.pool.drained = false := by
  have staged := run.untimed.staged (.create address size)
  cases drained : state.pool.drained with
  | false => rfl
  | true => cases (staged.empty drained).1.symm.trans isOpen

/-- A step that is recorded as a success puts the client that it has brought behind the idle ones,
and makes the offer of that client's greeting the pool's, by cases on the step.
-/
theorem Step.connects {time : Nat} {name : κ} {address : String} {size : Nat}
    (run : Run (create address size) state) (step : Step state next)
    (success : next.dials = state.dials ++ [.connected time name])
    : ∃ pipe client,
        Client.handshake? pipe = some (.ok client)
        ∧ state.clients name = none
        ∧ next.pool.offer = client.greeting.offer
        ∧ (state.pool.drained = false
          → next.clients name = some client
            ∧ next.pool.idleQueue = state.pool.idleQueue ++ [name]) := by
  cases step with
  | pass | stop | meanwhile => simp at success
  | begin | fail | beginAgain => simp at success
  | @connect other pipe client dialling new greeted =>
      have same : DialEvent.connected state.now other = .connected time name := by
        simpa using success
      cases same
      refine ⟨pipe, client, greeted, new, (rested_dialled dialling name client).2.2,
        fun undrained => ?_⟩
      · have room := room_of_dialling run dialling undrained
        simp [Circulation.dialled, Circulation.setClient,
          Pool.dialled_of_lt dialling undrained room, override]

/-- In every run, at most one attempt to dial is under way. After the k-th failure in a row the next
thing that the supervisor does is another attempt, 10 ms times the (k-1)-th power of 2 later but at
most 10 s, which the clock does not miss unless the pool has been told to close. An attempt that
succeeds brings one idle client, as long as the idle queue takes any, which it does until the pool
has been told to close, at least; and the pool's offer is that of this client's greeting. Then the
count starts from nothing.
-/
theorem redials_back_off (address : String) (size : Nat) (state : Supervision κ τ)
    (run : Run (create address size) state)
    : (ended state.dials ≤ begun state.dials ∧ begun state.dials ≤ ended state.dials + 1)
      ∧ (state.pool.closed = false → state.pool.drained = false)
      ∧ (∀ before time after,
          state.dials = before ++ .failed time :: after
          → let count := failures (before ++ [.failed time])
            let due := time + min (10 * 2 ^ (count - 1)) 10000
            1 ≤ count
            ∧ (after ≠ [] → ∃ rest, after = .began due :: rest)
            ∧ (after = [] → state.pool.closed = false
              → state.now ≤ due
                ∧ ∃ next,
                    Run state next
                    ∧ next.now = due
                    ∧ next.dials = state.dials ++ [.began due]))
      ∧ ∀ next time name,
          Step state next
          → next.dials = state.dials ++ [.connected time name]
          → failures next.dials = 0
            ∧ ∃ pipe client,
                Client.handshake? pipe = some (.ok client)
                ∧ state.clients name = none
                ∧ next.pool.offer = client.greeting.offer
                ∧ (state.pool.drained = false
                  → next.clients name = some client
                    ∧ next.pool.idleQueue = state.pool.idleQueue ++ [name]) := by
  have paced := run.paced
  refine ⟨paced.phase.single, undrained_of_open run, ?_, ?_⟩
  · intro before time after split count due
    refine ⟨?_, fun more => ?_, ?_⟩
    · have counted : count = failures before + 1 := failures_concat
      omega
    · exact (paced.keepsTime before time after split).resolve_left more
    · rintro rfl isOpen
      have last : state.dials.getLast? = some (.failed time) := by simp [split]
      have same : time + backoff (failures state.dials) = due := by
        rw [split]
        rfl
      rcases paced.waits last with ⟨waits, early⟩ | closed
      · rw [same] at waits early
        exact ⟨early, exists_next_attempt waits early⟩
      · cases closed.symm.trans isOpen
  · intro next time name step success
    refine ⟨?_, step.connects run success⟩
    rw [success]
    exact failures_concat

end Steps

/-- A pool of one whose supervisor has taken the token. -/
def poolOfOne (supervisor : Supervisor) (delay now : Nat) (dials : List (DialEvent Nat))
    : Supervision Nat Nat where
  toShutdown := {
    toCirculation := {
      pool := { address := "a:1", size := 1, tokens := 0, supervisor, delay }
      clients := fun _ => none } }
  now
  dials

/-- The backend of the pool has turned down two attempts, the first of them after 3 ms. -/
def turnedDownTwice : Supervision Nat Nat :=
  poolOfOne (.backingOff 13 33) 40 13 [.began 0, .failed 3, .began 13, .failed 13]

/-- The pool whose backend has turned down two attempts comes of them. -/
theorem run_turnedDownTwice : Run (create "a:1" 1) turnedDownTwice := by
  have begun : Run (create "a:1" 1) (poolOfOne .dialling 10 0 [.began 0]) :=
    Run.none.next (.begin rfl)
  have failed : Run (create "a:1" 1) (poolOfOne (.backingOff 3 13) 20 3 [.began 0, .failed 3]) :=
    (begun.next (.pass 3 (by decide) nofun)).next (.fail rfl)
  have waited
      : Run (create "a:1" 1) (poolOfOne (.backingOff 3 13) 20 13 [.began 0, .failed 3]) := by
    refine failed.next (.pass 13 (by decide) ?_)
    intro since due waits
    cases waits
    exact le_rfl
  have begunAgain
      : Run (create "a:1" 1) (poolOfOne .dialling 20 13 [.began 0, .failed 3, .began 13]) :=
    waited.next (.beginAgain rfl)
  exact begunAgain.next (.fail rfl)

/-- The third attempt begins 20 ms after the second one has failed. -/
theorem third_attempt_of_turnedDownTwice
    : Run (create "a:1" 1) turnedDownTwice
      ∧ ∃ next,
          Run turnedDownTwice next
          ∧ next.now = 33
          ∧ next.dials = turnedDownTwice.dials ++ [.began 33] := by
  obtain ⟨-, -, waits, -⟩ := redials_back_off "a:1" 1 turnedDownTwice run_turnedDownTwice
  obtain ⟨-, -, next⟩ := waits [.began 0, .failed 3, .began 13] 13 [] rfl
  exact ⟨run_turnedDownTwice, (next rfl rfl).2⟩

end Supervision

-----------------------------------------------------------------------------------------
-- The clock of a network
-----------------------------------------------------------------------------------------

namespace Network

variable {network : Network} {id : String} {station : Station} {since due : Nat}

/-- A station that is found is one of the network's stations. -/
theorem mem_entries_of_get? (known : network.stations.get? id = some station)
    : (id, station) ∈ network.stations.entries := by
  obtain ⟨before, after, split, -⟩ := List.lookup_eq_some_iff.mp known
  rw [split]
  exact List.mem_append_right _ List.mem_cons_self

/-- A supervisor that waits has a timer for the end of its wait. -/
theorem timer_of_backingOff (known : network.stations.get? id = some station)
    (waits : station.pool.supervisor = .backingOff since due)
    : ⟨since, due, .supervisor id⟩ ∈ network.timers := by
  refine List.mem_append_left _ (List.mem_flatMap.mpr ⟨_, mem_entries_of_get? known, ?_⟩)
  simp [stationTimers, waits]

/-- A network in which no one can move has no supervisor whose wait is over, and its clock does not
move past the end of one.
-/
theorem clock_in_time (quiet : network.movable = [])
    (known : network.stations.get? id = some station)
    (waits : station.pool.supervisor = .backingOff since due) (limit : Nat)
    : network.now < due
      ∧ (∀ next, network.nextDue? limit = some next → next ≤ due)
      ∧ (network.nextDue? limit = none → limit < due) := by
  have timer : due ∈ network.timers.map Timer.due :=
    List.mem_map.mpr ⟨_, timer_of_backingOff known waits, rfl⟩
  refine ⟨?_, fun next found => ?_, fun undue => ?_⟩
  · -- Otherwise the supervisor could dial
    refine Nat.lt_of_not_le fun reached => ?_
    have elapsed : (network.redial? id).isSome = true := by
      simp [redial?, known, Pool.redial?, waits, reached]
    have able : .supervisor id ∈ network.movable := by
      refine List.mem_filter.mpr ⟨?_, by simp [move?, supervise?, elapsed]⟩
      simp only [tasks, List.append_assoc]
      refine List.mem_append_left _ (List.mem_map_of_mem ?_)
      exact List.mem_map.mpr ⟨_, mem_entries_of_get? known, rfl⟩
    rw [quiet] at able
    cases able
  · obtain ⟨member, least⟩ := List.min?_eq_some_iff.mp found
    have within : next ≤ limit := by simpa using (List.mem_filter.mp member).2
    by_cases soon : due ≤ limit
    · exact least due (List.mem_filter.mpr ⟨timer, by simpa using soon⟩)
    · omega
  · have late := List.filter_eq_nil_iff.mp (List.min?_eq_none_iff.mp undue) due timer
    simpa using late

end Network

end SourceView
