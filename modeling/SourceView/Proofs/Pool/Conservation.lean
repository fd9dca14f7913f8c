import Mathlib
import SourceView.Proofs.Pool.Circulation

/-! The tokens of a pool are neither lost nor doubled.
As long as the pool is open, its tallies count what they stand for and add up to its size, and each
of its connections that is open is idle or in one pair of hands.
-/

namespace SourceView

/-- The tokens in a supervisor's hands. -/
def Supervisor.inHand (supervisor : Supervisor) : Nat :=
  if supervisor.holdsToken then 1 else 0

-----------------------------------------------------------------------------------------
-- What the operations of a pool do, whether it has heard of its end or not
-----------------------------------------------------------------------------------------

namespace Pool

variable {κ τ : Type} {pool after : Pool κ τ} {client : κ} {ticket : τ}

/-- The supervisor takes a token and begins to dial. It may not have heard that the pool is closed.
-/
def takeToken? (pool : Pool κ τ) : Option (Pool κ τ) :=
  if pool.supervisor = .resting ∧ 0 < pool.tokens then
    some { pool with tokens := pool.tokens - 1, supervisor := .dialling }
  else none

/-- Give the client that has been idle longest to the one who has waited longest, who may not have
heard that the pool is closed.
-/
def lend? (pool : Pool κ τ) : Option (τ × κ × Pool κ τ) :=
  match pool.waiting, pool.idleQueue with
  | ticket :: waiting, client :: idleQueue =>
    some (ticket, client, {
      pool with
      waiting
      idleQueue
      checkedOut := pool.checkedOut + 1
      idle := pool.idle - 1 })
  | _, _ => none

/-- An open pool dials whenever there is a token for it. -/
theorem startDial?_eq (pool : Pool κ τ)
    : pool.startDial? = if pool.closed then none else pool.takeToken? := by
  cases closed : pool.closed with
  | true | false => simp [startDial?, takeToken?, closed]

/-- An open pool grants a client whenever there is one to be lent. -/
theorem grant?_eq (pool : Pool κ τ)
    : pool.grant? = if pool.closed then none else pool.lend? := rfl

/-- A token is taken by a supervisor that rests. -/
theorem takeToken?_eq_some (taken : pool.takeToken? = some after)
    : pool.supervisor = .resting
      ∧ 0 < pool.tokens
      ∧ after = { pool with tokens := pool.tokens - 1, supervisor := .dialling } := by
  unfold takeToken? at taken
  split at taken
  · next able => exact ⟨able.1, able.2, (Option.some.inj taken).symm⟩
  · cases taken

/-- The client that is lent was idle longest. -/
theorem lend?_eq_some (lent : pool.lend? = some (ticket, client, after))
    : ∃ waiting idleQueue,
        pool.idleQueue = client :: idleQueue
        ∧ after = {
          pool with
          waiting, idleQueue, checkedOut := pool.checkedOut + 1, idle := pool.idle - 1 } := by
  unfold lend? at lent
  split at lent
  · next waiting _ idleQueue _ queue =>
      cases lent
      exact ⟨waiting, idleQueue, queue, rfl⟩
  · cases lent

-----------------------------------------------------------------------------------------
-- What the operations of an open pool do
-----------------------------------------------------------------------------------------

/-- A pool that starts to dial is open and takes a token. -/
theorem startDial?_eq_some (started : pool.startDial? = some after)
    : pool.supervisor = .resting
      ∧ 0 < pool.tokens
      ∧ after = { pool with tokens := pool.tokens - 1, supervisor := .dialling } := by
  rw [startDial?_eq] at started
  split at started
  · cases started
  · exact takeToken?_eq_some started

/-- A pool that grants a client is open and lends one. -/
theorem grant?_eq_some (granted : pool.grant? = some (ticket, client, after))
    : ∃ waiting idleQueue,
        pool.idleQueue = client :: idleQueue
        ∧ after = {
          pool with
          waiting, idleQueue, checkedOut := pool.checkedOut + 1, idle := pool.idle - 1 } := by
  rw [grant?_eq] at granted
  split at granted
  · cases granted
  · exact lend?_eq_some granted

/-- The supervisor dials again only when it has waited. -/
theorem redial?_eq_some {now : Nat} (elapsed : pool.redial? now = some after)
    : ∃ since due,
        pool.supervisor = .backingOff since due
        ∧ after = { pool with supervisor := .dialling } := by
  unfold redial? at elapsed
  split at elapsed
  · next since due waits =>
      split at elapsed
      · exact ⟨since, due, waits, (Option.some.inj elapsed).symm⟩
      · cases elapsed
  · cases elapsed

/-- Only a closed pool refuses. -/
theorem closed_of_refuse? (refused : pool.refuse? = some (ticket, after))
    : after.closed = true := by
  unfold refuse? at refused
  split at refused
  · next closed =>
      split at refused
      · cases refused
      · cases refused
        exact closed
  · cases refused

/-- A client that was dialled becomes idle where there is room for it. -/
theorem dialled_of_lt {offer : Offer} (dialling : pool.supervisor = .dialling)
    (undrained : pool.drained = false) (room : pool.idleQueue.length < pool.size)
    : pool.dialled client offer
      = (true, {
        pool with
        supervisor := .resting
        delay := minDelay
        offer
        pending := pool.pending - 1
        idleQueue := pool.idleQueue ++ [client]
        idle := pool.idle + 1 }) := by
  simp [dialled, dialling, enqueue?, undrained, Nat.not_le.mpr room]

/-- A client that is fit for use becomes idle where there is room for it. -/
theorem release_of_clean (isOpen : pool.closed = false) (undrained : pool.drained = false)
    (room : pool.idleQueue.length < pool.size)
    : pool.release client true
      = (true, {
        pool with
        checkedOut := pool.checkedOut - 1
        idleQueue := pool.idleQueue ++ [client]
        idle := pool.idle + 1 }) := by
  simp [release, isOpen, enqueue?, undrained, Nat.not_le.mpr room]

/-- A client that is not fit for use gives its token back where there is room for it. -/
theorem release_of_unfit (isOpen : pool.closed = false) (room : pool.tokens < pool.size)
    : pool.release client false
      = (false, {
        pool with
        checkedOut := pool.checkedOut - 1
        pending := pool.pending + 1
        tokens := pool.tokens + 1 }) := by
  simp [release, returnToken, isOpen, room]

/-- Queueing a client does not close the pool. -/
theorem closed_enqueue? (queued : pool.enqueue? client = some after)
    : after.closed = pool.closed := by
  unfold enqueue? at queued
  split at queued
  · cases queued
  · cases queued
    rfl

/-- Dialling does not close the pool. -/
theorem closed_dialled (pool : Pool κ τ) (client : κ) (offer : Offer)
    : (pool.dialled client offer).2.closed = pool.closed := by
  simp only [dialled]
  split
  · split
    · next queued =>
        have kept := closed_enqueue? queued
        exact kept
    · rfl
  · rfl

/-- Releasing a client does not close the pool. -/
theorem closed_release (pool : Pool κ τ) (client : κ) (clean : Bool)
    : (pool.release client clean).2.closed = pool.closed := by
  simp only [release]
  split
  · rfl
  · split
    · next queued =>
        have kept := closed_enqueue? queued
        exact kept
    · rfl

end Pool

-----------------------------------------------------------------------------------------
-- The balance of an open pool
-----------------------------------------------------------------------------------------

namespace Circulation

variable {κ τ : Type} {size : Nat} {state next : Circulation κ τ}

/-- The tallies of a pool are right, and no client is in two places. -/
structure Balanced (size : Nat) (state : Circulation κ τ) : Prop where
  sized : state.pool.size = size
  undrained : state.pool.drained = false
  idle : state.pool.idle = state.pool.idleQueue.length
  pending : state.pool.pending = state.pool.tokens + state.pool.supervisor.inHand
  checkedOut : state.pool.checkedOut = state.held.length
  total : state.pool.idle + state.pool.pending + state.pool.checkedOut = size
  apart : (state.pool.idleQueue ++ state.held).Nodup
  known : ∀ name ∈ state.pool.idleQueue ++ state.held, state.clients name ≠ none
  placed
    : ∀ name client,
        state.clients name = some client → client.ending = none
        → name ∈ state.pool.idleQueue ++ state.held

/-- The tallies of a pool that has yet to dial are right. -/
theorem Balanced.create (address : String) (size : Nat)
    : Balanced (max size 1) (create address size : Circulation κ τ) where
  sized := rfl
  undrained := rfl
  idle := rfl
  pending := rfl
  checkedOut := rfl
  total := by simp [Circulation.create, Pool.create]
  apart := List.nodup_nil
  known := by simp [Circulation.create, Pool.create]
  placed := by simp [Circulation.create]

/-- A client that someone holds leaves room in both queues. -/
theorem Balanced.room_of_held {name : κ} (balanced : Balanced size state)
    (holds : name ∈ state.held)
    : state.pool.idleQueue.length < state.pool.size ∧ state.pool.tokens < state.pool.size := by
  have someHeld : 0 < state.held.length := List.length_pos_of_mem holds
  obtain ⟨sized, -, idle, pending, checkedOut, total, -⟩ := balanced
  omega

/-- A token in the supervisor's hands leaves room in the idle queue. -/
theorem Balanced.room_of_dialling (balanced : Balanced size state)
    (dialling : state.pool.supervisor = .dialling)
    : state.pool.idleQueue.length < state.pool.size := by
  obtain ⟨sized, -, idle, pending, checkedOut, total, -⟩ := balanced
  rw [dialling] at pending
  simp only [Supervisor.inHand, Supervisor.holdsToken, if_true] at pending
  omega

/-- A step that leaves queues and hands alone and opens no connection keeps the balance if the
supervisor's tokens still add up.
-/
theorem Balanced.of_supervisor {tokens delay : Nat} {supervisor : Supervisor}
    (balanced : Balanced size state)
    (same : tokens + supervisor.inHand = state.pool.tokens + state.pool.supervisor.inHand)
    : Balanced size { state with pool := { state.pool with tokens, supervisor, delay } } where
  sized := balanced.sized
  undrained := balanced.undrained
  idle := balanced.idle
  pending := balanced.pending.trans same.symm
  checkedOut := balanced.checkedOut
  total := balanced.total
  apart := balanced.apart
  known := balanced.known
  placed := balanced.placed

/-- The client that has been idle longest goes from the queue into someone's hands. -/
theorem Balanced.grant {ticket : τ} {name : κ} {pool : Pool κ τ} (balanced : Balanced size state)
    (granted : state.pool.grant? = some (ticket, name, pool))
    : Balanced size { state with pool, held := state.held ++ [name] } := by
  obtain ⟨waiting, idleQueue, queue, rfl⟩ := Pool.grant?_eq_some granted
  have moved : (idleQueue ++ (state.held ++ [name])).Perm (state.pool.idleQueue ++ state.held) := by
    rw [queue, ← List.append_assoc]
    exact List.perm_append_singleton name (idleQueue ++ state.held)
  have counted := balanced.idle
  rw [queue, List.length_cons] at counted
  refine ⟨balanced.sized, balanced.undrained, ?_, balanced.pending, ?_, ?_, ?_, ?_, ?_⟩
  · dsimp only
    omega
  · simp only [List.length_append, List.length_singleton, balanced.checkedOut]
  · have total := balanced.total
    dsimp only
    omega
  · exact moved.nodup_iff.mpr balanced.apart
  · intro other member
    exact balanced.known other (moved.mem_iff.mp member)
  · intro other client located alive
    exact moved.mem_iff.mpr (balanced.placed other client located alive)

section Steps

variable [DecidableEq κ]

/-- The tallies stay right whatever happens to a client that does not come back to life. -/
theorem Balanced.setClient {name : κ} {client after : Client} (balanced : Balanced size state)
    (known : state.clients name = some client)
    (stays : after.ending = none → client.ending = none)
    : Balanced size (state.setClient name after) where
  sized := balanced.sized
  undrained := balanced.undrained
  idle := balanced.idle
  pending := balanced.pending
  checkedOut := balanced.checkedOut
  total := balanced.total
  apart := balanced.apart
  known := by
    intro other member
    simp only [Circulation.setClient, override]
    split
    · nofun
    · exact balanced.known other member
  placed := by
    intro other found located alive
    simp only [Circulation.setClient, override] at located
    split at located
    · next same =>
        cases located
        subst same
        exact balanced.placed other client known (stays alive)
    · exact balanced.placed other found located alive

/-- A client that comes back goes into the queue if it is fit for use, and otherwise its token goes
to the supervisor.
-/
theorem Balanced.putBack {name : κ} {client : Client} (balanced : Balanced size state)
    (isOpen : state.pool.closed = false) (holds : name ∈ state.held)
    (known : state.clients name = some client)
    : Balanced size (state.putBack name client) := by
  obtain ⟨queueRoom, tokenRoom⟩ := balanced.room_of_held holds
  have split : state.held.Perm (name :: state.held.erase name) := List.perm_cons_erase holds
  have moved : (state.pool.idleQueue ++ state.held).Perm
      (name :: (state.pool.idleQueue ++ state.held.erase name)) :=
    (split.append_left _).trans List.perm_middle
  have counted := split.length_eq
  rw [List.length_cons] at counted
  obtain ⟨sized, undrained, idle, pending, checkedOut, total, apart, knows, placed⟩ := balanced
  have later : ∀ other, other ≠ name → other ∈ state.pool.idleQueue ++ state.held
      → other ∈ state.pool.idleQueue ++ state.held.erase name := by
    intro other different member
    rcases List.mem_cons.mp (moved.mem_iff.mp member) with same | rest
    · exact absurd same different
    · exact rest
  cases fit : client.isIdle with
  | true =>
      -- Queue and hands hold the same clients as before, in another order
      have back : (state.pool.idleQueue ++ [name] ++ state.held.erase name).Perm
          (state.pool.idleQueue ++ state.held) := by
        rw [List.append_assoc, List.singleton_append]
        exact List.perm_middle.trans moved.symm
      simp only [Circulation.putBack, fit, Pool.release_of_clean isOpen undrained queueRoom,
        if_true]
      refine Balanced.setClient ?_ known id
      refine ⟨sized, undrained, ?_, pending, ?_, ?_, back.nodup_iff.mpr apart, ?_, ?_⟩
      · simp [idle]
      · dsimp only
        omega
      · dsimp only
        omega
      · intro other member
        exact knows other (back.mem_iff.mp member)
      · intro other found located alive
        exact back.mem_iff.mpr (placed other found located alive)
  | false =>
      -- The client is closed and so need not be in any place; only its token is kept
      simp only [Circulation.putBack, fit, Pool.release_of_unfit isOpen tokenRoom,
        Bool.false_eq_true, if_false]
      refine ⟨sized, undrained, idle, ?_, ?_, ?_, ?_, ?_, ?_⟩
      · simp only [Circulation.setClient]
        omega
      · simp only [Circulation.setClient]
        omega
      · simp only [Circulation.setClient]
        omega
      · exact (List.nodup_cons.mp (moved.nodup_iff.mp apart)).2
      · intro other member
        simp only [Circulation.setClient, override]
        split
        · nofun
        · exact knows other (moved.mem_iff.mpr (List.mem_cons_of_mem _ member))
      · intro other found located alive
        simp only [Circulation.setClient, override] at located
        split at located
        · cases located
          simp [Client.close] at alive
        · next different => exact later other different (placed other found located alive)

/-- A new client goes from the supervisor into the queue. -/
theorem Balanced.dialled {name : κ} {client : Client} (balanced : Balanced size state)
    (dialling : state.pool.supervisor = .dialling) (new : state.clients name = none)
    : Balanced size (state.dialled name client) := by
  have room := balanced.room_of_dialling dialling
  obtain ⟨sized, undrained, idle, pending, checkedOut, total, apart, knows, placed⟩ := balanced
  rw [dialling] at pending
  simp only [Supervisor.inHand, Supervisor.holdsToken, if_true] at pending
  have fresh : name ∉ state.pool.idleQueue ++ state.held := fun member => knows name member new
  have moved : (state.pool.idleQueue ++ [name] ++ state.held).Perm
      (name :: (state.pool.idleQueue ++ state.held)) := by
    rw [List.append_assoc, List.singleton_append]
    exact List.perm_middle
  simp only [Circulation.dialled, Pool.dialled_of_lt dialling undrained room, if_true]
  refine ⟨sized, undrained, ?_, ?_, checkedOut, ?_, ?_, ?_, ?_⟩
  · simp [Circulation.setClient, idle]
  · simp only [Circulation.setClient, Supervisor.inHand, Supervisor.holdsToken, pending]
    simp
  · simp only [Circulation.setClient]
    omega
  · exact moved.nodup_iff.mpr (List.nodup_cons.mpr ⟨fresh, apart⟩)
  · intro other member
    simp only [Circulation.setClient, override]
    split
    · nofun
    · next different =>
        rcases List.mem_cons.mp (moved.mem_iff.mp member) with same | rest
        · exact absurd same different
        · exact knows other rest
  · intro other found located alive
    simp only [Circulation.setClient, override] at located
    apply moved.mem_iff.mpr
    split at located
    · next same => exact same ▸ List.mem_cons_self
    · exact List.mem_cons_of_mem _ (placed other found located alive)

/-- A step that leaves the pool open keeps the balance, by cases on the step. -/
theorem Step.balanced [DecidableEq τ] (step : Step state next) (isOpen : next.pool.closed = false)
    (balanced : state.pool.closed = false → Balanced size state)
    : Balanced size next := by
  cases step with
  | request | withdraw =>
      obtain ⟨sized, undrained, idle, pending, checkedOut, total, apart, known, placed⟩ :=
        balanced isOpen
      exact ⟨sized, undrained, idle, pending, checkedOut, total, apart, known, placed⟩
  | grant granted =>
      obtain ⟨waiting, idleQueue, queue, rfl⟩ := Pool.grant?_eq_some granted
      exact (balanced isOpen).grant granted
  | refuse refused =>
      rw [Pool.closed_of_refuse? refused] at isOpen
      cases isOpen
  | use holds known use => exact (balanced isOpen).setClient known use.ending
  | putBack holds known =>
      have wasOpen : state.pool.closed = false := (Pool.closed_release ..).symm.trans isOpen
      exact (balanced wasOpen).putBack wasOpen holds known
  | serve known pipe => exact (balanced isOpen).setClient known id
  | startDial started =>
      obtain ⟨resting, tokens, rfl⟩ := Pool.startDial?_eq_some started
      apply (balanced isOpen).of_supervisor
      simp only [resting, Supervisor.inHand, Supervisor.holdsToken]
      simp
      omega
  | dialFailed now =>
      unfold Pool.dialFailed at isOpen ⊢
      split
      · next dialling =>
          rw [if_pos dialling] at isOpen
          apply (balanced isOpen).of_supervisor
          rw [dialling]
          rfl
      · next other =>
          rw [if_neg other] at isOpen
          exact balanced isOpen
  | redial now elapsed =>
      obtain ⟨since, due, waits, rfl⟩ := Pool.redial?_eq_some elapsed
      apply (balanced isOpen).of_supervisor
      rw [waits]
      rfl
  | dialled dialling new greeted =>
      have wasOpen : state.pool.closed = false := (Pool.closed_dialled ..).symm.trans isOpen
      exact (balanced wasOpen).dialled dialling new
  | cancel => cases isOpen
  | drain closed => cases closed.symm.trans isOpen

end Steps

-----------------------------------------------------------------------------------------
-- Runs
-----------------------------------------------------------------------------------------

variable [DecidableEq κ] [DecidableEq τ]

/-- While a pool is open its tallies are right, by induction on the run. -/
theorem Run.balanced {address : String} (run : Run (create address size) state)
    (isOpen : state.pool.closed = false)
    : Balanced (max size 1) state := by
  induction run with
  | none => exact .create address size
  | next _ step ih => exact step.balanced isOpen ih

/-- However an open pool is used, its tallies count the idle clients, the tokens that wait for the
supervisor or are with it, and the clients that someone holds; together these are as many as the
pool is large. A connection that is open is idle or held, and that once, and neither queue is full
when something is to be put into it.
-/
theorem tokens_conserved (address : String) (size : Nat) (state : Circulation κ τ)
    (run : Run (create address size) state) (isOpen : state.pool.closed = false)
    : state.pool.stats.idle = state.pool.idleQueue.length
      ∧ state.pool.stats.pending = state.pool.tokens + state.pool.supervisor.inHand
      ∧ state.pool.stats.checkedOut = state.held.length
      ∧ state.pool.stats.idle + state.pool.stats.pending + state.pool.stats.checkedOut = max size 1
      ∧ state.pool.size = max size 1
      ∧ (∀ name client,
          state.clients name = some client → client.ending = none
          → state.pool.idleQueue.count name + state.held.count name = 1)
      ∧ (∀ name ∈ state.held,
          state.pool.idleQueue.length < state.pool.size ∧ state.pool.tokens < state.pool.size)
      ∧ (state.pool.supervisor = .dialling → state.pool.idleQueue.length < state.pool.size) := by
  have balanced := run.balanced isOpen
  refine ⟨balanced.idle, balanced.pending, balanced.checkedOut, balanced.total, balanced.sized, ?_,
    fun _ holds => balanced.room_of_held holds, balanced.room_of_dialling⟩
  intro name client located alive
  rw [← List.count_append]
  exact balanced.apart.count.trans (if_pos (balanced.placed name client located alive))

/-- A client that has just been greeted. -/
def greeted : Client := { greeting := { name := "a" }, pipe := {} }

/-- The greeting makes a client. -/
theorem handshake_greeted
    : Client.handshake?
        { inbound := Text.Utf8.bytes
            "\x7b\"opcode\":\"info\",\"body\":\x7b\"name\":\"a\"\x7d\x7d\n" }
      = some (.ok greeted) := by
  cbv

/-- A pool of two, whose one client so far is held by someone. -/
def heldPool : Circulation Nat Nat where
  pool := {
    address := "a:1"
    size := 2
    tokens := 1
    delay := 10
    offer := greeted.greeting.offer
    pending := 1
    checkedOut := 1 }
  clients := override (fun _ => none) 0 (some greeted)
  held := [0]

/-- The pool with a client that is held comes of a dial and a request. -/
theorem run_heldPool : Run (create "a:1" 2) heldPool := by
  have dialling : Run (create "a:1" 2 : Circulation Nat Nat) _ :=
    Run.none.next (.startDial rfl)
  have dialled : Run (create "a:1" 2 : Circulation Nat Nat) (Circulation.dialled _ 0 greeted) :=
    dialling.next (.dialled rfl rfl handshake_greeted)
  exact (dialled.next (.request 7)).next (@Step.grant Nat Nat _ _ _ 7 0 _ rfl)

/-- The pool after its client was asked and given up before it has answered. -/
def abandonedPool : Circulation Nat Nat :=
  let asked := (greeted.ask { line := "x" }).2
  (heldPool.setClient 0 asked).putBack 0 asked

/-- A client that is given up before it has answered costs the pool a connection, but no token. -/
theorem tokens_of_abandonedPool
    : Run (create "a:1" 2) abandonedPool
      ∧ abandonedPool.pool.closed = false
      ∧ abandonedPool.pool.stats.pending = 2 := by
  have asked : Run (create "a:1" 2) _ :=
    run_heldPool.next (.use List.mem_cons_self rfl (.ask { line := "x" }))
  have run : Run (create "a:1" 2) abandonedPool := asked.next (.putBack List.mem_cons_self rfl)
  obtain ⟨-, pending, -⟩ := tokens_conserved "a:1" 2 abandonedPool run rfl
  exact ⟨run, rfl, pending⟩

end Circulation

end SourceView
