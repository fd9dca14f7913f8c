import SourceView.Message.Backend

/-! Pools: a fixed number of connections to one backend.
A pool of size n owns n tokens. A token waits for the supervisor to dial a connection, or is with
the supervisor, or stands for an idle client, or for a client that someone holds. Clients that come
back unfit for use are discarded, and their tokens go back to the supervisor. The tallies are kept
beside the queues they count.
-/

namespace SourceView

/-- Why no client can be had. -/
inductive PoolError where
  | closed
  | unknownBackend (id : String)
  deriving DecidableEq, Repr

/-- The text that tells why no client can be had. -/
def PoolError.message : PoolError → String
  | closed => "backend pool is closed"
  | unknownBackend id => "unknown backend: " ++ id

/-- What a pool's supervisor is doing. -/
inductive Supervisor where
  /-- It waits for a token. -/
  | resting
  /-- It holds a token and opens a connection. -/
  | dialling
  /-- It holds a token and waits after a failure. -/
  | backingOff (since due : Nat)
  | stopped
  deriving DecidableEq, Repr

/-- The supervisor holds a token. -/
def Supervisor.holdsToken : Supervisor → Bool
  | dialling | backingOff _ _ => true
  | resting | stopped => false

/-- The connections to one backend. Clients go by names from `κ`, and those who wait for a client
by tickets from `τ`.
-/
structure Pool (κ τ : Type) where
  address : String
  size : Nat
  /-- Clients that nobody uses, the one that waits longest first. -/
  idleQueue : List κ := []
  /-- Tokens that wait for the supervisor. -/
  tokens : Nat := size
  supervisor : Supervisor := .resting
  /-- How long the supervisor waits after the next failure, in milliseconds. -/
  delay : Nat
  /-- Those who wait for a client, the first who came first. -/
  waiting : List τ := []
  /-- What the backend offered last. -/
  offer : Offer := {}
  /-- The pool has been told to close. -/
  closed : Bool := false
  /-- The idle queue takes no more clients. -/
  drained : Bool := false
  /-- The tally of idle clients. -/
  idle : Nat := 0
  /-- The tally of tokens that wait for a connection. -/
  pending : Nat := size
  /-- The tally of clients that someone holds. -/
  checkedOut : Nat := 0

namespace Pool

/-! ### Delays -/

/-- The wait after the first failure, in milliseconds. -/
def minDelay : Nat := 10

/-- The longest wait, in milliseconds. -/
def maxDelay : Nat := 10000

/-- The wait after the next failure is twice as long, up to the longest wait. -/
def nextDelay (delay : Nat) : Nat :=
  min (delay * 2) maxDelay

variable {κ τ : Type}

/-- A pool that has yet to dial. It has at least one token. -/
def create (address : String) (size : Nat) : Pool κ τ :=
  { address, size := max size 1, delay := minDelay }

/-! ### Tokens and idle clients -/

/-- Give a token back to the supervisor. A pool that is closed has no use for it but counts it. -/
def returnToken (pool : Pool κ τ) : Pool κ τ :=
  { pool with
    pending := pool.pending + 1
    tokens := if pool.closed || pool.size ≤ pool.tokens then pool.tokens else pool.tokens + 1 }

/-- Put a client at the end of the idle queue, unless the queue is full or takes no more. -/
def enqueue? (pool : Pool κ τ) (client : κ) : Option (Pool κ τ) :=
  if pool.drained || pool.size ≤ pool.idleQueue.length then none
  else some { pool with idleQueue := pool.idleQueue ++ [client], idle := pool.idle + 1 }

/-! ### The supervisor -/

/-- The supervisor takes a token and begins to dial. -/
def startDial? (pool : Pool κ τ) : Option (Pool κ τ) :=
  if pool.supervisor = .resting ∧ 0 < pool.tokens ∧ pool.closed = false then
    some { pool with tokens := pool.tokens - 1, supervisor := .dialling }
  else none

/-- An attempt to dial has failed. The supervisor keeps its token and waits. -/
def dialFailed (pool : Pool κ τ) (now : Nat) : Pool κ τ :=
  if pool.supervisor = .dialling then
    { pool with
      supervisor := .backingOff now (now + pool.delay)
      delay := nextDelay pool.delay }
  else pool

/-- The supervisor has waited long enough and dials again. -/
def redial? (pool : Pool κ τ) (now : Nat) : Option (Pool κ τ) :=
  match pool.supervisor with
  | .backingOff _ due => if due ≤ now then some { pool with supervisor := .dialling } else none
  | _ => none

/-- An attempt to dial has brought a client, who is now idle. The answer also says whether the
pool has kept the client.
-/
def dialled (pool : Pool κ τ) (client : κ) (offer : Offer) : Bool × Pool κ τ :=
  if pool.supervisor = .dialling then
    let pool := {
      pool with supervisor := .resting, delay := minDelay, offer, pending := pool.pending - 1 }
    match pool.enqueue? client with
    | some pool => (true, pool)
    | none => (false, { pool with pending := pool.pending + 1 })
  else (false, pool)

/-! ### Those who use clients -/

/-- Wait for a client. -/
def request (pool : Pool κ τ) (ticket : τ) : Pool κ τ :=
  { pool with waiting := pool.waiting ++ [ticket] }

/-- Wait no longer. -/
def withdraw [DecidableEq τ] (pool : Pool κ τ) (ticket : τ) : Pool κ τ :=
  { pool with waiting := pool.waiting.filter (· ≠ ticket) }

/-- Give the client that has been idle longest to the one who has waited longest. -/
def grant? (pool : Pool κ τ) : Option (τ × κ × Pool κ τ) :=
  if pool.closed then none
  else
    match pool.waiting, pool.idleQueue with
    | ticket :: waiting, client :: idleQueue =>
      some (ticket, client, {
        pool with
        waiting
        idleQueue
        checkedOut := pool.checkedOut + 1
        idle := pool.idle - 1 })
    | _, _ => none

/-- Turn away the one who has waited longest for a client of a pool that is closed. -/
def refuse? (pool : Pool κ τ) : Option (τ × Pool κ τ) :=
  if pool.closed then
    match pool.waiting with
    | [] => none
    | ticket :: waiting => some (ticket, { pool with waiting })
  else none

/-- Take back a client, who is fit for use if `clean`. The answer also says whether the pool has
kept the client; if not, the client has to be closed.
-/
def release (pool : Pool κ τ) (client : κ) (clean : Bool) : Bool × Pool κ τ :=
  let pool := { pool with checkedOut := pool.checkedOut - 1 }
  if !clean || pool.closed then (false, pool.returnToken)
  else
    match pool.enqueue? client with
    | some pool => (true, pool)
    | none => (false, pool.returnToken)

/-! ### The end -/

/-- Dial no more, and serve nobody from now on. -/
def cancel (pool : Pool κ τ) : Pool κ τ :=
  { pool with closed := true, supervisor := .stopped }

/-- Give up the idle clients, who have to be closed. -/
def drain (pool : Pool κ τ) : List κ × Pool κ τ :=
  (pool.idleQueue, {
    pool with
    drained := true
    idleQueue := []
    idle := pool.idle - pool.idleQueue.length })

/-- Close the pool. The answer is with the clients who have to be closed. -/
def close (pool : Pool κ τ) : List κ × Pool κ τ :=
  pool.cancel.drain

end Pool

end SourceView
