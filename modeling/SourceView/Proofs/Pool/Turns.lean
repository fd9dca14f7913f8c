import SourceView.Proofs.Pool.Answers

/-! The line in front of a pool, in the two places in which it is kept.
Whoever wants a client first has to get the lock on the idle queue, which goes round in the order in
which it was asked for, and then waits at the queue until it is woken. Those who wait may leave at
any time, whether they wait for the lock, have just been handed it, or sleep at the queue. All the
same the line is one: it moves as the list of a pool's `waiting` does, and nobody in it sleeps while
a client is idle.
-/

namespace SourceView

-----------------------------------------------------------------------------------------
-- The line
-----------------------------------------------------------------------------------------

/-- Those who wait for a client, by tickets from `τ`. -/
structure Line (τ : Type) where
  /-- Who has the lock on the idle queue. -/
  first : Option τ := none
  /-- Those who wait for the lock, the first who came first. -/
  others : List τ := []
  /-- The one who has the lock was woken, and has yet to look into the queue. -/
  due : Bool := false
  /-- The one who found the queue empty last, and is woken when a client comes in. It may have left
  since. -/
  sleeper : Option τ := none

namespace Line

variable {τ : Type}

/-- All who wait, in order. -/
def order (line : Line τ) : List τ :=
  line.first.toList ++ line.others

/-- Ask for the lock. It is had at once if it is free. -/
def join (line : Line τ) (ticket : τ) : Line τ :=
  match line.first with
  | none => { line with first := some ticket, due := true }
  | some _ => { line with others := line.others ++ [ticket] }

/-- The lock is handed to the next one who waits for it, who is woken. -/
def passOn (line : Line τ) : Line τ :=
  match line.others with
  | [] => { line with first := none, due := false }
  | next :: others => { line with first := some next, others, due := true }

/-- Wait no longer. Whoever leaves with the lock hands it on. -/
def leave [DecidableEq τ] (line : Line τ) (ticket : τ) : Line τ :=
  if line.first = some ticket then line.passOn
  else { line with others := line.others.filter (· ≠ ticket) }

/-- The one who has the lock has found the queue empty. -/
def sleep (line : Line τ) : Line τ :=
  { line with due := false, sleeper := line.first }

/-- A client has come in. -/
def wake [DecidableEq τ] (line : Line τ) : Line τ :=
  { line with
    due := line.due || (line.sleeper.isSome && line.sleeper = line.first)
    sleeper := none }

/-- The lock is in someone's hands as long as anybody waits, and whoever has it without having been
woken is the one who will be, and has left nothing in the queue.
-/
structure Awake {κ : Type} (line : Line τ) (queue : List κ) : Prop where
  free : line.first = none → line.others = [] ∧ line.due = false
  asleep : line.due = false → line.first ≠ none → line.sleeper = line.first ∧ queue = []

variable {line : Line τ} {ticket : τ}

/-- Whoever joins a line is its last. -/
theorem order_join (free : line.first = none → line.others = [])
    : (line.join ticket).order = line.order ++ [ticket] := by
  unfold join
  split
  · next alone => simp [order, alone, free alone]
  · next first taken => simp [order, taken]

/-- The line moves up by one when the lock is handed on. -/
theorem order_eq_cons (has : line.first = some ticket)
    : line.order = ticket :: line.passOn.order := by
  unfold passOn
  split
  · next last => simp [order, has, last]
  · next next others behind => simp [order, has, behind]

/-- Whoever leaves a line is taken out of it, and the others keep their order. -/
theorem order_leave [DecidableEq τ] (distinct : line.order.Nodup)
    : (line.leave ticket).order = line.order.filter (· ≠ ticket) := by
  unfold leave
  split
  · next has =>
      rw [order_eq_cons has] at distinct ⊢
      have absent := (List.nodup_cons.mp distinct).1
      rw [List.filter_cons_of_neg (by simp), eq_comm, List.filter_eq_self]
      intro other member
      exact decide_eq_true fun same => absent (same ▸ member)
  · next apart =>
      cases first : line.first with
      | none => simp [order, first]
      | some other =>
          have kept : other ≠ ticket := fun same => apart (same ▸ first)
          simp [order, first, kept]

section Awake

variable {κ : Type} {queue : List κ}

/-- Nobody sleeps in an empty line. -/
theorem awake_empty (queue : List κ) : ({} : Line τ).Awake queue where
  free _ := ⟨rfl, rfl⟩
  asleep _ has := absurd rfl has

/-- Whoever is handed the lock is woken. -/
theorem awake_passOn (line : Line τ) (queue : List κ) : line.passOn.Awake queue := by
  unfold passOn
  split
  · exact ⟨fun _ => ⟨by assumption, rfl⟩, fun _ has => absurd rfl has⟩
  · exact ⟨nofun, nofun⟩

/-- Nobody is left asleep beside a client where someone joins. -/
theorem Awake.join (awake : line.Awake queue) (ticket : τ) : (line.join ticket).Awake queue := by
  unfold Line.join
  split
  · exact ⟨nofun, nofun⟩
  · next first taken =>
      refine ⟨fun free => ?_, awake.asleep⟩
      cases taken.symm.trans free

/-- Nobody is left asleep beside a client where someone leaves. -/
theorem Awake.leave [DecidableEq τ] (awake : line.Awake queue) (ticket : τ)
    : (line.leave ticket).Awake queue := by
  unfold Line.leave
  split
  · exact awake_passOn line queue
  · refine ⟨fun free => ?_, awake.asleep⟩
    obtain ⟨unserved, rested⟩ := awake.free free
    exact ⟨by simp [unserved], rested⟩

/-- The first of a line may go to sleep before an empty queue. -/
theorem Awake.sleep (awake : line.Awake queue) (empty : queue = []) : line.sleep.Awake queue where
  free free := ⟨(awake.free free).1, rfl⟩
  asleep _ _ := ⟨rfl, empty⟩

/-- When a client comes in, whoever has the lock has been woken already or is woken now, although
the one who found the queue empty last may have left.
-/
theorem Awake.wake [DecidableEq τ] (awake : line.Awake queue) (later : List κ)
    : line.wake.Awake later where
  free free := by
    obtain ⟨unserved, rested⟩ := awake.free free
    refine ⟨unserved, ?_⟩
    simp only [Line.wake] at free ⊢
    cases sleeps : line.sleeper <;> simp [rested, free]
  asleep rested has := by
    simp only [Line.wake, Bool.or_eq_false_iff] at rested has
    have sleeps := (awake.asleep rested.1 has).1
    cases first : line.first with
    | none => exact absurd first has
    | some ticket => simp [sleeps, first] at rested

/-- There is a first in a line that has to be moved on. -/
theorem Awake.exists_first (awake : line.Awake queue) (due : line.due = true)
    : ∃ ticket, line.first = some ticket := by
  cases first : line.first with
  | none => cases due.symm.trans (awake.free first).2
  | some ticket => exact ⟨ticket, rfl⟩

/-- In a line that rests either no client is idle or nobody waits. -/
theorem Awake.idle_or_empty (awake : line.Awake queue) (rested : line.due = false)
    : queue = [] ∨ line.order = [] := by
  cases first : line.first with
  | none => exact .inr (by simp [order, first, (awake.free first).1])
  | some ticket => exact .inl (awake.asleep rested (first ▸ Option.some_ne_none ticket)).2

end Awake

end Line

-----------------------------------------------------------------------------------------
-- A pool and its line
-----------------------------------------------------------------------------------------

namespace Pool

variable {κ τ : Type} {pool after : Pool κ τ}

/-- Releasing a client does not depend on who waits. -/
theorem release_waiting (pool : Pool κ τ) (client : κ) (clean : Bool) (waiting : List τ)
    : { pool with waiting }.release client clean
      = ((pool.release client clean).1, { (pool.release client clean).2 with waiting }) := by
  simp only [release, enqueue?, returnToken]
  split_ifs <;> rfl

/-- Dialling does not depend on who waits. -/
theorem dialled_waiting (pool : Pool κ τ) (client : κ) (offer : Offer) (waiting : List τ)
    : { pool with waiting }.dialled client offer
      = ((pool.dialled client offer).1, { (pool.dialled client offer).2 with waiting }) := by
  simp only [dialled, enqueue?]
  split_ifs <;> rfl

/-- A failed attempt to dial does not depend on who waits. -/
theorem dialFailed_waiting (pool : Pool κ τ) (now : Nat) (waiting : List τ)
    : { pool with waiting }.dialFailed now = { pool.dialFailed now with waiting } := by
  unfold dialFailed
  split <;> rfl

/-- Beginning to dial does not depend on who waits. -/
theorem startDial?_waiting (started : pool.startDial? = some after) (waiting : List τ)
    : { pool with waiting }.startDial? = some { after with waiting } := by
  unfold startDial? at started ⊢
  split at started
  · next free =>
      cases started
      exact if_pos free
  · cases started

/-- Ending a wait does not depend on who waits. -/
theorem redial?_waiting {now : Nat} (elapsed : pool.redial? now = some after) (waiting : List τ)
    : { pool with waiting }.redial? now = some { after with waiting } := by
  unfold redial? at elapsed ⊢
  split at elapsed
  · next since due off =>
      dsimp only
      rw [off]
      split at elapsed
      · next passed =>
          cases elapsed
          exact if_pos passed
      · cases elapsed
  · cases elapsed

end Pool

/-- Take the client that has been idle longest. -/
def Pool.takeIdle? {κ τ : Type} (pool : Pool κ τ) : Option (κ × Pool κ τ) :=
  match pool.idleQueue with
  | [] => none
  | client :: idleQueue =>
    some (client, {
      pool with idleQueue, checkedOut := pool.checkedOut + 1, idle := pool.idle - 1 })

/-- A pool in use, with the line in front of it and what has become of those who came. -/
structure Desk (κ τ : Type) extends Circulation κ τ where
  line : Line τ := {}
  /-- All who came for a client, in order. -/
  arrived : List τ := []
  /-- Those who left the line. -/
  gone : List τ := []
  /-- Those who got a client, in order, each with the client. -/
  served : List (τ × κ) := []
  /-- All clients that came into the idle queue, in order. -/
  stocked : List κ := []

namespace Desk

variable {κ τ : Type}

/-- A pool that has yet to dial, and nobody waits. -/
def create (address : String) (size : Nat) : Desk κ τ :=
  { toCirculation := .create address size }

/-- The pool as if the line were its own list of those who wait. -/
def flat (state : Desk κ τ) : Circulation κ τ :=
  { state.toCirculation with pool := { state.pool with waiting := state.line.order } }

def arrive (state : Desk κ τ) (ticket : τ) : Desk κ τ :=
  { state with line := state.line.join ticket, arrived := state.arrived ++ [ticket] }

/-- The one who has the lock looks into the idle queue, and sleeps if it is empty. -/
def look (state : Desk κ τ) (ticket : τ) : Desk κ τ :=
  match state.pool.takeIdle? with
  | none => { state with line := state.line.sleep }
  | some (name, pool) =>
    { state with
      pool
      held := state.held ++ [name]
      line := state.line.passOn
      served := state.served ++ [(ticket, name)] }

section Steps

variable [DecidableEq τ]

def leave (state : Desk κ τ) (ticket : τ) : Desk κ τ :=
  { state with line := state.line.leave ticket, gone := state.gone ++ [ticket] }

variable [DecidableEq κ]

/-- The pool has perhaps put a client into its queue, which wakes the one who sleeps there. -/
def restock (state : Desk κ τ) (name : κ) (after : Circulation κ τ) : Desk κ τ :=
  if after.pool.idleQueue = state.pool.idleQueue then { state with toCirculation := after }
  else
    { state with
      toCirculation := after
      line := state.line.wake
      stocked := state.stocked ++ [name] }

/-- One step of those who run an open pool or use it. Whoever has the lock looks into the queue when
it was woken, and may do so at any time.
-/
inductive Step : Desk κ τ → Desk κ τ → Prop
  -- Those who want a client
  | arrive {state} (ticket : τ) (new : ticket ∉ state.arrived) : Step state (state.arrive ticket)
  | look {state} (ticket : τ) (has : state.line.first = some ticket)
    : Step state (state.look ticket)
  | leave {state} (ticket : τ) (waits : ticket ∈ state.line.order) : Step state (state.leave ticket)
  -- Those who have one
  | use {state name client after} (holds : name ∈ state.held)
    (known : state.clients name = some client) (use : client.Use after)
    : Step state { state with toCirculation := state.setClient name after }
  | putBack {state name client} (holds : name ∈ state.held)
    (known : state.clients name = some client)
    : Step state (state.restock name (state.toCirculation.putBack name client))
  -- Backends
  | serve {state name client} (known : state.clients name = some client) (pipe : Pipe)
    : Step state { state with toCirculation := state.setClient name { client with pipe } }
  -- The supervisor
  | startDial {state pool} (started : state.pool.startDial? = some pool)
    : Step state { state with pool }
  | dialFailed {state} (now : Nat)
    : Step state { state with pool := state.pool.dialFailed now }
  | redial {state pool} (now : Nat) (elapsed : state.pool.redial? now = some pool)
    : Step state { state with pool }
  | dialled {state pipe client} (name : κ) (dialling : state.pool.supervisor = .dialling)
    (new : state.clients name = none) (greeted : Client.handshake? pipe = some (.ok client))
    : Step state (state.restock name (state.toCirculation.dialled name client))

/-- Steps, one after the other. -/
inductive Run : Desk κ τ → Desk κ τ → Prop
  | none {state} : Run state state
  | next {state middle final} (run : Run state middle) (step : Step middle final)
    : Run state final

end Steps

-----------------------------------------------------------------------------------------
-- The line moves as one
-----------------------------------------------------------------------------------------

variable {state next : Desk κ τ} {ticket : τ} {name : κ}

/-- Whoever looks at the queue goes to sleep before an empty one, and otherwise takes its first
client.
-/
theorem look_cases (state : Desk κ τ) (ticket : τ)
    : state.pool.idleQueue = [] ∧ state.look ticket = { state with line := state.line.sleep }
      ∨ ∃ name queue,
          state.pool.idleQueue = name :: queue
          ∧ state.look ticket
            = { state with
                pool := {
                  state.pool with
                  idleQueue := queue
                  checkedOut := state.pool.checkedOut + 1
                  idle := state.pool.idle - 1 }
                held := state.held ++ [name]
                line := state.line.passOn
                served := state.served ++ [(ticket, name)] } := by
  unfold look Pool.takeIdle?
  cases state.pool.idleQueue with
  | nil => exact .inl ⟨rfl, rfl⟩
  | cons name queue => exact .inr ⟨name, queue, rfl, rfl⟩

section Fair

variable [DecidableEq τ]

/-- The line is kept as it should be, and everyone who came is in it, was served or has left. -/
structure Fair (state : Desk κ τ) : Prop where
  isOpen : state.pool.closed = false
  awake : state.line.Awake state.pool.idleQueue
  order
    : state.served.map Prod.fst ++ state.line.order
      = state.arrived.filter fun ticket => ticket ∉ state.gone
  stock : state.served.map Prod.snd ++ state.pool.idleQueue = state.stocked
  distinct : state.arrived.Nodup
  came : ∀ ticket ∈ state.gone, ticket ∈ state.arrived

/-- Everybody waits or was served, and only once. -/
theorem Fair.nodup (fair : state.Fair) : (state.served.map Prod.fst ++ state.line.order).Nodup :=
  fair.order ▸ fair.distinct.filter _

/-- A pool that has yet to dial is fair. -/
theorem fair_create (address : String) (size : Nat)
    : (create address size : Desk κ τ).Fair where
  isOpen := rfl
  awake := Line.awake_empty _
  order := rfl
  stock := rfl
  distinct := List.nodup_nil
  came := nofun

/-- Whoever is new comes last. -/
theorem Fair.arrive (fair : state.Fair) (new : ticket ∉ state.arrived)
    : (state.arrive ticket).Fair where
  isOpen := fair.isOpen
  awake := fair.awake.join ticket
  order := by
    have staying : ticket ∉ state.gone := fun gone => new (fair.came ticket gone)
    have joined : (state.line.join ticket).order = state.line.order ++ [ticket] :=
      Line.order_join fun free => (fair.awake.free free).1
    have kept : [ticket].filter (fun other => other ∉ state.gone) = [ticket] := by
      simp [staying]
    show state.served.map Prod.fst ++ (state.line.join ticket).order
      = (state.arrived ++ [ticket]).filter fun other => other ∉ state.gone
    rw [joined, List.filter_append, kept, ← fair.order, List.append_assoc]
  stock := fair.stock
  distinct := by
    refine List.nodup_append.mpr ⟨fair.distinct, List.nodup_singleton _, ?_⟩
    rintro other member _ last rfl
    exact new (List.mem_singleton.mp last ▸ member)
  came other gone := List.mem_append_left _ (fair.came other gone)

/-- Whoever leaves gets no client, and the others keep their order. -/
theorem Fair.leave (fair : state.Fair) (waits : ticket ∈ state.line.order)
    : (state.leave ticket).Fair where
  isOpen := fair.isOpen
  awake := fair.awake.leave ticket
  order := by
    -- Nobody who has been served waits, so that only the line loses the ticket
    obtain ⟨-, distinct, apart⟩ := List.nodup_append.mp fair.nodup
    have served : (state.served.map Prod.fst).filter (· ≠ ticket) = state.served.map Prod.fst := by
      refine List.filter_eq_self.mpr fun other member => decide_eq_true ?_
      exact apart other member ticket waits
    have left : (state.arrived.filter fun other => other ∉ state.gone ++ [ticket])
        = (state.arrived.filter fun other => other ∉ state.gone).filter (· ≠ ticket) := by
      rw [List.filter_filter]
      refine List.filter_congr fun other _ => ?_
      simp [Bool.and_comm]
    show state.served.map Prod.fst ++ (state.line.leave ticket).order
      = state.arrived.filter fun other => other ∉ state.gone ++ [ticket]
    rw [Line.order_leave distinct, left, ← fair.order, List.filter_append, served]
  stock := fair.stock
  distinct := fair.distinct
  came other gone := by
    rcases List.mem_append.mp gone with earlier | last
    · exact fair.came other earlier
    · have member : ticket ∈ state.arrived.filter fun other => other ∉ state.gone :=
        fair.order ▸ List.mem_append_right _ waits
      rw [List.mem_singleton.mp last]
      exact (List.mem_filter.mp member).1

/-- Whoever looks at the queue is the first in line. -/
theorem Fair.look (fair : state.Fair) (has : state.line.first = some ticket)
    : (state.look ticket).Fair := by
  rcases state.look_cases ticket with ⟨empty, same⟩ | ⟨name, queue, filled, same⟩
  · rw [same]
    exact ⟨fair.isOpen, fair.awake.sleep empty, fair.order, fair.stock, fair.distinct, fair.came⟩
  · rw [same]
    refine ⟨fair.isOpen, Line.awake_passOn _ _, ?_, ?_, fair.distinct, fair.came⟩
    · dsimp only
      rw [← fair.order, Line.order_eq_cons has, List.map_append, List.append_assoc]
      rfl
    · dsimp only
      rw [← fair.stock, filled, List.map_append, List.append_assoc]
      rfl

/-- Whatever leaves line and queue alone keeps them as they should be. -/
theorem Fair.of_same {after : Circulation κ τ} (fair : state.Fair)
    (closed : after.pool.closed = state.pool.closed)
    (queue : after.pool.idleQueue = state.pool.idleQueue)
    : Fair { state with toCirculation := after } where
  isOpen := closed.trans fair.isOpen
  awake := queue ▸ fair.awake
  order := fair.order
  stock := queue ▸ fair.stock
  distinct := fair.distinct
  came := fair.came

variable [DecidableEq κ]

/-- A client that comes in wakes the first in line. -/
theorem Fair.restock {after : Circulation κ τ} {kept : Bool} (fair : state.Fair)
    (closed : after.pool.closed = state.pool.closed)
    (queue : after.pool.idleQueue = state.pool.idleQueue ++ if kept then [name] else [])
    : (state.restock name after).Fair := by
  unfold Desk.restock
  split
  · next same => exact fair.of_same closed same
  · next changed =>
      have grown : after.pool.idleQueue = state.pool.idleQueue ++ [name] := by
        cases kept with
        | true => exact queue
        | false => exact absurd (queue.trans (List.append_nil _)) changed
      refine ⟨closed.trans fair.isOpen, fair.awake.wake _, fair.order, ?_, fair.distinct,
        fair.came⟩
      dsimp only
      rw [grown, ← fair.stock, List.append_assoc]

/-- By cases on the step. -/
theorem Step.fair (step : Step state next) (fair : state.Fair) : next.Fair := by
  cases step with
  | arrive ticket new => exact fair.arrive new
  | look ticket has => exact fair.look has
  | leave ticket waits => exact fair.leave waits
  | use | serve => exact fair.of_same rfl rfl
  | @putBack name client holds known =>
      exact fair.restock (Pool.closed_release ..)
        (Pool.takesIn_release state.pool name client.isIdle).1.queue
  | startDial started =>
      obtain ⟨-, -, rfl⟩ := Pool.startDial?_eq_some started
      exact fair.of_same rfl rfl
  | dialFailed now =>
      unfold Pool.dialFailed
      split
      · exact fair.of_same rfl rfl
      · exact fair.of_same rfl rfl
  | redial now elapsed =>
      obtain ⟨_, _, -, rfl⟩ := Pool.redial?_eq_some elapsed
      exact fair.of_same rfl rfl
  | @dialled pipe client name dialling new greeted =>
      exact fair.restock (Pool.closed_dialled ..)
        (Pool.takesIn_dialled state.pool name client.greeting.offer).queue

/-- A pool is always fair, by induction on the run. -/
theorem Run.fair {address : String} {size : Nat} (run : Run (create address size) state)
    : state.Fair := by
  induction run with
  | none => exact fair_create address size
  | next _ step ih => exact step.fair ih

end Fair

-----------------------------------------------------------------------------------------
-- The pool behind it
-----------------------------------------------------------------------------------------

section Flat

variable [DecidableEq κ] [DecidableEq τ]

/-- A client that comes in leaves the line in its order. -/
theorem line_order_restock (state : Desk κ τ) (name : κ) (after : Circulation κ τ)
    : (state.restock name after).line.order = state.line.order := by
  unfold restock
  split <;> rfl

/-- A client that comes in changes the pool as it does without a line. -/
theorem toCirculation_restock (state : Desk κ τ) (name : κ) (after : Circulation κ τ)
    : (state.restock name after).toCirculation = after := by
  unfold restock
  split <;> rfl

/-- A client that comes in leaves those who wait in the order of the line. -/
theorem flat_restock (state : Desk κ τ) (name : κ) (after : Circulation κ τ)
    : (state.restock name after).flat
      = { after with pool := { after.pool with waiting := state.line.order } } := by
  unfold flat
  rw [line_order_restock, toCirculation_restock]

/-- A client that is put back does the same to a pool with a line and to one with a list. -/
theorem flat_putBack (state : Desk κ τ) (name : κ) (client : Client)
    : (state.restock name (state.toCirculation.putBack name client)).flat
      = state.flat.putBack name client := by
  rw [flat_restock]
  simp only [flat, Circulation.putBack, Pool.release_waiting, Circulation.setClient]

/-- A client that was dialled does the same to a pool with a line and to one with a list. -/
theorem flat_dialled (state : Desk κ τ) (name : κ) (client : Client)
    : (state.restock name (state.toCirculation.dialled name client)).flat
      = state.flat.dialled name client := by
  rw [flat_restock]
  simp only [flat, Circulation.dialled, Pool.dialled_waiting, Circulation.setClient]

omit [DecidableEq κ] in
/-- Whoever leaves the line withdraws from the list. -/
theorem Fair.flat_leave (fair : state.Fair) (ticket : τ)
    : (state.leave ticket).flat
      = { state.flat with pool := state.flat.pool.withdraw ticket } := by
  obtain ⟨-, distinct, -⟩ := List.nodup_append.mp fair.nodup
  simp only [flat, Desk.leave, Pool.withdraw, Line.order_leave distinct]

/-- Each step is one of those that are taken when the line is the pool's own list, or is none. -/
theorem Step.circulates (step : Step state next) (fair : state.Fair)
    : Circulation.Run state.flat next.flat := by
  cases step with
  | arrive ticket new =>
      have joined : (state.line.join ticket).order = state.line.order ++ [ticket] :=
        Line.order_join fun free => (fair.awake.free free).1
      have same : (state.arrive ticket).flat
          = { state.flat with pool := state.flat.pool.request ticket } := by
        simp only [flat, Desk.arrive, Pool.request, joined]
      rw [same]
      exact Circulation.Run.none.next (.request ticket)
  | look ticket has =>
      rcases state.look_cases ticket with ⟨-, same⟩ | ⟨name, queue, filled, same⟩
      · rw [same]
        exact .none
      · rw [same]
        refine Circulation.Run.none.next
          (@Circulation.Step.grant κ τ _ _ state.flat ticket name _ ?_)
        simp [Pool.grant?, flat, fair.isOpen, filled, Line.order_eq_cons has]
  | leave ticket waits =>
      rw [fair.flat_leave ticket]
      exact Circulation.Run.none.next (.withdraw ticket)
  | @use name client after holds known use =>
      exact Circulation.Run.none.next
        (@Circulation.Step.use κ τ _ _ state.flat name client after holds known use)
  | putBack holds known =>
      rw [flat_putBack]
      exact Circulation.Run.none.next (.putBack holds known)
  | @serve name client known pipe =>
      exact Circulation.Run.none.next
        (@Circulation.Step.serve κ τ _ _ state.flat name client known pipe)
  | startDial started =>
      exact Circulation.Run.none.next (.startDial (Pool.startDial?_waiting started _))
  | dialFailed now =>
      have step : Circulation.Step state.flat _ := .dialFailed now
      rw [flat, Pool.dialFailed_waiting] at step
      exact Circulation.Run.none.next step
  | redial now elapsed =>
      exact Circulation.Run.none.next (.redial now (Pool.redial?_waiting elapsed _))
  | dialled name dialling new greeted =>
      rw [flat_dialled]
      exact Circulation.Run.none.next (.dialled dialling new greeted)

/-- A pool with a line runs as one with a list, by induction on the run. -/
theorem Run.circulates {address : String} {size : Nat} (run : Run (create address size) state)
    : Circulation.Run (.create address size) state.flat := by
  induction run with
  | none => exact .none
  | next run step ih => exact ih.trans (step.circulates run.fair)

end Flat

-----------------------------------------------------------------------------------------
-- Everybody's turn
-----------------------------------------------------------------------------------------

section Turns

variable [DecidableEq κ] [DecidableEq τ]

/-- Runs follow one behind the other, by induction on the later one. -/
theorem Run.trans {first : Desk κ τ} (run : Run first state) (later : Run state next)
    : Run first next := by
  induction later with
  | none => exact run
  | next _ step ih => exact ih.next step

/-- Those who have been woken come to rest. The induction is on the idle clients, of whom each who
looks into the queue takes one.
-/
theorem Fair.exists_rested (fair : state.Fair)
    : ∃ later,
        Run state later
        ∧ later.line.due = false
        ∧ later.arrived = state.arrived
        ∧ later.gone = state.gone
        ∧ later.stocked = state.stocked := by
  generalize filled : state.pool.idleQueue = queue
  induction queue generalizing state with
  | nil =>
      cases due : state.line.due with
      | false => exact ⟨state, .none, due, rfl, rfl, rfl⟩
      | true =>
          obtain ⟨ticket, has⟩ := fair.awake.exists_first due
          refine ⟨state.look ticket, Run.none.next (.look ticket has), ?_⟩
          rcases state.look_cases ticket with ⟨-, same⟩ | ⟨name, queue, other, -⟩
          · simp [same, Line.sleep]
          · cases filled.symm.trans other
  | cons name queue ih =>
      cases due : state.line.due with
      | false => exact ⟨state, .none, due, rfl, rfl, rfl⟩
      | true =>
          obtain ⟨ticket, has⟩ := fair.awake.exists_first due
          rcases state.look_cases ticket with ⟨empty, -⟩ | ⟨_, _, taken, same⟩
          · cases filled.symm.trans empty
          · cases filled.symm.trans taken
            obtain ⟨later, run, rested, arrived, gone, stocked⟩ :=
              ih (fair.look has) (by rw [same])
            rw [same] at arrived gone stocked
            have looked := Run.none.next (.look ticket has)
            exact ⟨later, looked.trans run, rested, arrived, gone, stocked⟩

/-- However the users of an open pool come, leave, and give clients back, and however its
connections are opened and lost: once everyone who was woken has looked into the queue, no client is
idle while somebody waits. Clients are given away in the order in which they came in, to those who
came and have not left, in the order in which these came. Whoever leaves gets none, so that each
client that came in was given to someone who stayed or is still idle; and none whose connection is
open is lost. All this is the work of a pool that keeps one list of those who wait.
-/
theorem line_served_in_order (address : String) (size : Nat) (state : Desk κ τ)
    (run : Run (create address size) state)
    : (state.line.due = false → state.pool.idleQueue = [] ∨ state.line.order = [])
      ∧ state.served.map Prod.fst ++ state.line.order
        = state.arrived.filter (fun ticket => ticket ∉ state.gone)
      ∧ state.served.map Prod.snd ++ state.pool.idleQueue = state.stocked
      ∧ (∀ ticket ∈ state.gone, ∀ name, (ticket, name) ∉ state.served)
      ∧ (∀ name client,
          state.clients name = some client → client.ending = none
          → name ∈ state.pool.idleQueue ++ state.held)
      ∧ Circulation.Run (.create address size) state.flat
      ∧ ∃ later,
          Run state later
          ∧ later.line.due = false
          ∧ later.arrived = state.arrived
          ∧ later.gone = state.gone
          ∧ later.stocked = state.stocked := by
  have fair := run.fair
  have circulates := run.circulates
  refine ⟨fair.awake.idle_or_empty, fair.order, fair.stock, ?_, ?_, circulates,
    fair.exists_rested⟩
  · intro ticket gone name served
    have stays : ticket ∈ state.arrived.filter fun ticket => ticket ∉ state.gone := by
      rw [← fair.order]
      exact List.mem_append_left _ (List.mem_map_of_mem served)
    exact of_decide_eq_true (List.mem_filter.mp stays).2 gone
  · exact (circulates.balanced fair.isOpen).placed

end Turns

/-- Two came to a pool that had no client yet. The first found the queue empty and left while a
connection was being opened, and the second got its client.
-/
def skippedTurn : Desk Nat Nat where
  toCirculation := Circulation.heldPool
  arrived := [7, 8]
  gone := [7]
  served := [(8, 0)]
  stocked := [0]

theorem turns_of_skippedTurn
    : Run (create "a:1" 2) skippedTurn
      ∧ skippedTurn.served.map Prod.fst ++ skippedTurn.line.order
        = skippedTurn.arrived.filter (fun ticket => ticket ∉ skippedTurn.gone)
      ∧ ∀ name, (7, name) ∉ skippedTurn.served := by
  have slept : Run (create "a:1" 2 : Desk Nat Nat) _ :=
    (Run.none.next (.arrive 7 List.not_mem_nil)).next (.look 7 rfl)
  have dialling : Run (create "a:1" 2 : Desk Nat Nat) _ :=
    (slept.next (.arrive 8 (by decide))).next (.startDial rfl)
  have left : Run (create "a:1" 2 : Desk Nat Nat) _ :=
    (dialling.next (.leave 7 (by decide))).next (.look 8 rfl)
  have run : Run (create "a:1" 2) skippedTurn :=
    (left.next (.dialled 0 rfl rfl Circulation.handshake_greeted)).next
      (.look 8 rfl)
  obtain ⟨-, order, -, gone, -⟩ := line_served_in_order "a:1" 2 skippedTurn run
  exact ⟨run, order, gone 7 List.mem_cons_self⟩

end Desk

end SourceView
