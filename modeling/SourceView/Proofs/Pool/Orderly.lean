import SourceView.Proofs.Pool.Commons
import SourceView.Proofs.Pool.Conservation

/-! A pool in common stays in order, whatever is done to it.
A client is idle, or with one user who alone has asked it since he got it. A client that is idle has
no answer outstanding, because one that comes back before its answer has ended is closed.
-/

namespace SourceView

-----------------------------------------------------------------------------------------
-- What a pool takes in
-----------------------------------------------------------------------------------------

namespace Pool

variable {κ τ : Type} {pool after : Pool κ τ} {client : κ} {ticket : τ}

/-- A client that is granted was idle longest, and goes to who has waited longest. -/
theorem grant?_cuts (granted : pool.grant? = some (ticket, client, after))
    : pool.waiting = ticket :: after.waiting ∧ pool.idleQueue = client :: after.idleQueue := by
  unfold grant? at granted
  split at granted
  · cases granted
  · split at granted
    · next waiting queue =>
        cases granted
        exact ⟨waiting, queue⟩
    · cases granted

/-- Who is turned away has waited longest. -/
theorem refuse?_cuts (refused : pool.refuse? = some (ticket, after))
    : pool.waiting = ticket :: after.waiting ∧ after.idleQueue = pool.idleQueue := by
  unfold refuse? at refused
  split at refused
  · split at refused
    · cases refused
    · next waiting =>
        cases refused
        exact ⟨waiting, rfl⟩
  · cases refused

/-- A client that is kept stands last in the queue. -/
theorem enqueue?_eq_some (queued : pool.enqueue? client = some after)
    : after = { pool with idleQueue := pool.idleQueue ++ [client], idle := pool.idle + 1 } := by
  unfold enqueue? at queued
  split at queued
  · cases queued
  · exact (Option.some.inj queued).symm

/-- A pool puts this client at the end of its queue if it keeps the client, and otherwise leaves the
queue as it is.
-/
structure TakesIn (pool : Pool κ τ) (client : κ) (outcome : Bool × Pool κ τ) : Prop where
  queue : outcome.2.idleQueue = pool.idleQueue ++ if outcome.1 then [client] else []
  waiting : outcome.2.waiting = pool.waiting

namespace TakesIn

variable {outcome : Bool × Pool κ τ} {other : κ}

/-- Idle are those that were idle before, and the client that the pool keeps. -/
theorem mem_idleQueue (takesIn : pool.TakesIn client outcome)
    : other ∈ outcome.2.idleQueue
      ↔ other ∈ pool.idleQueue ∨ outcome.1 = true ∧ other = client := by
  rw [takesIn.queue]
  cases outcome.1 <;> simp

/-- A client that was not idle before is now idle once. -/
theorem nodup_idleQueue (takesIn : pool.TakesIn client outcome) (distinct : pool.idleQueue.Nodup)
    (unqueued : client ∉ pool.idleQueue)
    : outcome.2.idleQueue.Nodup := by
  rw [takesIn.queue]
  split
  · apply List.Nodup.append distinct (List.nodup_singleton client)
    intro other earlier last
    exact unqueued (List.mem_singleton.mp last ▸ earlier)
  · rwa [List.append_nil]

end TakesIn

/-- A pool takes in a client that was dialled. -/
theorem takesIn_dialled (pool : Pool κ τ) (client : κ) (offer : Offer)
    : pool.TakesIn client (pool.dialled client offer) := by
  unfold dialled
  split
  · dsimp only
    split
    · next queued =>
        rw [enqueue?_eq_some queued]
        exact ⟨rfl, rfl⟩
    · exact ⟨(List.append_nil _).symm, rfl⟩
  · exact ⟨(List.append_nil _).symm, rfl⟩

/-- A client that comes back unfit for use is not kept. -/
theorem takesIn_release (pool : Pool κ τ) (client : κ) (clean : Bool)
    : pool.TakesIn client (pool.release client clean)
      ∧ ((pool.release client clean).1 = true → clean = true) := by
  unfold release
  dsimp only
  split
  · refine ⟨⟨(List.append_nil _).symm, rfl⟩, ?_⟩
    intro kept
    cases kept
  · next fit =>
      rw [Bool.or_eq_true, not_or, Bool.not_eq_true', Bool.not_eq_false] at fit
      refine ⟨?_, fun _ => fit.1⟩
      split
      · next queued =>
          rw [enqueue?_eq_some queued]
          exact ⟨rfl, rfl⟩
      · exact ⟨(List.append_nil _).symm, rfl⟩

end Pool

-----------------------------------------------------------------------------------------
-- An orderly state
-----------------------------------------------------------------------------------------

namespace Commons

variable {κ τ : Type} {state next : Commons κ τ} {user : τ} {name : κ} {client after : Client}

/-- The client is with this user and nowhere else. -/
structure Lends (state : Commons κ τ) (user : τ) (name : κ) : Prop where
  known : state.clients name ≠ none
  unqueued : name ∉ state.pool.idleQueue
  alone : ∀ other, (state.users other).hand = some name → other = user
  owned
    : ∀ client,
        state.clients name = some client → client.ending = none
        → (state.talks name).OwnedBy client user
  listed : name ∈ state.held

/-- Clients that nobody uses are idle, no client is in two places, and everyone keeps to the client
that he has.
-/
structure Orderly (state : Commons κ τ) : Prop where
  rested
    : ∀ name ∈ state.pool.idleQueue,
        ∃ client, state.clients name = some client ∧ client.isIdle = true
  distinct : state.pool.idleQueue.Nodup
  sound
    : ∀ name client,
        state.clients name = some client → client.ending = none
        → (state.talks name).Sound client
  held : ∀ user name, (state.users user).hand = some name → state.Lends user name
  faithful : ∀ user, (state.users user).Faithful
  waiting : ∀ user ∈ state.pool.waiting, (state.users user).Waits

/-- A pool that nobody has used is in order. -/
theorem orderly_create (address : String) (size : Nat)
    : Orderly (create address size : Commons κ τ) where
  rested := by simp [create, Circulation.create, Pool.create]
  distinct := List.nodup_nil
  sound := by simp [create, Circulation.create]
  held := by simp [create]
  faithful := fun _ => ⟨.done, by simp [create]⟩
  waiting := by simp [create, Circulation.create, Pool.create]

/-- Which clients are idle does not depend on anything else in the pool. -/
theorem Orderly.setPool {pool : Pool κ τ} (orderly : state.Orderly)
    (queue : pool.idleQueue = state.pool.idleQueue)
    (waiting : ∀ user ∈ pool.waiting, (state.users user).Waits)
    : Orderly { state with pool } where
  rested := by
    intro name member
    exact orderly.rested name (by rwa [← queue])
  distinct := by
    have distinct := orderly.distinct
    rwa [← queue] at distinct
  sound := orderly.sound
  held := by
    intro user name has
    obtain ⟨known, unqueued, alone, owned, listed⟩ := orderly.held user name has
    exact ⟨known, by rwa [← queue] at unqueued, alone, owned, listed⟩
  faithful := orderly.faithful
  waiting := waiting

section Users

variable [DecidableEq τ]

/-- What a user has at hand may only change to what is with him and nowhere else. -/
theorem Orderly.setUser {entry : User κ} (orderly : state.Orderly)
    (unheard : user ∉ state.pool.waiting) (faithful : entry.Faithful)
    (held : ∀ name, entry.hand = some name → state.Lends user name)
    : (state.setUser user entry).Orderly where
  rested := orderly.rested
  distinct := orderly.distinct
  sound := orderly.sound
  held := by
    intro holder name has
    have lends : state.Lends holder name := by
      simp only [Commons.setUser, override] at has
      split at has
      · next same => exact same ▸ held name has
      · exact orderly.held holder name has
    refine ⟨lends.known, lends.unqueued, ?_, lends.owned, lends.listed⟩
    intro other hasToo
    simp only [Commons.setUser, override] at hasToo
    split at hasToo
    · next same =>
        -- Whoever else had the client would be this user as well
        subst same
        simp only [Commons.setUser, override] at has
        split at has
        · next same => exact same.symm
        · exact ((held name hasToo).alone holder has).symm
    · exact lends.alone other hasToo
  faithful := by
    intro other
    simp only [Commons.setUser, override]
    split
    · exact faithful
    · exact orderly.faithful other
  waiting := by
    intro other member
    have apart : other ≠ user := fun same => unheard (same ▸ member)
    simp only [Commons.setUser, override_of_ne apart]
    exact orderly.waiting other member

/-- A user may change in any way that leaves him without a client. -/
theorem Orderly.setFree {entry : User κ} (orderly : state.Orderly)
    (unheard : user ∉ state.pool.waiting) (faithful : entry.Faithful) (empty : entry.hand = none)
    : (state.setUser user entry).Orderly := by
  apply orderly.setUser unheard faithful
  intro name has
  cases empty.symm.trans has

/-- Anyone may leave the line. -/
theorem Orderly.withdraw (orderly : state.Orderly) (user : τ)
    : Orderly { state with pool := state.pool.withdraw user } :=
  orderly.setPool rfl fun other member => orderly.waiting other (List.mem_of_mem_filter member)

/-- Whoever withdraws waits no longer. -/
theorem not_mem_withdraw (pool : Pool κ τ) (user : τ) : user ∉ (pool.withdraw user).waiting := by
  simp [Pool.withdraw]

/-- A user who hears of something keeps the client that he has. -/
theorem Orderly.hear {entry : User κ} {setting : Session.Setting} {news : News κ}
    (orderly : state.Orderly) (faithful : (entry.hear setting news).Faithful)
    (held : ∀ name, entry.hand = some name → state.Lends user name)
    : (state.hear user entry setting news).Orderly := by
  apply (orderly.withdraw user).setUser (not_mem_withdraw state.pool user) faithful
  intro name has
  obtain ⟨known, unqueued, alone, owned, listed⟩ := held name has
  exact ⟨known, unqueued, alone, owned, listed⟩

end Users

section Connections

variable [DecidableEq κ]

/-- What happens on one connection concerns its client only, and whoever has that. -/
theorem Orderly.setTalk {talk : Conversation τ} (orderly : state.Orderly)
    (sound : after.ending = none → talk.Sound after)
    (rested : name ∈ state.pool.idleQueue → after.isIdle = true)
    (owned
      : ∀ user, (state.users user).hand = some name → after.ending = none
        → talk.OwnedBy after user)
    : (state.setTalk name after talk).Orderly where
  rested := by
    intro other member
    simp only [Commons.setTalk, Circulation.setClient, override]
    split
    · next same => exact ⟨after, rfl, rested (same ▸ member)⟩
    · exact orderly.rested other member
  distinct := orderly.distinct
  sound := by
    intro other client known alive
    simp only [Commons.setTalk, Circulation.setClient, override] at known ⊢
    split at known
    · next same =>
        cases known
        rw [if_pos same]
        exact sound alive
    · next apart =>
        rw [if_neg apart]
        exact orderly.sound other client known alive
  held := by
    intro user other has
    have lends := orderly.held user other has
    refine ⟨?_, lends.unqueued, lends.alone, ?_, lends.listed⟩
    · simp only [Commons.setTalk, Circulation.setClient, override]
      split
      · exact Option.some_ne_none after
      · exact lends.known
    · intro client known alive
      simp only [Commons.setTalk, Circulation.setClient, override] at known ⊢
      split at known
      · next same =>
          cases known
          rw [if_pos same]
          exact owned user (same ▸ has) alive
      · next apart =>
          rw [if_neg apart]
          exact lends.owned client known alive
  faithful := orderly.faithful
  waiting := orderly.waiting

/-- A client that nobody has is taken in as an idle one, or is closed. -/
theorem Orderly.takeIn {outcome : Bool × Pool κ τ} (orderly : state.Orderly)
    (takesIn : state.pool.TakesIn name outcome) (unqueued : name ∉ state.pool.idleQueue)
    (free : ∀ user, (state.users user).hand ≠ some name)
    (fit : outcome.1 = true → client.isIdle = true)
    (sound : client.ending = none → (next.talks name).Sound client)
    (pool : next.pool = outcome.2) (users : next.users = state.users)
    (clients
      : next.clients
        = override state.clients name (some (if outcome.1 then client else client.close)))
    (talks : ∀ other, other ≠ name → next.talks other = state.talks other)
    (held : ∀ other, other ≠ name → other ∈ state.held → other ∈ next.held)
    : next.Orderly := by
  have queued : ∀ {other}, other ∈ next.pool.idleQueue
      → other ∈ state.pool.idleQueue ∨ outcome.1 = true ∧ other = name :=
    fun member => takesIn.mem_idleQueue.mp (pool ▸ member)
  have apart : ∀ {user other}, (state.users user).hand = some other → other ≠ name := by
    rintro user other has rfl
    exact free user has
  have same : ∀ {other}, other ≠ name → next.clients other = state.clients other := by
    intro other different
    rw [clients, override_of_ne different]
  refine ⟨?_, ?_, ?_, ?_, users ▸ orderly.faithful, ?_⟩
  · intro other member
    rcases queued member with earlier | ⟨kept, rfl⟩
    · rw [same fun here => unqueued (here ▸ earlier)]
      exact orderly.rested other earlier
    · exact ⟨client, by rw [clients, override_self, if_pos kept], fit kept⟩
  · rw [pool]
    exact takesIn.nodup_idleQueue orderly.distinct unqueued
  · intro other found known alive
    by_cases here : other = name
    · subst here
      rw [clients, override_self] at known
      split at known
      · cases known
        exact sound alive
      · cases known
        cases alive
    · rw [same here] at known
      rw [talks other here]
      exact orderly.sound other found known alive
  · intro user other has
    rw [users] at has
    have lends := orderly.held user other has
    refine ⟨?_, ?_, by simpa [users] using lends.alone, ?_, held other (apart has) lends.listed⟩
    · rw [same (apart has)]
      exact lends.known
    · intro member
      rcases queued member with earlier | ⟨-, here⟩
      · exact lends.unqueued earlier
      · exact apart has here
    · rw [same (apart has), talks other (apart has)]
      exact lends.owned
  · rw [pool, takesIn.waiting, users]
    exact orderly.waiting

/-- A client that nobody has can come back. -/
theorem Orderly.putBack (orderly : state.Orderly) (known : state.clients name = some client)
    (unqueued : name ∉ state.pool.idleQueue)
    (free : ∀ user, (state.users user).hand ≠ some name)
    : (state.putBack name client).Orderly := by
  obtain ⟨takesIn, fit⟩ := state.pool.takesIn_release name client.isIdle
  exact orderly.takeIn takesIn unqueued free fit (orderly.sound name client known) rfl rfl rfl
    (fun _ _ => rfl) fun _ apart => (List.mem_erase_of_ne apart).mpr

/-- Nobody has a client that was not known. -/
theorem Orderly.dialled (orderly : state.Orderly) (new : state.clients name = none)
    (free : client.inFlight = false) (alive : client.ending = none)
    (quiet : client.pipe.inbound = [])
    : (state.dialled name client).Orderly := by
  have takesIn := state.pool.takesIn_dialled name client.greeting.offer
  refine orderly.takeIn takesIn ?_ ?_ ?_ ?_ rfl rfl rfl (fun other => override_of_ne)
    fun _ _ => id
  · intro member
    obtain ⟨found, known, -⟩ := orderly.rested name member
    cases new.symm.trans known
  · intro user has
    exact (orderly.held user name has).known new
  · intro _
    rw [Client.isIdle, alive, free]
    rfl
  · intro _
    have fresh : (state.dialled name client).talks name = {} := override_self
    rw [fresh]
    exact Conversation.sound_new quiet free

/-- The idle clients are given up, and everyone keeps the client that he has. -/
theorem Orderly.drain (orderly : state.Orderly)
    : Orderly { state with toCirculation := state.toCirculation.drain } where
  rested := by
    intro name member
    cases member
  distinct := List.nodup_nil
  sound := by
    intro name client known alive
    simp only [Circulation.drain] at known
    split at known
    · obtain ⟨before, -, rfl⟩ := Option.map_eq_some_iff.mp known
      cases alive
    · exact orderly.sound name client known alive
  held := by
    intro user name has
    obtain ⟨known, unqueued, alone, owned, listed⟩ := orderly.held user name has
    have same : state.toCirculation.drain.clients name = state.clients name := if_neg unqueued
    exact ⟨same ▸ known, List.not_mem_nil, alone, same ▸ owned, listed⟩
  faithful := orderly.faithful
  waiting := orderly.waiting

section Grants

variable {pool : Pool κ τ}

/-- The client that has been idle longest leaves the queue. -/
theorem Orderly.lend (orderly : state.Orderly)
    (granted : state.pool.grant? = some (user, name, pool))
    : (state.lend pool name).Orderly := by
  obtain ⟨waiting, queue⟩ := Pool.grant?_cuts granted
  have later : ∀ {other}, other ∈ pool.idleQueue → other ∈ state.pool.idleQueue :=
    fun member => queue ▸ List.mem_cons_of_mem name member
  have distinct := orderly.distinct
  rw [queue, List.nodup_cons] at distinct
  refine ⟨?_, distinct.2, ?_, ?_, orderly.faithful, ?_⟩
  · intro other member
    exact orderly.rested other (later member)
  · intro other found located alive
    have sound := orderly.sound other found located alive
    simp only [Commons.lend, override]
    split
    · next same => exact (same ▸ sound).passOn
    · exact sound
  · intro holder other has
    obtain ⟨known, unqueued, alone, owned, listed⟩ := orderly.held holder other has
    have apart : other ≠ name := by
      rintro rfl
      exact unqueued (queue ▸ List.mem_cons_self)
    refine ⟨known, fun member => unqueued (later member), alone, ?_, List.mem_append_left _ listed⟩
    simp only [Commons.lend, override_of_ne apart]
    exact owned
  · intro other member
    exact orderly.waiting other (waiting ▸ List.mem_cons_of_mem user member)

/-- The client that has left the queue is with the one who has waited longest. -/
theorem Orderly.lends (orderly : state.Orderly)
    (granted : state.pool.grant? = some (user, name, pool))
    : (state.lend pool name).Lends user name := by
  obtain ⟨-, queue⟩ := Pool.grant?_cuts granted
  have queued : name ∈ state.pool.idleQueue := queue ▸ List.mem_cons_self
  have distinct := orderly.distinct
  rw [queue, List.nodup_cons] at distinct
  obtain ⟨idle, known, rested⟩ := orderly.rested name queued
  rw [Client.isIdle, Bool.and_eq_true, Bool.not_eq_true'] at rested
  refine ⟨?_, distinct.1, ?_, ?_, List.mem_append_right _ List.mem_cons_self⟩
  · exact fun missing => Option.some_ne_none idle (known.symm.trans missing)
  · intro other has
    exact absurd queued (orderly.held other name has).unqueued
  · intro found located _
    cases known.symm.trans located
    simp only [Commons.lend, override_self]
    exact Conversation.ownedBy_passOn _ rested.2 user

end Grants

end Connections

-----------------------------------------------------------------------------------------
-- Steps
-----------------------------------------------------------------------------------------

/-- A user who has errands waits for no client. -/
theorem Orderly.not_waiting {errand : Session.Effect κ} {errands : List (Session.Effect κ)}
    (orderly : state.Orderly) (due : (state.users user).errands = errand :: errands)
    : user ∉ state.pool.waiting := by
  intro member
  cases due.symm.trans (orderly.waiting user member).ready

/-- A user who has nothing to do waits for no client. -/
theorem Orderly.free_not_waiting (orderly : state.Orderly) (free : state.users user = {})
    : user ∉ state.pool.waiting := by
  intro member
  have waits := (orderly.waiting user member).waits
  simp [free, Task.waits] at waits

/-- Only who waits for a client stands in line. -/
theorem Orderly.request (orderly : state.Orderly) (waits : (state.users user).Waits)
    : Orderly { state with pool := state.pool.request user } := by
  refine orderly.setPool rfl fun other member => ?_
  rcases List.mem_append.mp member with earlier | last
  · exact orderly.waiting other earlier
  · rwa [List.mem_singleton.mp last]

/-- A failed attempt to dial touches no client. -/
theorem Orderly.dialFailed (orderly : state.Orderly) (now : Nat)
    : Orderly { state with pool := state.pool.dialFailed now } := by
  unfold Pool.dialFailed
  split
  · exact orderly.setPool rfl orderly.waiting
  · exact orderly

section Use

variable [DecidableEq κ]

/-- A user does something with the client that he has. -/
theorem Orderly.use {talk : Conversation τ} (orderly : state.Orderly)
    (has : (state.users user).hand = some name)
    (sound : after.ending = none → talk.Sound after)
    (owned : after.ending = none → talk.OwnedBy after user)
    : (state.setTalk name after talk).Orderly := by
  have lends := orderly.held user name has
  refine orderly.setTalk sound (fun queued => absurd queued lends.unqueued) ?_
  intro other hasToo alive
  rw [lends.alone other hasToo]
  exact owned alive

/-- What a user does may end the client's life, and otherwise leaves it as it was. -/
theorem Orderly.useUp (orderly : state.Orderly) (has : (state.users user).hand = some name)
    (known : state.clients name = some client) (stays : after.ending = none → after = client)
    : (state.setTalk name after (state.talks name)).Orderly := by
  apply orderly.use has
  · intro alive
    obtain rfl := stays alive
    exact orderly.sound name after known alive
  · intro alive
    obtain rfl := stays alive
    exact (orderly.held user name has).owned after known alive

/-- A user reads from the client that he has. -/
theorem Orderly.read {event : QueryEvent} (orderly : state.Orderly)
    (has : (state.users user).hand = some name) (known : state.clients name = some client)
    (next : client.nextEvent? = some (.ok event, after))
    : (state.setTalk name after (state.talks name).read).Orderly := by
  obtain ⟨alive, busy, -⟩ := Client.nextEvent?_eq_ok next
  have sound := orderly.sound name client known alive
  have owned := (orderly.held user name has).owned client known alive
  exact orderly.use has (fun _ => (sound.read next).1) fun _ => owned.read busy

/-- A user asks the client that he has. -/
theorem Orderly.ask {query : Query} (orderly : state.Orderly)
    (has : (state.users user).hand = some name) (known : state.clients name = some client)
    (asked : client.ask query = (.ok (), after))
    : (state.setTalk name after ((state.talks name).ask user query)).Orderly := by
  have alive : after.ending = none → client.ending = none := by
    intro lives
    have lives : (client.ask query).2.ending = none := by rwa [asked]
    exact Client.ending_ask lives
  apply orderly.use has
  · exact fun lives => (orderly.sound name client known (alive lives)).ask user asked
  · exact fun lives => ((orderly.held user name has).owned client known (alive lives)).ask query

/-- A backend does something to its connection, be the client in use or not. -/
theorem Orderly.serve {talk : Conversation τ} (orderly : state.Orderly)
    (known : state.clients name = some client) (pipe : Pipe)
    (sound : (state.talks name).Sound client → talk.Sound { client with pipe })
    (asked : talk.asked = (state.talks name).asked)
    (since : talk.since = (state.talks name).since)
    : (state.setTalk name { client with pipe } talk).Orderly := by
  apply orderly.setTalk
  · exact fun alive => sound (orderly.sound name client known alive)
  · intro queued
    obtain ⟨found, located, idle⟩ := orderly.rested name queued
    cases known.symm.trans located
    exact idle
  · intro user has alive
    exact ((orderly.held user name has).owned client known alive).serve asked since rfl

/-- The stream of a connection comes to its end, for whatever reason. -/
theorem Orderly.turn {pipe : Pipe} (orderly : state.Orderly)
    (known : state.clients name = some client) (later : Flow)
    (inbound : pipe.inbound = client.pipe.inbound) (flow : pipe.flow = client.pipe.flow.or later)
    : (state.setTalk name { client with pipe } (state.talks name)).Orderly := by
  refine orderly.serve known pipe (fun sound => sound.serve inbound fun finished => ?_) rfl rfl
  rw [flow, finished, Flow.or]

end Use

section Users

variable [DecidableEq τ] {errand : Session.Effect κ} {errands : List (Session.Effect κ)}

/-- Someone opens a session. -/
theorem Orderly.openSession (orderly : state.Orderly) (free : state.users user = {})
    : (state.setUser user { task := .session {} }).Orderly := by
  refine orderly.setFree (orderly.free_not_waiting free) ⟨.done, ?_⟩ rfl
  intro own same
  cases same
  exact Session.settled_empty

/-- A search that has just been started holds no client. -/
theorem Orderly.startSearch {resolve : String → Except PoolError String} {now patience : Nat}
    {backend typed : String} {search : PageSearch κ} (orderly : state.Orderly)
    (free : state.users user = {})
    (started : PageSearch.start resolve now patience backend typed = .ok search)
    : (state.setUser user { task := .search search }).Orderly := by
  refine orderly.setFree (orderly.free_not_waiting free) ⟨?_, ?_⟩ rfl
  · have unheld : (Task.search search).holds? = none := PageSearch.client_of_start started
    rw [unheld]
    exact .done
  · intro own same
    cases same

/-- Who stands first in line is turned away, and hears of it. -/
theorem Orderly.refuse {pool : Pool κ τ} (orderly : state.Orderly) (setting : Session.Setting)
    (refused : state.pool.refuse? = some (user, pool))
    : ({ state with pool }.hear user (state.users user) setting (.refused .closed)).Orderly := by
  obtain ⟨waiting, queue⟩ := Pool.refuse?_cuts refused
  have waits := orderly.waiting user (waiting ▸ List.mem_cons_self)
  have popped : Orderly { state with pool } :=
    orderly.setPool queue fun other member =>
      orderly.waiting other (waiting ▸ List.mem_cons_of_mem user member)
  exact popped.hear ((orderly.faithful user).hear_refused waits .closed) (popped.held user)

/-- A user hears what his client tells. -/
theorem Orderly.hearEvent (orderly : state.Orderly) (setting : Session.Setting)
    (outcome : Except ClientError QueryEvent)
    : (state.hear user (state.users user) setting (.event outcome)).Orderly :=
  orderly.hear ((orderly.faithful user).hear_event outcome) (orderly.held user)

/-- A user has run an errand and goes on with the next one. -/
theorem Orderly.runErrand (orderly : state.Orderly)
    (due : (state.users user).errands = errand :: errands)
    (leads : Leads (state.users user).hand errands (state.users user).task.holds?)
    : (state.setUser user { state.users user with errands }).Orderly :=
  orderly.setUser (orderly.not_waiting due) ⟨leads, (orderly.faithful user).settled⟩
    (orderly.held user)

/-- A user has failed to run an errand, and hears of it. -/
theorem Orderly.failErrand (orderly : state.Orderly) (setting : Session.Setting)
    (outcome : Except ClientError QueryEvent)
    (leads : Leads (state.users user).hand errands (state.users user).task.holds?)
    : (state.hear user { state.users user with errands } setting (.event outcome)).Orderly := by
  have faithful : ({ state.users user with errands } : User κ).Faithful :=
    ⟨leads, (orderly.faithful user).settled⟩
  exact orderly.hear (faithful.hear_event outcome) (orderly.held user)

end Users

variable [DecidableEq κ] [DecidableEq τ]

/-- Who stands first in line gets a client and hears of it. -/
theorem Orderly.grant {pool : Pool κ τ} (orderly : state.Orderly) (setting : Session.Setting)
    (granted : state.pool.grant? = some (user, name, pool))
    : ((state.lend pool name).hear user { state.users user with hand := some name } setting
        (.granted name)).Orderly := by
  obtain ⟨waiting, -⟩ := Pool.grant?_cuts granted
  have waits := orderly.waiting user (waiting ▸ List.mem_cons_self)
  apply (orderly.lend granted).hear ((orderly.faithful user).hear_granted waits name)
  intro other has
  cases has
  exact orderly.lends granted

/-- A user parts with the client that he has. -/
theorem Orderly.giveBack {entry : User κ} (orderly : state.Orderly)
    (has : (state.users user).hand = some name) (known : state.clients name = some client)
    (unheard : user ∉ state.pool.waiting) (faithful : entry.Faithful) (empty : entry.hand = none)
    : ((state.setUser user entry).putBack name client).Orderly := by
  have lends := orderly.held user name has
  apply (orderly.setFree unheard faithful empty).putBack known lends.unqueued
  intro other hasToo
  simp only [Commons.setUser, override] at hasToo
  split at hasToo
  · cases empty.symm.trans hasToo
  · next apart => exact apart (lends.alone other hasToo)

/-- Every step leaves a state in order, by cases on the step. -/
theorem Step.orderly (step : Step state next) (orderly : state.Orderly) : next.Orderly := by
  cases step with
  | openSession user free => exact orderly.openSession free
  | startSearch user free started => exact orderly.startSearch free started
  | call user setting call ready =>
      exact orderly.hear ((orderly.faithful user).hear_call call) (orderly.held user)
  | request user waits => exact orderly.request waits
  | grant setting granted => exact orderly.grant setting granted
  | refuse setting refused => exact orderly.refuse setting refused
  | @read user name client event after setting ready holds known next =>
      have has := ((orderly.faithful user).hand_eq ready).trans holds
      exact (orderly.read has known next).hearEvent setting _
  | @readFailed user name client cause after setting ready holds known next =>
      have has := ((orderly.faithful user).hand_eq ready).trans holds
      exact (orderly.useUp has known (Client.nextEvent?_eq_error next)).hearEvent setting _
  | @reply user message errands due =>
      exact orderly.runErrand due (due ▸ (orderly.faithful user).leads).of_reply
  | @ask user name query errands client after due known asked =>
      obtain ⟨has, leads⟩ := (due ▸ (orderly.faithful user).leads).of_ask
      exact (orderly.ask has known asked).runErrand due leads
  | @askFailed user name query errands client cause after setting due known failed =>
      obtain ⟨has, leads⟩ := (due ▸ (orderly.faithful user).leads).of_ask
      exact (orderly.useUp has known (Client.ask_eq_error failed)).failErrand setting _ leads
  | @close user name errands client due known =>
      obtain ⟨has, leads⟩ := (due ▸ (orderly.faithful user).leads).of_close
      have dead : client.close.ending = none → client.close = client := by
        intro alive
        cases alive
      exact (orderly.useUp has known dead).runErrand due leads
  | @release user backend name errands client due known =>
      obtain ⟨has, leads⟩ := (due ▸ (orderly.faithful user).leads).of_release
      exact orderly.giveBack has known (orderly.not_waiting due)
        ⟨leads, (orderly.faithful user).settled⟩ rfl
  | vanish user empty =>
      exact (orderly.withdraw user).setFree (not_mem_withdraw state.pool user)
        User.faithful_gone rfl
  | @drop user name client holds known =>
      exact (orderly.withdraw user).giveBack holds known (not_mem_withdraw state.pool user)
        User.faithful_gone rfl
  | answer name known next =>
      exact orderly.serve known _ (fun sound => sound.answer next) rfl rfl
  | send name known follows sent =>
      exact orderly.serve known _ (fun sound => sound.write follows sent) rfl rfl
  | finish name known | hangUp name known =>
      exact orderly.turn known .finished rfl rfl
  | breakOff name cause known => exact orderly.turn known (.broken cause) rfl rfl
  | collect name known =>
      exact orderly.serve known _ (fun sound => sound.serve rfl id) rfl rfl
  | startDial started =>
      obtain ⟨-, -, rfl⟩ := Pool.startDial?_eq_some started
      exact orderly.setPool rfl orderly.waiting
  | dialFailed now => exact orderly.dialFailed now
  | redial now elapsed =>
      obtain ⟨since, due, -, rfl⟩ := Pool.redial?_eq_some elapsed
      exact orderly.setPool rfl orderly.waiting
  | dialled dialling new greeted quiet =>
      obtain ⟨free, alive⟩ := Client.new_of_handshake? greeted
      exact orderly.dialled new free alive quiet
  | cancel => exact orderly.setPool rfl orderly.waiting
  | drain => exact orderly.drain

end Commons

end SourceView
