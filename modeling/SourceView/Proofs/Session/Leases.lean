import SourceView.Proofs.Pool.Custody
import SourceView.Proofs.Session.FrameOrder
import SourceView.Proofs.Session.Tenancy

/-! A session leaves no client behind.
It parts with a client when the answer was read to the end, or when it has not asked. Otherwise the
connection is closed first, because it has failed or because the session ends.
-/

namespace SourceView

-----------------------------------------------------------------------------------------
-- Clients that are not idle
-----------------------------------------------------------------------------------------

namespace Client

variable {client after : Client}

/-- A client is busy or dead when it was asked, whether that has succeeded or not. -/
theorem isIdle_ask (client : Client) (query : Query)
    : (client.ask query).2.isIdle = false := by
  unfold ask
  split
  · next ending dead => simp [isIdle, dead]
  · split
    · next busy => simp [isIdle, busy]
    · split
      · simp [isIdle, fail]
      · simp [isIdle]

/-- A client that was closed is not idle. -/
theorem isIdle_close (client : Client) : client.close.isIdle = false := by
  simp [isIdle, close]

/-- A client that is not idle only becomes so when it reads the end of an answer. -/
theorem isIdle_nextEvent? {outcome : Except ClientError QueryEvent}
    (next : client.nextEvent? = some (outcome, after)) (busy : client.isIdle = false)
    (unended : ∀ ending, outcome = .ok ending → ending.message.isTerminator = false)
    : after.isIdle = false := by
  rcases outcome with cause | event
  · refine eq_false_of_ne_true fun idle => ?_
    have alive := (isIdle_iff.mp idle).1
    rw [nextEvent?_eq_error next alive, busy] at idle
    cases idle
  · obtain ⟨-, -, _, _, -, -, rfl⟩ := nextEvent?_eq_ok next
    simp [isIdle, unended event rfl]

end Client

-----------------------------------------------------------------------------------------
-- How far a lease has come
-----------------------------------------------------------------------------------------

namespace Tenancy

variable {κ τ : Type}

/-- A session that is to do this is just parting with a client. -/
def parting : List (Session.Effect (String × κ)) → Bool
  | .close _ :: _ | .release _ _ :: _ => true
  | _ => false

/-- What the session has, what is to be done, and what it holds by its own account, between any two
steps. The clients in question are either busy or dead.
-/
inductive Stage (busy : String × κ → Prop)
    : List (Lease κ) → List (Session.Effect (String × κ)) → Option (String × (String × κ)) → Prop
  | free {errands} (replies : Session.Replies errands) : Stage busy [] errands none
  | due {name query} : Stage busy [{ client := name }] [.ask name query] (some (name.1, name))
  | asked {lease errands} (replies : Session.Replies errands) (underway : lease.Underway)
    (waits : busy lease.client)
    : Stage busy [lease] errands (some (lease.client.1, lease.client))
  | closing {lease}
    : Stage busy [lease] [.close lease.client, .release lease.client.1 lease.client] none
  | leaving {lease errands} (replies : Session.Replies errands)
    (fit : lease.deeds = [] ∨ lease.Answered ∨ busy lease.client)
    : Stage busy [lease] (.release lease.client.1 lease.client :: errands) none

namespace Stage

variable {busy later : String × κ → Prop} {lent : List (Lease κ)}
  {errands : List (Session.Effect (String × κ))} {held : Option (String × (String × κ))}
  {session : Session (String × κ)} {turn : Session.Turn (String × κ)}

/-- A stage stays as it is while the clients that were lent stay busy or dead. -/
theorem mono (stage : Stage busy lent errands held)
    (still : ∀ lease ∈ lent, busy lease.client → later lease.client)
    : Stage later lent errands held := by
  cases stage with
  | free replies => exact .free replies
  | due => exact .due
  | asked replies underway waits =>
      exact .asked replies underway (still _ List.mem_cons_self waits)
  | closing => exact .closing
  | leaving replies fit =>
      exact .leaving replies (fit.imp_right (Or.imp_right (still _ List.mem_cons_self)))

/-- In no stage is more than one client lent. -/
theorem length_le (stage : Stage busy lent errands held) : lent.length ≤ 1 := by
  cases stage with
  | free => exact Nat.zero_le 1
  | due | asked | closing | leaving => exact le_rfl

/-- The session has what it holds, unless it is just parting with it. -/
theorem lent_eq (stage : Stage busy lent errands held) (stays : parting errands = false)
    : lent.map (fun lease => (lease.client.1, lease.client)) = held.toList := by
  cases stage with
  | free | due | asked => rfl
  | closing | leaving => cases stays

/-- Whether a message is sent or not, the session has the same client. -/
theorem of_reply {message : BrowserMessage}
    (stage : Stage busy lent (.reply message :: errands) held)
    : Stage busy lent errands held ∧ Stage busy lent [] held := by
  cases stage with
  | free replies => exact ⟨.free replies.tail, .free Session.replies_nil⟩
  | asked replies underway waits =>
      exact ⟨.asked replies.tail underway waits, .asked Session.replies_nil underway waits⟩

/-- A session that has nothing to do and keeps its client goes on, or closes the client. -/
theorem keeps (stage : Stage busy lent [] session.holds?) (keeps : turn.Keeps session)
    : Stage busy lent turn.effects turn.session.holds? := by
  generalize held : session.holds? = lease at stage
  cases stage with
  | free =>
      cases keeps with
      | goesOn replies same =>
          rw [same, held]
          exact .free replies
      | stops effects unheld =>
          rw [effects, unheld, Session.effects_shutDown held]
          exact .free Session.replies_nil
  | asked _ underway waits =>
      cases keeps with
      | goesOn replies same =>
          rw [same, held]
          exact .asked replies underway waits
      | stops effects unheld =>
          rw [effects, unheld, Session.shutDown, held]
          exact .closing

/-- A session that gives its client back has nothing else to do to it. -/
theorem gives {lease : Lease κ} {rest : Session.Turn (String × κ)}
    (held : session.holds? = some (lease.client.1, lease.client)) (free : rest.Free)
    (fit : lease.deeds = [] ∨ lease.Answered ∨ busy lease.client)
    : Stage busy [lease] (rest.after session.releasing).effects
        (rest.after session.releasing).session.holds? := by
  rw [Session.effects_after, Session.session_after, free.unheld, Session.releasing, held]
  exact .leaving free.replies fit

/-- Where nothing is to be done and nothing held, nothing is lent. -/
theorem of_unheld (stage : Stage busy lent [] none) : lent = [] := by
  cases stage
  rfl

/-- A lease that nobody has to do anything about has been asked. -/
theorem of_held {backend : String} {name : String × κ}
    (stage : Stage busy lent [] (some (backend, name)))
    : ∃ lease : Lease κ,
        lent = [lease]
        ∧ lease.client = name
        ∧ backend = name.1
        ∧ lease.Underway
        ∧ busy name := by
  cases stage with
  | @asked lease _ _ underway waits => exact ⟨lease, rfl, rfl, rfl, underway, waits⟩

/-- A session that is to ask a client has just been lent it, and holds it. -/
theorem of_ask {name : String × κ} {query : Query}
    (stage : Stage busy lent (.ask name query :: errands) held)
    : lent = [{ client := name }] ∧ errands = [] ∧ held = some (name.1, name) := by
  cases stage with
  | free replies => cases replies _ List.mem_cons_self
  | due => exact ⟨rfl, rfl, rfl⟩
  | asked replies => cases replies _ List.mem_cons_self

/-- A query that is to be sent is all that is to be done, and the first thing done to the client. -/
theorem unasked_or (stage : Stage busy lent errands held)
    : (∀ name query, .ask name query ∉ errands)
      ∨ ∃ name query,
          errands = [.ask name query]
          ∧ lent = [{ client := name }]
          ∧ held = some (name.1, name) := by
  cases stage with
  | free replies | asked replies => exact .inl fun name query member => nomatch replies _ member
  | @due name query => exact .inr ⟨name, query, rfl, rfl, rfl⟩
  | closing => exact .inl (by simp)
  | leaving replies =>
      refine .inl fun name query member => ?_
      rcases List.mem_cons.mp member with same | behind
      · cases same
      · cases replies _ behind

/-- A session that is to close a client has been lent it, and gives it back next. -/
theorem of_close {name : String × κ} (stage : Stage busy lent (.close name :: errands) held)
    : ∃ lease : Lease κ,
        lent = [lease]
        ∧ lease.client = name
        ∧ errands = [.release name.1 name]
        ∧ held = none := by
  cases stage with
  | free replies => cases replies _ List.mem_cons_self
  | asked replies => cases replies _ List.mem_cons_self
  | @closing lease => exact ⟨lease, rfl, rfl, rfl, rfl⟩

/-- A session that is to give a client back has been lent it, and has nothing else to do to it. -/
theorem of_release {backend : String} {name : String × κ}
    (stage : Stage busy lent (.release backend name :: errands) held)
    : ∃ lease : Lease κ,
        lent = [lease]
        ∧ lease.client = name
        ∧ backend = name.1
        ∧ Session.Replies errands
        ∧ held = none
        ∧ (lease.deeds = [] ∨ lease.Answered ∨ busy name) := by
  cases stage with
  | free replies => cases replies _ List.mem_cons_self
  | asked replies => cases replies _ List.mem_cons_self
  | @leaving lease _ replies fit => exact ⟨lease, rfl, rfl, rfl, replies, rfl, fit⟩

end Stage

-----------------------------------------------------------------------------------------
-- What is kept of the pools
-----------------------------------------------------------------------------------------

variable {state next : Tenancy κ τ} {lease : Lease κ} {client after : Client}
  {name : String × κ} {backend : String} {deed : Lease.Deed} {pool : Shutdown κ τ}

/-- The client is busy or dead. -/
def Busy (state : Tenancy κ τ) (name : String × κ) : Prop :=
  ∀ client, state.client? name = some client → client.isIdle = false

/-- The session has parted with a client before it asked or after it has read the whole answer, or
the connection is closed.
-/
def Parted (state : Tenancy κ τ) (lease : Lease κ) : Prop :=
  lease.deeds = [] ∨ lease.Answered ∨ (state.pools lease.client.1).Dead lease.client.2

/-- A client that was parted with stays so while the dead stay dead. -/
theorem Parted.imp (parted : state.Parted lease)
    (dead
      : (state.pools lease.client.1).Dead lease.client.2
        → (next.pools lease.client.1).Dead lease.client.2)
    : next.Parted lease :=
  Or.imp_right (Or.imp_right dead) parted

/-- A client that was lent was lent from its pool. -/
theorem mem_lentFrom (member : lease ∈ state.lent)
    : lease.client.2 ∈ state.lentFrom lease.client.1 := by
  simp only [lentFrom, List.mem_map, List.mem_filter, decide_eq_true_eq]
  exact ⟨lease.client, ⟨⟨lease, member, rfl⟩, rfl⟩, rfl⟩

/-- A pool has lent a client more than before. -/
theorem lentFrom_lend (state : Tenancy κ τ) (backend : String) (name : κ) (pool : Pool κ τ)
    (other : String)
    : (state.lend backend name pool).lentFrom other
      = state.lentFrom other ++ if other = backend then [name] else [] := by
  by_cases same : other = backend
  · simp [lentFrom, Tenancy.lend, same]
  · simp [lentFrom, Tenancy.lend, same, Ne.symm same]

variable [DecidableEq κ]

/-- Every client is where it should be. -/
structure Kept (state : Tenancy κ τ) : Prop where
  placed
    : ∀ backend,
        (state.pools backend).Placed ((state.pools backend).held ++ state.lentFrom backend)
  parted : ∀ lease ∈ state.returned, state.Parted lease

/-- Clients stay where they should be if those of a changed pool are. -/
theorem Kept.setPool (kept : state.Kept)
    (placed : pool.Placed (pool.held ++ state.lentFrom backend))
    (dead : ∀ name, (state.pools backend).Dead name → pool.Dead name)
    : (state.setPool backend pool).Kept where
  placed other := by
    by_cases same : other = backend
    · subst same
      simp only [Tenancy.setPool, override_self]
      exact placed
    · simp only [Tenancy.setPool, override_of_ne same]
      exact kept.placed other
  parted lease member := by
    refine (kept.parted lease member).imp fun was => ?_
    by_cases same : lease.client.1 = backend
    · subst same
      simp only [Tenancy.setPool, override_self]
      exact dead _ was
    · simp only [Tenancy.setPool, override_of_ne same]
      exact was

/-- What is done to the client that was lent is noted. -/
theorem lent_act (deed : Lease.Deed) (after : Client) (lent : state.lent = [lease])
    (own : lease.client = name)
    : (state.act name deed after).lent = [lease.note deed] := by
  simp [act, lent, own]

/-- What is done to a client does not change what was lent. -/
theorem lentFrom_act (state : Tenancy κ τ) (name : String × κ) (deed : Lease.Deed)
    (after : Client) (backend : String)
    : (state.act name deed after).lentFrom backend = state.lentFrom backend := by
  have same : (state.act name deed after).lent.map Lease.client = state.lent.map Lease.client := by
    rw [act, List.map_map]
    refine List.map_congr_left fun lease _ => ?_
    simp only [Function.comp]
    split <;> rfl
  rw [lentFrom, lentFrom, same]

/-- What was done to a client is now so. -/
theorem client?_act : (state.act name deed after).client? name = some after := by
  simp only [act, client?, setPool, override_self, Circulation.setClient]

/-- A client that was left unfit for use is busy or dead. -/
theorem busy_act (busy : after.isIdle = false) : (state.act name deed after).Busy name := by
  intro client known
  rw [client?_act] at known
  exact Option.some.inj known ▸ busy

/-- What is done to a client leaves clients where they should be, if no dead one comes back to life.
-/
theorem Kept.act (kept : state.Kept) (known : state.client? name = some client)
    (stays : after.ending = none → client.ending = none)
    : (state.act name deed after).Kept := by
  have pools : (state.setPool name.1
      { state.pools name.1 with
        toCirculation := (state.pools name.1).setClient name.2 after }).Kept :=
    kept.setPool ((kept.placed name.1).setClient name.2 after) fun other dead =>
      dead.override known rfl stays
  refine ⟨fun backend => ?_, pools.parted⟩
  rw [lentFrom_act]
  exact pools.placed backend

/-- Lending a client takes it from the queue to the session. -/
theorem Kept.lend {ticket : τ} {name : κ} {pool : Pool κ τ} (kept : state.Kept)
    (lent : (state.pools backend).pool.lend? = some (ticket, name, pool))
    : (state.lend backend name pool).Kept where
  placed other := by
    rw [lentFrom_lend]
    by_cases same : other = backend
    · subst same
      simp only [Tenancy.lend, Tenancy.setPool, override_self, if_true, ← List.append_assoc]
      exact ((kept.placed other).lend lent).perm (List.perm_append_singleton ..).symm
    · simp only [Tenancy.lend, Tenancy.setPool, override_of_ne same, if_neg same, List.append_nil]
      exact kept.placed other
  parted lease member := by
    refine (kept.parted lease member).imp fun dead => ?_
    simp only [Tenancy.lend, Tenancy.setPool, override]
    split
    · next same => exact same ▸ dead
    · exact dead

omit [DecidableEq κ] in
/-- The only client that the session has is out of its own pool. -/
theorem lentFrom_of_lent (lent : state.lent = [lease]) (backend : String)
    : state.lentFrom backend = if lease.client.1 = backend then [lease.client.2] else [] := by
  by_cases same : lease.client.1 = backend
  · simp [lentFrom, lent, same]
  · simp [lentFrom, lent, same]

/-- A client that is given back is let go in its pool. -/
theorem pools_giveBack (state : Tenancy κ τ) (name : String × κ) (client : Client)
    : (state.giveBack name client).pools name.1 = (state.pools name.1).letGo name.2 client :=
  override_self

/-- The other pools do not change when a client is given back. -/
theorem pools_giveBack_of_ne (apart : backend ≠ name.1)
    : (state.giveBack name client).pools backend = state.pools backend :=
  override_of_ne apart

/-- A client that is given back is in no place but one in its pool. -/
theorem Kept.placed_giveBack (kept : state.Kept) (lent : state.lent = [lease]) (client : Client)
    (backend : String)
    : ((state.giveBack lease.client client).pools backend).Placed
        ((state.giveBack lease.client client).pools backend).held := by
  have placed := kept.placed backend
  rw [lentFrom_of_lent lent] at placed
  by_cases same : lease.client.1 = backend
  · subst same
    rw [if_pos rfl] at placed
    have alone := (placed.not_mem List.mem_cons_self).2.2
    rw [pools_giveBack, Shutdown.held_letGo, List.erase_of_not_mem alone]
    exact (placed.perm (List.perm_append_singleton ..)).letGo client
  · rw [if_neg same, List.append_nil] at placed
    rw [pools_giveBack_of_ne (Ne.symm same)]
    exact placed

/-- Giving a client back does not bring a dead one back to life. -/
theorem dead_giveBack {backend : String} {other : κ} (known : state.client? name = some client)
    (dead : (state.pools backend).Dead other)
    : ((state.giveBack name client).pools backend).Dead other := by
  by_cases same : backend = name.1
  · subst same
    rw [pools_giveBack]
    exact dead.letGo known
  · rw [pools_giveBack_of_ne same]
    exact dead

/-- The session has let its only client go. -/
theorem Kept.giveBack (kept : state.Kept) (lent : state.lent = [lease])
    (known : state.client? lease.client = some client)
    (fit : lease.deeds = [] ∨ lease.Answered ∨ client.isIdle = false)
    : (state.giveBack lease.client client).Kept where
  placed backend := by
    have emptied : (state.giveBack lease.client client).lentFrom backend = [] := by
      simp [lentFrom, Tenancy.giveBack, lent]
    rw [emptied, List.append_nil]
    exact kept.placed_giveBack lent client backend
  parted past member := by
    have returned : (state.giveBack lease.client client).returned = state.returned ++ [lease] := by
      simp [Tenancy.giveBack, lent]
    rw [returned] at member
    rcases List.mem_append.mp member with earlier | last
    · exact (kept.parted past earlier).imp (dead_giveBack known)
    · rw [List.mem_singleton.mp last]
      refine fit.imp_right (Or.imp_right fun busy => ?_)
      rw [pools_giveBack, Shutdown.letGo_of_busy busy]
      exact ⟨client.close, override_self, nofun⟩

-----------------------------------------------------------------------------------------
-- Steps
-----------------------------------------------------------------------------------------

/-- Each client is where it should be, and the lease of the one that the session has is as far as
the session believes.
-/
structure Proper (state : Tenancy κ τ) : Prop extends state.Kept where
  stage : Stage state.Busy state.lent state.errands state.session.holds?
  ends : state.session.ended = true → state.session.holds? = none
  waits
    : ∀ backend, state.self ∈ (state.pools backend).pool.waiting →
        state.errands = []
        ∧ state.session.ended = false
        ∧ state.session.waitsFor? = some backend

/-- A session that has something to do does not wait. -/
theorem Proper.not_waiting {errand : Session.Effect (String × κ)}
    {errands : List (Session.Effect (String × κ))} (proper : state.Proper)
    (due : state.errands = errand :: errands) (backend : String)
    : state.self ∉ (state.pools backend).pool.waiting := by
  intro member
  cases due.symm.trans (proper.waits backend member).1

/-- A session that has just been opened has no client. -/
theorem proper_create {self : τ} {pools : String → Shutdown κ τ}
    (placed : ∀ backend, (pools backend).Placed (pools backend).held)
    (new : ∀ backend, self ∉ (pools backend).pool.waiting)
    : (create self pools).Proper where
  placed backend := by
    have out : (create self pools).lentFrom backend = [] := rfl
    rw [out, List.append_nil]
    exact placed backend
  parted := nofun
  stage := .free Session.replies_nil
  ends _ := rfl
  waits backend member := absurd member (new backend)

/-- What is done to a client does not change who waits. -/
theorem waiting_act (state : Tenancy κ τ) (name : String × κ) (deed : Lease.Deed)
    (after : Client) (backend : String)
    : ((state.act name deed after).pools backend).pool.waiting
      = (state.pools backend).pool.waiting := by
  simp only [Tenancy.act, Tenancy.setPool, override]
  split
  · next same => rw [same]; rfl
  · rfl

/-- Giving a client back does not change who waits. -/
theorem waiting_giveBack (state : Tenancy κ τ) (name : String × κ) (client : Client)
    (backend : String)
    : ((state.giveBack name client).pools backend).pool.waiting
      = (state.pools backend).pool.waiting := by
  simp only [giveBack, Tenancy.setPool, override]
  split
  · next same => rw [same, Shutdown.waiting_letGo]
  · rfl

/-- A pool changes, but not what the session has of it. -/
theorem Proper.setPool (proper : state.Proper)
    (placed : pool.Placed (pool.held ++ state.lentFrom backend))
    (dead : ∀ name, (state.pools backend).Dead name → pool.Dead name)
    (aloof
      : ∀ name ∈ state.lentFrom backend, ∀ after, pool.clients name = some after →
          ∃ client pipe,
            (state.pools backend).clients name = some client ∧ after = { client with pipe })
    (waits
      : state.self ∈ pool.pool.waiting →
          state.errands = []
          ∧ state.session.ended = false
          ∧ state.session.waitsFor? = some backend)
    : (state.setPool backend pool).Proper where
  toKept := proper.toKept.setPool placed dead
  stage := by
    refine proper.stage.mono fun lease member busy after known => ?_
    simp only [client?, Tenancy.setPool, override] at known
    split at known
    · next same =>
        have own : lease.client.2 ∈ state.lentFrom backend := same ▸ mem_lentFrom member
        obtain ⟨client, pipe, before, rfl⟩ := aloof _ own after known
        exact busy client (by rw [client?, same]; exact before)
    · exact busy after known
  ends := proper.ends
  waits other member := by
    simp only [Tenancy.setPool, override] at member
    split at member
    · next same => exact same ▸ waits member
    · exact proper.waits other member

/-- The session does something to a client because that was to be done. -/
theorem Proper.act {errand : Session.Effect (String × κ)}
    {errands : List (Session.Effect (String × κ))} (proper : state.Proper)
    (due : state.errands = errand :: errands) (kept : (state.act name deed after).Kept)
    (stage
      : Stage (state.act name deed after).Busy (state.act name deed after).lent errands
          state.session.holds?)
    : Proper { state.act name deed after with errands } where
  placed := kept.placed
  parted := kept.parted
  stage := stage
  ends := proper.ends
  waits backend member := by
    have member : state.self ∈ ((state.act name deed after).pools backend).pool.waiting := member
    rw [waiting_act] at member
    exact absurd member (proper.not_waiting due backend)

section Errands

variable {errands : List (Session.Effect (String × κ))}

/-- A session that has told the browser something has the rest left to do. -/
theorem Proper.replied {message : BrowserMessage} (proper : state.Proper)
    (due : state.errands = .reply message :: errands)
    : Proper { state with errands } where
  placed := proper.placed
  parted := proper.parted
  stage := (due ▸ proper.stage).of_reply.1
  ends := proper.ends
  waits backend member := absurd member (proper.not_waiting due backend)

/-- A session to which nobody listens any more only closes the client that it has. -/
theorem Proper.shutDown {message : BrowserMessage} (proper : state.Proper)
    (due : state.errands = .reply message :: errands)
    : Proper {
        state with
        session := state.session.shutDown.session
        errands := state.session.shutDown.effects } where
  placed := proper.placed
  parted := proper.parted
  stage := (due ▸ proper.stage).of_reply.2.keeps (Session.keeps_shutDown _)
  ends _ := rfl
  waits backend member := absurd member (proper.not_waiting due backend)

/-- A client that was asked is not idle any more, and where it was, whether it could be asked or
not.
-/
theorem Kept.asked {query : Query} (kept : state.Kept) (deed : Lease.Deed)
    (known : state.client? name = some client) (asked : (client.ask query).2 = after)
    : (state.act name deed after).Kept ∧ (state.act name deed after).Busy name :=
  ⟨kept.act known fun alive => Client.ending_ask (asked ▸ alive),
    busy_act (asked ▸ client.isIdle_ask query)⟩

/-- A client that has taken the query is waited for. -/
theorem Proper.asked {query : Query} (proper : state.Proper)
    (due : state.errands = .ask name query :: errands) (known : state.client? name = some client)
    (asked : client.ask query = (.ok (), after))
    : Proper { state.act name (.asked (.ok ())) after with errands } := by
  obtain ⟨lent, rfl, holds⟩ := (due ▸ proper.stage).of_ask
  obtain ⟨kept, busy⟩ := proper.toKept.asked _ known (congrArg Prod.snd asked)
  refine proper.act due kept ?_
  rw [lent_act _ _ lent rfl, holds]
  exact .asked Session.replies_nil (Lease.underway_of_asked rfl) busy

/-- A client that was closed is given back next. -/
theorem Proper.closed (proper : state.Proper) (due : state.errands = .close name :: errands)
    (known : state.client? name = some client)
    : Proper { state.act name .closed client.close with errands } := by
  obtain ⟨lease, lent, rfl, rfl, holds⟩ := (due ▸ proper.stage).of_close
  refine proper.act due (proper.toKept.act known nofun) ?_
  rw [lent_act _ _ lent rfl, holds]
  exact .leaving Session.replies_nil (.inr (.inr (busy_act client.isIdle_close)))

/-- A session that has given its client back has none. -/
theorem Proper.givenBack (proper : state.Proper)
    (due : state.errands = .release backend name :: errands)
    (known : state.client? name = some client)
    : Proper { state.giveBack name client with errands } := by
  obtain ⟨lease, lent, rfl, -, replies, holds, fit⟩ := (due ▸ proper.stage).of_release
  have kept := proper.toKept.giveBack lent known
    (fit.imp_right (Or.imp_right fun busy => busy client known))
  refine ⟨⟨kept.placed, kept.parted⟩, ?_, proper.ends, fun other member => ?_⟩
  · have emptied : (state.giveBack lease.client client).lent = [] := by
      simp [giveBack, lent]
    show Stage _ (state.giveBack lease.client client).lent errands state.session.holds?
    rw [emptied, holds]
    exact .free replies
  · have member : state.self ∈ ((state.giveBack lease.client client).pools other).pool.waiting :=
      member
    rw [waiting_giveBack] at member
    exact absurd member (proper.not_waiting due other)

end Errands

/-- A client that was lent is known. -/
theorem Proper.known (proper : state.Proper) (lent : state.lent = [lease])
    : ∃ client, state.client? lease.client = some client := by
  have member : lease.client.2 ∈ state.lentFrom lease.client.1 :=
    mem_lentFrom (lent ▸ List.mem_cons_self)
  have placed := proper.placed lease.client.1
  refine Option.ne_none_iff_exists'.mp (placed.known _ ?_)
  exact Shutdown.places_pos _ (List.mem_append_right _ member)

variable [DecidableEq τ]

/-- Hearing of something leaves clients where they should be. -/
theorem Kept.hear {setting : Session.Setting} {input : Session.Input (String × κ)}
    (kept : state.Kept)
    : (state.hear setting input).Kept where
  placed backend := (kept.placed backend).of_same rfl rfl rfl rfl
  parted := kept.parted

/-- What is heard leaves a session proper if its stage is right and it holds no client when it has
ended.
-/
theorem Kept.proper_hear {setting : Session.Setting} {input : Session.Input (String × κ)}
    (kept : state.Kept)
    (stage
      : Stage state.Busy state.lent
          (state.errands ++ (state.session.handle setting input).effects)
          (state.session.handle setting input).session.holds?)
    (ends
      : (state.session.handle setting input).session.ended = true
        → (state.session.handle setting input).session.holds? = none)
    : (state.hear setting input).Proper where
  toKept := kept.hear
  stage := stage
  ends := ends
  waits _ member := absurd member (Commons.not_mem_withdraw _ _)

section Hears

variable {setting : Session.Setting} {input : Session.Input (String × κ)}

/-- A turn that keeps the client leaves a session proper. -/
theorem Proper.hear_keeping (proper : state.Proper) (ready : state.errands = [])
    (keeps : (state.session.handle setting input).Keeps state.session)
    : (state.hear setting input).Proper := by
  refine proper.toKept.proper_hear ?_ keeps.ends
  have stage := proper.stage
  rw [ready] at stage ⊢
  exact stage.keeps keeps

/-- A session that gives its client back has noted why. -/
theorem Kept.proper_event {outcome : Except ClientError QueryEvent} (kept : state.Kept)
    (going : state.session.ended = false) (ready : state.errands = []) (lent : state.lent = [lease])
    (held : state.session.holds? = some (lease.client.1, lease.client))
    (ends : ∀ found, outcome ≠ .ok (.result found))
    (fit : lease.deeds = [] ∨ lease.Answered ∨ state.Busy lease.client)
    : (state.hear setting (.event outcome)).Proper := by
  obtain ⟨rest, free, same⟩ := Session.exists_handle_event setting going ends
  refine kept.proper_hear ?_ fun _ => ?_
  · rw [ready, lent, same]
    exact .gives held free fit
  · rw [same]
    exact free.unheld

/-- A session that waited for a client asks it, or closes it and gives it back. -/
theorem Proper.granted {ticket : τ} {name : κ} {pool : Pool κ τ} (proper : state.Proper)
    (ready : state.errands = []) (going : state.session.ended = false)
    (waits : state.session.waitsFor? = some backend)
    (lent : (state.pools backend).pool.lend? = some (ticket, name, pool))
    : ((state.lend backend name pool).hear setting (.granted (backend, name))).Proper := by
  have stage := proper.stage
  rw [ready, Session.holds?_of_waitsFor? waits] at stage
  have own : (state.lend backend name pool).lent = [{ client := (backend, name) }] := by
    rw [Tenancy.lend, stage.of_unheld]
    rfl
  have kept := proper.toKept.lend lent
  rcases Session.handle_granted_cases setting going waits (backend, name) with
    ⟨rest, free, same⟩ | ⟨query, effects, holds, goesOn⟩
  · refine kept.proper_hear ?_ fun _ => ?_
    · show Stage _ _ (state.errands ++ (state.session.handle setting _).effects)
        (state.session.handle setting _).session.holds?
      rw [ready, own, same, Session.session_after, free.unheld]
      exact .leaving free.replies (.inl rfl)
    · show (state.session.handle setting _).session.holds? = none
      rw [same]
      exact free.unheld
  · refine kept.proper_hear ?_ fun ended => ?_
    · show Stage _ _ (state.errands ++ (state.session.handle setting _).effects)
        (state.session.handle setting _).session.holds?
      rw [ready, own, effects, holds]
      exact .due
    · cases goesOn.symm.trans ended

/-- A session that hears from its client goes on reading, or parts with it. -/
theorem Proper.read {outcome : Except ClientError QueryEvent} (proper : state.Proper)
    (ready : state.errands = []) (going : state.session.ended = false)
    (holds : state.session.holds? = some (backend, name)) (known : state.client? name = some client)
    (next : client.nextEvent? = some (outcome, after))
    : ((state.act name (.heard outcome) after).hear setting (.event outcome)).Proper := by
  have stage := proper.stage
  rw [ready, holds] at stage
  obtain ⟨lease, lent, rfl, rfl, underway, waits⟩ := stage.of_held
  have busy := waits client known
  have kept : (state.act lease.client (.heard outcome) after).Kept :=
    proper.toKept.act known (Client.ending_nextEvent? next)
  have own := lent_act (.heard outcome) after lent rfl
  have still : (∀ ending, outcome = .ok ending → ending.message.isTerminator = false)
      → (state.act lease.client (.heard outcome) after).Busy lease.client :=
    fun unended => busy_act (Client.isIdle_nextEvent? next busy unended)
  rcases outcome with cause | found | stats | text
  · exact kept.proper_event going ready own holds nofun (.inr (.inr (still nofun)))
  · have keeps := Session.keeps_handle setting going
      (.inr (.inr (.inr ⟨found, rfl⟩)))
    refine kept.proper_hear ?_ keeps.ends
    have asked : Stage (state.act lease.client (.heard (.ok (.result found))) after).Busy
        [lease.note (.heard (.ok (.result found)))] [] state.session.holds? := by
      rw [holds]
      exact .asked Session.replies_nil (underway.result found)
        (still fun ending same => by cases same; rfl)
    rw [own]
    show Stage _ _ (state.errands ++ (state.session.handle setting _).effects) _
    rw [ready]
    exact asked.keeps keeps
  · exact kept.proper_event going ready own holds nofun (.inr (.inl (underway.answered rfl)))
  · exact kept.proper_event going ready own holds nofun (.inr (.inl (underway.answered rfl)))

/-- A session whose client could not be asked has noted why, and gives it back. -/
theorem Proper.askFailed {query : Query} {cause : ClientError}
    {errands : List (Session.Effect (String × κ))} (proper : state.Proper)
    (due : state.errands = .ask name query :: errands) (known : state.client? name = some client)
    (failed : client.ask query = (.error cause, after))
    : Proper
        ({ state.act name (.asked (.error cause)) after with errands }.hear setting
          (.event (.error cause))) := by
  obtain ⟨lent, rfl, holds⟩ := (due ▸ proper.stage).of_ask
  obtain ⟨kept, busy⟩ := proper.toKept.asked (.asked (.error cause)) known (congrArg Prod.snd failed)
  have going : state.session.ended = false := by
    refine eq_false_of_ne_true fun ended => ?_
    cases holds.symm.trans (proper.ends ended)
  have idle : Kept { state.act name (.asked (.error cause)) after with errands := [] } :=
    ⟨kept.placed, kept.parted⟩
  exact idle.proper_event going rfl (lent_act _ after lent rfl) holds nofun (.inr (.inr busy))

end Hears

/-- By cases on the step. -/
theorem Step.proper (step : Step state next) (proper : state.Proper) : next.Proper := by
  cases step with
  | call setting input ready going calls =>
      exact proper.hear_keeping ready
        (Session.keeps_handle setting going (calls.imp_right (Or.imp_right Or.inl)))
  | request backend ready going waits =>
      exact proper.setPool ((proper.placed _).of_same rfl rfl rfl rfl) (fun _ => id)
        (fun _ _ after known => ⟨after, after.pipe, known, rfl⟩) fun _ => ⟨ready, going, waits⟩
  | granted setting backend name lent =>
      have member := Pool.mem_waiting_of_lend? lent
      obtain ⟨ready, going, waits⟩ := proper.waits _ member
      exact proper.granted ready going waits lent
  | refused setting ready going waits closed =>
      have unheld := Session.holds?_of_waitsFor? waits
      have free := Session.free_handle_refused setting going unheld .closed
      exact proper.hear_keeping ready (free.keeps unheld)
  | read setting ready going holds known next => exact proper.read ready going holds known next
  | reply due => exact proper.replied due
  | cutShort due => exact proper.shutDown due
  | ask due known asked => exact proper.asked due known asked
  | askFailed setting due known failed => exact proper.askFailed due known failed
  | close due known => exact proper.closed due known
  | release due known => exact proper.givenBack due known
  | @other backend pool step apart =>
      exact proper.setPool (step.placed (proper.placed backend)) (fun _ => step.dead)
        (fun _ member _ known => step.aloof (proper.placed backend) member known)
        fun member => proper.waits backend (apart.mp member)

/-- A session is always proper, by induction on the run. -/
theorem Run.proper {self : τ} {pools : String → Shutdown κ τ}
    (placed : ∀ backend, (pools backend).Placed (pools backend).held)
    (new : ∀ backend, self ∉ (pools backend).pool.waiting) (run : Run (create self pools) state)
    : state.Proper := by
  induction run with
  | none => exact proper_create placed new
  | next _ step ih => exact step.proper ih

-----------------------------------------------------------------------------------------
-- The end of a session
-----------------------------------------------------------------------------------------

/-- The session is over: it hears of nothing any more, and nothing is left to be done. -/
structure Over (state : Tenancy κ τ) : Prop where
  ended : state.session.ended = true
  ready : state.errands = []

/-- Runs follow one behind the other, by induction on the later one. -/
theorem Run.trans {first : Tenancy κ τ} (run : Run first state) (more : Run state next)
    : Run first next := by
  induction more with
  | none => exact run
  | next _ step ih => exact ih.next step

/-- The session can do what is to be done, one thing after the other. -/
theorem Proper.exists_ready (proper : state.Proper)
    (unasked : ∀ name query, .ask name query ∉ state.errands)
    : ∃ next,
        Run state next ∧ next.Proper ∧ next.errands = [] ∧ next.session = state.session := by
  generalize due : state.errands = errands at unasked
  induction errands generalizing state with
  | nil => exact ⟨state, .none, proper, due, rfl⟩
  | cons errand errands ih =>
      have goesOn : ∀ {next}, Step state next → next.errands = errands
          → next.session = state.session
          → ∃ later,
              Run state later
              ∧ later.Proper
              ∧ later.errands = []
              ∧ later.session = state.session := by
        intro next step rest same
        obtain ⟨later, run, kept, ready, last⟩ :=
          ih (step.proper proper) rest fun name query behind =>
            unasked name query (List.mem_cons_of_mem _ behind)
        exact ⟨later, (Run.none.next step).trans run, kept, ready, last.trans same⟩
      cases errand with
      | reply => exact goesOn (.reply due) rfl rfl
      | ask name query => exact absurd List.mem_cons_self (unasked name query)
      | release =>
          obtain ⟨lease, lent, rfl, -⟩ := (due ▸ proper.stage).of_release
          obtain ⟨client, known⟩ := proper.known lent
          exact goesOn (.release due known) rfl rfl
      | close =>
          obtain ⟨lease, lent, rfl, -⟩ := (due ▸ proper.stage).of_close
          obtain ⟨client, known⟩ := proper.known lent
          exact goesOn (.close due known) rfl rfl

/-- A session that waits for whatever comes first can be left. -/
theorem Proper.exists_over_of_ready (proper : state.Proper) (ready : state.errands = [])
    : ∃ final, Run state final ∧ final.Over := by
  cases ended : state.session.ended with
  | true => exact ⟨state, .none, ended, ready⟩
  | false =>
      have step : Step state (state.hear { now := 0, resolve := .ok } .left) :=
        .call _ .left ready ended (.inr (.inl rfl))
      have left : (state.hear { now := 0, resolve := .ok } .left).session
          = state.session.shutDown.session := by
        simp [Tenancy.hear, Session.handle, ended]
      have kept := step.proper proper
      have unasked := kept.stage.unasked_or.resolve_right ?_
      · obtain ⟨final, run, -, idle, same⟩ := kept.exists_ready unasked
        refine ⟨final, (Run.none.next step).trans run, ?_, idle⟩
        rw [same, left]
        rfl
      · rintro ⟨name, query, -, -, holds⟩
        rw [left] at holds
        cases holds

/-- Whatever a session is about to do, it can come to its end. -/
theorem Proper.exists_over (proper : state.Proper) : ∃ final, Run state final ∧ final.Over := by
  have goesOn : ∀ {next}, Run state next → next.Proper
      → (∀ name query, .ask name query ∉ next.errands)
      → ∃ final, Run state final ∧ final.Over := by
    intro next run proper unasked
    obtain ⟨middle, more, kept, ready, -⟩ := proper.exists_ready unasked
    obtain ⟨final, last, ends⟩ := kept.exists_over_of_ready ready
    exact ⟨final, (run.trans more).trans last, ends⟩
  rcases proper.stage.unasked_or with unasked | ⟨name, query, due, lent, -⟩
  · exact goesOn .none proper unasked
  · obtain ⟨client, known⟩ := proper.known lent
    rcases asked : client.ask query with ⟨cause | ⟨⟩, after⟩
    · have step : Step state _ :=
        .askFailed { now := 0, resolve := .ok } due known asked
      have kept := step.proper proper
      refine goesOn (Run.none.next step) kept (kept.stage.unasked_or.resolve_right ?_)
      rintro ⟨other, _, -, untouched, -⟩
      have touched := lent_act (.asked (.error cause)) after lent rfl
      cases touched.symm.trans untouched
    · have step : Step state _ := .ask due known asked
      exact goesOn (Run.none.next step) (step.proper proper) (by simp)

/-- However a session goes, and whatever others do to the pools in the meantime, even while a pool
is being closed: the session has one client at most, which is in no other place, and which is the
one that the running search holds unless the session is just parting with it. A client that is let
go is on its way back to the idle queue only if the session has not asked it, or has read the answer
to its end; otherwise the connection is closed. A pool's tally counts the clients of others and the
one that the session has. The session can always come to its end. When it is over it has no client
and waits for none, and the connections on which it has left an answer unread are closed.
-/
theorem session_leaves_no_client (self : τ) (pools : String → Shutdown κ τ)
    (begun : ∀ backend, ∃ address size, Shutdown.Run (.create address size) (pools backend))
    (new : ∀ backend, self ∉ (pools backend).pool.waiting) (state : Tenancy κ τ)
    (run : Run (create self pools) state)
    : state.lent.length ≤ 1
      ∧ (∀ lease ∈ state.lent,
          lease.client.2 ∉ (state.pools lease.client.1).pool.idleQueue
          ∧ lease.client.2 ∉ (state.pools lease.client.1).returning
          ∧ lease.client.2 ∉ (state.pools lease.client.1).held)
      ∧ (parting state.errands = false
        → state.lent.map (fun lease => (lease.client.1, lease.client))
          = state.session.holds?.toList)
      ∧ (∀ backend name errands client,
          state.errands = .release backend name :: errands
          → state.client? name = some client
          → ∃ lease,
              state.lent = [lease]
              ∧ lease.client = name
              ∧ (lease.deeds = []
                ∨ lease.Answered
                ∨ ((state.giveBack name client).pools name.1).returning
                    = (state.pools name.1).returning
                  ∧ ((state.giveBack name client).pools name.1).pool.idleQueue
                    = (state.pools name.1).pool.idleQueue
                  ∧ (state.giveBack name client).client? name = some client.close))
      ∧ (∀ lease ∈ state.returned, state.Parted lease)
      ∧ (∀ backend,
          (state.pools backend).pool.checkedOut
            = (state.pools backend).held.length + (state.lentFrom backend).length)
      ∧ (state.Over
        → state.lent = []
          ∧ ∀ backend,
            (state.pools backend).pool.checkedOut = (state.pools backend).held.length
            ∧ state.self ∉ (state.pools backend).pool.waiting)
      ∧ ∃ final, Run state final ∧ final.Over := by
  have proper : state.Proper :=
    run.proper (fun backend => by
      obtain ⟨address, size, run⟩ := begun backend
      exact Shutdown.placed_of_run run) new
  have tallied : ∀ backend, (state.pools backend).pool.checkedOut
      = (state.pools backend).held.length + (state.lentFrom backend).length := by
    intro backend
    rw [(proper.placed backend).tallied, List.length_append]
  refine ⟨proper.stage.length_le, fun lease member => ?_, proper.stage.lent_eq, ?_, proper.parted,
    tallied, fun ⟨ended, ready⟩ => ?_, proper.exists_over⟩
  · exact (proper.placed lease.client.1).not_mem (mem_lentFrom member)
  · intro backend name errands client due known
    obtain ⟨lease, lent, rfl, -, -, -, fit⟩ := (due ▸ proper.stage).of_release
    refine ⟨lease, lent, rfl, fit.imp_right (Or.imp_right fun busy => ?_)⟩
    rw [client?, pools_giveBack, Shutdown.letGo_of_busy (busy client known)]
    exact ⟨rfl, rfl, override_self⟩
  · have stage := proper.stage
    rw [ready, proper.ends ended] at stage
    refine ⟨stage.of_unheld, fun backend => ⟨?_, fun member => ?_⟩⟩
    · have unlent : state.lentFrom backend = [] := by
        rw [lentFrom, stage.of_unheld]
        rfl
      rw [tallied, unlent, List.length_nil, Nat.add_zero]
    · cases ended.symm.trans (proper.waits backend member).2.1

/-- A pool of one with an idle client. -/
def idlePool : Shutdown Nat Nat where
  pool := {
    address := "a:1"
    size := 1
    idleQueue := [0]
    tokens := 0
    delay := 10
    offer := Circulation.greeted.greeting.offer
    idle := 1
    pending := 0 }
  clients := override (fun _ => none) 0 (some Circulation.greeted)

/-- The pool with an idle client comes of a dial. -/
theorem run_idlePool : Shutdown.Run (.create "a:1" 1) idlePool := by
  have dialling : Shutdown.Run (.create "a:1" 1 : Shutdown Nat Nat) _ :=
    Shutdown.Run.none.next (.takeToken rfl)
  exact dialling.next (.dialled rfl rfl Circulation.handshake_greeted)

/-- A session that waits for a client, to search for something. -/
def waitingSession : Session (String × Nat) where
  running := some {
    request := { id := 1, query := { line := "a" } }
    backend := ""
    started := 0 }
  last := some { id := 1, query := { line := "a" } }

/-- The first message makes the session wait for a client. -/
theorem handle_firstFrame
    : ({} : Session (String × Nat)).handle { now := 0, resolve := .ok } (.frame Session.firstFrame)
      = { session := waitingSession } := by
  simp [Session.handle, Session.handleFrame, Session.decode_firstFrame, Session.handleRequest,
    SearchRequest.isNew, Session.start, waitingSession]

/-- The client of a session that was left in the middle of a search. -/
def leftLease : Lease Nat where
  client := ("", 0)
  deeds := [.asked (.ok ()), .closed]

/-- The session that was left in the middle of a search comes to its end. -/
theorem exists_run_leftSession
    : ∃ state : Tenancy Nat Nat,
        Run (create 7 fun _ => idlePool) state ∧ state.Over ∧ state.returned = [leftLease] := by
  have heard : Run (create 7 fun _ => idlePool : Tenancy Nat Nat) _ :=
    Run.none.next (.call { now := 0, resolve := .ok } (.frame Session.firstFrame) rfl rfl
      (.inl ⟨_, rfl⟩))
  simp only [hear, create, handle_firstFrame] at heard
  have granted := (heard.next (.request "" rfl rfl rfl)).next
    (.granted { now := 0, resolve := .ok } "" 0 rfl)
  have left := (granted.next (.ask rfl rfl rfl)).next
    (.call { now := 0, resolve := .ok } .left rfl rfl (.inr (.inl rfl)))
  exact ⟨_, (left.next (.close rfl rfl)).next (.release rfl rfl), ⟨rfl, rfl⟩, rfl⟩

/-- The connection of a client that was not heard to the end is closed. -/
theorem dead_of_leftSession
    : ∃ state : Tenancy Nat Nat,
        Run (create 7 fun _ => idlePool) state
        ∧ state.Over
        ∧ (state.pools "").Dead 0
        ∧ (state.pools "").pool.checkedOut = (state.pools "").held.length := by
  obtain ⟨state, run, ended, returned⟩ := exists_run_leftSession
  have begun : ∀ _ : String, ∃ address size, Shutdown.Run (.create address size) idlePool :=
    fun _ => ⟨_, _, run_idlePool⟩
  obtain ⟨-, -, -, -, parted, -, after, -⟩ :=
    session_leaves_no_client 7 (fun _ => idlePool) begun (fun _ => List.not_mem_nil) state run
  refine ⟨state, run, ended, ?_, ((after ended).2 "").1⟩
  rcases parted leftLease (returned ▸ List.mem_cons_self) with untouched | answered | dead
  · cases untouched
  · obtain ⟨found, ending, deeds, -⟩ := answered
    have last := congrArg List.getLast? deeds
    rw [List.getLast?_concat] at last
    cases last
  · exact dead

end Tenancy

end SourceView
