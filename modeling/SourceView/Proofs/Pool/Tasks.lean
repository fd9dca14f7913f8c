import SourceView.Api.Search
import SourceView.Proofs.Session.Moves

/-! Those who use a pool: sessions, and searches that are answered as a whole.
Either of them handles one piece of news at a time, which leaves it with errands, and runs its
errands before it hears anything else. What it has an errand to is the client that it has at hand,
and between two pieces of news that is the client that it holds by its own account.
-/

namespace SourceView

-----------------------------------------------------------------------------------------
-- Tasks
-----------------------------------------------------------------------------------------

/-- A session or a search. Clients go by names from `κ`. -/
inductive Task (κ : Type) where
  | session (session : Session κ)
  | search (search : PageSearch κ)
  /-- Nothing is left to be done. -/
  | done

/-- What can reach a task that neither the pool nor a client has sent. -/
inductive Call where
  | frame (text : List UInt8)
  | left
  | deafened
  | expired
  | aborted

/-- What a task can hear of. -/
inductive News (κ : Type) where
  | call (call : Call)
  /-- The pool has granted a client. -/
  | granted (client : κ)
  /-- The pool has turned the task away. -/
  | refused (cause : PoolError)
  /-- The client has read a part of the answer, or has failed. -/
  | event (outcome : Except ClientError QueryEvent)

section Tasks

variable {κ : Type}

/-- News as a session takes it, if it does. -/
def News.sessionInput? : News κ → Option (Session.Input κ)
  | call (.frame text) => some (.frame text)
  | call .left => some .left
  | call .deafened => some .deafened
  | call .expired | call .aborted => none
  | granted client => some (.granted client)
  | refused cause => some (.refused cause)
  | event outcome => some (.event outcome)

/-- News as a search takes it, if it does. -/
def News.searchInput? : News κ → Option (PageSearch.Input κ)
  | call .expired => some .expired
  | call .aborted => some .aborted
  | call (.frame _) | call .left | call .deafened => none
  | granted client => some (.granted client)
  | refused cause => some (.refused cause)
  | event outcome => some (.event outcome)

/-- What a search wants done, as a session would want it. -/
def PageSearch.Effect.errand : PageSearch.Effect κ → Session.Effect κ
  | ask client query => .ask client query
  | release backend client => .release backend client

/-- What is left to be done of a search. -/
def PageSearch.State.task : PageSearch.State κ → Task κ
  | going search => .search search
  | answered _ | dropped => .done

namespace Task

/-- Handle news. What the task wants done is left to be done. -/
def handle (setting : Session.Setting) (task : Task κ) (news : News κ)
    : Task κ × List (Session.Effect κ) :=
  match task with
  | session own =>
    match news.sessionInput? with
    | none => (.session own, [])
    | some input =>
      let turn := own.handle setting input
      (.session turn.session, turn.effects)
  | search own =>
    match news.searchInput? with
    | none => (.search own, [])
    | some input =>
      let turn := own.handle setting.now input
      (turn.state.task, turn.effects.map PageSearch.Effect.errand)
  | done => (.done, [])

/-- The client that a task holds by its own account. -/
def holds? : Task κ → Option κ
  | session own => own.holds?.map Prod.snd
  | search own => own.client
  | done => none

/-- A task waits for a client. -/
def waits : Task κ → Bool
  | session own => !own.ended && own.waitsFor?.isSome
  | search own => own.client.isNone
  | done => false

/-- Whoever waits for a client holds none. -/
theorem holds?_of_waits {task : Task κ} (waits : task.waits = true) : task.holds? = none := by
  cases task with
  | session own =>
      simp only [Task.waits, Bool.and_eq_true, Session.waitsFor?] at waits
      split at waits
      · next busy => simp [holds?, Session.holds?, busy]
      · simp at waits
  | search own => exact Option.isNone_iff_eq_none.mp waits
  | done => rfl

end Task

-----------------------------------------------------------------------------------------
-- Errands to the client at hand
-----------------------------------------------------------------------------------------

/-- Errands go to no client but the one at hand, none of them to any after that one was given back,
and then this client is left at hand.
-/
inductive Leads : Option κ → List (Session.Effect κ) → Option κ → Prop
  | done {hand} : Leads hand [] hand
  | reply {hand message errands left} (more : Leads hand errands left)
    : Leads hand (.reply message :: errands) left
  | ask {client query errands left} (more : Leads (some client) errands left)
    : Leads (some client) (.ask client query :: errands) left
  | close {client errands left} (more : Leads (some client) errands left)
    : Leads (some client) (.close client :: errands) left
  | release {backend client errands left} (more : Leads none errands left)
    : Leads (some client) (.release backend client :: errands) left

/-- Errands lead from hand to hand one behind the other, by induction on the first ones. -/
theorem Leads.append {hand between left : Option κ} {errands more : List (Session.Effect κ)}
    (first : Leads hand errands between) (later : Leads between more left)
    : Leads hand (errands ++ more) left := by
  induction first with
  | done => exact later
  | reply _ ih => exact .reply (ih later)
  | ask _ ih => exact .ask (ih later)
  | close _ ih => exact .close (ih later)
  | release _ ih => exact .release (ih later)

/-- Nobody gets a client at hand by running errands. -/
theorem Leads.empty {hand left : Option κ} {errands : List (Session.Effect κ)}
    (leads : Leads hand errands left) (empty : hand = none)
    : left = none := by
  induction leads with
  | done => exact empty
  | reply _ ih => exact ih empty
  | ask | close => cases empty
  | release _ ih => exact ih rfl

section Leads

variable {hand left : Option κ} {errands : List (Session.Effect κ)} {client : κ}

/-- No errands leave the hand as it is. -/
theorem Leads.hand_eq (leads : Leads hand [] left) : hand = left := by
  cases leads
  rfl

/-- A reply leaves the hand as it is. -/
theorem Leads.of_reply {message : BrowserMessage}
    (leads : Leads hand (.reply message :: errands) left)
    : Leads hand errands left := by
  cases leads with
  | reply more => exact more

/-- A query is asked of the client in hand, and leaves it there. -/
theorem Leads.of_ask {query : Query} (leads : Leads hand (.ask client query :: errands) left)
    : hand = some client ∧ Leads hand errands left := by
  cases leads with
  | ask more => exact ⟨rfl, more⟩

/-- The client in hand is closed, and stays there. -/
theorem Leads.of_close (leads : Leads hand (.close client :: errands) left)
    : hand = some client ∧ Leads hand errands left := by
  cases leads with
  | close more => exact ⟨rfl, more⟩

/-- The client in hand is given back, and the hand is empty. -/
theorem Leads.of_release {backend : String}
    (leads : Leads hand (.release backend client :: errands) left)
    : hand = some client ∧ Leads none errands left := by
  cases leads with
  | release more => exact ⟨rfl, more⟩

end Leads

-----------------------------------------------------------------------------------------
-- Errands of sessions
-----------------------------------------------------------------------------------------

namespace Session

variable {setting : Setting} {input : Input κ} {session next : Session κ}
  {effects : List (Effect κ)}

/-- The client that the session holds. -/
def client? (session : Session κ) : Option κ :=
  session.holds?.map Prod.snd

/-- A session that runs no search has no client. -/
theorem client?_eq_none (idle : session.running = none) : session.client? = none := by
  rw [client?, holds?, idle]
  rfl

/-- Saying something leaves the hand as it is. -/
theorem leads_saying (session : Session κ) (message : BrowserMessage) (hand : Option κ)
    : Leads hand (session.saying message) hand := by
  rw [saying]
  split
  · exact .done
  · exact .reply .done

/-- Giving back the client of a session leaves none in hand. -/
theorem leads_releasing (session : Session κ)
    : Leads session.client? session.releasing none := by
  rw [releasing, client?]
  cases session.holds? with
  | none => exact .done
  | some lease => exact .release .done

/-- A session that shuts down leaves no client in hand. -/
theorem leads_shutDown (session : Session κ)
    : Leads session.client? session.shutDown.effects none := by
  simp only [shutDown, client?]
  cases session.holds? with
  | none => exact .done
  | some lease => exact .close (.release .done)

/-- A session that is turned away has no client, and gets none that it does not hear of. -/
theorem Move.leads (move : Move setting input session effects next)
    (ungranted : ∀ client, input ≠ .granted client)
    (refused : ∀ cause, input = .refused cause → session.client? = none)
    : Leads session.client? effects next.client? := by
  cases move with
  | deafen => exact .done
  | stop => exact leads_shutDown session
  | complain | pass | reject => exact leads_saying ..
  | start idle =>
      rw [client?_eq_none idle]
      exact .done
  | ask granted => exact absurd granted (ungranted _)
  | decline granted => exact absurd granted (ungranted _)
  | giveUp turnedAway =>
      rw [refused _ turnedAway]
      split
      · exact .done
      · exact leads_saying ..
  | finish =>
      apply (leads_releasing session).append
      split
      · exact .done
      · exact leads_saying ..
  | retry | drop => exact leads_releasing session

/-- What a turn leads to leaves the client of the session in hand, by induction on the moves. -/
theorem Moves.leads (moves : Moves setting input session effects next)
    (ungranted : ∀ client, input ≠ .granted client)
    (refused : ∀ cause, input = .refused cause → session.client? = .none)
    : Leads session.client? effects next.client? := by
  induction moves with
  | none => exact .done
  | next move _ ih =>
      have first := move.leads ungranted refused
      exact first.append (ih fun cause turnedAway => first.empty (refused cause turnedAway))

/-- The arrival of an input leaves a session its client. -/
theorem client?_arrive (session : Session κ) (input : Input κ)
    : (session.arrive input).client? = session.client? := by
  rcases session.arrive_eq input with same | ⟨request, -, taken⟩
  · rw [same]
  · rw [taken, takeIn]
    split
    · next running busy =>
        simp only [client?, holds?, busy]
        rcases running with ⟨request, backend, _ | client, started, stale⟩
        · rfl
        · rfl
    · split <;> rfl

/-- What a session does with an input leaves its client in hand. -/
theorem handle_leads (settled : session.Settled) (ungranted : ∀ client, input ≠ .granted client)
    (refused : ∀ cause, input = .refused cause → session.client? = none)
    : Leads session.client? (session.handle setting input).effects
        (session.handle setting input).session.client? := by
  rw [← client?_arrive session input] at refused ⊢
  exact (handle_moves settled).leads ungranted refused

/-- A client that was waited for is asked, or given back because the search is stale. -/
theorem handle_granted_leads {client : κ} (going : session.ended = false)
    (waits : session.waitsFor?.isSome = true)
    : Leads (some client) (session.handle setting (.granted client)).effects
        (session.handle setting (.granted client)).session.client? := by
  have granted : session.handle setting (.granted client) = handleGrant setting session client :=
    if_neg (Bool.eq_false_iff.mp going)
  rw [granted, handleGrant]
  cases busy : session.running with
  | none => simp [waitsFor?, busy] at waits
  | some running =>
      dsimp only
      by_cases stale : running.stale = true
      · have moves : Moves setting (.left : Input κ) { session with running := none } _ _ :=
          startPending_moves rfl
        have rest := moves.leads nofun nofun
        rw [client?_eq_none rfl] at rest
        rw [if_pos stale]
        exact .release rest
      · rw [if_neg stale]
        exact .ask .done

end Session

-----------------------------------------------------------------------------------------
-- Errands of searches
-----------------------------------------------------------------------------------------

namespace PageSearch

/-- Giving back the client of a search leaves none in hand. -/
theorem leads_releasing (search : PageSearch κ)
    : Leads search.client (search.releasing.map Effect.errand) none := by
  rw [releasing]
  cases search.client with
  | none => exact .done
  | some client => exact .release .done

/-- A search has no client at its start. -/
theorem client_of_start {resolve : String → Except PoolError String} {now patience : Nat}
    {backend typed : String} {search : PageSearch κ}
    (started : start resolve now patience backend typed = .ok search)
    : search.client = none := by
  unfold start at started
  split at started
  · cases started
  · split at started
    · cases started
    · split at started
      · cases started
      · cases started
        rfl

/-- By cases on the input. -/
theorem handle_leads {now : Nat} {search : PageSearch κ} {input : Input κ}
    (ungranted : ∀ client, input ≠ .granted client)
    : Leads search.client ((search.handle now input).effects.map Effect.errand)
        (search.handle now input).state.task.holds? := by
  cases input with
  | granted client => exact absurd rfl (ungranted client)
  | refused | expired | aborted => exact leads_releasing search
  | event outcome =>
      rcases outcome with cause | found | stats | text
      · exact leads_releasing search
      · exact .done
      · exact leads_releasing search
      · exact leads_releasing search

end PageSearch

-----------------------------------------------------------------------------------------
-- Errands of tasks
-----------------------------------------------------------------------------------------

namespace Task

variable {setting : Session.Setting} {news : News κ} {task : Task κ}

/-- A session stays settled whatever it hears. -/
theorem settled_handle (settled : ∀ own, task = .session own → own.Settled) (own : Session κ)
    (after : (task.handle setting news).1 = .session own)
    : own.Settled := by
  cases task with
  | session before =>
      have was := settled before rfl
      simp only [handle] at after
      split at after
      · cases after
        exact was
      · cases after
        exact Session.handle_settled was ..
  | search before =>
      simp only [handle] at after
      split at after
      · cases after
      · next input heard =>
          revert after
          cases (before.handle setting.now input).state <;> nofun
  | done => cases after

/-- A task that hears of no client goes on with the one that it holds. -/
theorem handle_leads (settled : ∀ own, task = .session own → own.Settled)
    (ungranted : ∀ client, news ≠ .granted client)
    (refused : ∀ cause, news = .refused cause → task.holds? = none)
    : Leads task.holds? (task.handle setting news).2 (task.handle setting news).1.holds? := by
  cases task with
  | session own =>
      simp only [handle]
      split
      · exact .done
      · next input heard =>
          apply Session.handle_leads (settled own rfl)
          · rintro client rfl
            cases news with
            | granted client => exact ungranted client rfl
            | call call => cases call <;> cases heard
            | refused | event => cases heard
          · rintro cause rfl
            cases news with
            | refused cause => exact refused cause rfl
            | call call => cases call <;> cases heard
            | granted | event => cases heard
  | search own =>
      simp only [handle]
      split
      · exact .done
      · next input heard =>
          apply PageSearch.handle_leads
          rintro client rfl
          cases news with
          | granted client => exact ungranted client rfl
          | call call => cases call <;> cases heard
          | refused | event => cases heard
  | done => exact .done

/-- A task that has waited goes on with the client that it is granted. -/
theorem handle_granted_leads (waits : task.waits = true) (client : κ)
    : Leads (some client) (task.handle setting (.granted client)).2
        (task.handle setting (.granted client)).1.holds? := by
  cases task with
  | session own =>
      rw [Task.waits, Bool.and_eq_true, Bool.not_eq_true'] at waits
      exact Session.handle_granted_leads waits.1 waits.2
  | search own => exact .ask .done
  | done => cases waits

end Task

-----------------------------------------------------------------------------------------
-- Users
-----------------------------------------------------------------------------------------

/-- A task with what it has still to do. -/
structure User (κ : Type) where
  task : Task κ := .done
  /-- What is to be done before the task hears anything else, in order. -/
  errands : List (Session.Effect κ) := []
  /-- The client at hand. -/
  hand : Option κ := none

namespace User

/-- Hear of something. -/
def hear (user : User κ) (setting : Session.Setting) (news : News κ) : User κ :=
  let turn := user.task.handle setting news
  { user with task := turn.1, errands := user.errands ++ turn.2 }

/-- A user waits for a client. -/
structure Waits (user : User κ) : Prop where
  ready : user.errands = []
  waits : user.task.waits = true

/-- What a user does is done to the client at hand, which its task knows of. -/
structure Faithful (user : User κ) : Prop where
  leads : Leads user.hand user.errands user.task.holds?
  settled : ∀ own, user.task = .session own → own.Settled

variable {user : User κ} {setting : Session.Setting} {news : News κ}

/-- Whoever is gone has no client in hand. -/
theorem faithful_gone : ({} : User κ).Faithful where
  leads := .done
  settled := by
    intro own same
    cases same

/-- Someone without errands has in hand what his task holds. -/
theorem Faithful.hand_eq (faithful : user.Faithful) (ready : user.errands = [])
    : user.hand = user.task.holds? := by
  have leads := faithful.leads
  rw [ready] at leads
  exact leads.hand_eq

/-- What someone hears leaves in hand what his task holds. -/
theorem Faithful.hear (faithful : user.Faithful) (ungranted : ∀ client, news ≠ .granted client)
    (refused : ∀ cause, news = .refused cause → user.task.holds? = none)
    : (user.hear setting news).Faithful where
  leads := faithful.leads.append (Task.handle_leads faithful.settled ungranted refused)
  settled := Task.settled_handle faithful.settled

/-- A call leaves in hand what the task holds. -/
theorem Faithful.hear_call (faithful : user.Faithful) (call : Call)
    : (user.hear setting (.call call)).Faithful :=
  faithful.hear nofun nofun

/-- An event leaves in hand what the task holds. -/
theorem Faithful.hear_event (faithful : user.Faithful) (outcome : Except ClientError QueryEvent)
    : (user.hear setting (.event outcome)).Faithful :=
  faithful.hear nofun nofun

/-- A refusal leaves in hand what the task holds. -/
theorem Faithful.hear_refused (faithful : user.Faithful) (waits : user.Waits) (cause : PoolError)
    : (user.hear setting (.refused cause)).Faithful :=
  faithful.hear nofun fun _ _ => Task.holds?_of_waits waits.waits

/-- A user that has waited goes on with the client that it gets at hand. -/
theorem Faithful.hear_granted (faithful : user.Faithful) (waits : user.Waits) (client : κ)
    : ({ user with hand := some client }.hear setting (.granted client)).Faithful where
  leads := by
    rw [User.hear, waits.ready]
    exact Task.handle_granted_leads waits.waits client
  settled := Task.settled_handle faithful.settled

end User

end Tasks

end SourceView
