import SourceView.Proofs.Session.Fates
import SourceView.Proofs.Session.Service

/-! The results that a session tells and those that its backends yield.
Every result of a run is told once and in order, as far as it is told. A search is put to another
backend only if the run before has broken off, and then its results are told from the start.
-/

namespace SourceView

open Session

variable {κ : Type}

-----------------------------------------------------------------------------------------
-- What was told of a search
-----------------------------------------------------------------------------------------

/-- The result of a search that a message tells. -/
def BrowserMessage.resultOf? (id : UInt64) : BrowserMessage → Option Match
  | .result other found => if other = id then some found else none
  | _ => none

/-- The messages that were sent. -/
def Session.replies (effects : List (Effect κ)) : List BrowserMessage :=
  effects.filterMap Effect.message?

/-- What was told of a search. -/
structure Told where
  results : List Match := []
  /-- The search is done. -/
  done : Bool := false

namespace Told

/-- What was told after one more message. -/
def add (id : UInt64) (told : Told) : BrowserMessage → Told
  | .result other found =>
    if other = id then { told with results := told.results ++ [found] } else told
  | .searchDone other _ _ => if other = id then { told with done := true } else told
  | .query _ | .queryError _ _ | .error _ => told

/-- What was told after some effects. -/
def after (id : UInt64) (told : Told) (effects : List (Effect κ)) : Told :=
  (replies effects).foldl (add id) told

variable {id : UInt64}

/-- What was told after effects and more is what was told after both, one behind the other. -/
theorem after_append (told : Told) (effects more : List (Effect κ))
    : told.after id (effects ++ more) = (told.after id effects).after id more := by
  simp [after, replies]

@[simp] theorem after_releasing (told : Told) (session : Session κ)
    : told.after id session.releasing = told := by
  rw [releasing]
  split <;> rfl

@[simp] theorem after_shutDown (told : Told) (session : Session κ)
    : told.after id session.shutDown.effects = told := by
  simp only [shutDown]
  split <;> rfl

/-- A message about another search tells nothing of this one. -/
theorem add_of_ne (told : Told) {message : BrowserMessage} (other : message.id? ≠ some id)
    : told.add id message = told := by
  cases message with
  | result another | searchDone another =>
      have apart : another ≠ id := fun same => other (congrArg some same)
      exact if_neg apart
  | query | queryError | error => rfl

/-- Where nothing is said about a search, nothing more was told of it. -/
theorem after_of_absent (told : Told) {effects : List (Effect κ)}
    (absent : BrowserMessage.Absent id (numbered effects))
    : told.after id effects = told := by
  have others : ∀ message ∈ replies effects, message.id? ≠ some id := by
    intro message sent about
    obtain ⟨effect, member, same⟩ := List.mem_filterMap.mp sent
    cases effect with
    | reply =>
        cases same
        exact absent message (mem_numbered.mpr ⟨member, by rw [about]; rfl⟩) about
    | ask | release | close => cases same
  rw [after]
  generalize replies effects = messages at others
  induction messages with
  | nil => rfl
  | cons message rest ih =>
      rw [List.foldl_cons, add_of_ne told (others message List.mem_cons_self)]
      exact ih fun later member => others later (List.mem_cons_of_mem _ member)

/-- The results that were told are those in the messages, by induction on the messages. -/
theorem results_foldl (told : Told) (messages : List BrowserMessage)
    : (messages.foldl (add id) told).results
      = told.results ++ messages.filterMap (BrowserMessage.resultOf? id) := by
  induction messages generalizing told with
  | nil => exact (List.append_nil _).symm
  | cons message rest ih =>
      rw [List.foldl_cons, ih]
      cases message with
      | result other found =>
          by_cases same : other = id
          · simp [add, BrowserMessage.resultOf?, same]
          · simp [add, BrowserMessage.resultOf?, same]
      | searchDone other =>
          rw [add]
          split <;> rfl
      | query | queryError | error => rfl

/-- A search is done if a message says so, by induction on the messages. -/
theorem done_foldl (told : Told) (messages : List BrowserMessage)
    : (messages.foldl (add id) told).done = true
      ↔ told.done = true ∨ ∃ time stats, .searchDone id time stats ∈ messages := by
  induction messages generalizing told with
  | nil => simp
  | cons message rest ih =>
      rw [List.foldl_cons, ih]
      cases message with
      | result other found =>
          rw [add]
          split <;> simp
      | searchDone other time stats =>
          by_cases same : other = id
          · subst same
            simp only [add, if_true, true_or, true_iff]
            exact .inr ⟨time, stats, List.mem_cons_self⟩
          · simp [add, same, Ne.symm same]
      | query | queryError | error => simp [add]

end Told

-----------------------------------------------------------------------------------------
-- What was told and what was yielded
-----------------------------------------------------------------------------------------

/-- All runs have broken off, and all that they yielded was told. -/
structure AllTold (runs : List (BackendRun κ)) (told : Told) : Prop where
  broken : ∀ run ∈ runs, ¬ run.Ended
  all : told.results = runs.flatMap BackendRun.yielded
  undone : told.done = false

/-- The last run is being read, and what was read is told unless the search is stale. -/
def BeingTold (runs : List (BackendRun κ)) (client : Client) (stale : Bool) (told : Told) : Prop :=
  ∃ earlier run read part,
    runs = earlier ++ [run]
    ∧ (∀ before ∈ earlier, ¬ before.Ended)
    ∧ client.Listens run read
    ∧ told.results = earlier.flatMap BackendRun.yielded ++ part
    ∧ part <+: read
    ∧ (stale = false → part = read)
    ∧ told.done = false

/-- All that the earlier runs yielded was told before they broke off, and then what the last one
yielded, up to some result. If the search is done, that was all.
-/
def Accounted (runs : List (BackendRun κ)) (told : Told) : Prop :=
  ∃ earlier last part,
    runs = earlier ++ last.toList
    ∧ (∀ run ∈ earlier, ¬ run.Ended)
    ∧ told.results = earlier.flatMap BackendRun.yielded ++ part
    ∧ part <+: last.elim [] BackendRun.yielded
    ∧ (told.done = true → ∃ run, last = some run ∧ run.Ended ∧ part = run.yielded)

section Told

variable {runs : List (BackendRun κ)} {run : BackendRun κ} {client after : Client} {stale : Bool}
  {told : Told} {found : Match}

/-- What is all told is accounted for. -/
theorem AllTold.accounted (all : AllTold runs told) : Accounted runs told := by
  refine ⟨runs, none, [], by simp, all.broken, by simpa using all.all, List.prefix_rfl, ?_⟩
  intro done
  cases all.undone.symm.trans done

/-- What is being told is accounted for. -/
theorem BeingTold.accounted (being : BeingTold runs client stale told) : Accounted runs told := by
  obtain ⟨earlier, run, read, part, rfl, broken, listens, results, ofRead, -, undone⟩ := being
  refine ⟨earlier, some run, part, rfl, broken, results,
    ofRead.trans listens.prefix_yielded, ?_⟩
  intro done
  cases undone.symm.trans done

/-- A run that begins when all was told is being told. -/
theorem AllTold.asked (all : AllTold runs told) (listens : client.Listens run [])
    : BeingTold (runs ++ [run]) client false told :=
  ⟨runs, run, [], [], rfl, all.broken, listens, by simpa using all.all, List.prefix_rfl,
    fun _ => rfl, all.undone⟩

/-- A run whose search is overtaken is being told no further. -/
theorem BeingTold.overtaken (being : BeingTold runs client stale told)
    : BeingTold runs client true told := by
  obtain ⟨earlier, run, read, part, same, broken, listens, results, ofRead, -, undone⟩ := being
  exact ⟨earlier, run, read, part, same, broken, listens, results, ofRead, nofun, undone⟩

/-- What the backend does is more to be read. -/
theorem BeingTold.served {before : List (BackendRun κ)} {bytes : List UInt8} {pipe : Pipe}
    (being : BeingTold (before ++ [run]) client stale told)
    (served : client.pipe.Serves bytes pipe)
    : BeingTold (before ++ [run.extend bytes pipe.flow]) { client with pipe } stale told := by
  obtain ⟨earlier, last, read, part, same, broken, listens, rest⟩ := being
  obtain ⟨rfl, lasts⟩ := List.append_inj' same rfl
  cases lasts
  exact ⟨before, _, read, part, rfl, broken, listens.extend served, rest⟩

/-- A result that is read is told. -/
theorem BeingTold.passed (being : BeingTold runs client false told)
    (next : client.nextEvent? = some (.ok (.result found), after))
    : BeingTold runs after false { told with results := told.results ++ [found] } := by
  obtain ⟨earlier, run, read, part, same, broken, listens, results, -, current, undone⟩ := being
  obtain rfl := current rfl
  have read := listens.hears next
  refine ⟨earlier, run, _, _, same, broken, read, ?_, List.prefix_rfl, fun _ => rfl, undone⟩
  rw [results, List.append_assoc]

/-- A result that is read of a stale search is not told. -/
theorem BeingTold.dropped (being : BeingTold runs client true told)
    (next : client.nextEvent? = some (.ok (.result found), after))
    : BeingTold runs after true told := by
  obtain ⟨earlier, run, read, part, same, broken, listens, results, ofRead, -, undone⟩ := being
  have read := listens.hears next
  exact ⟨earlier, run, _, part, same, broken, read, results,
    ofRead.trans (List.prefix_append ..), nofun, undone⟩

/-- When the backend ends its answer, all that it yielded was told. -/
theorem BeingTold.done {stats : Stats} (being : BeingTold runs client false told)
    (next : client.nextEvent? = some (.ok (.done stats), after))
    : Accounted runs { told with done := true } := by
  obtain ⟨earlier, run, read, part, rfl, broken, listens, results, -, current, -⟩ := being
  obtain rfl := current rfl
  obtain ⟨yielded, ended⟩ := listens.hears next
  refine ⟨earlier, some run, part, rfl, broken, results, listens.prefix_yielded, fun _ => ?_⟩
  exact ⟨run, rfl, ended, yielded.symm⟩

/-- When the backend breaks off, all that it yielded was told. -/
theorem BeingTold.broken {cause : ClientError} (being : BeingTold runs client false told)
    (next : client.nextEvent? = some (.error cause, after))
    : AllTold runs told := by
  obtain ⟨earlier, run, read, part, rfl, broken, listens, results, -, current, undone⟩ := being
  obtain rfl := current rfl
  obtain ⟨yielded, unended⟩ := listens.hears next
  refine ⟨?_, ?_, undone⟩
  · intro other member
    rcases List.mem_append.mp member with before | last
    · exact broken other before
    · exact List.mem_singleton.mp last ▸ unended
  · rw [results, List.flatMap_append, List.flatMap_singleton, yielded]

end Told

-----------------------------------------------------------------------------------------
-- Turns
-----------------------------------------------------------------------------------------

/-- What was told of a search is accounted for. If the session still has the search, then all that
was yielded so far was told, unless it holds a client, which is being read.
-/
structure Tells (id : UInt64) (runs : List (BackendRun κ)) (clients : κ → Client)
    (session : Session κ) (told : Told) : Prop where
  accounted : Accounted runs told
  pending : ∀ request, session.pending = some request → request.id = id → AllTold runs told
  waiting
    : ∀ running, session.running = some running → running.request.id = id
      → running.client = none → AllTold runs told
  reading
    : ∀ running name, session.running = some running → running.request.id = id
      → running.client = some name → BeingTold runs (clients name) running.stale told
  apart
    : ∀ running request, session.running = some running → session.pending = some request
      → request.id = id → running.request.id ≠ id

section Turns

variable {id : UInt64} {runs : List (BackendRun κ)} {clients others : κ → Client}
  {session : Session κ} {told : Told} {setting : Setting} {running : RunningSearch κ}
  {request : SearchRequest} {message : BrowserMessage} {rest : Turn κ}

/-- A session that runs nothing has told what is accounted for. -/
theorem tells_of_idle (accounted : Accounted runs told) (idle : session.running = none)
    (pending : ∀ request, session.pending = some request → request.id = id → AllTold runs told)
    : Tells id runs clients session told :=
  ⟨accounted, pending, by simp [idle], by simp [idle], by simp [idle]⟩

/-- A session that stops running has told what it had. -/
theorem Tells.stopped (tells : Tells id runs clients session told)
    : Tells id runs others { session with running := none } told :=
  tells_of_idle tells.accounted rfl tells.pending

/-- A session that holds a client goes on if what that one brings is told. -/
theorem tells_of_held {name : κ} {later : List (BackendRun κ)} {now : Told}
    (busy : session.running = some running) (granted : running.client = some name)
    (stopped : Tells id runs others { session with running := none } told)
    (apart
      : ∀ request, session.pending = some request → request.id = id → running.request.id ≠ id)
    (elsewhere : running.request.id ≠ id → later = runs ∧ now = told)
    (being : running.request.id = id → BeingTold later (clients name) running.stale now)
    : Tells id later clients session now := by
  have here : ∀ other, session.running = some other → other = running :=
    fun other same => Option.some.inj (same.symm.trans busy)
  have accounted : Accounted later now := by
    by_cases mine : running.request.id = id
    · exact (being mine).accounted
    · obtain ⟨rfl, rfl⟩ := elsewhere mine
      exact stopped.accounted
  refine ⟨accounted, ?_, ?_, ?_, ?_⟩
  · intro request waits asked
    obtain ⟨rfl, rfl⟩ := elsewhere (apart request waits asked)
    exact stopped.pending request waits asked
  · intro other same _ missing
    cases here other same
    cases granted.symm.trans missing
  · intro other _ same mine found
    cases here other same
    cases granted.symm.trans found
    exact being mine
  · intro other request same waits asked
    cases here other same
    exact apart request waits asked

/-- A session that shuts down has told what it had. -/
theorem Tells.shutDown (tells : Tells id runs others session told)
    : Tells id runs clients session.shutDown.session told :=
  tells_of_idle tells.accounted rfl tells.pending

/-- A message is told before what comes behind it. -/
theorem Tells.replying (tells : Tells id runs others session told)
    (rested : Tells id runs clients rest.session ((told.add id message).after id rest.effects))
    : Tells id runs clients (session.replying message rest).session
        (told.after id (session.replying message rest).effects) := by
  rw [Session.replying]
  split
  · rw [Told.after_shutDown]
    exact tells.shutDown
  · exact rested

/-- A search that starts has told nothing of its new run. -/
theorem Tells.start (tells : Tells id runs clients session told)
    (alone : session.pending = none) (all : request.id = id → AllTold runs told)
    : Tells id runs clients (start setting session request).session
        (told.after id (start setting session request).effects) := by
  rw [Session.start]
  cases setting.resolve request.backend with
  | error cause => exact tells.replying tells
  | ok backend =>
      refine ⟨tells.accounted, by simp [alone], ?_, ?_, by simp [alone]⟩
      · intro _ same asked _
        cases same
        exact all asked
      · intro _ _ same _ granted
        cases same
        cases granted

/-- The search that waits has told nothing of its new run when it starts. -/
theorem Tells.startPending (tells : Tells id runs clients session told)
    (idle : session.running = none)
    : Tells id runs clients (startPending setting session).session
        (told.after id (startPending setting session).effects) := by
  rw [Session.startPending]
  cases waits : session.pending with
  | none => exact tells
  | some request =>
      have without : Tells id runs clients { session with pending := none } told :=
        tells_of_idle tells.accounted idle (by simp)
      exact without.start rfl (tells.pending request waits)

/-- The running search is over. That is told unless it is stale, and the next one is started. -/
theorem Tells.conclude {turn : Turn κ} {stale : Bool}
    (tells : Tells id runs clients { session with running := none } told)
    (said
      : stale = false
        → Tells id runs clients { session with running := none } (told.add id message))
    (turns
      : turn = if stale then Session.startPending setting { session with running := none }
          else Session.replying { session with running := none } message
            (Session.startPending setting { session with running := none }))
    : Tells id runs clients turn.session (told.after id turn.effects) := by
  subst turns
  cases stale with
  | true => exact tells.startPending rfl
  | false => exact tells.replying ((said rfl).startPending rfl)

/-- A search that is put to another backend was told up to here. -/
theorem Tells.requeue (settled : session.Settled) (busy : session.running = some running)
    (tells : Tells id runs clients { session with running := none } told)
    (all : running.request.id = id → running.stale = false → AllTold runs told)
    : Tells id runs clients (requeue setting session).session
        (told.after id (requeue setting session).effects) := by
  unfold Session.requeue
  simp only [busy, session_after, effects_after, Told.after_append, Told.after_releasing]
  cases waits : session.pending with
  | some request =>
      rw [waits] at tells
      exact tells.startPending rfl
  | none =>
      -- With none that waits the search is not stale, so all that its run yielded was told
      have current : running.stale = false := by
        simpa [waits] using settled.stale running busy
      have again : Tells id runs clients
          { session with running := none, pending := some running.request, last := none } told := by
        apply tells_of_idle tells.accounted rfl
        intro _ same asked
        cases same
        exact all asked current
      exact again.startPending rfl

/-- A search that is asked for leaves what was told as it is. -/
theorem Tells.handleRequest (settled : session.Settled) (going : session.ended = false)
    (tells : Tells id runs clients session told)
    (fresh
      : request.id = id
        → AllTold runs told ∧ ∀ running, session.running = some running → running.request.id ≠ id)
    : Tells id runs clients (handleRequest setting session request).session
        (told.after id (handleRequest setting session request).effects) := by
  unfold Session.handleRequest
  cases busy : session.running with
  | some running =>
      refine ⟨tells.accounted, ?_, ?_, ?_, ?_⟩
      · intro _ same asked
        cases same
        exact (fresh asked).1
      · intro _ same
        cases same
        exact tells.waiting running busy
      · intro _ name same asked granted
        cases same
        exact (tells.reading running name busy asked granted).overtaken
      · intro _ _ same sameRequest asked
        cases same
        cases sameRequest
        exact (fresh asked).2 running busy
  | none =>
      dsimp only
      split
      · exact tells.start (settled.waits going busy) fun asked => (fresh asked).1
      · exact tells

/-- A message from the browser leaves what was told of a search as it is. -/
theorem Tells.handleFrame {text : List UInt8} (settled : session.Settled)
    (going : session.ended = false) (tells : Tells id runs clients session told)
    (fresh
      : ∀ request, (Input.frame text : Input κ).request? = some request → request.id = id
        → AllTold runs told ∧ ∀ running, session.running = some running → running.request.id ≠ id)
    : Tells id runs clients (handleFrame setting session text).session
        (told.after id (handleFrame setting session text).effects) := by
  unfold Session.handleFrame
  cases read : BrowserMessage.registry.decode text with
  | error cause => exact tells.replying tells
  | ok message =>
      cases message with
      | query request =>
          exact tells.handleRequest settled going
            (fresh request (Input.request?_eq_some.mpr ⟨text, rfl, read⟩))
      | result | searchDone | queryError | error => exact tells.replying tells

/-- A refusal leaves what was told of a search as it is. -/
theorem Tells.handleRefusal (tells : Tells id runs clients session told) (cause : PoolError)
    : Tells id runs clients (handleRefusal setting session cause).session
        (told.after id (handleRefusal setting session cause).effects) := by
  unfold Session.handleRefusal
  cases session.running with
  | none => exact tells
  | some running =>
      have said : Tells id runs clients { session with running := none }
          (told.add id (.queryError running.request.id cause.message)) :=
        tells.stopped
      exact tells.stopped.conclude (fun _ => said) rfl

/-- A client that is granted to a stale search is given back. -/
theorem Tells.decline (tells : Tells id runs clients session told)
    (busy : session.running = some running) (stale : running.stale = true) (name : κ)
    : Tells id runs clients (handleGrant setting session name).session
        (told.after id (handleGrant setting session name).effects) := by
  have stopped : Tells id runs clients { session with running := none } told := tells.stopped
  simp only [handleGrant, busy, stale, if_true]
  exact stopped.startPending rfl

section Reading

variable [DecidableEq κ] {name : κ} {after : Client}

/-- A result that was read is told, unless the search is stale. -/
theorem Tells.handleResult {found : Match} (tells : Tells id runs clients session told)
    (busy : session.running = some running) (granted : running.client = some name)
    (next : (clients name).nextEvent? = some (.ok (.result found), after))
    : Tells id runs (override clients name after)
        (handleEvent setting session (.ok (.result found))).session
        (told.after id (handleEvent setting session (.ok (.result found))).effects) := by
  have stopped : Tells id runs clients { session with running := none } told := tells.stopped
  have being := tells.reading running name busy
  simp only [handleEvent, busy]
  cases stale : running.stale with
  | true =>
      apply tells_of_held busy granted stopped (tells.apart running · busy) fun _ => ⟨rfl, rfl⟩
      intro mine
      rw [override_self, stale]
      exact (stale ▸ being mine granted).dropped next
  | false =>
      apply tells.replying
      apply tells_of_held busy granted stopped (tells.apart running · busy)
      · exact fun elsewhere => ⟨rfl, if_neg elsewhere⟩
      · intro mine
        rw [override_self, stale]
        simp only [Told.add, mine, if_true]
        exact (stale ▸ being mine granted).passed next

/-- The end of an answer is told, and nothing was said about a search that waits. -/
theorem Tells.handleDone {stats : Stats} (tells : Tells id runs clients session told)
    (busy : session.running = some running) (granted : running.client = some name)
    (next : (clients name).nextEvent? = some (.ok (.done stats), after))
    : Tells id runs (override clients name after)
        (handleEvent setting session (.ok (.done stats))).session
        (told.after id (handleEvent setting session (.ok (.done stats))).effects) := by
  simp only [handleEvent, busy, session_after, effects_after, Told.after_append,
    Told.after_releasing]
  apply tells.stopped.conclude _ rfl
  intro current
  by_cases mine : running.request.id = id
  · have being := tells.reading running name busy mine granted
    rw [current] at being
    apply tells_of_idle _ rfl
    · intro request waits asked
      exact absurd mine (tells.apart running request busy waits asked)
    · simp only [Told.add, mine, if_true]
      exact being.done next
  · rw [Told.add, if_neg mine]
    exact tells.stopped

/-- What was read is told, or ends what there is to tell, by cases on what it was. -/
theorem Tells.handleEvent {outcome : Except ClientError QueryEvent} (settled : session.Settled)
    (tells : Tells id runs clients session told) (busy : session.running = some running)
    (granted : running.client = some name)
    (next : (clients name).nextEvent? = some (outcome, after))
    : Tells id runs (override clients name after)
        (handleEvent setting session outcome).session
        (told.after id (handleEvent setting session outcome).effects) := by
  rcases outcome with cause | found | stats | text
  · simp only [Session.handleEvent, busy]
    apply tells.stopped.requeue settled busy
    intro mine current
    have being := tells.reading running name busy mine granted
    rw [current] at being
    exact being.broken next
  · exact tells.handleResult busy granted next
  · exact tells.handleDone busy granted next
  · simp only [Session.handleEvent, busy, session_after, effects_after, Told.after_append,
      Told.after_releasing]
    have said : Tells id runs (override clients name after)
        { session with running := none } (told.add id (.queryError running.request.id text)) :=
      tells.stopped
    exact said.conclude (fun _ => said) rfl

end Reading

end Turns

end SourceView
