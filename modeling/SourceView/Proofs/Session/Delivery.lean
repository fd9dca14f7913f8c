import SourceView.Proofs.Session.Results

/-! Every result that a browser receives, traced to the backend that yielded it.
While a search is answered by one backend, the browser receives a first part of what that backend
yields. When the backend breaks off, what it yielded was received, and stays so.
-/

namespace SourceView.Service

open Session

variable {κ : Type} {service : Service κ} {setting : Setting} {id : UInt64} {name : κ}
  {client : Client}

/-- The runs that were made for a search, in order. -/
def runsOf (service : Service κ) (id : UInt64) : List (BackendRun κ) :=
  (service.runs.filter fun run => run.request.id = id).reverse

/-- What was told of a search. -/
def told (service : Service κ) (id : UInt64) : Told :=
  ({} : Told).after id service.effects

/-- The client that the session holds was asked last, for the search that runs. -/
def Current (service : Service κ) : Prop :=
  ∀ name request, service.session.HoldsFor name request
    → ∃ run rest, service.runs = run :: rest ∧ run.request = request

/-- What holds of a search between two happenings. -/
structure Sound (service : Service κ) (id : UInt64) : Prop where
  settled : service.session.Settled
  current : service.Current
  tells : Tells id (service.runsOf id) service.clients service.session (service.told id)

/-- A run for a search comes behind the earlier runs for it. -/
theorem runsOf_cons_of_eq {run : BackendRun κ} {rest : List (BackendRun κ)}
    (runs : service.runs = run :: rest) (mine : run.request.id = id)
    : service.runsOf id = (rest.filter fun run => run.request.id = id).reverse ++ [run] := by
  simp [runsOf, runs, mine]

/-- A run for another search does not count. -/
theorem runsOf_cons_of_ne {run : BackendRun κ} {rest : List (BackendRun κ)}
    (runs : service.runs = run :: rest) (other : run.request.id ≠ id)
    : service.runsOf id = (rest.filter fun run => run.request.id = id).reverse := by
  simp [runsOf, runs, other]

/-- Nothing has been done for a search. -/
structure Unheard (service : Service κ) (id : UInt64) : Prop where
  settled : service.session.Settled
  lacks : service.session.Lacks id
  runs : ∀ run ∈ service.runs, run.request.id ≠ id
  told : service.told id = {}

/-- There are no runs for a search of which nothing is known. -/
theorem Unheard.runsOf_eq (unheard : service.Unheard id) : service.runsOf id = [] := by
  simpa [runsOf, List.filter_eq_nil_iff] using unheard.runs

/-- At its start a session has told nothing of any search. -/
theorem sound_start (clients : κ → Client) (id : UInt64) : ({ clients } : Service κ).Sound id where
  settled := settled_empty
  current := by
    rintro name request ⟨running, busy, -⟩
    cases busy
  tells := tells_of_idle ⟨[], none, [], rfl, nofun, rfl, List.prefix_rfl, nofun⟩ rfl nofun

/-- At its start a session has done nothing for any search. -/
theorem unheard_start (clients : κ → Client) (id : UInt64) : ({ clients } : Service κ).Unheard id :=
  ⟨settled_empty, lacks_empty id, nofun, rfl⟩

-----------------------------------------------------------------------------------------
-- Inputs
-----------------------------------------------------------------------------------------

/-- Hearing of other things does nothing for a search. -/
theorem Unheard.hear {input : Input κ} (unheard : service.Unheard id)
    (other : ∀ request, input.request? = some request → request.id ≠ id)
    : (service.hear setting input).Unheard id := by
  obtain ⟨-, absent⟩ := handle_silences unheard.settled unheard.lacks.silences other
  refine ⟨handle_settled unheard.settled setting input,
    handle_lacks unheard.settled unheard.lacks other, unheard.runs, ?_⟩
  rw [Service.told, Service.hear, Told.after_append, ← Service.told, unheard.told]
  exact Told.after_of_absent _ absent

variable [DecidableEq κ]

/-- The session has handled an input without asking anybody. -/
theorem feed_sound {input : Input κ} (settled : service.session.Settled)
    (current : service.Current)
    (unasked : Unasked (service.session.handle setting input).effects)
    (tells
      : Tells id (service.runsOf id) service.clients (service.session.handle setting input).session
          ((service.told id).after id (service.session.handle setting input).effects))
    : (service.feed setting input).Sound id := by
  rw [feed_eq_hear unasked]
  refine ⟨handle_settled settled setting input, ?_, ?_⟩
  · intro name request holds
    exact current name request (handle_holdsFor settled unasked holds)
  · rw [told, hear, Told.after_append]
    exact tells

/-- An input that the browser or a closed pool has brought. -/
theorem Sound.feed {input : Input κ} (sound : service.Sound id)
    (ungranted : ∀ name, input ≠ .granted name) (unread : ∀ outcome, input ≠ .event outcome)
    (fresh
      : ∀ request, input.request? = some request → request.id = id
        → AllTold (service.runsOf id) (service.told id)
          ∧ ∀ running, service.session.running = some running → running.request.id ≠ id)
    : (service.feed setting input).Sound id := by
  have unasked : Unasked (service.session.handle setting input).effects :=
    handle_unasked sound.settled ungranted
  apply feed_sound sound.settled sound.current unasked
  have tells := sound.tells
  unfold handle
  cases ended : service.session.ended with
  | true => exact tells
  | false =>
      cases input with
      | frame text => exact tells.handleFrame sound.settled ended fresh
      | left =>
          rw [if_neg Bool.false_ne_true, Told.after_shutDown]
          exact tells.shutDown
      | deafened =>
          exact ⟨tells.accounted, tells.pending, tells.waiting, tells.reading, tells.apart⟩
      | granted name => exact absurd rfl (ungranted name)
      | refused cause => exact tells.handleRefusal cause
      | event outcome => exact absurd rfl (unread outcome)

/-- The client of the session has read something, or has failed. -/
theorem Sound.read (sound : service.Sound id) : (service.read setting).Sound id := by
  obtain same | ⟨name, outcome, client, ended, held, next, feed⟩ := service.read_cases setting
  · rwa [same]
  · obtain ⟨request, running, busy, granted, -⟩ := holds_iff.mp held
    have settled : (service.setClient name client).session.Settled := sound.settled
    have current : (service.setClient name client).Current := sound.current
    have unasked : Unasked
        ((service.setClient name client).session.handle setting (.event outcome)).effects :=
      handle_unasked settled nofun
    rw [feed]
    apply feed_sound settled current unasked
    simp only [handle, Service.setClient, ended, Bool.false_eq_true, if_false]
    exact sound.tells.handleEvent sound.settled busy granted next

/-- A client is asked for the search that runs. If that fails, the search is put to another one. -/
theorem ask_sound {running : RunningSearch κ} {query : Query} (settled : service.session.Settled)
    (going : service.session.ended = false) (busy : service.session.running = some running)
    (granted : running.client = some name)
    (stopped
      : Tells id (service.runsOf id) service.clients { service.session with running := none }
          (service.told id))
    (apart
      : ∀ request, service.session.pending = some request → request.id = id
        → running.request.id ≠ id)
    (all : running.request.id = id → AllTold (service.runsOf id) (service.told id))
    (current : running.stale = false)
    : (service.ask setting name query).Sound id := by
  unfold Service.ask
  split
  · next cause client failed =>
      -- The session hears of the failure at once, and no run has been started
      have turn : service.session.handle setting (.event (.error cause))
          = requeue setting service.session := by
        simp [handle, going, handleEvent, busy]
      refine ⟨handle_settled settled setting _, ?_, ?_⟩
      · intro other request holds
        simp only [hear, Service.setClient, turn] at holds
        exact absurd holds (requeue_unheld busy)
      · simp only [told, hear, Service.setClient, turn, Told.after_append]
        have others : Tells id (service.runsOf id) (override service.clients name client)
            { service.session with running := none } (service.told id) :=
          tells_of_idle stopped.accounted rfl stopped.pending
        exact others.requeue settled busy fun mine _ => all mine
  · next client asked =>
      -- A new run, of which nothing has been read: what was told is all of the runs before it
      rw [busy]
      refine ⟨settled, ?_, ?_⟩
      · rintro other request ⟨_, same, -, forIt⟩
        cases busy.symm.trans same
        exact ⟨_, service.runs, rfl, forIt⟩
      · apply tells_of_held busy granted stopped apart
        · exact fun elsewhere => ⟨runsOf_cons_of_ne rfl elsewhere, rfl⟩
        · intro mine
          have listens := Client.listens_of_ask asked running.request name
          rw [current, runsOf_cons_of_eq rfl mine]
          have now : override service.clients name client name = client :=
            override_self
          simp only [Service.setClient, now]
          exact (all mine).asked listens

/-- A client is granted to a search that is not stale, and is asked. -/
theorem Sound.grant_current {running : RunningSearch κ} (sound : service.Sound id)
    (going : service.session.ended = false) (busy : service.session.running = some running)
    (free : running.client = none) (current : running.stale = false)
    : (service.feed setting (.granted name)).Sound id := by
  have turn : service.session.handle setting (.granted name)
      = { session := {
            service.session with running := some { running with client := some name } }
          effects := [.ask name running.request.query] } := by
    simp [handle, going, handleGrant, busy, current]
  have settled : (service.hear setting (.granted name)).session.Settled :=
    handle_settled sound.settled setting (.granted name)
  have reached : (service.hear setting (.granted name)).session
      = { service.session with running := some { running with client := some name } } := by
    rw [hear, turn]
  have told : (service.hear setting (.granted name)).told id = service.told id := by
    rw [Service.told, hear, Told.after_append, turn]
    rfl
  have fed : service.feed setting (.granted name)
      = (service.hear setting (.granted name)).ask setting name running.request.query := by
    rw [Service.feed, turn]
    rfl
  rw [fed]
  refine ask_sound settled ?_ (congrArg Session.running reached) rfl ?_ ?_ ?_ current
  · rw [reached]
    exact going
  · rw [reached, told]
    exact sound.tells.stopped
  · rw [reached]
    intro request
    exact sound.tells.apart running request busy
  · rw [told]
    exact fun mine => sound.tells.waiting running busy mine free

/-- A client is granted to a session that waits for one, which gives it back if it has no use for
it any more.
-/
theorem Sound.grant (sound : service.Sound id) (waits : service.session.waitsFor?.isSome = true)
    : (service.feed setting (.granted name)).Sound id := by
  obtain ⟨running, busy, free⟩
      : ∃ running, service.session.running = some running ∧ running.client = none := by
    unfold waitsFor? at waits
    split at waits
    · next busy => exact ⟨_, busy, rfl⟩
    · cases waits
  cases ended : service.session.ended with
  | true =>
      -- `waitsFor?` does not ask whether the session has ended, but `handle` does
      have turn : service.session.handle setting (.granted name)
          = { session := service.session } := by
        simp [handle, ended]
      apply feed_sound sound.settled sound.current
      · rw [turn]
        exact unasked_nil
      · rw [turn]
        exact sound.tells
  | false =>
      cases stale : running.stale with
      | true =>
          have turn : service.session.handle setting (.granted name)
              = handleGrant setting service.session name := by
            simp [handle, ended]
          apply feed_sound sound.settled sound.current
          · simp only [turn, handleGrant, busy, stale, if_true, effects_after]
            exact Unasked.append (by simp [Unasked]) (startPending_unasked rfl)
          · rw [turn]
            exact sound.tells.decline busy stale name
      | false => exact sound.grant_current ended busy free stale

-----------------------------------------------------------------------------------------
-- Clients
-----------------------------------------------------------------------------------------

/-- A client that the session does not hold changes in some way. -/
theorem Sound.setClient (sound : service.Sound id) (unheld : service.holds name ≠ true)
    : (service.setClient name client).Sound id := by
  refine ⟨sound.settled, sound.current, sound.tells.accounted, sound.tells.pending,
    sound.tells.waiting, ?_, sound.tells.apart⟩
  intro running other busy mine granted
  have apart : other ≠ name := by
    rintro rfl
    exact unheld (holds_iff.mpr ⟨_, running, busy, granted, rfl⟩)
  have same : (service.setClient name client).clients other = service.clients other :=
    override_of_ne apart
  rw [same]
  exact sound.tells.reading running other busy mine granted

/-- A backend has done something to the pipe of a client. -/
theorem Sound.serve {bytes : List UInt8} {pipe : Pipe} (sound : service.Sound id)
    (served : (service.clients name).pipe.Serves bytes pipe)
    : (service.serve name bytes pipe).Sound id := by
  -- Bytes count for the last run only if they come from the client that was asked last
  by_cases holds : service.holds name = true
  · obtain ⟨request, holdsFor⟩ := holds_iff.mp holds
    obtain ⟨run, rest, runs, forIt⟩ := sound.current name request holdsFor
    obtain ⟨running, busy, granted, same⟩ := holdsFor
    have longer : (service.serve name bytes pipe).runs
        = run.extend bytes pipe.flow :: rest := by
      simp [Service.serve, runs, holds]
    have now : (service.serve name bytes pipe).clients name
        = { service.clients name with pipe } :=
      override_self
    refine ⟨sound.settled, ?_, ?_⟩
    · intro other otherRequest otherHolds
      obtain ⟨_, otherBusy, -, otherSame⟩ := otherHolds
      cases busy.symm.trans otherBusy
      exact ⟨_, rest, longer, forIt.trans (same.symm.trans otherSame)⟩
    · have stopped : Tells id (service.runsOf id) service.clients
          { service.session with running := none } (service.told id) :=
        sound.tells.stopped
      apply tells_of_held busy granted stopped (sound.tells.apart running · busy)
      · intro elsewhere
        have other : run.request.id ≠ id := by rwa [forIt, ← same]
        exact ⟨(runsOf_cons_of_ne longer other).trans (runsOf_cons_of_ne runs other).symm, rfl⟩
      · intro mine
        have forMine : run.request.id = id := by rwa [forIt, ← same]
        have being := sound.tells.reading running name busy mine granted
        rw [runsOf_cons_of_eq runs forMine] at being
        rw [runsOf_cons_of_eq longer forMine, now]
        exact being.served served
  · have unchanged : service.serve name bytes pipe
        = service.setClient name { service.clients name with pipe } := by
      rw [Service.serve]
      cases runs : service.runs with
      | nil => simp [Service.setClient, runs]
      | cons run rest => simp [Service.setClient, runs, holds]
    rw [unchanged]
    exact sound.setClient holds

/-- What happens to a client does nothing for a search. -/
theorem Unheard.setClient (unheard : service.Unheard id)
    : (service.setClient name client).Unheard id :=
  ⟨unheard.settled, unheard.lacks, unheard.runs, unheard.told⟩

/-- Asking for another search does nothing for a search. -/
theorem Unheard.ask {query : Query} (unheard : service.Unheard id)
    : (service.ask setting name query).Unheard id := by
  unfold Service.ask
  split
  · exact unheard.setClient.hear nofun
  · next client asked =>
      refine ⟨unheard.settled, unheard.lacks, ?_, unheard.told⟩
      intro run member
      rcases List.mem_append.mp member with new | old
      · obtain ⟨running, busy, rfl⟩ := List.mem_map.mp new
        exact unheard.lacks.running running (Option.mem_toList.mp busy)
      · exact unheard.runs run old

/-- Other inputs do nothing for a search, by induction on what they have done. -/
theorem Unheard.feed {input : Input κ} (unheard : service.Unheard id)
    (other : ∀ request, input.request? = some request → request.id ≠ id)
    : (service.feed setting input).Unheard id := by
  have heard : (service.hear setting input).Unheard id := unheard.hear other
  rw [Service.feed]
  generalize service.hear setting input = heardService at heard
  generalize (service.session.handle setting input).effects = effects
  induction effects generalizing heardService with
  | nil => exact heard
  | cons effect rest ih =>
      cases effect with
      | ask name query => exact ih _ heard.ask
      | reply | release | close => exact ih _ heard

/-- What a backend writes does nothing for a search. -/
theorem Unheard.serve {bytes : List UInt8} {pipe : Pipe} (unheard : service.Unheard id)
    : (service.serve name bytes pipe).Unheard id := by
  refine ⟨unheard.settled, unheard.lacks, ?_, unheard.told⟩
  have runs := unheard.runs
  unfold Service.serve
  cases known : service.runs with
  | nil => exact nofun
  | cons run rest =>
      rw [known, List.forall_mem_cons] at runs
      dsimp only
      split
      · exact List.forall_mem_cons.mpr runs
      · exact List.forall_mem_cons.mpr runs

-----------------------------------------------------------------------------------------
-- Happenings
-----------------------------------------------------------------------------------------

/-- Nothing else that happens does anything for a search, by cases on what happens. -/
theorem Unheard.happen {happening : Happening κ} (unheard : service.Unheard id)
    (other : ∀ request, happening.request? = some request → request.id ≠ id)
    : (service.happen setting happening).Unheard id := by
  cases happening with
  | frame text => exact unheard.feed other
  | left | deafened => exact unheard.feed nofun
  | granted name =>
      rw [Service.happen]
      split
      · exact unheard.feed nofun
      · exact unheard
  | refused cause =>
      rw [Service.happen]
      split
      · exact unheard.feed nofun
      · exact unheard
  | read =>
      rw [Service.happen]
      obtain same | ⟨name, outcome, client, -, -, -, feed⟩ := service.read_cases setting
      · rwa [same]
      · rw [feed]
        exact unheard.setClient.feed nofun
  | sent name bytes =>
      rw [Service.happen]
      split
      · exact unheard
      · exact unheard.serve
  | finished name | hungUp name | collected name | brokeOff name => exact unheard.serve
  | replaced name client =>
      rw [Service.happen]
      split
      · exact unheard
      · exact unheard.setClient

/-- A happening keeps what is told sound, by cases on the happening. -/
theorem Sound.happen {happening : Happening κ} (sound : service.Sound id)
    (fresh
      : ∀ request, happening.request? = some request → request.id = id → service.Unheard id)
    : (service.happen setting happening).Sound id := by
  cases happening with
  | frame text =>
      refine sound.feed (fun _ => nofun) (fun _ => nofun) fun request asked mine => ?_
      have unheard := fresh request asked mine
      refine ⟨?_, unheard.lacks.running⟩
      rw [unheard.runsOf_eq, unheard.told]
      exact ⟨nofun, rfl, rfl⟩
  | left | deafened => exact sound.feed (fun _ => nofun) (fun _ => nofun) nofun
  | granted name =>
      rw [Service.happen]
      split
      · next waits => exact sound.grant waits
      · exact sound
  | refused cause =>
      rw [Service.happen]
      split
      · exact sound.feed (fun _ => nofun) (fun _ => nofun) nofun
      · exact sound
  | read => exact sound.read
  | sent name bytes =>
      rw [Service.happen]
      split
      · exact sound
      · next pipe sent => exact sound.serve (Pipe.send?_serves sent)
  | finished name => exact sound.serve (Pipe.finish_serves _)
  | hungUp name => exact sound.serve (Pipe.hangUp_serves _)
  | collected name => exact sound.serve (Pipe.collect_serves _)
  | brokeOff name cause => exact sound.serve (Pipe.breakOff_serves _ cause)
  | replaced name client =>
      rw [Service.happen]
      split
      · exact sound
      · next unheld => exact sound.setClient unheld

/-- Happenings keep what is told sound if every search that arrives has a number of its own, by
induction on the happenings.
-/
theorem Sound.run {happenings : List (Setting × Happening κ)} (sound : service.Sound id)
    (distinct : (Happening.requested happenings).Nodup)
    (fresh : id ∈ Happening.requested happenings → service.Unheard id)
    : (service.run happenings).Sound id := by
  induction happenings generalizing service with
  | nil => exact sound
  | cons head rest ih =>
      obtain ⟨setting, happening⟩ := head
      rw [Happening.requested_cons] at distinct fresh
      obtain ⟨-, distinctLater, apart⟩ := List.nodup_append.mp distinct
      have next : (service.happen setting happening).Sound id := by
        apply sound.happen
        rintro request asked rfl
        exact fresh (by simp [asked])
      apply ih next distinctLater
      -- A search that is still to come has another number than this one
      intro later
      apply (fresh (List.mem_append_right _ later)).happen
      rintro request asked rfl
      exact apart request.id (by simp [asked]) request.id later rfl

-----------------------------------------------------------------------------------------
-- What a browser receives
-----------------------------------------------------------------------------------------

/-- Where searches have numbers of their own, the results that a browser receives for a search are,
run by run in the order in which its backends were asked, all that each run yielded before it broke
off, and then a first part of what the last one yields. If the search is done, the last run has
ended and that was all of it.
-/
theorem results_follow_runs (clients : κ → Client) (happenings : List (Setting × Happening κ))
    (distinct : (Happening.requested happenings).Nodup) (id : UInt64)
    : let service := ({ clients } : Service κ).run happenings
      ∃ earlier last part,
        service.runsOf id = earlier ++ last.toList
        ∧ (∀ run ∈ earlier, ¬ run.Ended)
        ∧ (replies service.effects).filterMap (BrowserMessage.resultOf? id)
          = earlier.flatMap BackendRun.yielded ++ part
        ∧ part <+: last.elim [] BackendRun.yielded
        ∧ ((∃ time stats, .searchDone id time stats ∈ replies service.effects)
          → ∃ run, last = some run ∧ run.Ended ∧ part = run.yielded) := by
  intro service
  have sound : service.Sound id :=
    (sound_start clients id).run distinct fun _ => unheard_start clients id
  obtain ⟨earlier, last, part, runs, broken, results, ofLast, done⟩ := sound.tells.accounted
  refine ⟨earlier, last, part, runs, broken, ?_, ofLast, ?_⟩
  · rw [← results]
    exact (Told.results_foldl {} (replies service.effects)).symm
  · intro finished
    exact done ((Told.done_foldl {} (replies service.effects)).mpr (.inr finished))

/-- A result, as a backend writes it. -/
def resultLine : List UInt8 :=
  Text.Utf8.bytes "\x7b\"opcode\":\"result\",\"body\":\x7b\"line\":\"x\"\x7d\x7d\n"

/-- The line of the result is read as the result. -/
theorem decode_resultLine
    : BackendMessage.decode resultLine = .ok (.result { line := "x" }) := by
  cbv

/-- The line of the result arrives whole. -/
theorem of_resultLine : Arrival.of .running resultLine = .line resultLine [] := by
  cbv

/-- The line of the result is all that it brings, however the stream ends. -/
theorem lines_resultLine (flow : Flow) : Arrival.lines flow resultLine = [resultLine] := by
  cases flow with
  | running | finished | broken => cbv

/-- One client breaks off behind a result, and another one begins with the same result. -/
def brokenHappenings : List (Setting × Happening Bool) :=
  [.frame firstFrame, .granted true, .sent true resultLine, .read, .hungUp true, .read,
    .granted false, .sent false resultLine, .read].map
    fun happening => ({ now := 0, resolve := .ok }, happening)

/-- The client that breaks off and the one behind it are asked for one search. -/
theorem requested_brokenHappenings : (Happening.requested brokenHappenings).Nodup := by
  simp [Happening.requested, brokenHappenings, Happening.request?, Input.request?,
    decode_firstFrame]

/-- A client that has just been greeted. -/
def newClient : Client :=
  { greeting := { name := "b" }, pipe := {} }

theorem results_of_brokenHappenings
    : let service := ({ clients := fun _ => newClient } : Service Bool).run brokenHappenings
      (Happening.requested brokenHappenings).Nodup
      ∧ ∃ earlier last part,
          service.runsOf 1 = earlier ++ last.toList
          ∧ (∀ run ∈ earlier, ¬ run.Ended)
          ∧ (replies service.effects).filterMap (BrowserMessage.resultOf? 1)
            = earlier.flatMap BackendRun.yielded ++ part
          ∧ part <+: last.elim [] BackendRun.yielded
          ∧ ((∃ time stats, .searchDone 1 time stats ∈ replies service.effects)
            → ∃ run, last = some run ∧ run.Ended ∧ part = run.yielded) :=
  ⟨requested_brokenHappenings,
    results_follow_runs _ brokenHappenings requested_brokenHappenings 1⟩

/-- What was done and what was asked in the end. -/
theorem run_brokenHappenings
    : let service := ({ clients := fun _ => newClient } : Service Bool).run brokenHappenings
      let request : SearchRequest := { id := 1, query := { line := "a" } }
      service.effects
        = [.ask true request.query, .reply (.result 1 { line := "x" }), .release "" true,
          .ask false request.query, .reply (.result 1 { line := "x" })]
      ∧ service.runs
        = [{ request, client := false, stream := resultLine, flow := .running },
          { request, client := true, stream := resultLine, flow := .finished }] := by
  have ended : Arrival.of .finished [] = .ended := rfl
  simp [brokenHappenings, newClient, run, happen, feed, hear, perform, serve, holds,
    Service.setClient, Service.ask, Service.read, BackendRun.extend, override,
    handle, handleFrame, decode_firstFrame, handleRequest, SearchRequest.isNew, start, waitsFor?,
    handleGrant, handleEvent, replying, requeue, startPending, Turn.after, releasing, holds?,
    Client.ask, Client.nextEvent?, Client.take, Client.fail, Pipe.write?, Pipe.send?,
    Pipe.receive, Pipe.hangUp, Flow.or, Pipe.close, of_resultLine, decode_resultLine, ended]

/-- The results that a browser receives need not be a first part of what one backend yields. -/
theorem exists_repeated_results
    : ¬ ∀ (clients : Bool → Client) (happenings : List (Setting × Happening Bool)) (id : UInt64),
        (Happening.requested happenings).Nodup
        → let service := ({ clients } : Service Bool).run happenings
          let results := (replies service.effects).filterMap (BrowserMessage.resultOf? id)
          results = [] ∨ ∃ run ∈ service.runsOf id, results <+: run.yielded := by
  intro always
  have one := always (fun _ => newClient) brokenHappenings 1 requested_brokenHappenings
  obtain ⟨effects, runs⟩ := run_brokenHappenings
  have twice : (replies (({ clients := fun _ => newClient } : Service Bool).run
      brokenHappenings).effects).filterMap (BrowserMessage.resultOf? 1)
      = [{ line := "x" }, { line := "x" }] := by
    rw [effects]
    rfl
  simp only [twice] at one
  rcases one with nothing | ⟨run, member, ofRun⟩
  · cases nothing
  · have stream : run.stream = resultLine := by
      have known := (List.mem_filter.mp (List.mem_reverse.mp member)).1
      rw [runs, List.mem_cons, List.mem_singleton] at known
      rcases known with rfl | rfl
      · rfl
      · rfl
    have once : run.yielded = [{ line := "x" }] := by
      rw [BackendRun.yielded, BackendRun.messages, stream, lines_resultLine]
      simp [decode_resultLine, BackendMessage.cutResults]
    rw [once] at ofRun
    exact absurd ofRun.length_le (by decide)

end SourceView.Service
