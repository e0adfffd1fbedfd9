import StallRecovery.Proofs.Causes

/-!
# Every action is run once and reported once

The actions of a controller run beside it, several at a time if they take long, and end in any
order. Nothing is written down about which of them is still expected, and none has an identity. That
no result is lost or doubled is seen by keeping account of the actions themselves: what the machine
has decided is, up to order, what has come back and what still runs. What has come back is queued
like any command, so it is handled once, and what goes wrong is surfaced where it is handled.
-/

namespace StallRecovery

/-! ## What comes back -/

/-- The action that comes back, if one does. -/
def Occurrence.back? : Occurrence → Option Running
  | returned action _ => some action
  | _ => none

def Occurrence.result? : Occurrence → Option Command
  | returned _ result => some result
  | _ => none

/-- The actions that have ended in a life and come back, in that order. -/
def cameBack (life : List Occurrence) : List Running := life.filterMap Occurrence.back?

/-- How they came back. -/
def results (life : List Occurrence) : List Command := life.filterMap Occurrence.result?

def Command.isResult : Command → Bool
  | .finished _ _ => true
  | _ => false

/-- What is reported when an action has failed, if the command is that one did. -/
def Command.note? : Command → Option Event
  | .finished action (.error fault) => some (.dispatchFailed action fault.message)
  | _ => none

def Event.isFailure : Event → Bool
  | .dispatchFailed _ _ => true
  | _ => false

theorem cameBack_append (life life' : List Occurrence) :
    cameBack (life ++ life') = cameBack life ++ cameBack life' := List.filterMap_append

/-- What nobody rejects comes back as done. -/
theorem Running.result_accepted {k : Collaborators} (h : k.rejection = none) (r : Running) :
    r.result k = .finished r.action (.ok ()) := by
  unfold result
  rw [h]
  cases r.action.request? <;> rfl

/-! ## What is asked for -/

/-- For every step there is something to ask for, and it carries out that step. -/
theorem Action.exists_request {a : Action} (h : a ∈ steps) :
    ∃ request, a.request? = some request ∧ request.action = a := by
  cases a with
  | baseline => exact absurd h (by decide)
  | reestablishInternet => exact ⟨.reestablishInternet, rfl, rfl⟩
  | radioPowerCycle => exact ⟨.powerCycleRadio, rfl, rfl⟩
  | modemReboot => exact ⟨.rebootModem, rfl, rfl⟩

/-- A step that is rejected comes back as a failure of its own. -/
theorem Running.result_rejected {k : Collaborators} {r : Running} {reason : String}
    (hstep : r.action ∈ Action.steps) (h : k.rejection = some reason) :
    r.result k = .finished r.action (.error (.undispatched r.action reason)) := by
  obtain ⟨request, hrequest, _⟩ := Action.exists_request hstep
  rw [result, hrequest, h]

/-- For each step that is started, what carries it out is asked for. -/
theorem requested_of_steps {rs : List Running} (h : ∀ r ∈ rs, r.action ∈ Action.steps) :
    (rs.filterMap fun r => r.action.request?.map (r.startedAt, ·)).map
        (fun asked => (asked.1, asked.2.action))
      = rs.map fun r => (r.startedAt, r.action) := by
  induction rs with
  | nil => rfl
  | cons r rs ih =>
      obtain ⟨hfirst, hrest⟩ := List.forall_mem_cons.mp h
      obtain ⟨request, hrequest, haction⟩ := Action.exists_request hfirst
      rw [List.filterMap_cons_some (by rw [hrequest]; rfl), List.map_cons, ih hrest, haction,
        List.map_cons]

/-! ## What runs -/

namespace Controller

variable (readings : Readings) (now : Nat)

/-- What an outcome hands over runs from then on, beside what runs already. -/
theorem running_carryOut_perm (out : Outcome) (c : Controller) :
    (c.running ++ out.started ⟨now, readings, c.collaborators⟩).Perm
      (c.carryOut now out).running := by
  unfold Outcome.started
  cases hdispatch : out.dispatch with
  | none =>
      rw [running_carryOut now hdispatch]
      simp
  | some action =>
      have hlaunched : (c.carryOut now out).running
          = ((c.record out.events).launch now action).running := by
        simp only [carryOut, hdispatch]
        cases out.failure with
        | none => rfl
        | some fault => simp only [surface_eq]
      rw [hlaunched, record_eq]
      simp only [launch, List.partition_eq_filter_filter]
      -- the running actions are kept in the order they will end, so the new one goes among them
      have hsplit := List.filter_append_perm
        (fun r : Running => decide (r.endsAt ≤ now + c.collaborators.actionTime)) c.running
      have hnew := List.perm_append_singleton (⟨action, now, c.collaborators.actionTime⟩ : Running)
        c.running
      exact (hnew.trans (hsplit.symm.cons _)).trans List.perm_middle.symm

theorem running_feed (input : Machine → Machine × Outcome) (c : Controller) :
    (c.running ++ (input c.machine).2.started ⟨now, readings, c.collaborators⟩).Perm
      (c.feed now input).running :=
  running_carryOut_perm readings now (input c.machine).2 { c with machine := (input c.machine).1 }

theorem running_handle (command : Command) (c : Controller) :
    (c.running ++ c.machine.launches [⟨.command command, now, readings, c.collaborators⟩]).Perm
      (c.handle readings now command).running := by
  rw [Machine.launches_single]
  cases command with
  | validation valid => exact running_feed readings now (·.onValidation valid now readings) c
  | reload policy =>
      cases policy with
      | ok p => exact running_feed readings now (·.onReload p now) c
      | error fault => exact running_feed readings now (·.onRefusal fault) c
  | finished action result =>
      cases result with
      | ok _ => exact .of_eq (List.append_nil _)
      | error fault => exact running_feed readings now (·.onFailure action fault) c
  | snapshot => exact .of_eq (List.append_nil _)
  | shutdown => exact .of_eq (List.append_nil _)

end Controller

namespace Scene

variable {s s' : Scene} {o : Occurrence} {life : List Occurrence}

/-- What ran and what is started is what comes back and what runs then. -/
theorem Occurs.running (ho : s.Occurs o s') :
    (s.controller.running ++ s.controller.machine.launches (turns [o])).Perm
      (cameBack [o] ++ s'.controller.running) := by
  have hnothing : ∀ c : Controller, (c.running ++ []).Perm ([] ++ c.running) :=
    fun c => .of_eq (List.append_nil _)
  cases ho with
  | @told now readings c command hopen =>
      rw [Controller.send_of_open command hopen]
      exact hnothing c
  | @equipped now readings c collaborators => exact hnothing c
  | @tuned now readings c readings' => exact hnothing c
  | @moved now readings c now' hle => exact hnothing c
  | @abandoned now readings c =>
      have hsame : c.abandon.running = c.running := by
        unfold Controller.abandon
        split <;> rfl
      rw [hsame]
      exact hnothing c
  | @waited now readings c now' hle hrests => exact hnothing c
  | @returned now readings c before after r halive hrunning hended =>
      rw [hrunning]
      exact (List.Perm.of_eq (List.append_nil _)).trans List.perm_middle
  | @refused now readings c fault halive hrefusal =>
      exact Controller.running_feed readings now (·.onRefusal fault) { c with refusal := none }
  | @handled now readings c command rest halive hrefusal hqueue =>
      exact Controller.running_handle readings now command { c with queue := rest }
  | @rechecked now readings c d halive hrefusal hqueue hd hdue =>
      have hlook := Controller.running_feed readings now (·.onRecheck now readings) c
      have hone := c.machine.launches_single ⟨.recheck, now, readings, c.collaborators⟩
      exact hone ▸ hlook
  | @closed now readings c hphase => exact hnothing c

theorem Lives.running (h : s.Lives life s') :
    (s.controller.running ++ s.controller.machine.launches (turns life)).Perm
      (cameBack life ++ s'.controller.running) := by
  induction h with
  | nil s => exact .of_eq (List.append_nil _)
  | @cons s₁ s₂ s₃ o life ho rest ih =>
      have hmachine : s₂.controller.machine
          = (s₁.controller.machine.replay s₁.controller.journal (turns [o])).1 :=
        congrArg Prod.fst ho.tallies.replayed
      have hcut : turns (o :: life) = turns [o] ++ turns life := @turns_append [o] life
      rw [hcut, Machine.launches_append _ s₁.controller.journal, ← hmachine, ← List.append_assoc]
      have hback : cameBack (o :: life) = cameBack [o] ++ cameBack life :=
        cameBack_append [o] life
      rw [hback]
      refine (ho.running.append_right _).trans ?_
      rw [List.append_assoc, List.append_assoc]
      exact ih.append_left _

end Scene

/-! ## What is reported -/

/-- A policy that was refused is reported as something else than a failed action. -/
theorem Work.note?_filter (w : Work) :
    w.note?.filter Event.isFailure = w.command?.bind Command.note? := by
  cases w with
  | refusal fault => rfl
  | recheck => rfl
  | command command =>
      cases command with
      | reload policy => cases policy <;> rfl
      | finished action result => cases result <;> rfl
      | _ => rfl

theorem failures_recorded {m : Machine} (h : Coherent m) (ts : List Turn) :
    (m.replay {} ts).2.events.toList.filter Event.isFailure
      = (ts.filter (·.setting.collaborators.records)).filterMap
        fun t => t.work.command?.bind Command.note? := by
  have hkind : ∀ events : List Event,
      (events.filter Event.isNote).filter Event.isFailure = events.filter Event.isFailure := by
    intro events
    rw [List.filter_filter]
    refine List.filter_congr fun e _ => ?_
    cases e <;> rfl
  rw [← hkind, notes_eq {} ts h, List.filter_append, List.filter_filterMap]
  exact List.filterMap_congr fun t _ => t.work.note?_filter

/-- In a run nobody tells a result, so those queued are those that come back. -/
theorem results_of_lived {i : Nat} {d : Deployment} {moments : List Moment}
    {life : List Occurrence} {s s' : Scene} (h : Deployment.Lived i d moments life)
    (hlives : s.Lives life s') : (queued life).filter Command.isResult = results life := by
  unfold queued results
  rw [List.filter_filterMap]
  refine List.filterMap_congr fun o ho => ?_
  cases o with
  | told command =>
      have htold : command.isResult = false := by cases h.told ho <;> rfl
      simp [Occurrence.queued?, Occurrence.result?, Option.filter, htold]
  | returned r result =>
      obtain ⟨k, rfl⟩ := hlives.returned ho
      rfl
  | _ => rfl

/-- What becomes of the actions that a controller starts in a life, from its start in a setting
on. -/
structure Errands (initial : Except Fault Policy) (start : Setting) (life : List Occurrence)
    (c : Controller) : Prop where
  /-- One machine takes every turn, and each action it decides on is started at the instant of the
  turn, in the order it decides. -/
  started : c.machine = machineAfter initial life
    ∧ c.journal.dispatched.toList
      = ((Machine.start initial).launches (turns life)).map fun r => (r.startedAt, r.action)
  /-- For each of them, at that instant and in that order, what carries it out is asked for. -/
  requested : c.journal.requests.toList.map (fun asked => (asked.1, asked.2.action))
    = ((Machine.start initial).launches (turns life)).map fun r => (r.startedAt, r.action)
  /-- All of them are steps, so there is something to carry out. -/
  steps : ∀ r ∈ (Machine.start initial).launches (turns life), r.action ∈ Action.steps
  /-- Each of them has come back once, or still runs. -/
  once : ((Machine.start initial).launches (turns life)).Perm (cameBack life ++ c.running)
  /-- It comes back after it has ended, and only while the controller has an owner: as done or, if
  those who carry out actions reject them then, as a failure with their reason. -/
  ended : ∀ before r result after, life = before ++ .returned r result :: after →
    Owned before ∧ r.hasEnded (settingAfter start before).now = true
      ∧ ((settingAfter start before).collaborators.rejection = none →
        result = .finished r.action (.ok ()))
      ∧ ∀ reason, (settingAfter start before).collaborators.rejection = some reason →
        result = .finished r.action (.error (.undispatched r.action reason))
  /-- What comes back is handled once, in order, unless the queue closes over it. -/
  fifo : ∃ lost, results life = (handled life).filter Command.isResult
      ++ (c.queue ++ lost).filter Command.isResult ∧ (c.isOpen = true → lost = [])
  /-- Without an owner a controller turns to nothing, so nothing is reported any more. -/
  owned : ∀ before t after, life = before ++ .turned t :: after → Owned before
  /-- The failures surfaced on account of actions are those of the results handled. -/
  heard : c.journal.failures.toList.filter Fault.isUndispatched
    = if start.collaborators.hearsFailures then
        (handled life).filterMap Command.error? else []
  /-- So are the failures reported, as far as they are recorded. -/
  recorded : c.journal.events.toList.filter Event.isFailure
    = ((turns life).filter (·.setting.collaborators.records)).filterMap
      fun t => t.work.command?.bind Command.note?

theorem errands_of_lives {i : Nat} {d : Deployment} {moments : List Moment}
    {life : List Occurrence} {initial : Except Fault Policy} {registration now : Nat}
    {k : Collaborators} {readings : Readings} {s : Scene}
    (h : Deployment.Lived i d moments life)
    (hscene : d.scene? i = some ⟨now, readings, .new initial registration k⟩)
    (hlives : Scene.Lives ⟨now, readings, .new initial registration k⟩ life s)
    (hinitial : ∀ fault, initial = .error fault → fault.isMisconfigured = true) :
    Errands initial ⟨now, readings, k⟩ life s.controller := by
  have hcoherent : Coherent (Machine.start initial) := coherent_reachable (reachable_start initial)
  have hjournal : s.controller.journal = ((Machine.start initial).replay {} (turns life)).2 :=
    congrArg Prod.snd hlives.tallies.replayed
  have howned : ∀ {before : List Occurrence} {s₁ : Scene},
      Scene.Lives ⟨now, readings, .new initial registration k⟩ before s₁ →
      s₁.controller.isAlive = true → Owned before :=
    fun hbefore halive => (hbefore.tallies.alive.mp halive).2
  have hsteps : ∀ {life : List Occurrence}, ∀ r ∈ (Machine.start initial).launches (turns life),
      r.action ∈ Action.steps := fun r hr => mem_steps_of_launched hcoherent hr
  refine ⟨⟨machineAfter_eq hlives, ?_⟩, ?_, hsteps, hlives.running, ?_, ?_, ?_, ?_, ?_⟩
  · rw [hjournal, dispatched_eq]
    rfl
  · rw [hjournal, requests_eq]
    exact requested_of_steps hsteps
  · intro before r result after hlife
    subst hlife
    obtain ⟨s₁, s₂, hbefore, ho, _⟩ := hlives.pick
    have hsetting := settingAfter_eq hbefore
    have hran := hbefore.running
    cases ho with
    | returned halive hrunning hended =>
        -- it has been running, so it was started, and what is started is a step
        have hlaunched : r ∈ (Machine.start initial).launches (turns before) := by
          refine hran.mem_iff.mpr (List.mem_append_right _ ?_)
          rw [hrunning]
          exact List.mem_append_right _ List.mem_cons_self
        rw [← hsetting]
        exact ⟨howned hbefore halive, hended, fun hnone => r.result_accepted hnone,
          fun reason hreason => Running.result_rejected (hsteps r hlaunched) hreason⟩
  · obtain ⟨lost, hfifo, hlost⟩ := hlives.tallies.fifo
    refine ⟨lost, ?_, hlost⟩
    rw [← results_of_lived h hlives, ← List.filter_append]
    exact congrArg (List.filter Command.isResult) hfifo
  · intro before t after hlife
    subst hlife
    obtain ⟨s₁, s₂, hbefore, ho, _⟩ := hlives.pick
    exact howned hbefore ho.alive_of_turned
  · have hfailed := (Deployment.filter_faults (h.traced hlives hinitial)).1
    rw [h.failures hscene hlives]
    by_cases hheard : k.hearsFailures = true
    · rw [if_pos hheard, if_pos hheard]
      exact hfailed
    · rw [if_neg hheard, if_neg hheard]
      rfl
  · rw [hjournal]
    exact failures_recorded hcoherent (turns life)

/--
**Every action is run once and reported once.**

Whatever happens to a deployment, a controller starts each action that its machine decides on, at
that instant, and asks once for what carries it out; each comes back at most once, however many run
at a time, as a failure exactly if it is rejected then; and each failure that comes back while the
controller has an owner is surfaced and reported once. Once everything has settled, all that have
ended have come back and been handled.
-/
theorem actions_run_and_reported_once (d : Deployment) (launch : Launch)
    (hstart : (d.start launch).2 = .done) (moments : List Moment) :
    let d' := (d.start launch).1
    let i := d.controllers.length
    ∃ initial, launch.policy.resolve = .ok initial
      ∧ (∃ life, Deployment.Lived i d' moments life)
      ∧ ∀ life, Deployment.Lived i d' moments life →
        ∃ c, (d'.follow moments).controllers[i]? = some c
          ∧ Errands initial ⟨d.now, d.readings, launch.collaborators⟩ life c
          ∧ (∀ earlier, moments = earlier ++ [.settle] → c.isAlive = true →
            results life = (handled life).filter Command.isResult
              ∧ ∀ r ∈ c.running, r.hasEnded (d'.follow moments).now = false) := by
  intro d' i
  obtain ⟨initial, registration, hresolve, hscene⟩ := scene_of_start hstart
  refine ⟨initial, hresolve, Deployment.exists_lived moments hscene, fun life hlived => ?_⟩
  obtain ⟨s, hs, hlives⟩ := hlived.lives hscene
  obtain ⟨hc, _⟩ := Deployment.eq_of_scene? hs
  have hinitial := PolicySource.isMisconfigured_of_error hresolve
  have herrands := errands_of_lives hlived hscene hlives hinitial
  refine ⟨s.controller, hc, herrands, ?_⟩
  intro earlier hmoments halive
  have hrests := rests_of_settled_last hc halive hmoments
  refine ⟨?_, hrests.ended⟩
  obtain ⟨lost, hresults, hlost⟩ := herrands.fifo
  rw [hrests.drained, hlost (Controller.isOpen_of_isAlive halive)] at hresults
  exact hresults.trans (List.append_nil _)

/-- Two actions run at a time and fail after the network has recovered. A third still runs when the
controller is shut down. -/
def overlapping : List Moment :=
  [.act (.setActionTime 0 (3 * defaultDelay)), .act (.rejectActions 0 (some "busy")),
    .act (.publish false), .settle, .act (.jump defaultDelay), .settle, .act (.publish true),
    .act (.jump (3 * defaultDelay)), .settle, .act (.publish false), .settle, .act (.shutdown 0),
    .act (.jump (3 * defaultDelay)), .settle]

theorem overlapping_actions_run_and_reported_once :
    let d := (Deployment.empty.start (.complete .standard)).1
    (Deployment.empty.start (.complete .standard)).2 = .done
      ∧ (∃ initial, PolicySource.standard.resolve = .ok initial
        ∧ (∃ life, Deployment.Lived 0 d overlapping life)
        ∧ ∀ life, Deployment.Lived 0 d overlapping life →
          ∃ c, (d.follow overlapping).controllers[0]? = some c
            ∧ Errands initial ⟨0, ⟨.ok 4, .ok .idle⟩, {}⟩ life c
            ∧ (∀ earlier, overlapping = earlier ++ [.settle] → c.isAlive = true →
              results life = (handled life).filter Command.isResult
                ∧ ∀ r ∈ c.running, r.hasEnded (d.follow overlapping).now = false))
      ∧ (d.follow overlapping).controllers.map (·.journal.requests)
        = [#[(0, .reestablishInternet), (defaultDelay, .powerCycleRadio),
          (4 * defaultDelay, .reestablishInternet)]]
      ∧ (d.follow overlapping).controllers.map (·.journal.failures)
        = [#[.undispatched .reestablishInternet "busy", .undispatched .radioPowerCycle "busy"]]
      ∧ (d.follow overlapping).controllers.map (·.journal.events.filter Event.isFailure)
        = [#[.dispatchFailed .reestablishInternet "Failed to dispatch reestablish-internet: busy",
          .dispatchFailed .radioPowerCycle "Failed to dispatch radio-power-cycle: busy"]] :=
  ⟨rfl, actions_run_and_reported_once .empty (.complete .standard) rfl overlapping,
    by decide +kernel, by decide +kernel, by decide +kernel⟩

end StallRecovery
