import StallRecovery.Proofs.Agreement
import StallRecovery.Proofs.Errands
import StallRecovery.Proofs.Ghosts
import StallRecovery.Simulation

/-!
# A simulation is a run

A simulation plays its scenario against a deployment of one controller. Whatever it does to that is
a moment like any other, so what holds of every run holds of it. Here its moments are listed, and
its report is read off the controller that has met them.
-/

namespace StallRecovery

/-- What occurs in a simulation until the controller is shut down. -/
inductive Moment.Rehearsed : Moment → Prop where
  | sleep (duration : Nat) : Rehearsed (.act (.sleep duration))
  | signal (reading : Except String UInt8) : Rehearsed (.act (.setSignal reading))
  | call (reading : Except String CallState) : Rehearsed (.act (.setCall reading))
  | publish (valid : Bool) : Rehearsed (.act (.publish valid))
  | ask : Rehearsed (.ask 0)
  | settle : Rehearsed .settle

theorem Moment.Rehearsed.viaMonitor {m : Moment} (h : m.Rehearsed) : m.viaMonitor = true := by
  cases h <;> rfl

namespace Deployment

theorem follow_nil (d : Deployment) : d.follow [] = d := rfl

theorem follow_cons (d : Deployment) (m : Moment) (ms : List Moment) :
    d.follow (m :: ms) = (d.meet m).follow ms := rfl

/-- To wait until an instant is to wait for as long as it is still to come. -/
theorem sleepUntil_eq (target : Nat) (d : Deployment) :
    d.sleepUntil target = d.meet (.act (.sleep (target - d.now))) := by
  simp only [meet, act]
  by_cases hlt : d.now < target
  · rw [Nat.add_sub_of_le (Nat.le_of_lt hlt)]
  · have hzero : target - d.now = 0 := by omega
    rw [hzero, sleepUntil, sleepUntil, if_neg hlt, if_neg (by omega)]

variable {i : Nat} {d : Deployment} {moments : List Moment}

theorem length_follow (hm : ∀ m ∈ moments, ∀ launch, m ≠ .act (.start launch)) :
    (d.follow moments).controllers.length = d.controllers.length := by
  induction moments generalizing d with
  | nil => rfl
  | cons m moments ih =>
      obtain ⟨hfirst, hrest⟩ := List.forall_mem_cons.mp hm
      exact (ih hrest).trans (meet_books m hfirst).length

theorem Lived.append {ms ms' : List Moment} {life life' : List Occurrence} (h : Lived i d ms life)
    (h' : Lived i (d.follow ms) ms' life') : Lived i d (ms ++ ms') (life ++ life') := by
  induction h with
  | nil d => exact h'
  | cons hs hs' hlives hdone rest ih =>
      rw [List.append_assoc]
      exact .cons hs hs' hlives hdone (ih h')

/-- Somebody asks a live controller for a snapshot, and then everything happens that can. -/
theorem lived_asked {s : Scene} (hs : d.scene? i = some s) (halive : s.controller.isAlive = true) :
    ∃ s' segment, (d.follow [.ask i, .settle]).scene? i = some s'
      ∧ Lived i d [.ask i, .settle] (.told .snapshot :: segment)
      ∧ s.Occurs (.told .snapshot) { s with controller := s.controller.send .snapshot }
      ∧ Scene.Lives { s with controller := s.controller.send .snapshot } segment s'
      ∧ segment.filter Occurrence.isDone = []
      ∧ (s'.controller.isAlive = true → s'.controller.Rests s'.readings s'.now s'.now) := by
  obtain ⟨hc, _⟩ := eq_of_scene? hs
  have hasked : s.Occurs (.told .snapshot) { s with controller := s.controller.send .snapshot } :=
    .told .snapshot (Controller.isOpen_of_isAlive halive)
  have hmeet : d.meet (.ask i) = d.modify i (·.send .snapshot) := by
    simp only [meet, whileAlive, hc, halive, if_true]
  have hs₁ : (d.meet (.ask i)).scene? i
      = some { s with controller := s.controller.send .snapshot } := by
    have hsent := scene?_modify i (·.send .snapshot) hs
    rwa [if_pos rfl, ← hmeet] at hsent
  have htold : [Occurrence.told .snapshot].filter Occurrence.isDone
      = d.doneTo i s.controller (.ask i) := by
    simp [doneTo, halive, Occurrence.isDone]
  obtain ⟨s', segment, hs', hlives, hown⟩ := reaches_settle hs₁
  obtain ⟨hc', hscene'⟩ := eq_of_scene? hs'
  refine ⟨s', segment, hs', ?_, hasked, hlives, hown, fun halive' => ?_⟩
  · have hsettled : Lived i (d.meet (.ask i)) [.settle] (segment ++ []) :=
      .cons hs₁ hs' hlives hown (.nil _)
    rw [List.append_nil] at hsettled
    exact .cons hs hs₁ (.single hasked) htold hsettled
  · rw [hscene']
    exact rests_of_settled (d := d.meet (.ask i)) hc' halive'

/-- Whom nobody shuts down or abandons stays alive. -/
theorem alive_follow {c : Controller} (hc : d.controllers[i]? = some c) (halive : c.isAlive = true)
    (hqueue : .shutdown ∉ c.queue)
    (hm : ∀ m ∈ moments, m ≠ .act (.shutdown i) ∧ m ≠ .act (.abandon i)) :
    ∃ c', (d.follow moments).controllers[i]? = some c' ∧ c'.isAlive = true := by
  obtain ⟨life, c', hlived, hc', hlives⟩ := exists_lives moments hc
  refine ⟨c', hc', hlives.tallies.alive.mpr ⟨halive, ?_, ?_⟩⟩
  · intro hleft
    obtain ⟨m, hmem, k, hdeed⟩ := hlived.deed hleft rfl
    cases hdeed
    exact (hm _ hmem).2 rfl
  · intro hstopped
    obtain ⟨lost, hfifo, _⟩ := hlives.tallies.fifo
    have hqueued : .shutdown ∈ c.queue ++ queued life := by
      rw [hfifo]
      exact List.mem_append_left _ hstopped
    have htold := hlives.told_shutdown ((List.mem_append.mp hqueued).resolve_left hqueue)
    obtain ⟨m, hmem, k, hdeed⟩ := hlived.deed htold rfl
    cases hdeed
    exact (hm _ hmem).1 rfl

end Deployment

/-- A snapshot that was queued last is the last one shown. Nothing but results is handled after it,
so the clock does not matter any more. -/
theorem Scene.Lives.answered {s s' : Scene} {life : List Occurrence} {ahead : List Command}
    (h : s.Lives life s') (hown : life.filter Occurrence.isDone = [])
    (hqueue : s.controller.queue = ahead ++ [.snapshot]) (halive : s'.controller.isAlive = true)
    (hdrained : s'.controller.queue = []) :
    ∃ before t after, life = before ++ .turned t :: after ∧ t.work = .command .snapshot
      ∧ (∀ command ∈ handled after, command.isResult = true)
      ∧ s'.controller.journal.snapshots.back?
        = some (s.controller.machine.replay s.controller.journal (turns before)).1.snapshot := by
  have hhandled := handled_of_drained h halive hdrained
  rw [hqueue, List.append_assoc] at hhandled
  obtain ⟨before, t, after, rfl, hwork, hafter⟩ := turn_of_handled hhandled
  have hresults : ∀ command ∈ handled after, command.isResult = true := by
    intro command hcommand
    rw [hafter] at hcommand
    rcases mem_queued.mp hcommand with htold | ⟨r, hreturned⟩
    · exact absurd rfl (List.filter_eq_nil_iff.mp hown _ htold)
    · obtain ⟨k, rfl⟩ := h.returned hreturned
      rfl
  refine ⟨before, t, after, rfl, hwork, hresults, ?_⟩
  have hshown : ∀ t' ∈ turns after, t'.work.shows = false := by
    intro t' ht'
    rw [Bool.eq_false_iff]
    intro hshows
    have hmem : Command.snapshot ∈ handled after :=
      List.mem_filterMap.mpr ⟨t', ht', Work.command_of_shows hshows⟩
    exact absurd (hresults _ hmem) nofun
  have hturns : turns (before ++ .turned t :: after) = turns before ++ t :: turns after :=
    turns_append
  have hjournal := congrArg (·.2.snapshots.toList) h.tallies.replayed
  simp only [hturns, snapshots_eq] at hjournal
  rw [Machine.shown_append _ s.controller.journal, Machine.shown,
    Machine.shown_eq_nil hshown, hwork] at hjournal
  rw [← Array.getLast?_toList, hjournal]
  simp [Work.shows]

namespace Simulation

/-- What it comes to to wait for an instant: time passes, or nothing happens at all, or the
controller has its turn. -/
def waiting (target : Nat) (sim : Simulation) : List Moment :=
  if sim.deployment.now < target then [.act (.sleep (target - sim.deployment.now))]
  else if sim.waits < turnLength then [] else [.settle]

/-- What the changes of a step come to: the radio is set, and then a status may be published. -/
def changes (s : Scenario.Step) (radio : Radio) : List Moment :=
  .act (.setSignal (radio.apply s).readings.signal)
    :: .act (.setCall (radio.apply s).readings.call)
    :: s.validation.toList.map fun valid => .act (.publish valid)

def moments (sim : Simulation) (s : Scenario.Step) : List Moment :=
  sim.waiting (milliseconds s.atMs) ++ changes s sim.radio

def script (sim : Simulation) : List Scenario.Step → List Moment
  | [] => []
  | s :: steps => sim.moments s ++ (sim.step s).script steps

/-- What is left to do after the last step, but for the shutdown. -/
def ending (endMs : Nat) (sim : Simulation) : List Moment :=
  sim.waiting (milliseconds endMs) ++ [.ask 0, .settle]

/-- A simulation from the start of its controller on, until that is shut down. -/
def rehearsal (settings : Settings) (scenario : Scenario) : List Moment :=
  (start settings scenario.initialSignal).script scenario.steps
    ++ (scenario.steps.foldl step (start settings scenario.initialSignal)).ending scenario.endMs

section

variable {sim : Simulation} {steps : List Scenario.Step}

theorem follow_radio (d : Deployment) (r : Readings) (ms : List Moment) :
    d.follow (.act (.setSignal r.signal) :: .act (.setCall r.call) :: ms)
      = { d with readings := r }.follow ms := rfl

theorem deployment_await (sim : Simulation) (target : Nat) :
    (sim.await target).deployment = sim.deployment.follow (sim.waiting target) := by
  unfold await waiting
  by_cases hlt : sim.deployment.now < target
  · rw [if_pos hlt, if_pos hlt, Deployment.follow_cons, ← Deployment.sleepUntil_eq,
      Deployment.follow_nil]
  · rw [if_neg hlt, if_neg hlt]
    split <;> rfl

theorem radio_await (sim : Simulation) (target : Nat) : (sim.await target).radio = sim.radio := by
  unfold await
  split
  · rfl
  · split <;> rfl

theorem deployment_change (sim : Simulation) (s : Scenario.Step) :
    (sim.change s).deployment = sim.deployment.follow (changes s sim.radio) := by
  rw [changes, follow_radio]
  unfold change
  cases s.validation <;> rfl

theorem deployment_step (sim : Simulation) (s : Scenario.Step) :
    (sim.step s).deployment = sim.deployment.follow (sim.moments s) := by
  rw [moments, Deployment.follow_append, ← deployment_await, step, deployment_change, radio_await]

theorem deployment_steps (sim : Simulation) (steps : List Scenario.Step) :
    (steps.foldl step sim).deployment = sim.deployment.follow (sim.script steps) := by
  induction steps generalizing sim with
  | nil => rfl
  | cons s steps ih =>
      rw [List.foldl_cons, ih, script, Deployment.follow_append, deployment_step]

theorem published_waiting (sim : Simulation) (target : Nat) :
    published (sim.waiting target) = [] := by
  unfold waiting
  split
  · rfl
  · split <;> rfl

theorem published_script (sim : Simulation) (steps : List Scenario.Step) :
    published (sim.script steps) = steps.filterMap (·.validation) := by
  induction steps generalizing sim with
  | nil => rfl
  | cons s steps ih =>
      have hnow : published (sim.moments s) = s.validation.toList := by
        rw [moments, Deployment.published_append, published_waiting]
        unfold changes
        cases s.validation <;> rfl
      rw [script, Deployment.published_append, ih, hnow]
      cases hs : s.validation <;> simp [hs]

theorem rehearsed_waiting (target : Nat) (sim : Simulation) :
    ∀ m ∈ sim.waiting target, m.Rehearsed := by
  unfold waiting
  intro m hm
  split at hm
  · exact List.mem_singleton.mp hm ▸ .sleep _
  · split at hm
    · exact absurd hm List.not_mem_nil
    · exact List.mem_singleton.mp hm ▸ .settle

theorem rehearsed_changes (s : Scenario.Step) (radio : Radio) :
    ∀ m ∈ changes s radio, m.Rehearsed := by
  refine List.forall_mem_cons.mpr ⟨.signal _, List.forall_mem_cons.mpr ⟨.call _, fun m hm => ?_⟩⟩
  obtain ⟨valid, _, rfl⟩ := List.mem_map.mp hm
  exact .publish valid

theorem rehearsed_script (sim : Simulation) (steps : List Scenario.Step) :
    ∀ m ∈ sim.script steps, m.Rehearsed := by
  induction steps generalizing sim with
  | nil => exact fun m hm => absurd hm List.not_mem_nil
  | cons s steps ih =>
      refine List.forall_mem_append.mpr ⟨List.forall_mem_append.mpr ⟨?_, ?_⟩, ih _⟩
      · exact rehearsed_waiting _ sim
      · exact rehearsed_changes s sim.radio

theorem rehearsed_ending (endMs : Nat) (sim : Simulation) :
    ∀ m ∈ sim.ending endMs, m.Rehearsed := by
  refine List.forall_mem_append.mpr ⟨rehearsed_waiting _ sim, ?_⟩
  exact List.forall_mem_cons.mpr ⟨.ask, fun m hm => List.mem_singleton.mp hm ▸ .settle⟩

/-- A controller that rests stops at once when it is shut down. -/
theorem settle_shutdown {readings : Readings} {now : Nat} {c : Controller}
    (halive : c.isAlive = true) (hrests : c.Rests readings now now) :
    (c.send .shutdown).settle readings now = { c with phase := .stopped } := by
  have hphase : c.phase = .alive := by simpa [Controller.isAlive] using halive
  have hqueue := hrests.drained
  rw [Controller.send_of_open _ (Controller.isOpen_of_isAlive halive), hqueue]
  simp [Controller.settle, Controller.settleThrough, hphase, Controller.reportRefusal,
    hrests.announced, Controller.drain, Controller.handle, Controller.isAlive]

/-- There is one controller, which stays alive. -/
theorem single_follow {d : Deployment} {c : Controller} (hc : d.controllers = [c])
    (halive : c.isAlive = true) (hqueue : .shutdown ∉ c.queue) {ms : List Moment}
    (hm : ∀ m ∈ ms, m.Rehearsed) :
    ∃ c', (d.follow ms).controllers = [c'] ∧ c'.isAlive = true := by
  have hlength : (d.follow ms).controllers.length = 1 := by
    refine (Deployment.length_follow fun m hmem launch heq => ?_).trans (by rw [hc]; rfl)
    subst heq
    cases hm _ hmem
  have hstays : ∀ m ∈ ms, m ≠ .act (.shutdown 0) ∧ m ≠ .act (.abandon 0) := by
    refine fun m hmem => ⟨fun heq => ?_, fun heq => ?_⟩ <;>
      · subst heq
        cases hm _ hmem
  obtain ⟨c', hc', halive'⟩ :=
    Deployment.alive_follow (i := 0) (by rw [hc]; rfl) halive hqueue hstays
  obtain ⟨c'', hc''⟩ := List.length_eq_one_iff.mp hlength
  rw [hc''] at hc'
  cases hc'
  exact ⟨c', hc'', halive'⟩

theorem shutdown_single {d : Deployment} {c : Controller} (hc : d.controllers = [c])
    (halive : c.isAlive = true) :
    (d.act (.shutdown 0)).1.controllers = [(c.send .shutdown).settle d.readings d.now] := by
  simp only [Deployment.act, Deployment.whileAlive, hc, List.getElem?_cons_zero, halive, if_true]
  simp [Deployment.settle, Deployment.modify]

/-- A controller is asked for a snapshot and then shut down. -/
theorem shutdown_asked {d : Deployment} {c c' : Controller} (hc : d.controllers = [c])
    (halive : c.isAlive = true) (hc' : (d.follow [.ask 0, .settle]).controllers = [c'])
    (halive' : c'.isAlive = true) :
    ((d.modify 0 (·.send .snapshot)).settle.act (.shutdown 0)).1.controllers
      = [{ c' with phase := .stopped }] := by
  have hasked : d.meet (.ask 0) = d.modify 0 (·.send .snapshot) := by
    simp only [Deployment.meet, Deployment.whileAlive, hc, List.getElem?_cons_zero, halive, if_true]
  rw [Deployment.follow_cons, hasked] at hc'
  have hrests := rests_of_settled (d := d.modify 0 (·.send .snapshot)) (i := 0)
    (by rw [← List.head?_eq_getElem?]; exact congrArg List.head? hc') halive'
  exact (shutdown_single hc' halive').trans
    (congrArg (fun c => [c]) (settle_shutdown halive' hrests))

theorem finish_eq (endMs : Nat) (sim : Simulation) :
    sim.finish endMs = (((sim.await (milliseconds endMs)).deployment.modify 0
      (·.send .snapshot)).settle.act (.shutdown 0)).1 := by
  -- as functions the two sides are the same, and nothing has to be computed
  have hfinish : finish = fun endMs sim =>
      (((sim.await (milliseconds endMs)).deployment.modify 0 (·.send .snapshot)).settle.act
        (.shutdown 0)).1 := rfl
  exact congrFun (congrFun hfinish endMs) sim

/-- A simulation ends with its controller shown and shut down. -/
theorem controllers_finish (endMs : Nat)
    (hsingle : ∀ ms : List Moment, (∀ m ∈ ms, m.Rehearsed) →
      ∃ c, (sim.deployment.follow ms).controllers = [c] ∧ c.isAlive = true) :
    ∃ c, (sim.deployment.follow (sim.ending endMs)).controllers = [c] ∧ c.isAlive = true
      ∧ (sim.finish endMs).controllers = [{ c with phase := .stopped }] := by
  obtain ⟨c₁, hc₁, halive₁⟩ := hsingle (sim.waiting (milliseconds endMs)) (rehearsed_waiting _ sim)
  obtain ⟨c₂, hc₂, halive₂⟩ := hsingle (sim.ending endMs) (rehearsed_ending endMs sim)
  refine ⟨c₂, hc₂, halive₂, ?_⟩
  rw [← deployment_await] at hc₁
  rw [ending, Deployment.follow_append, ← deployment_await] at hc₂
  rw [finish_eq]
  exact shutdown_asked hc₁ halive₁ hc₂ halive₂

/-- The report of a simulation is that of the one controller that has met its moments. -/
theorem run_eq (settings : Settings) (scenario : Scenario) :
    ∃ c, ((start settings scenario.initialSignal).deployment.follow
        (rehearsal settings scenario)).controllers = [c]
      ∧ c.isAlive = true ∧ run settings scenario = report c := by
  have hfirst : (start settings scenario.initialSignal).deployment.controllers
      = [.new settings.toPolicy 1 {}] := rfl
  have hsteps := deployment_steps (start settings scenario.initialSignal) scenario.steps
  have hsingle : ∀ ms : List Moment, (∀ m ∈ ms, m.Rehearsed) →
      ∃ c, ((scenario.steps.foldl step (start settings scenario.initialSignal)).deployment.follow
        ms).controllers = [c] ∧ c.isAlive = true := by
    intro ms hms
    rw [hsteps, ← Deployment.follow_append]
    refine single_follow hfirst rfl List.not_mem_nil fun m hm => ?_
    exact (List.mem_append.mp hm).elim (rehearsed_script _ _ m) (hms m)
  obtain ⟨c, hc, halive, hfinish⟩ := controllers_finish scenario.endMs hsingle
  rw [hsteps, ← Deployment.follow_append] at hc
  refine ⟨c, hc, halive, ?_⟩
  rw [run, hfinish]
  rfl

end

/-! ## What the report shows -/

/-- A controller that has met all the moments of a simulation, with the life it has lived. -/
structure Performed (settings : Settings) (scenario : Scenario) (life : List Occurrence)
    (s : Scene) : Prop where
  lived : Deployment.Lived 0 (start settings scenario.initialSignal).deployment
    (rehearsal settings scenario) life
  lives : Scene.Lives ⟨0, (Radio.initial scenario.initialSignal).readings,
    .new settings.toPolicy 1 {}⟩ life s
  met : ((start settings scenario.initialSignal).deployment.follow
    (rehearsal settings scenario)).scene? 0 = some s
  alive : s.controller.isAlive = true
  rests : s.controller.Rests s.readings s.now s.now
  reported : run settings scenario = report s.controller

/-- A report is what it shows. Here it is any, so that no run has to be computed. -/
theorem report_eq {r : Report} {dispatches : List (Nat × Action)} {failures : List Fault}
    {final : Snapshot} (hdispatches : r.dispatches = dispatches) (hfailures : r.failures = failures)
    (hfinal : r.final = final) : r = ⟨dispatches, failures, final⟩ := by
  cases r
  cases hdispatches
  cases hfailures
  cases hfinal
  rfl

variable (settings : Settings) (scenario : Scenario)

theorem scene_start (signal : UInt8) : (start settings signal).deployment.scene? 0
    = some ⟨0, (Radio.initial signal).readings, .new settings.toPolicy 1 {}⟩ := rfl

theorem rehearsed_rehearsal : ∀ m ∈ rehearsal settings scenario, m.Rehearsed :=
  List.forall_mem_append.mpr ⟨rehearsed_script _ _, rehearsed_ending _ _⟩

theorem published_rehearsal :
    published (rehearsal settings scenario) = scenario.steps.filterMap (·.validation) := by
  rw [rehearsal, Deployment.published_append, published_script, ending, Deployment.published_append,
    published_waiting]
  exact List.append_nil _

theorem rehearsal_eq : ∃ moments, rehearsal settings scenario = moments ++ [.ask 0, .settle] :=
  ⟨_, (List.append_assoc _ _ _).symm⟩

/-- The state in the report is that of the machine when it was asked for it; only results are
handled after that. -/
theorem exists_performed : ∃ life s before t after, Performed settings scenario life s
    ∧ life = before ++ .turned t :: after ∧ t.work = .command .snapshot
    ∧ (∀ command ∈ handled after, command.isResult = true)
    ∧ (run settings scenario).final = (machineAfter settings.toPolicy before).snapshot := by
  obtain ⟨c, hc, halive, hrun⟩ := run_eq settings scenario
  obtain ⟨moments, hrehearsal⟩ := rehearsal_eq settings scenario
  have hrehearsed : ∀ m ∈ moments, m.Rehearsed := by
    intro m hm
    refine rehearsed_rehearsal settings scenario m ?_
    rw [hrehearsal]
    exact List.mem_append_left _ hm
  have hscene := scene_start settings scenario.initialSignal
  obtain ⟨earlier, hearlier⟩ := Deployment.exists_lived moments hscene
  obtain ⟨s₁, hs₁, hlives₁⟩ := hearlier.lives hscene
  obtain ⟨c₁, hc₁, halive₁⟩ := single_follow
    (d := (start settings scenario.initialSignal).deployment) rfl rfl List.not_mem_nil hrehearsed
  obtain ⟨hfound₁, _⟩ := Deployment.eq_of_scene? hs₁
  rw [hc₁] at hfound₁
  cases hfound₁
  obtain ⟨s, segment, hs, hlater, hasked, hlives, hown, hrests⟩ :=
    Deployment.lived_asked hs₁ halive₁
  rw [← Deployment.follow_append, ← hrehearsal] at hs
  obtain ⟨hfound, _⟩ := Deployment.eq_of_scene? hs
  rw [hc] at hfound
  cases hfound
  have hlived := hearlier.append hlater
  rw [← hrehearsal] at hlived
  have hperformed : Performed settings scenario (earlier ++ .told .snapshot :: segment) s :=
    ⟨hlived, hlives₁.append (.cons hasked hlives), hs, halive, hrests halive, hrun⟩
  have hqueue : (s₁.controller.send .snapshot).queue = s₁.controller.queue ++ [.snapshot] := by
    rw [Controller.send_of_open _ (Controller.isOpen_of_isAlive halive₁)]
  obtain ⟨before, t, after, rfl, hwork, hresults, hshown⟩ :=
    hlives.answered hown hqueue halive (hrests halive).drained
  refine ⟨_, s, earlier ++ .told .snapshot :: before, t, after, hperformed, by simp, hwork,
    hresults, ?_⟩
  obtain ⟨s₂, hbefore, _⟩ := hlives.cut
  have hmachine : s₂.controller.machine
      = machineAfter settings.toPolicy (earlier ++ .told .snapshot :: before) :=
    machineAfter_eq (hlives₁.append (.cons hasked hbefore))
  rw [hrun, report, hshown, ← congrArg Prod.fst hbefore.tallies.replayed, hmachine]
  rfl

variable {settings scenario}

/-- The actions taken down are those that the controller started. -/
theorem Performed.dispatches {life : List Occurrence} {s : Scene}
    (h : Performed settings scenario life s) :
    (run settings scenario).dispatches = s.controller.journal.dispatched.toList := by
  have hinitial := @PolicySource.isMisconfigured_of_error (.given settings) _ rfl
  have herrands := errands_of_lives h.lived (scene_start settings scenario.initialSignal) h.lives
    hinitial
  rw [h.reported, herrands.started.2]
  exact herrands.requested

/-- What the controller was told last is what was published last. -/
theorem Performed.lastTold {life : List Occurrence} {s : Scene}
    (h : Performed settings scenario life s) :
    s.controller.lastTold = (scenario.steps.filterMap (·.validation)).getLast?.getD true := by
  have henrolled : (start settings scenario.initialSignal).deployment.Enrolled :=
    Deployment.Enrolled.start
      (d := { Deployment.empty with readings := (Radio.initial scenario.initialSignal).readings })
      ⟨Deployment.enrolled_empty.issued, Deployment.enrolled_empty.distinct,
        Deployment.enrolled_empty.entered⟩ _
  have hfollowed := Deployment.lastTold_follow henrolled (i := 0) rfl
    (fun m hm => (rehearsed_rehearsal settings scenario m hm).viaMonitor)
    (Deployment.eq_of_scene? h.met).1 h.alive
  have hnothing : (start settings scenario.initialSignal).deployment.monitor.published = none := rfl
  have hchanges := getLast?_changes none (scenario.steps.filterMap (·.validation))
  rw [Option.or_none, Option.or_none] at hchanges
  rw [hfollowed, Deployment.lastTold_new, hnothing, published_rehearsal, hchanges]

variable (settings scenario)

/-- The report shows the network as it was reported last. -/
theorem final_validated : (run settings scenario).final.validated
    = (scenario.steps.filterMap (·.validation)).getLast?.getD true := by
  obtain ⟨life, s, before, t, after, h, rfl, hwork, hresults, hfinal⟩ :=
    exists_performed settings scenario
  -- whatever is handled after the snapshot is asked for does not tell of the network
  have hafter : reports (handled (.turned t :: after)) = [] := by
    have hhandled : handled (.turned t :: after) = .snapshot :: handled after := by
      simp [handled, turns, Occurrence.turn?, hwork, Work.command?]
    rw [hhandled]
    refine List.filterMap_eq_nil_iff.mpr (List.forall_mem_cons.mpr ⟨rfl, fun command hmem => ?_⟩)
    have hresult := hresults command hmem
    cases command with
    | finished action result => rfl
    | _ => exact absurd hresult Bool.false_ne_true
  have hlast : s.controller.machine.state.validated
      = (machineAfter settings.toPolicy before).state.validated := by
    rw [machineAfter_eq h.lives, validated_machineAfter, validated_machineAfter, handled_append,
      reports_append, hafter, List.append_nil]
  have hdrained : s.controller.lastTold = s.controller.machine.state.validated := by
    rw [Controller.lastTold, h.rests.drained]
    rfl
  rw [hfinal, ← h.lastTold, hdrained, hlast]
  rfl

end Simulation

end StallRecovery
