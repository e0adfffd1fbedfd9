import StallRecovery.Proofs.Acceptance
import StallRecovery.Proofs.Slicing

/-!
# Simulations are causal

What a simulation does before an instant depends on what happens in its scenario before that instant
and on nothing else. The argument is a cut: since it makes no difference how time is sliced, a
simulation may be halted at any instant that its scenario reaches, and where it is then is told by the
steps that lie before. Whatever is started afterwards is started no earlier than that.
-/

namespace StallRecovery

/-! ## Instants of a life -/

namespace Scene

variable {s s' s'' : Scene} {o : Occurrence} {life : List Occurrence}

/-- These actions are started between two scenes. -/
structure Starts (s : Scene) (started : List (Nat × Action)) (s' : Scene) : Prop where
  le : s.now ≤ s'.now
  dispatched : s'.controller.journal.dispatched.toList
    = s.controller.journal.dispatched.toList ++ started
  sorted : started.Pairwise (·.1 ≤ ·.1)
  between : ∀ x ∈ started, s.now ≤ x.1 ∧ x.1 ≤ s'.now

theorem Starts.refl (s : Scene) : s.Starts [] s :=
  ⟨Nat.le_refl _, (List.append_nil _).symm, .nil, List.forall_mem_nil _⟩

theorem Starts.trans {started later : List (Nat × Action)} (h : s.Starts started s')
    (h' : s'.Starts later s'') : s.Starts (started ++ later) s'' where
  le := Nat.le_trans h.le h'.le
  dispatched := by rw [h'.dispatched, h.dispatched, List.append_assoc]
  sorted := List.pairwise_append.mpr ⟨h.sorted, h'.sorted, fun x hx y hy =>
    Nat.le_trans (h.between x hx).2 (h'.between y hy).1⟩
  between x hx := by
    rcases List.mem_append.mp hx with hfirst | hlater
    · exact ⟨(h.between x hfirst).1, Nat.le_trans (h.between x hfirst).2 h'.le⟩
    · exact ⟨Nat.le_trans h.le (h'.between x hlater).1, (h'.between x hlater).2⟩

/-- The clock never goes back. -/
theorem Occurs.le (ho : s.Occurs o s') : s.now ≤ s'.now := by
  cases ho with
  | moved hle => exact hle
  | waited hle hrests => exact hle
  | _ => exact Nat.le_refl _

/-- An action is started in a turn, at its instant. -/
theorem Occurs.starts (ho : s.Occurs o s') : ∃ started, s.Starts started s' := by
  have hreplayed : s'.controller.journal
      = (s.controller.machine.replay s.controller.journal (turns [o])).2 :=
    congrArg Prod.snd ho.tallies.replayed
  cases hturn : o.turn? with
  | none =>
      rw [turns, List.filterMap_cons_none hturn] at hreplayed
      refine ⟨[], ho.le, ?_, .nil, List.forall_mem_nil _⟩
      rw [hreplayed]
      exact (List.append_nil _).symm
  | some t =>
      cases Occurrence.eq_turned hturn
      obtain ⟨hsetting, hnow, _⟩ := ho.setting_of_turned
      have hdispatched := dispatched_eq s.controller.machine s.controller.journal [t]
      have hinstant : t.setting.now = s.now := congrArg Setting.now hsetting
      rw [Machine.launches_single, Outcome.started, List.map_map, hinstant] at hdispatched
      refine ⟨_, ho.le, (congrArg (·.dispatched.toList) hreplayed).trans hdispatched, ?_, ?_⟩
      · cases (s.controller.machine.take t).2.dispatch with
        | none => exact .nil
        | some action => exact List.pairwise_singleton _ _
      · intro x hx
        obtain ⟨action, _, rfl⟩ := List.mem_map.mp hx
        exact ⟨Nat.le_refl _, Nat.le_of_eq hnow.symm⟩

theorem Lives.starts (h : s.Lives life s') : ∃ started, s.Starts started s' := by
  induction h with
  | nil s => exact ⟨[], .refl s⟩
  | cons ho rest ih =>
      obtain ⟨started, hnow⟩ := ho.starts
      obtain ⟨later, hrest⟩ := ih
      exact ⟨started ++ later, hnow.trans hrest⟩

end Scene

/-- What a controller starts in a part of a run. -/
theorem Deployment.starts_follow {d : Deployment} {i : Nat} {s : Scene} (hs : d.scene? i = some s)
    (moments : List Moment) :
    ∃ s' started, (d.follow moments).scene? i = some s' ∧ s.Starts started s' := by
  obtain ⟨life, hlived⟩ := exists_lived moments hs
  obtain ⟨s', hs', hlives⟩ := hlived.lives hs
  obtain ⟨started, hstarts⟩ := hlives.starts
  exact ⟨s', started, hs', hstarts⟩

/-! ## Accepted scenarios -/

namespace Scenario

variable {scenario : Scenario}

/-- No step of an accepted scenario is later than its end. -/
theorem atMs_le_endMs (h : scenario.defect? = none) {s : Step} (hs : s ∈ scenario.steps) :
    s.atMs ≤ scenario.endMs := by
  have hsorted := sorted_of_accepted h
  obtain ⟨last, hlast⟩ := Option.isSome_iff_exists.mp
    (List.getLast?_isSome.mpr (List.ne_nil_of_mem hs))
  have hle : s.atMs ≤ last.atMs := by
    obtain ⟨before, hsteps⟩ := List.getLast?_eq_some_iff.mp hlast
    rw [hsteps] at hsorted hs
    rcases List.mem_append.mp hs with hbefore | hend
    · exact (List.pairwise_append.mp hsorted).2.2 s hbefore last List.mem_cons_self
    · exact Nat.le_of_eq (congrArg Step.atMs (List.mem_singleton.mp hend))
  rw [endMs, hlast]
  exact Nat.le_trans hle (Nat.le_add_right _ _)

/-- The steps that lie before an instant. -/
def before (t : Nat) (steps : List Step) : List Step := steps.filter (milliseconds ·.atMs < t)

/-- Steps in order fall into those before an instant and those after. -/
theorem eq_before_append {steps : List Step} (h : steps.Pairwise (·.atMs ≤ ·.atMs)) (t : Nat) :
    ∃ after, steps = before t steps ++ after ∧ ∀ s ∈ after, t ≤ milliseconds s.atMs := by
  induction steps with
  | nil => exact ⟨[], rfl, List.forall_mem_nil _⟩
  | cons s rest ih =>
      obtain ⟨hfirst, hsorted⟩ := List.pairwise_cons.mp h
      by_cases hbefore : milliseconds s.atMs < t
      · obtain ⟨after, hsplit, hafter⟩ := ih hsorted
        refine ⟨after, ?_, hafter⟩
        rw [before, List.filter_cons_of_pos (by simpa using hbefore), List.cons_append, ← before,
          ← hsplit]
      · have hlater : ∀ s' ∈ s :: rest, t ≤ milliseconds s'.atMs := by
          refine List.forall_mem_cons.mpr ⟨Nat.le_of_not_lt hbefore, fun s' hs' => ?_⟩
          exact Nat.le_trans (Nat.le_of_not_lt hbefore) (Nat.mul_le_mul_right _ (hfirst s' hs'))
        have hnone : before t (s :: rest) = [] :=
          List.filter_eq_nil_iff.mpr fun s' hs' => by simpa using hlater s' hs'
        exact ⟨s :: rest, by rw [hnone]; rfl, hlater⟩

end Scenario

/-! ## A snapshot does not matter -/

namespace Controller

variable (readings : Readings) (now : Nat)

/-- What is started when the re-check is due is told by the machine alone. -/
theorem dispatched_lookThrough (limit looks : Nat) {c c' : Controller}
    (hmachine : c.machine = c'.machine)
    (hdispatched : c.journal.dispatched = c'.journal.dispatched) :
    (c.lookThrough readings now limit looks).journal.dispatched
      = (c'.lookThrough readings now limit looks).journal.dispatched := by
  induction looks generalizing c c' with
  | zero => exact hdispatched
  | succ looks ih =>
      simp only [lookThrough, hmachine]
      split
      · refine ih ?_ ?_
        · rw [machine_look, machine_look, hmachine]
        · rw [feed_eq readings now _ c, feed_eq readings now _ c']
          simp only [Journal.add, hmachine, hdispatched]
      · exact hdispatched

/-- To be asked for a snapshot makes no difference to what is started. -/
theorem dispatched_settle_asked {c : Controller} (halive : c.isAlive = true)
    (hstill : (c.settle readings now).isAlive = true) :
    ((c.send .snapshot).settle readings now).journal.dispatched
      = (c.settle readings now).journal.dispatched := by
  have hworked : (c.workOff readings now).isAlive = true := by
    rw [settle, settleThrough_of_alive readings now halive] at hstill
    split at hstill
    · assumption
    · exact hstill
  have halive' : (c.send .snapshot).isAlive = true := by
    rw [send_of_open .snapshot (isOpen_of_isAlive halive)]
    exact halive
  rw [settle, settle, settleThrough_of_alive readings now halive,
    settleThrough_of_alive readings now halive', workOff_send readings now halive hworked,
    if_pos hworked]
  have hasked : ((c.workOff readings now).handle readings now .snapshot).isAlive = true := hworked
  rw [if_pos hasked, (fireThrough_alike readings now now _).dispatched,
    (fireThrough_alike readings now now _).dispatched]
  exact dispatched_lookThrough readings now now _ rfl rfl

end Controller

namespace Deployment

variable {d : Deployment} {c : Controller}

theorem now_of_scene? {i : Nat} {s : Scene} (hs : d.scene? i = some s) : s.now = d.now :=
  congrArg Scene.now (eq_of_scene? hs).2

theorem follow_settle (d : Deployment) : d.follow [.settle] = d.settle := rfl

theorem now_settle (d : Deployment) : d.settle.now = d.now := rfl

theorem controllers_settle (hc : d.controllers = [c]) :
    d.settle.controllers = [c.settle d.readings d.now] := by
  rw [settle, hc]
  rfl

/-- Whoever asks the only controller for a snapshot finds that it has started what it would have
started anyway. -/
theorem dispatched_asked (hc : d.controllers = [c]) (halive : c.isAlive = true)
    (hstill : (c.settle d.readings d.now).isAlive = true) {s : Scene}
    (hs : (d.follow [.ask 0, .settle]).scene? 0 = some s) :
    ∃ s', d.settle.scene? 0 = some s'
      ∧ s.controller.journal.dispatched = s'.controller.journal.dispatched := by
  have hscene : d.scene? 0 = some ⟨d.now, d.readings, c⟩ := scene?_eq_some (by rw [hc]; rfl)
  refine ⟨_, scene?_settle hscene, ?_⟩
  have hasked : d.meet (.ask 0) = d.modify 0 (·.send .snapshot) := by
    simp only [meet, whileAlive, hc, List.getElem?_cons_zero, halive, if_true]
  have hsent := scene?_modify 0 (·.send .snapshot) hscene
  rw [if_pos rfl, ← hasked] at hsent
  cases hs.symm.trans (scene?_settle hsent)
  exact Controller.dispatched_settle_asked _ _ halive hstill

end Deployment

/-! ## Simulations cut in two -/

theorem Moment.Rehearsed.timed {m : Moment} (h : m.Rehearsed) : m.Timed := by
  cases h <;> trivial

namespace Simulation

variable {settings : Settings} {scenario : Scenario} {sim : Simulation}

theorem script_append (sim : Simulation) (steps later : List Scenario.Step) :
    sim.script (steps ++ later) = sim.script steps ++ (steps.foldl step sim).script later := by
  induction steps generalizing sim with
  | nil => rfl
  | cons s steps ih =>
      rw [List.cons_append, script, ih, script, List.append_assoc]
      rfl

/-- The policy of a simulation stays the one that it is started with. -/
theorem timed_follow (htimed : settings.Timed) (signal : UInt8) {ms : List Moment}
    (hms : ∀ m ∈ ms, m.Rehearsed) :
    ((start settings signal).deployment.follow ms).Timed := by
  refine Deployment.timed_follow (Deployment.timed_start (fun p hp => ?_)
    (Deployment.timed_of_nobody rfl)) fun m hm => (hms m hm).timed
  exact htimed p (Except.ok.inj hp)

/-- An instant that is waited for may be waited for from an earlier one on. -/
theorem await_cut (h : sim.deployment.Timed) {t target : Nat} (hle : t ≤ target) :
    ∃ moments, (sim.await target).deployment = (sim.deployment.sleepUntil t).follow moments := by
  rcases Nat.lt_or_ge sim.deployment.now target with hlt | hge
  · refine ⟨[.act (.sleep (target - (sim.deployment.sleepUntil t).now))], ?_⟩
    rw [await, if_pos hlt, Deployment.follow_cons, ← Deployment.sleepUntil_eq,
      Deployment.sleepUntil_cut h hle, Deployment.follow_nil]
  · refine ⟨sim.waiting target, ?_⟩
    rw [deployment_await, Deployment.sleepUntil_of_le (Nat.le_trans hle hge)]

/-- A simulation whose remaining steps lie after an instant may be halted there. -/
theorem follow_cut (h : sim.deployment.Timed) {t : Nat} {steps : List Scenario.Step} {endMs : Nat}
    (hsteps : ∀ s ∈ steps, t ≤ milliseconds s.atMs) (hend : t ≤ milliseconds endMs) :
    ∃ moments, sim.deployment.follow (sim.script steps ++ (steps.foldl step sim).ending endMs)
      = (sim.deployment.sleepUntil t).follow moments := by
  have hwait : ∃ target later, t ≤ target
      ∧ sim.script steps ++ (steps.foldl step sim).ending endMs = sim.waiting target ++ later := by
    cases steps with
    | nil =>
        refine ⟨milliseconds endMs, [.ask 0, .settle], hend, ?_⟩
        rw [script, List.nil_append, List.foldl_nil, ending]
    | cons s rest =>
        refine ⟨milliseconds s.atMs, changes s sim.radio ++ ((sim.step s).script rest
          ++ ((s :: rest).foldl step sim).ending endMs), hsteps s List.mem_cons_self, ?_⟩
        simp only [script, moments, List.append_assoc]
  obtain ⟨target, later, hle, hmoments⟩ := hwait
  obtain ⟨moments, hcut⟩ := await_cut h hle
  refine ⟨moments ++ later, ?_⟩
  rw [hmoments, Deployment.follow_append, ← deployment_await, hcut, Deployment.follow_append]

theorem timed_steps (htimed : settings.Timed) (signal : UInt8) (steps : List Scenario.Step) :
    (steps.foldl step (start settings signal)).deployment.Timed := by
  rw [deployment_steps]
  exact timed_follow htimed signal (rehearsed_script _ _)

/-- A simulation that has played some steps and is halted at an instant, before anything happens
then. -/
def halted (settings : Settings) (signal : UInt8) (steps : List Scenario.Step) (t : Nat) :
    Deployment :=
  (steps.foldl step (start settings signal)).deployment.sleepUntil t

theorem halted_eq (settings : Settings) (signal : UInt8) (steps : List Scenario.Step) (t : Nat) :
    ∃ moments, (∀ m ∈ moments, m.Rehearsed) ∧ halted settings signal steps t
      = (start settings signal).deployment.follow moments := by
  let wait := t - (steps.foldl step (start settings signal)).deployment.now
  refine ⟨(start settings signal).script steps ++ [.act (.sleep wait)],
    List.forall_mem_append.mpr ⟨rehearsed_script _ _, fun m hm => ?_⟩, ?_⟩
  · exact List.mem_singleton.mp hm ▸ .sleep wait
  · rw [halted, Deployment.sleepUntil_eq, Deployment.follow_append, ← deployment_steps]
    rfl

theorem exists_halted (settings : Settings) (signal : UInt8) (steps : List Scenario.Step)
    (t : Nat) : ∃ s, (halted settings signal steps t).scene? 0 = some s := by
  obtain ⟨moments, _, hhalted⟩ := halted_eq settings signal steps t
  obtain ⟨s, _, hs, _⟩ := Deployment.starts_follow (scene_start settings signal) moments
  rw [hhalted]
  exact ⟨s, hs⟩

/-- A rehearsal may be halted after some steps. -/
theorem rehearsal_append {steps later : List Scenario.Step} (h : scenario.steps = steps ++ later) :
    let sim := steps.foldl step (start settings scenario.initialSignal)
    (start settings scenario.initialSignal).deployment.follow (rehearsal settings scenario)
      = sim.deployment.follow
        (sim.script later ++ (later.foldl step sim).ending scenario.endMs) := by
  simp only
  rw [rehearsal, h, script_append, List.append_assoc, Deployment.follow_append, ← deployment_steps,
    List.foldl_append]

/-- What is started before an instant is told by the steps that lie before it. -/
theorem dispatches_before (htimed : settings.Timed) (haccepted : scenario.defect? = none) {t : Nat}
    (hend : t ≤ milliseconds scenario.endMs) {s : Scene}
    (hs : (halted settings scenario.initialSignal
      (Scenario.before t scenario.steps) t).scene? 0 = some s) :
    (run settings scenario).dispatches.filter (·.1 < t)
      = s.controller.journal.dispatched.toList.filter (·.1 < t) := by
  obtain ⟨after, hsplit, hafter⟩ :=
    Scenario.eq_before_append (Scenario.sorted_of_accepted haccepted) t
  obtain ⟨_, s', _, _, _, hperformed, _⟩ := exists_performed settings scenario
  have hmet := hperformed.met
  obtain ⟨moments, hcut⟩ := follow_cut (timed_steps htimed _ _) hafter hend
  rw [rehearsal_append hsplit, hcut] at hmet
  obtain ⟨s'', started, hs'', hstarts⟩ := Deployment.starts_follow hs moments
  cases hmet.symm.trans hs''
  -- whatever is started from there on is started no earlier
  have hnow : t ≤ s.now := by
    obtain ⟨_, hscene⟩ := Deployment.eq_of_scene? hs
    rw [hscene, halted, Deployment.now_sleepUntil]
    exact Nat.le_max_right _ _
  have hlater : started.filter (·.1 < t) = [] := by
    refine List.filter_eq_nil_iff.mpr fun x hx => ?_
    have hle := Nat.le_trans hnow (hstarts.between x hx).1
    simpa using hle
  rw [hperformed.dispatches, hstarts.dispatched, List.filter_append, hlater, List.append_nil]

/-- The deployment of a simulation that has waited for an instant. -/
def arrived (target : Nat) (sim : Simulation) : Deployment := (sim.await target).deployment

/-- A simulation when its clock has come to the end, before anything happens at that instant. -/
def atEnd (settings : Settings) (scenario : Scenario) : Deployment :=
  (scenario.steps.foldl step (start settings scenario.initialSignal)).arrived
    (milliseconds scenario.endMs)

theorem atEnd_eq (settings : Settings) (scenario : Scenario) :
    ∃ moments, (∀ m ∈ moments, m.Rehearsed) ∧ atEnd settings scenario
      = (start settings scenario.initialSignal).deployment.follow moments := by
  refine ⟨_, List.forall_mem_append.mpr ⟨rehearsed_script
    (start settings scenario.initialSignal) scenario.steps, rehearsed_waiting
    (milliseconds scenario.endMs) (scenario.steps.foldl step
      (start settings scenario.initialSignal))⟩, ?_⟩
  rw [atEnd, arrived, deployment_await, deployment_steps, ← Deployment.follow_append]

theorem timed_atEnd (htimed : settings.Timed) (scenario : Scenario) :
    (atEnd settings scenario).Timed := by
  obtain ⟨moments, hrehearsed, hatEnd⟩ := atEnd_eq settings scenario
  rw [hatEnd]
  exact timed_follow htimed _ hrehearsed

/-- At the end there is one controller, which is alive and stays so when everything happens. -/
theorem controllers_atEnd (settings : Settings) (scenario : Scenario) :
    ∃ c, (atEnd settings scenario).controllers = [c] ∧ c.isAlive = true
      ∧ (c.settle (atEnd settings scenario).readings (atEnd settings scenario).now).isAlive
        = true := by
  obtain ⟨moments, hrehearsed, hatEnd⟩ := atEnd_eq settings scenario
  have hfirst : (start settings scenario.initialSignal).deployment.controllers
      = [.new settings.toPolicy 1 {}] := rfl
  obtain ⟨c, hc, halive⟩ := single_follow hfirst rfl List.not_mem_nil hrehearsed
  have hsettles : ∀ m ∈ moments ++ [.settle], m.Rehearsed :=
    List.forall_mem_append.mpr ⟨hrehearsed, fun m hm => List.mem_singleton.mp hm ▸ .settle⟩
  obtain ⟨c', hc', halive'⟩ := single_follow hfirst rfl List.not_mem_nil hsettles
  rw [Deployment.follow_append, ← hatEnd] at hc'
  rw [← hatEnd] at hc
  have hsame := (Deployment.controllers_settle hc).symm.trans hc'
  rw [← List.head_eq_of_cons_eq hsame] at halive'
  exact ⟨c, hc, halive, halive'⟩

/-- What is still to do then is to show the state and to let everything happen that can. -/
theorem follow_atEnd (settings : Settings) (scenario : Scenario) :
    (start settings scenario.initialSignal).deployment.follow (rehearsal settings scenario)
      = (atEnd settings scenario).follow [.ask 0, .settle] := by
  rw [rehearsal_append (List.append_nil _).symm, script, List.nil_append, List.foldl_nil, ending,
    Deployment.follow_append, ← deployment_await, atEnd, arrived]

/-- The report shows what was started once everything has happened at the end. -/
theorem dispatches_atEnd (settings : Settings) (scenario : Scenario) :
    ∃ s, (atEnd settings scenario).settle.scene? 0 = some s
      ∧ (run settings scenario).dispatches = s.controller.journal.dispatched.toList := by
  obtain ⟨_, s, _, _, _, hperformed, _⟩ := exists_performed settings scenario
  have hmet := hperformed.met
  rw [follow_atEnd] at hmet
  obtain ⟨c, hc, halive, hstill⟩ := controllers_atEnd settings scenario
  obtain ⟨s', hs', hsame⟩ := Deployment.dispatched_asked hc halive hstill hmet
  refine ⟨s', hs', ?_⟩
  rw [hperformed.dispatches, hsame]

theorem now_publish (valid : Bool) (d : Deployment) : (d.publish valid).1.now = d.now := by
  have hsent : ∀ (registrations : List Registration) (d' : Deployment), (registrations.foldl
      (fun d r => d.modify r.sink (·.send (.validation valid))) d').now = d'.now := by
    intro registrations
    induction registrations with
    | nil => exact fun d' => rfl
    | cons r rest ih => exact fun d' => ih _
  exact hsent _ _

theorem now_await (sim : Simulation) (target : Nat) :
    (sim.await target).deployment.now = max sim.deployment.now target := by
  unfold await
  by_cases hlt : sim.deployment.now < target
  · rw [if_pos hlt]
    exact Deployment.now_sleepUntil ..
  · rw [if_neg hlt, Nat.max_eq_left (Nat.le_of_not_lt hlt)]
    split <;> rfl

theorem now_change (sim : Simulation) (s : Scenario.Step) :
    (sim.change s).deployment.now = sim.deployment.now := by
  unfold change
  cases s.validation with
  | none => rfl
  | some valid => exact now_publish valid _

theorem now_step (sim : Simulation) (s : Scenario.Step) :
    (sim.step s).deployment.now = max sim.deployment.now (milliseconds s.atMs) := by
  rw [step, now_change, now_await]

theorem now_steps {bound : Nat} {steps : List Scenario.Step}
    (hsteps : ∀ s ∈ steps, milliseconds s.atMs ≤ bound) (hnow : sim.deployment.now ≤ bound) :
    (steps.foldl step sim).deployment.now ≤ bound := by
  induction steps generalizing sim with
  | nil => exact hnow
  | cons s rest ih =>
      obtain ⟨hfirst, hrest⟩ := List.forall_mem_cons.mp hsteps
      refine ih hrest ?_
      rw [now_step]
      exact Nat.max_le.mpr ⟨hnow, hfirst⟩

theorem now_start (settings : Settings) (signal : UInt8) :
    (start settings signal).deployment.now = 0 := rfl

theorem now_atEnd (settings : Settings) (haccepted : scenario.defect? = none) :
    (atEnd settings scenario).now = milliseconds scenario.endMs := by
  have hsteps : ∀ s ∈ scenario.steps, milliseconds s.atMs ≤ milliseconds scenario.endMs :=
    fun s hs => Nat.mul_le_mul_right _ (Scenario.atMs_le_endMs haccepted hs)
  have hstart := Nat.le_trans (Nat.le_of_eq (now_start settings scenario.initialSignal))
    (Nat.zero_le (milliseconds scenario.endMs))
  rw [atEnd, arrived, now_await]
  exact Nat.max_eq_right (now_steps hsteps hstart)

/-- To be taken to a later instant, it makes no difference to have waited for an earlier one. -/
theorem sleepUntil_await (h : sim.deployment.Timed) {t target : Nat} (hle : t ≤ target)
    (hlt : sim.deployment.now < target) :
    (sim.await t).deployment.sleepUntil target = sim.deployment.sleepUntil target := by
  unfold await
  split
  · exact Deployment.sleepUntil_cut h hle
  · split
    · rfl
    · exact Deployment.settle_sleepUntil h hlt

/-- A longer run adds to what was started. -/
theorem dispatches_lengthened (htimed : settings.Timed) {ms : Nat} (hle : scenario.runForMs ≤ ms) :
    (run settings scenario).dispatches
      <+: (run settings { scenario with runForMs := ms }).dispatches := by
  have hend : milliseconds scenario.endMs ≤ milliseconds { scenario with runForMs := ms }.endMs :=
    Nat.mul_le_mul_right _ (Nat.add_le_add_left hle _)
  obtain ⟨s, hs, hdispatches⟩ := dispatches_atEnd settings scenario
  obtain ⟨s', hs', hdispatches'⟩ := dispatches_atEnd settings { scenario with runForMs := ms }
  rw [hdispatches, hdispatches']
  have hsteps := timed_steps htimed scenario.initialSignal scenario.steps
  rcases Nat.lt_or_ge (scenario.steps.foldl step
    (start settings scenario.initialSignal)).deployment.now
    (milliseconds { scenario with runForMs := ms }.endMs) with hlater | hover
  · have hlonger : atEnd settings { scenario with runForMs := ms }
        = (atEnd settings scenario).sleepUntil
          (milliseconds { scenario with runForMs := ms }.endMs) := by
      rw [atEnd, atEnd, arrived, arrived, sleepUntil_await hsteps hend hlater, await, if_pos hlater]
    rw [hlonger] at hs'
    rcases Nat.lt_or_ge (atEnd settings scenario).now
      (milliseconds { scenario with runForMs := ms }.endMs) with hlt | hle
    · rw [← Deployment.settle_sleepUntil (timed_atEnd htimed scenario) hlt,
        Deployment.sleepUntil_eq] at hs'
      obtain ⟨s'', started, hs'', hstarts⟩ :=
        Deployment.starts_follow hs [.act (.sleep _), .settle]
      cases hs'.symm.trans hs''
      exact ⟨started, hstarts.dispatched.symm⟩
    · rw [Deployment.sleepUntil_of_le hle] at hs'
      cases hs.symm.trans hs'
      exact List.prefix_refl _
  · -- both ends have come by then, and it makes no difference which of them is waited for
    have hsame : atEnd settings { scenario with runForMs := ms } = atEnd settings scenario := by
      rw [atEnd, atEnd, arrived, arrived, await, await, if_neg (Nat.not_lt_of_le hover),
        if_neg (Nat.not_lt_of_le (Nat.le_trans hend hover))]
    rw [hsame] at hs'
    cases hs.symm.trans hs'
    exact List.prefix_refl _

/-- Everything is started in order and before the end is over. -/
theorem dispatches_sorted (settings : Settings) (haccepted : scenario.defect? = none) :
    ∃ started, (run settings scenario).dispatches = started ∧ started.Pairwise (·.1 ≤ ·.1)
      ∧ ∀ x ∈ started, x.1 ≤ milliseconds scenario.endMs := by
  obtain ⟨s, hs, hdispatches⟩ := dispatches_atEnd settings scenario
  obtain ⟨moments, _, hatEnd⟩ := atEnd_eq settings scenario
  obtain ⟨s', started, hs', hstarts⟩ :=
    Deployment.starts_follow (scene_start settings scenario.initialSignal) (moments ++ [.settle])
  rw [Deployment.follow_append, ← hatEnd, Deployment.follow_settle] at hs'
  cases hs.symm.trans hs'
  have hnow : s.now = milliseconds scenario.endMs := by
    rw [Deployment.now_of_scene? hs, Deployment.now_settle, now_atEnd settings haccepted]
  refine ⟨started, hdispatches.trans hstarts.dispatched, hstarts.sorted, fun x hx => ?_⟩
  rw [← hnow]
  exact (hstarts.between x hx).2

/-- What a simulation starts does not depend on what comes later in its scenario. -/
structure Causal (settings : Settings) (scenario : Scenario) : Prop where
  /-- Where another scenario has the same steps before an instant, the same is started before it. -/
  agrees : ∀ other : Scenario, other.defect? = none →
    other.initialSignal = scenario.initialSignal →
    ∀ t, t ≤ milliseconds scenario.endMs → t ≤ milliseconds other.endMs →
    Scenario.before t other.steps = Scenario.before t scenario.steps →
    (run settings other).dispatches.filter (·.1 < t)
      = (run settings scenario).dispatches.filter (·.1 < t)
  /-- A longer run adds to what was started. -/
  lengthened : ∀ ms, scenario.runForMs ≤ ms →
    (run settings scenario).dispatches <+: (run settings { scenario with runForMs := ms }).dispatches
  sorted : (run settings scenario).dispatches.Pairwise (·.1 ≤ ·.1)
  bounded : ∀ x ∈ (run settings scenario).dispatches, x.1 ≤ milliseconds scenario.endMs

/--
**Simulations are causal.**

Under settings whose waits take time, two accepted scenarios that agree until some instant make a
simulation start the same actions at the same times before it. Actions are listed in the order in
which they are started, none after the end, and a longer run only adds to them.
-/
theorem runs_are_causal (htimed : settings.Timed) (haccepted : scenario.defect? = none) :
    Causal settings scenario := by
  obtain ⟨started, hdispatches, hsorted, hbounded⟩ := dispatches_sorted settings haccepted
  refine ⟨fun other hother hsignal t hend hend' hsteps => ?_,
    fun ms hle => dispatches_lengthened htimed hle, hdispatches ▸ hsorted, hdispatches ▸ hbounded⟩
  obtain ⟨s, hs⟩ := exists_halted settings scenario.initialSignal
    (Scenario.before t scenario.steps) t
  rw [dispatches_before htimed haccepted hend hs]
  refine dispatches_before htimed hother hend' ?_
  rw [hsteps, hsignal]
  exact hs

/-- The network stalls, and the signal gets weak after four minutes. -/
def fading : Scenario where
  initialSignal := 4
  runForMs := 600000
  steps := [⟨0, some false, none, none, none⟩, ⟨240000, none, some 1, none, none⟩]

/-- The same, but for a call after four minutes. -/
def called : Scenario :=
  { fading with steps := [⟨0, some false, none, none, none⟩, ⟨240000, none, none, some true, none⟩] }

theorem timed_standard : Settings.standard.Timed := by
  intro p hp
  have hstandard : Settings.standard.toPolicy = .ok .standard := rfl
  cases hstandard.symm.trans hp
  exact Policy.timed_standard

theorem runs_are_causal_fading : Settings.standard.Timed ∧ fading.defect? = none
    ∧ Causal .standard fading
    ∧ (run .standard called).dispatches.filter (·.1 < milliseconds 240000)
      = (run .standard fading).dispatches.filter (·.1 < milliseconds 240000) := by
  have hcausal : Causal .standard fading := runs_are_causal timed_standard rfl
  have hbefore : milliseconds 240000 ≤ milliseconds fading.endMs := by decide
  exact ⟨timed_standard, rfl, hcausal, hcausal.agrees called rfl rfl _ hbefore hbefore rfl⟩

end Simulation

end StallRecovery
