import StallRecovery.Proofs.Recounting

/-!
# Controllers refine their machine

A controller adds a queue and a clock to its machine, and nothing else: what it reports is what one
machine reports that is fed, turn after turn, with the refusal of the initial policy, then with the
commands in the order they were queued, each in the setting of its turn, and with a re-check
whenever none waits and it is due. `Due` says what a controller is to turn to next, and it can be
read off the occurrences so far, with no controller at hand; `Refines` says that the controller
turned to nothing else, and let no time pass while there was something to turn to.
-/

namespace StallRecovery

section

variable (initial : Except Fault Policy) (start : Setting) (before : List Occurrence)

/-- The machine that has taken its part in everything so far. -/
def machineAfter : Machine := ((Machine.start initial).run (stimuli before)).1

/-- The setting that was found at first, changed by everything so far. -/
def settingAfter : Setting := before.foldl Setting.after start

/-- The refusal of the initial policy, if there is one, has been reported. -/
def Announced : Prop := ∀ fault, initial = .error fault → turns before ≠ []

/-- Nobody has abandoned the controller and nothing has stopped it. -/
def Owned : Prop := .abandoned ∉ before ∧ .shutdown ∉ handled before

/-- What there is to turn to after everything so far. -/
inductive Due : Work → Prop where
  /-- A refused initial policy comes first of all. -/
  | refusal (fault : Fault) (hinitial : initial = .error fault) (hfirst : turns before = []) :
      Due (.refusal fault)
  /-- Then comes the command that has waited longest. -/
  | command (command : Command) (rest : List Command) (hannounced : Announced initial before)
      (hnext : queued before = handled before ++ command :: rest) : Due (.command command)
  /-- A re-check that is due comes when no command waits. -/
  | recheck (d : Nat) (hannounced : Announced initial before)
      (hdrained : queued before = handled before)
      (hd : (machineAfter initial before).state.deadline = some d)
      (hdue : d ≤ (settingAfter start before).now) : Due .recheck

end

/-- A controller that started in a setting has lived this life as its machine would have it. -/
structure Refines (initial : Except Fault Policy) (start : Setting) (life : List Occurrence)
    (c : Controller) : Prop where
  /-- One machine accounts for all that is reported. -/
  reported : (c.machine, c.journal) = (Machine.start initial).replay {} (turns life)
  /-- Whatever the controller turns to is due, and found in the setting of the moment. -/
  timely : ∀ before t after, life = before ++ .turned t :: after →
    Due initial start before t.work ∧ t.setting = settingAfter start before
  /-- Time does not pass over what is due, but for a re-check that would be due for ever, which takes
  a policy that waits no time. -/
  prompt : ∀ before target after, life = before ++ .waited target :: after → Owned before →
    Announced initial before ∧ queued before = handled before
      ∧ ∀ d, (machineAfter initial before).state.deadline = some d →
        (settingAfter start before).now < d ∧ target ≤ d
          ∨ (machineAfter initial before).Spins (settingAfter start before).readings
              (settingAfter start before).now
            ∧ ∃ p, (machineAfter initial before).policy = some p ∧ ∃ a, p.delayFor a = 0
  /-- What is queued first is handled first, and nothing is lost while the queue is open. -/
  fifo : ∃ lost, queued life = handled life ++ (c.queue ++ lost) ∧ (c.isOpen = true → lost = [])

section

variable {initial : Except Fault Policy} {registration now : Nat} {k : Collaborators}
  {readings : Readings} {life : List Occurrence} {s : Scene}

theorem error_of_refusal {fault : Fault}
    (h : (Controller.new initial registration k).refusal = some fault) :
    initial = .error fault := by
  cases initial with
  | ok policy => exact absurd h nofun
  | error fault' => exact congrArg Except.error (Option.some.inj h)

theorem announced_of_refusal
    (h : Scene.Lives ⟨now, readings, .new initial registration k⟩ life s)
    (hrefusal : s.controller.refusal = none) : Announced initial life := by
  intro fault hinitial hturns
  have htally := h.tallies.refusal
  rw [if_pos hturns, hrefusal] at htally
  simp [Controller.new, hinitial] at htally

theorem machineAfter_eq (h : Scene.Lives ⟨now, readings, .new initial registration k⟩ life s) :
    s.controller.machine = machineAfter initial life := by
  have hreplayed := congrArg Prod.fst h.tallies.replayed
  exact hreplayed.trans (Machine.replay_fst _ _ _)

/-- The machine so far, with no journal to look at. -/
theorem machineAfter_replay (initial : Except Fault Policy) (life : List Occurrence) :
    machineAfter initial life = ((Machine.start initial).replay {} (turns life)).1 :=
  (Machine.replay_fst _ _ _).symm

theorem settingAfter_eq (h : Scene.Lives ⟨now, readings, .new initial registration k⟩ life s) :
    s.setting = settingAfter ⟨now, readings, k⟩ life := h.tallies.setting

/-- A controller turns to nothing but what is due. -/
theorem due_of_turned {t : Turn} {s' : Scene}
    (h : Scene.Lives ⟨now, readings, .new initial registration k⟩ life s)
    (ho : s.Occurs (.turned t) s') :
    Due initial ⟨now, readings, k⟩ life t.work
      ∧ t.setting = settingAfter ⟨now, readings, k⟩ life := by
  have hsetting := settingAfter_eq h
  have hmachine := machineAfter_eq h
  cases ho with
  | @refused now' readings' c fault halive hrefusal =>
      have htally := h.tallies.refusal
      rw [hrefusal] at htally
      refine ⟨?_, hsetting⟩
      by_cases hturns : turns life = []
      · rw [if_pos hturns] at htally
        exact .refusal fault (error_of_refusal htally.symm) hturns
      · rw [if_neg hturns] at htally
        exact absurd htally nofun
  | @handled now' readings' c command rest halive hrefusal hqueue =>
      have hfifo := h.fifo halive
      rw [hqueue] at hfifo
      exact ⟨.command command rest (announced_of_refusal h hrefusal) hfifo, hsetting⟩
  | @rechecked now' readings' c d halive hrefusal hqueue hd hdue =>
      have hfifo := h.fifo halive
      rw [hqueue, List.append_nil] at hfifo
      rw [hmachine] at hd
      have hnow : now' = (settingAfter ⟨now, readings, k⟩ life).now := congrArg Setting.now hsetting
      rw [hnow] at hdue
      exact ⟨.recheck d (announced_of_refusal h hrefusal) hfifo hd hdue, hsetting⟩

/-- Every controller lives as its machine would have it. -/
theorem refines_of_lives (h : Scene.Lives ⟨now, readings, .new initial registration k⟩ life s) :
    Refines initial ⟨now, readings, k⟩ life s.controller where
  reported := h.tallies.replayed
  timely before t after hlife := by
    subst hlife
    obtain ⟨s₁, s₂, hbefore, ho, _⟩ := h.pick
    exact due_of_turned hbefore ho
  prompt before target after hlife howned := by
    subst hlife
    obtain ⟨s₁, s₂, hbefore, ho, _⟩ := h.pick
    have halive : s₁.controller.isAlive = true := hbefore.tallies.alive.mpr ⟨rfl, howned⟩
    have hfifo := hbefore.fifo halive
    have hmachine := machineAfter_eq hbefore
    have hsetting := settingAfter_eq hbefore
    cases ho with
    | waited hle hrests =>
        have hrest := hrests halive
        rw [hrest.drained, List.append_nil] at hfifo
        refine ⟨announced_of_refusal hbefore hrest.announced, hfifo, fun d hd => ?_⟩
        rw [← hmachine] at hd ⊢
        rw [← hsetting]
        exact (hrest.watched d hd).imp_right fun hspins => ⟨hspins, delay_zero_of_spins hspins⟩
  fifo := h.tallies.fifo

end

/-! ## From the start on -/

/-- A start that succeeds adds a controller that has not lived yet. -/
theorem scene_of_start {d : Deployment} {launch : Launch} (h : (d.start launch).2 = .done) :
    ∃ initial registration, launch.policy.resolve = .ok initial
      ∧ (d.start launch).1.scene? d.controllers.length
        = some ⟨d.now, d.readings, .new initial registration launch.collaborators⟩ := by
  unfold Deployment.start at h ⊢
  split at h
  · exact absurd h nofun
  · rename_i initial hresolve
    split at h
    · exact absurd h nofun
    · rename_i hmissing
      split at h
      · exact absurd h nofun
      · rename_i hmonitor
        exact ⟨initial, _, hresolve,
          Deployment.scene?_eq_some (List.getElem?_concat_length ..)⟩

/-- Where everything has happened that can happen, a controller rests. -/
theorem rests_of_settled {d : Deployment} {i : Nat} {c : Controller}
    (hc : d.settle.controllers[i]? = some c) (halive : c.isAlive = true) :
    c.Rests d.readings d.now d.now := by
  obtain ⟨c', hc', rfl⟩ := Option.map_eq_some_iff.mp (List.getElem?_map ▸ hc)
  exact Controller.rests_settle d.readings d.now halive

/-- So it does at the end of a run in which that happened last. -/
theorem rests_of_settled_last {d : Deployment} {i : Nat} {c : Controller}
    {moments earlier : List Moment} (hc : (d.follow moments).controllers[i]? = some c)
    (halive : c.isAlive = true) (hlast : moments = earlier ++ [.settle]) :
    c.Rests (d.follow moments).readings (d.follow moments).now (d.follow moments).now := by
  rw [hlast, Deployment.follow_append] at hc ⊢
  exact rests_of_settled (d := d.follow earlier) hc halive

/--
**The controller refines its machine.**

A controller that is started lives through whatever happens to its deployment as its machine would
have it; and whenever everything has happened that can happen at an instant, it rests.
-/
theorem controller_refines_machine (d : Deployment) (launch : Launch)
    (hstart : (d.start launch).2 = .done) (moments : List Moment) :
    let d' := (d.start launch).1
    let i := d.controllers.length
    ∃ initial c life, launch.policy.resolve = .ok initial
      ∧ (d'.follow moments).controllers[i]? = some c
      ∧ Deployment.Lived i d' moments life
      ∧ Refines initial ⟨d.now, d.readings, launch.collaborators⟩ life c
      ∧ (∀ earlier, moments = earlier ++ [.settle] → c.isAlive = true →
        c.Rests (d'.follow moments).readings (d'.follow moments).now (d'.follow moments).now) := by
  intro d' i
  obtain ⟨initial, registration, hresolve, hscene⟩ := scene_of_start hstart
  obtain ⟨life, hlived⟩ := Deployment.exists_lived moments hscene
  obtain ⟨s, hs, hlives⟩ := hlived.lives hscene
  obtain ⟨hc, _⟩ := Deployment.eq_of_scene? hs
  refine ⟨initial, s.controller, life, hresolve, hc, hlived, refines_of_lives hlives, ?_⟩
  intro earlier hmoments halive
  rw [hmoments, Deployment.follow_append] at hc ⊢
  exact rests_of_settled (d := d'.follow earlier) hc halive

/-- The network stalls and recovers, and the clock is moved far past the re-check before the
controller hears of it. -/
def recoveredLate : List Moment :=
  [.act (.publish false), .settle, .act (.publish true), .act (.jump (2 * defaultDelay)), .settle]

theorem controller_refines_machine_late :
    let d := (Deployment.empty.start (.complete .standard)).1
    (Deployment.empty.start (.complete .standard)).2 = .done
      ∧ ∃ initial c life, PolicySource.standard.resolve = .ok initial
        ∧ (d.follow recoveredLate).controllers[0]? = some c
        ∧ Deployment.Lived 0 d recoveredLate life
        ∧ Refines initial ⟨0, ⟨.ok 4, .ok .idle⟩, {}⟩ life c
        ∧ (∀ earlier, recoveredLate = earlier ++ [.settle] → c.isAlive = true →
          c.Rests (d.follow recoveredLate).readings (d.follow recoveredLate).now
            (d.follow recoveredLate).now) :=
  ⟨rfl, controller_refines_machine .empty (.complete .standard) rfl recoveredLate⟩

end StallRecovery
