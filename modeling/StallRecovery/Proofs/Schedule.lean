import StallRecovery.Proofs.Escalation
import StallRecovery.Proofs.Ghosts
import StallRecovery.Proofs.Refinement

/-!
# The schedule of an uninterrupted stall

A stall that nothing interrupts has its dispatches written down in advance: the steps left in, in
order and with the last of them repeated, each one delay of the step before it after that. The first
falls on the report that begins the stall.

`OnSchedule` says that a controller has kept to this so far: it stands on the rung of its last
dispatch, and its re-check is armed for the instant of the next. Time does not pass over a re-check
that is due, so the clock never gets past that instant before the dispatch is made. Hence a report
finds the clock before it, and changes nothing, or exactly at it, and does what the re-check would
have done. This is why reports can come in any number and at any time.
-/

namespace StallRecovery

namespace Policy

/-- The instant of the dispatch that follows `k` others, in a stall that begins at `start`: one
delay of each step dispatched before it after that. -/
def dueAt (p : Policy) (start : Nat) : Nat → Nat
  | 0 => start
  | k + 1 => p.dueAt start k + p.delayFor (p.rung (k + 1))

/-- The first `n` dispatches of a stall that begins at `start`. -/
def schedule (p : Policy) (start n : Nat) : List (Nat × Action) :=
  (List.range n).map fun k => (p.dueAt start k, p.rung (k + 1))

theorem dueAt_zero (p : Policy) (start : Nat) : p.dueAt start 0 = start := rfl

theorem dueAt_succ (p : Policy) (start k : Nat) :
    p.dueAt start (k + 1) = p.dueAt start k + p.delayFor (p.rung (k + 1)) := rfl

theorem dueAt_mono (p : Policy) (start : Nat) {k n : Nat} (hle : k ≤ n) :
    p.dueAt start k ≤ p.dueAt start n := by
  induction hle with
  | refl => exact Nat.le_refl _
  | step hle ih =>
      rw [dueAt_succ]
      omega

theorem schedule_succ (p : Policy) (start n : Nat) :
    p.schedule start (n + 1) = p.schedule start n ++ [(p.dueAt start n, p.rung (n + 1))] := by
  simp [schedule, List.range_succ]

theorem rung_ne_baseline {p : Policy} (hactive : p.isActive = true) {n : Nat} (hn : 0 < n) :
    p.rung n ≠ .baseline := by
  obtain ⟨k, rfl⟩ : ∃ k, n = k + 1 := ⟨n - 1, by omega⟩
  exact (mem_eligible.mp (rung_mem (isActive_iff.mp hactive).2 k)).1

end Policy

/-- The signal is strong enough for a policy, and no call is on. -/
structure Readings.Clear (p : Policy) (readings : Readings) : Prop where
  signal : ∃ level, readings.signal = .ok level ∧ p.threshold ≤ level
  call : readings.call = .ok .idle

/-- A machine that has made `n` dispatches of a stall and waits for the next one. -/
structure Machine.Climbing (p : Policy) (start n : Nat) (m : Machine) : Prop where
  loaded : m.policy = some p
  stalled : m.state.validated = false
  stands : m.state.action = p.rung n
  watched : m.state.deadline = some (p.dueAt start n)

section

variable {p : Policy} {readings : Readings} {start now n : Nat} {m : Machine}

/-! ## Machines on schedule -/

theorem proceed_of_clear (h : readings.Clear p) (firstStep : Bool) :
    (p.consult readings firstStep).verdict = .proceed := by
  obtain ⟨level, hsignal, hlevel⟩ := h.signal
  have hstrong : ¬ level < p.threshold := UInt8.not_lt.mpr hlevel
  unfold Policy.consult
  simp only [hsignal]
  rw [if_neg hstrong]
  split
  · rfl
  · rw [h.call]
    rfl

/-- A decision that falls on the instant of the next dispatch makes it. -/
theorem climbing_of_decision {trigger : Trigger} {s s' : State} {out : Outcome}
    (hclear : readings.Clear p) (hvalid : s.validated = false) (hstands : s.action = p.rung n)
    (hnow : now = p.dueAt start n)
    (hdue : s.action = .baseline ∨ trigger = .recheck ∨ s.stepElapsed p now = true)
    (hdec : Decision p trigger now readings s s' out) :
    Machine.Climbing p start (n + 1) ⟨some p, s'⟩ ∧ out.dispatch = some (p.rung (n + 1)) := by
  have hproceed : (s.consulted p readings).verdict = .proceed := proceed_of_clear hclear _
  cases hdec with
  | quiet level hweak hidle => simp [hproceed] at hweak
  | ended level hweak hbusy => simp [hproceed] at hweak
  | held reason hhold => simp [hproceed, Verdict.hold?] at hhold
  | waited _ hstep hreport hearly =>
      subst hreport
      rcases hdue with hbase | hrecheck | helapsed
      · exact absurd hbase hstep
      · cases hrecheck
      · rw [hearly] at helapsed
        exact absurd helapsed Bool.false_ne_true
  | escalated _ _ =>
      have htarget : p.target s.action = p.rung (n + 1) := by rw [hstands, p.target_rung]
      refine ⟨⟨rfl, hvalid, htarget, ?_⟩, congrArg some htarget⟩
      simp only [htarget]
      rw [Policy.dueAt_succ, hnow]

/-- A report before the next dispatch is due makes none. -/
theorem climbing_of_early {s' : State} {out : Outcome} (hactive : p.isActive = true)
    (hclear : readings.Clear p) (h : m.Climbing p start n) (hn : 0 < n)
    (hearly : now < p.dueAt start n)
    (hdec : Decision p .report now readings { m.state with validated := false } s' out) :
    Machine.Climbing p start n ⟨some p, s'⟩ ∧ out.dispatch = none := by
  have hproceed : (State.consulted p readings { m.state with validated := false }).verdict
      = .proceed := proceed_of_clear hclear _
  cases hdec with
  | quiet level hweak hidle => simp [hproceed] at hweak
  | ended level hweak hbusy => simp [hproceed] at hweak
  | held reason hhold => simp [hproceed, Verdict.hold?] at hhold
  | waited _ _ _ _ => exact ⟨⟨rfl, rfl, h.stands, h.watched⟩, rfl⟩
  | escalated _ hdue =>
      rcases hdue with hbase | hrecheck | helapsed
      · have hne := Policy.rung_ne_baseline hactive hn
        rw [← h.stands] at hne
        exact absurd hbase hne
      · cases hrecheck
      · have hle : p.dueAt start n ≤ now := by simpa [State.stepElapsed, h.watched] using helapsed
        omega

/-- What a report does to a machine on schedule. -/
theorem Machine.Climbing.report (h : m.Climbing p start n) (hactive : p.isActive = true)
    (hclear : readings.Clear p) (hn : 0 < n) (hle : now ≤ p.dueAt start n) :
    (now < p.dueAt start n ∧ (m.onValidation false now readings).1.Climbing p start n
        ∧ (m.onValidation false now readings).2.dispatch = none)
      ∨ now = p.dueAt start n ∧ (m.onValidation false now readings).1.Climbing p start (n + 1)
        ∧ (m.onValidation false now readings).2.dispatch = some (p.rung (n + 1)) := by
  obtain ⟨s', out, hreport, hdec⟩ := onReport_of_active _ readings h.loaded hactive
  rw [hreport]
  rcases Nat.lt_or_eq_of_le hle with hlt | heq
  · exact .inl ⟨hlt, climbing_of_early hactive hclear h hn hlt hdec⟩
  · have helapsed : State.stepElapsed p now { m.state with validated := false } = true := by
      simp [State.stepElapsed, h.watched, heq]
    exact .inr ⟨heq, climbing_of_decision (s := { m.state with validated := false }) hclear rfl
      h.stands heq (.inr (.inr helapsed)) hdec⟩

/-- What a re-check does to a machine on schedule. -/
theorem Machine.Climbing.recheck (h : m.Climbing p start n) (hactive : p.isActive = true)
    (hclear : readings.Clear p) (hnow : now = p.dueAt start n) :
    (m.onRecheck now readings).1.Climbing p start (n + 1)
      ∧ (m.onRecheck now readings).2.dispatch = some (p.rung (n + 1)) := by
  have hdue : m.state.deadline.any (· ≤ now) = true := by simp [h.watched, hnow]
  obtain ⟨s', out, hlook, hdec⟩ := onRecheck_of_active readings hdue h.stalled h.loaded hactive
  rw [hlook]
  exact climbing_of_decision (s := { m.state with deadline := none }) hclear h.stalled h.stands
    hnow (.inr (.inl rfl)) hdec

end

/-! ## Controllers on schedule -/

/-- What does not interrupt a stall: anything but a clock that is set, guards that no longer let
recovery pass, and a turn on a valid report or on a new policy. -/
def Occurrence.Undisturbing (p : Policy) : Occurrence → Prop
  | .moved _ => False
  | .tuned readings => readings.Clear p
  | .turned t =>
    t.work ≠ .command (.validation true) ∧ ∀ q, t.work ≠ .command (.reload (.ok q))
  | _ => True

/-- A controller that had made some dispatches before a stall, and has made the first `n` of the
stall, each at its instant. -/
structure Scene.OnSchedule (p : Policy) (start : Nat) (made : List (Nat × Action)) (n : Nat)
    (s : Scene) : Prop where
  clear : s.readings.Clear p
  begun : 0 < n
  climbing : s.controller.machine.Climbing p start n
  dispatched : s.controller.journal.dispatched.toList = made ++ p.schedule start n
  reached : ∀ k, k < n → p.dueAt start k ≤ s.now
  due : s.now ≤ p.dueAt start n

section

variable {p : Policy} {start n : Nat} {made : List (Nat × Action)} {s s' : Scene} {t : Turn}

theorem dispatched_of_dispatch {m : Machine} {j : Journal} {a : Action}
    (ha : (m.take t).2.dispatch = some a) :
    (j.after t m).dispatched = j.dispatched.push (t.setting.now, a) := by
  have hsnapshot : t.work ≠ .command .snapshot := by
    intro hwork
    have hnone : t.stimulus? = none := by simp [Turn.stimulus?, hwork, Work.input?]
    simp [Machine.take, hnone] at ha
  unfold Journal.after
  split
  · rename_i hwork
    exact absurd hwork hsnapshot
  · simp only [Journal.add, ha]

/-- A turn that dispatches nothing and leaves the machine waiting keeps to the schedule. -/
theorem Scene.OnSchedule.wait (h : s.OnSchedule p start made n) (ho : s.Occurs (.turned t) s')
    (hclimbing : (s.controller.machine.take t).1.Climbing p start n)
    (hnone : (s.controller.machine.take t).2.dispatch = none) : s'.OnSchedule p start made n := by
  obtain ⟨_, hnow, hreadings⟩ := ho.setting_of_turned
  obtain ⟨hmachine, hjournal⟩ := ho.replay_of_turned
  refine ⟨?_, h.begun, ?_, ?_, ?_, ?_⟩
  · rw [hreadings]
    exact h.clear
  · rw [hmachine]
    exact hclimbing
  · rw [hjournal, dispatched_after hnone]
    exact h.dispatched
  · rw [hnow]
    exact h.reached
  · rw [hnow]
    exact h.due

/-- A turn that makes the next dispatch at its instant keeps to the schedule. -/
theorem onSchedule_of_dispatch (ho : s.Occurs (.turned t) s') (hclear : s.readings.Clear p)
    (hclimbing : (s.controller.machine.take t).1.Climbing p start (n + 1))
    (hdispatch : (s.controller.machine.take t).2.dispatch = some (p.rung (n + 1)))
    (hmade : s.controller.journal.dispatched.toList = made ++ p.schedule start n)
    (hnow : s.now = p.dueAt start n) : s'.OnSchedule p start made (n + 1) := by
  obtain ⟨hfound, hnow', hreadings⟩ := ho.setting_of_turned
  obtain ⟨hmachine, hjournal⟩ := ho.replay_of_turned
  have hinstant : t.setting.now = p.dueAt start n := by
    rw [hfound]
    exact hnow
  refine ⟨?_, Nat.succ_pos n, ?_, ?_, ?_, ?_⟩
  · rw [hreadings]
    exact hclear
  · rw [hmachine]
    exact hclimbing
  · rw [hjournal, dispatched_of_dispatch hdispatch, Array.toList_push, hmade, Policy.schedule_succ,
      hinstant, List.append_assoc]
  · intro k hk
    rw [hnow', hnow]
    exact p.dueAt_mono start (Nat.le_of_lt_succ hk)
  · rw [hnow', hnow]
    exact p.dueAt_mono start (Nat.le_succ n)

/-- A turn on a report, on a schedule or at the beginning of one. -/
theorem Scene.OnSchedule.report (h : s.OnSchedule p start made n) (hactive : p.isActive = true)
    (ho : s.Occurs (.turned t) s') (ht : t.work = .command (.validation false)) :
    ∃ n', s'.OnSchedule p start made n' := by
  obtain ⟨hfound, _⟩ := ho.setting_of_turned
  have htake : s.controller.machine.take t
      = s.controller.machine.onValidation false s.now s.readings := by
    rw [take_eq_step (stimulus_of_command ht), hfound]
    rfl
  rcases h.climbing.report hactive h.clear h.begun h.due with
    ⟨_, hclimbing, hnone⟩ | ⟨hnow, hclimbing, hdispatch⟩
  · rw [← htake] at hclimbing hnone
    exact ⟨n, h.wait ho hclimbing hnone⟩
  · rw [← htake] at hclimbing hdispatch
    exact ⟨n + 1, onSchedule_of_dispatch ho h.clear hclimbing hdispatch h.dispatched hnow⟩

/-- A turn on a re-check, which is only taken once that is due. -/
theorem Scene.OnSchedule.recheck (h : s.OnSchedule p start made n) (hactive : p.isActive = true)
    (ho : s.Occurs (.turned t) s') (ht : t.work = .recheck) :
    ∃ n', s'.OnSchedule p start made n' := by
  obtain ⟨hfound, _⟩ := ho.setting_of_turned
  have hnow : s.now = p.dueAt start n := by
    obtain ⟨_, d, hd, hdue⟩ := ho.due_of_recheck ht
    cases hd.symm.trans h.climbing.watched
    exact Nat.le_antisymm h.due hdue
  have hstimulus : t.stimulus? = some ⟨.recheck, s.now, s.readings⟩ := by
    simp [Turn.stimulus?, ht, Work.input?, hfound, Scene.setting]
  have htake : s.controller.machine.take t = s.controller.machine.onRecheck s.now s.readings := by
    rw [take_eq_step hstimulus]
    rfl
  obtain ⟨hclimbing, hdispatch⟩ := h.climbing.recheck hactive h.clear hnow
  rw [← htake] at hclimbing hdispatch
  exact ⟨n + 1, onSchedule_of_dispatch ho h.clear hclimbing hdispatch h.dispatched hnow⟩

/-- What is neither a report nor a re-check nor a new policy leaves a machine as it is. -/
theorem take_of_idle (hrecheck : t.work ≠ .recheck)
    (hreport : ∀ valid, t.work ≠ .command (.validation valid))
    (hreload : ∀ q, t.work ≠ .command (.reload (.ok q))) (m : Machine) :
    (m.take t).1 = m ∧ (m.take t).2.dispatch = none := by
  obtain ⟨work, setting⟩ := t
  cases work with
  | recheck => exact absurd rfl hrecheck
  | refusal fault => exact ⟨rfl, rfl⟩
  | command command =>
      cases command with
      | validation valid => exact absurd rfl (hreport valid)
      | snapshot => exact ⟨rfl, rfl⟩
      | shutdown => exact ⟨rfl, rfl⟩
      | reload policy =>
          cases policy with
          | ok q => exact absurd rfl (hreload q)
          | error fault => exact ⟨rfl, rfl⟩
      | finished action result =>
          cases result with
          | ok _ => exact ⟨rfl, rfl⟩
          | error fault => exact ⟨rfl, rfl⟩

/-- A turn that interrupts nothing keeps to the schedule. -/
theorem Scene.OnSchedule.turned (h : s.OnSchedule p start made n) (hactive : p.isActive = true)
    (ho : s.Occurs (.turned t) s') (hundisturbing : Occurrence.Undisturbing p (.turned t)) :
    ∃ n', s'.OnSchedule p start made n' := by
  obtain ⟨hvalid, hreload⟩ := hundisturbing
  by_cases hrecheck : t.work = .recheck
  · exact h.recheck hactive ho hrecheck
  by_cases hreport : t.work = .command (.validation false)
  · exact h.report hactive ho hreport
  have hnot : ∀ valid, t.work ≠ .command (.validation valid) := by
    intro valid
    cases valid with
    | true => exact hvalid
    | false => exact hreport
  obtain ⟨hsame, hnone⟩ := take_of_idle hrecheck hnot hreload s.controller.machine
  refine ⟨n, h.wait ho ?_ hnone⟩
  rw [hsame]
  exact h.climbing

/-- What occurs to a live controller without interrupting the stall keeps to the schedule. -/
theorem Scene.OnSchedule.occurs {o : Occurrence} (h : s.OnSchedule p start made n)
    (hactive : p.isActive = true) (hpos : ∀ a, 0 < p.delayFor a) (ho : s.Occurs o s')
    (halive : s.controller.isAlive = true) (hundisturbing : o.Undisturbing p) :
    ∃ n', s'.OnSchedule p start made n' := by
  by_cases hturn : ∃ t, o = .turned t
  · obtain ⟨t, rfl⟩ := hturn
    exact h.turned hactive ho hundisturbing
  · obtain ⟨hclear, hbegun, hclimbing, hdispatched, hreached, hdue⟩ := h
    cases ho with
    | refused halive hrefusal => exact absurd ⟨_, rfl⟩ hturn
    | handled halive hrefusal hqueue => exact absurd ⟨_, rfl⟩ hturn
    | rechecked halive hrefusal hqueue hd hdue => exact absurd ⟨_, rfl⟩ hturn
    | told command hopen =>
        rw [Controller.send_of_open command hopen]
        exact ⟨n, hclear, hbegun, hclimbing, hdispatched, hreached, hdue⟩
    | equipped collaborators => exact ⟨n, hclear, hbegun, hclimbing, hdispatched, hreached, hdue⟩
    | tuned readings' =>
        exact ⟨n, hundisturbing, hbegun, hclimbing, hdispatched, hreached, hdue⟩
    | moved hle => exact absurd hundisturbing id
    | abandoned =>
        unfold Controller.abandon
        rw [if_pos halive]
        exact ⟨n, hclear, hbegun, hclimbing, hdispatched, hreached, hdue⟩
    | waited hle hrests =>
        -- the clock moves on no further than to the next dispatch
        refine ⟨n, hclear, hbegun, hclimbing, hdispatched, ?_, ?_⟩
        · intro k hk
          exact Nat.le_trans (hreached k hk) hle
        · rcases (hrests halive).watched _ hclimbing.watched with ⟨_, hto⟩ | hspins
          · exact hto
          · exact absurd hspins (not_spins_of_timed hclimbing.loaded hpos)
    | returned halive hrunning hended =>
        exact ⟨n, hclear, hbegun, hclimbing, hdispatched, hreached, hdue⟩
    | closed hphase => exact absurd halive (by simp [Controller.isAlive, hphase])

/-- A controller that nothing interrupts keeps to the schedule for as long as it lives. -/
theorem Scene.OnSchedule.lives {life : List Occurrence} (h : s.OnSchedule p start made n)
    (hactive : p.isActive = true) (hpos : ∀ a, 0 < p.delayFor a) (hlives : s.Lives life s')
    (halive : s'.controller.isAlive = true) (hundisturbing : ∀ o ∈ life, o.Undisturbing p) :
    ∃ n', s'.OnSchedule p start made n' := by
  induction hlives generalizing n with
  | nil s => exact ⟨n, h⟩
  | cons ho rest ih =>
      obtain ⟨hfirst, hrest⟩ := List.forall_mem_cons.mp hundisturbing
      have halive' := (rest.tallies.alive.mp halive).1
      have halive'' := (ho.tallies.alive.mp halive').1
      obtain ⟨n', h'⟩ := h.occurs hactive hpos ho halive'' hfirst
      exact ih h' halive hrest

/-- A turn begins a stall: a report that the network is not valid meets a machine at the baseline,
the guards let it pass, and the policy can act and takes its time. -/
structure Stalls (p : Policy) (m : Machine) (t : Turn) : Prop where
  report : t.work = .command (.validation false)
  clear : t.setting.readings.Clear p
  loaded : m.policy = some p
  baseline : m.state.action = .baseline
  enabled : p.enabled = true
  left : ∃ a, a ≠ .baseline ∧ p.isSkipped a = false
  timed : ∀ a, 0 < p.delayFor a

theorem Stalls.active {m : Machine} (h : Stalls p m t) : p.isActive = true :=
  Policy.isActive_of_left h.enabled h.left

/-- The report that begins a stall makes the first dispatch. -/
theorem onSchedule_of_stalls (h : Stalls p s.controller.machine t) (ho : s.Occurs (.turned t) s') :
    s'.OnSchedule p t.setting.now s.controller.journal.dispatched.toList 1 := by
  obtain ⟨hfound, _⟩ := ho.setting_of_turned
  have hclear : s.readings.Clear p := by
    have hclear := h.clear
    rwa [hfound] at hclear
  have hnow : s.now = p.dueAt t.setting.now 0 := by
    rw [Policy.dueAt_zero, hfound]
    rfl
  have htake : s.controller.machine.take t
      = s.controller.machine.onValidation false s.now s.readings := by
    rw [take_eq_step (stimulus_of_command h.report), hfound]
    rfl
  obtain ⟨s'', out, hreport, hdec⟩ := onReport_of_active _ s.readings h.loaded h.active
  have hstands : s.controller.machine.state.action = p.rung 0 := by
    rw [h.baseline, Policy.rung_zero]
  obtain ⟨hclimbing, hdispatch⟩ := climbing_of_decision
    (s := { s.controller.machine.state with validated := false }) hclear rfl hstands hnow
    (.inl h.baseline) hdec
  rw [hreport] at htake
  refine onSchedule_of_dispatch ho hclear ?_ ?_ (List.append_nil _).symm hnow
  · rw [htake]
    exact hclimbing
  · rw [htake]
    exact hdispatch

end

/--
**An uninterrupted stall keeps to its schedule.**

A stall begins in the life of a controller, and nothing interrupts it: the clock is not set, the
guards go on letting recovery pass, and the controller, which is still alive, has turned to neither
a valid report nor a new policy since. Whenever everything has happened that can happen at an
instant, the actions started since are exactly those that the schedule has put no later than that
instant, each at its own. Nothing else in that life has a bearing on it, and in particular no number
of further reports that the network is not valid.
-/
theorem stall_on_schedule {d : Deployment} {i : Nat} {c : Controller}
    (hc : d.controllers[i]? = some c) (moments : List Moment) :
    (∃ life, Deployment.Lived i d (moments ++ [.settle]) life)
      ∧ ∀ life, Deployment.Lived i d (moments ++ [.settle]) life →
        ∀ (p : Policy) (before after : List Occurrence) (t : Turn) (c' : Controller),
          life = before ++ .turned t :: after →
          Stalls p (c.machine.replay c.journal (turns before)).1 t →
          (∀ o ∈ after, o.Undisturbing p) →
          (d.follow (moments ++ [.settle])).controllers[i]? = some c' → c'.isAlive = true →
          ∃ n, c'.journal.dispatched.toList
              = (c.machine.replay c.journal (turns before)).2.dispatched.toList
                ++ p.schedule t.setting.now n
            ∧ ∀ k, p.dueAt t.setting.now k ≤ (d.follow (moments ++ [.settle])).now ↔ k < n := by
  have hscene₀ := Deployment.scene?_eq_some hc
  refine ⟨Deployment.exists_lived _ hscene₀, ?_⟩
  intro life hlived p before after t c' hlife hstall hafter hc' halive
  subst hlife
  obtain ⟨s', hs', hlives⟩ := hlived.lives hscene₀
  obtain ⟨hend, hscene⟩ := Deployment.eq_of_scene? hs'
  cases hc'.symm.trans hend
  have hnow : s'.now = (d.follow (moments ++ [.settle])).now := by rw [hscene]
  obtain ⟨s₁, s₂, hbefore, ho, hrest⟩ := hlives.pick
  have hreplayed := hbefore.tallies.replayed
  rw [← hreplayed] at hstall ⊢
  obtain ⟨n, hschedule⟩ := (onSchedule_of_stalls hstall ho).lives hstall.active hstall.timed hrest
    halive hafter
  -- what has settled has made every dispatch that was due
  have hrests : s'.controller.Rests s'.readings s'.now s'.now := by
    rw [Deployment.follow_append] at hc' hscene
    have hsettled := rests_of_settled (d := d.follow moments) hc' halive
    rw [hscene]
    exact hsettled
  have hlater : s'.now < p.dueAt t.setting.now n := by
    rcases hrests.watched _ hschedule.climbing.watched with ⟨hlt, _⟩ | hspins
    · exact hlt
    · exact absurd hspins (not_spins_of_timed hschedule.climbing.loaded hstall.timed)
  refine ⟨n, hschedule.dispatched, ?_⟩
  intro k
  rw [← hnow]
  constructor
  · intro hk
    refine Decidable.byContradiction fun hnot => ?_
    have hmono := p.dueAt_mono t.setting.now (Nat.le_of_not_lt hnot)
    omega
  · exact hschedule.reached k

/-! ## A stall that is reported twice -/

namespace ReportedTwice

def calm : Readings := ⟨.ok 4, .ok .idle⟩

/-- A policy that leaves the power cycle out and never waits for long. -/
def brisk : Policy :=
  { withoutPowerCycle with
    reestablish := ⟨10, false⟩
    reboot := ⟨30, false⟩ }

/-- Actions that outlast the stall. -/
def slow : Collaborators := { actionTime := 1000 }

/-- A controller that is about to hear twice that the network is not valid. -/
def told : Controller :=
  { Controller.new (.ok brisk) 1 slow with
    queue := [.validation false, .validation false] }

def deployment : Deployment := ⟨0, .empty, calm, [told]⟩

/-- It is slept over two re-checks and finds the third one due. -/
def night : List Moment := [.act (.sleep 70)]

/-- When the dispatch that follows `n` others is due. -/
def instant (n : Nat) : Nat := brisk.dueAt 0 n

/-- The controller after the two reports and some re-checks. -/
def climbed : Nat → Controller
  | 0 =>
    let begun := { told with queue := [.validation false] }.handle calm 0 (.validation false)
    { begun with queue := [] }.handle calm 0 (.validation false)
  | n + 1 => (climbed n).feed (instant (n + 1)) (·.onRecheck (instant (n + 1)) calm)

def reportTurn : Turn := ⟨.command (.validation false), 0, calm, slow⟩

def recheckTurn (n : Nat) : Turn := ⟨.recheck, instant n, calm, slow⟩

/-- What occurs after the first report. -/
def rest : List Occurrence :=
  [.turned reportTurn, .waited (instant 1), .turned (recheckTurn 1), .waited (instant 2),
    .turned (recheckTurn 2), .waited (instant 3), .turned (recheckTurn 3)]

variable {n : Nat}

theorem climbed_looks (hn : n < 3) : (climbed n).nextDue? = some (instant (n + 1))
    ∧ (climbed n).settle calm (instant (n + 1)) = climbed (n + 1) := by
  obtain rfl | rfl | rfl : n = 0 ∨ n = 1 ∨ n = 2 := by omega
  all_goals exact ⟨rfl, rfl⟩

theorem rests_climbed (hn : n < 3) :
    (climbed n).Rests calm (instant n) (instant (n + 1)) := by
  obtain rfl | rfl | rfl : n = 0 ∨ n = 1 ∨ n = 2 := by omega
  all_goals
    refine ⟨rfl, rfl, by decide, fun d hd => ?_⟩
    cases hd
    exact .inl ⟨by decide, Nat.le_refl _⟩

theorem passTo_climbed (hn : n < 2) :
    (climbed n).passTo calm 70 (instant n)
      = (climbed (n + 1)).passTo calm 70 (instant (n + 1)) := by
  obtain ⟨hdue, hlooked⟩ := climbed_looks (n := n) (by omega)
  have hlater : instant n < instant (n + 1) ∧ instant (n + 1) < 70 := by
    obtain rfl | rfl : n = 0 ∨ n = 1 := by omega
    all_goals decide
  rw [Controller.passTo_of_next hdue hlater.1 hlater.2, hlooked]

theorem meet_sleep :
    deployment.meet (.act (.sleep 70)) = ⟨70, .empty, calm, [climbed 2]⟩ := by
  have hsleep : deployment.meet (.act (.sleep 70))
      = ⟨70, .empty, calm, [(climbed 0).passTo calm 70 (instant 0)]⟩ := rfl
  obtain ⟨hdue, _⟩ := climbed_looks (n := 2) (by decide)
  have hpassed :=
    calc (climbed 0).passTo calm 70 (instant 0)
      _ = (climbed 1).passTo calm 70 (instant 1) := passTo_climbed (by decide)
      _ = (climbed 2).passTo calm 70 (instant 2) := passTo_climbed (by decide)
      _ = climbed 2 := Controller.passTo_of_due hdue (Nat.le_refl _)
  rw [hsleep, hpassed]

theorem occurs_wait (hn : n < 3) : Scene.Occurs ⟨instant n, calm, climbed n⟩
    (.waited (instant (n + 1))) ⟨instant (n + 1), calm, climbed n⟩ :=
  .waited (brisk.dueAt_mono 0 (Nat.le_succ n)) fun _ => rests_climbed hn

theorem occurs_look (hn : n < 3) : Scene.Occurs ⟨instant (n + 1), calm, climbed n⟩
    (.turned (recheckTurn (n + 1))) ⟨instant (n + 1), calm, climbed (n + 1)⟩ := by
  obtain rfl | rfl | rfl : n = 0 ∨ n = 1 ∨ n = 2 := by omega
  all_goals exact .rechecked rfl rfl rfl rfl (Nat.le_refl _)

theorem lived : Deployment.Lived 0 deployment (night ++ [.settle])
    ([] ++ .turned reportTurn :: rest) := by
  have hslept : (deployment.meet (.act (.sleep 70))).scene? 0
      = some ⟨instant 3, calm, climbed 2⟩ := by
    rw [meet_sleep]
    rfl
  have hsettled : (deployment.meet (.act (.sleep 70))).settle.scene? 0
      = some ⟨instant 3, calm, climbed 3⟩ := by
    rw [meet_sleep]
    rfl
  have hreports : Scene.Lives ⟨0, calm, told⟩ [.turned reportTurn, .turned reportTurn]
      ⟨instant 0, calm, climbed 0⟩ :=
    .cons (.handled rfl rfl rfl) (.single (.handled rfl rfl rfl))
  have hnight : Scene.Lives ⟨0, calm, told⟩
      ([.turned reportTurn, .turned reportTurn] ++ [.waited (instant 1), .turned (recheckTurn 1),
        .waited (instant 2), .turned (recheckTurn 2), .waited (instant 3)])
      ⟨instant 3, calm, climbed 2⟩ :=
    hreports.append (.cons (occurs_wait (by decide)) (.cons (occurs_look (by decide))
      (.cons (occurs_wait (by decide)) (.cons (occurs_look (by decide))
        (.single (occurs_wait (by decide)))))))
  have hlast : Scene.Lives ⟨instant 3, calm, climbed 2⟩ [.turned (recheckTurn 3)]
      ⟨instant 3, calm, climbed 3⟩ := .single (occurs_look (by decide))
  have hlived : Deployment.Lived 0 deployment [.act (.sleep 70), .settle]
      (([.turned reportTurn, .turned reportTurn] ++ [.waited (instant 1), .turned (recheckTurn 1),
        .waited (instant 2), .turned (recheckTurn 2), .waited (instant 3)])
        ++ ([.turned (recheckTurn 3)] ++ [])) :=
    .cons rfl hslept hnight rfl (.cons hslept hsettled hlast rfl (.nil _))
  exact hlived

theorem stalls : Stalls brisk told.machine reportTurn where
  report := rfl
  clear := ⟨⟨4, rfl, by decide⟩, rfl⟩
  loaded := rfl
  baseline := rfl
  enabled := rfl
  left := ⟨.reestablishInternet, by decide, rfl⟩
  timed := by
    intro a
    cases a <;> decide

theorem undisturbing_rest : ∀ o ∈ rest, o.Undisturbing brisk := by
  intro o ho
  simp only [rest, List.mem_cons, List.not_mem_nil, or_false] at ho
  rcases ho with rfl | rfl | rfl | rfl | rfl | rfl | rfl
  all_goals first | trivial | exact ⟨nofun, nofun⟩

theorem follow_night :
    deployment.follow (night ++ [.settle]) = ⟨70, .empty, calm, [climbed 3]⟩ := by
  have hfollow : deployment.follow (night ++ [.settle])
      = (deployment.meet (.act (.sleep 70))).settle := rfl
  rw [hfollow, meet_sleep]
  rfl

end ReportedTwice

/-- The second report changes nothing, and the re-checks find the power cycle left out and the last
step to be repeated. -/
theorem stall_on_schedule_reported_twice :
    ReportedTwice.deployment.controllers[0]? = some ReportedTwice.told
      ∧ Deployment.Lived 0 ReportedTwice.deployment (ReportedTwice.night ++ [.settle])
        ([] ++ .turned ReportedTwice.reportTurn :: ReportedTwice.rest)
      ∧ Stalls ReportedTwice.brisk ReportedTwice.told.machine ReportedTwice.reportTurn
      ∧ (∀ o ∈ ReportedTwice.rest, o.Undisturbing ReportedTwice.brisk)
      ∧ ReportedTwice.deployment.follow (ReportedTwice.night ++ [.settle])
        = ⟨70, .empty, ReportedTwice.calm, [ReportedTwice.climbed 3]⟩
      ∧ ReportedTwice.brisk.schedule 0 4
        = [(0, .reestablishInternet), (10, .modemReboot), (40, .modemReboot), (70, .modemReboot)]
      ∧ ∃ n, (ReportedTwice.climbed 3).journal.dispatched.toList
          = [] ++ ReportedTwice.brisk.schedule 0 n
        ∧ ∀ k, ReportedTwice.brisk.dueAt 0 k
          ≤ (ReportedTwice.deployment.follow (ReportedTwice.night ++ [.settle])).now ↔ k < n := by
  refine ⟨rfl, ReportedTwice.lived, ReportedTwice.stalls, ReportedTwice.undisturbing_rest,
    ReportedTwice.follow_night, by decide, ?_⟩
  obtain ⟨_, hschedule⟩ :=
    stall_on_schedule (d := ReportedTwice.deployment) (i := 0) rfl ReportedTwice.night
  refine hschedule _ ReportedTwice.lived _ _ _ _ _ rfl ReportedTwice.stalls
    ReportedTwice.undisturbing_rest ?_ rfl
  rw [ReportedTwice.follow_night]
  rfl

end StallRecovery
