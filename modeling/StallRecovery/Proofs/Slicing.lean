import StallRecovery.Proofs.Alike
import StallRecovery.Proofs.Timing

/-!
# How time is sliced

Deadlines and the ends of actions are instants, and a controller that has nothing to do is not
changed by being looked at. So where waits take time it makes no difference whether the clock goes
to an instant in one stretch or in several, with everything let happen in between, or, where nothing
falls due on the way, is moved there at once.
-/

namespace StallRecovery

/-- Nobody is abandoned but by its owner. -/
theorem Scene.Proceeds.kept {s s' : Scene} (hs : s.Proceeds s')
    (hkept : s.controller.phase ≠ .abandoned) : s'.controller.phase ≠ .abandoned := by
  obtain ⟨life, hlives, hown⟩ := hs
  induction hlives with
  | nil s => exact hkept
  | @cons s₁ s₂ s₃ o life ho rest ih =>
      obtain ⟨hfirst, hrest⟩ := List.forall_mem_cons.mp (List.filter_eq_nil_iff.mp hown)
      refine ih ?_ (List.filter_eq_nil_iff.mpr hrest)
      cases ho with
      | told command hopen => exact absurd rfl hfirst
      | equipped collaborators => exact hkept
      | tuned readings' => exact hkept
      | moved hle => exact hkept
      | abandoned => exact absurd rfl hfirst
      | waited hle hrests => exact hkept
      | returned halive hrunning hended => exact hkept
      | @refused now readings c fault halive hrefusal =>
          rw [Controller.feed_eq readings now]
          exact hkept
      | @handled now readings c command rest halive hrefusal hqueue =>
          by_cases hstop : command = .shutdown
          · subst hstop
            exact nofun
          · rw [Controller.handle_eq readings now hstop]
            exact hkept
      | @rechecked now readings c d halive hrefusal hqueue hd hdue =>
          rw [Controller.feed_eq readings now]
          exact hkept
      | closed hphase => exact nofun

/-! ## A controller at rest -/

namespace Controller

variable {readings : Readings} {now target t : Nat} {c : Controller}

/-- A controller that has nothing to do at this instant. -/
structure Still (t : Nat) (c : Controller) : Prop where
  announced : c.refusal = none
  drained : c.queue = []
  ended : ∀ r ∈ c.running, r.hasEnded t = false
  waits : ∀ d, c.machine.state.deadline = some d → t < d

/-- A controller that is not about to stop, and has nothing to do if it lives. -/
structure Quiet (t : Nat) (c : Controller) : Prop where
  kept : c.phase ≠ .abandoned
  still : c.isAlive = true → c.Still t

/-- Nothing happens while nothing is due. -/
theorem fireThrough_of_nothing (readings : Readings) (now : Nat) {limit : Nat}
    (hended : ∀ r ∈ c.running, r.hasEnded limit = false)
    (hwaits : ∀ d, c.machine.state.deadline = some d → limit < d) :
    c.fireThrough readings now limit = c := by
  have hfinished : c.finishThrough readings now limit = c := by
    have hnone : c.running.filter (Running.hasEnded limit) = [] :=
      List.filter_eq_nil_iff.mpr fun r hr => by simp [hended r hr]
    have hall : c.running.filter (!Running.hasEnded limit ·) = c.running :=
      List.filter_eq_self.mpr fun r hr => by simp [hended r hr]
    rw [finishThrough_drain, hnone, hall]
    rfl
  unfold fireThrough
  cases hd : c.machine.state.deadline with
  | none => exact hfinished
  | some d =>
      have hlater : ¬ d ≤ limit := Nat.not_le_of_lt (hwaits d hd)
      simp only [if_neg hlater]
      exact hfinished

/-- A controller with an empty queue announces what was refused, whenever that is, and is through. -/
theorem settleThrough_of_nothing (halive : c.isAlive = true) (hqueue : c.queue = []) :
    ∃ journal, ∀ (readings : Readings) (now limit : Nat),
      (∀ r ∈ c.running, r.hasEnded limit = false) →
      (∀ d, c.machine.state.deadline = some d → limit < d) →
      c.settleThrough readings now limit = { c with refusal := none, journal } := by
  obtain ⟨journal, hreported⟩ := c.reportRefusal_eq
  refine ⟨journal, fun readings now limit hended hwaits => ?_⟩
  have hworked : c.workOff readings now = { c with refusal := none, journal } := by
    rw [workOff, hreported now, hqueue]
    rfl
  rw [settleThrough_of_alive readings now halive, hworked]
  exact (if_pos halive).trans
    (fireThrough_of_nothing (c := { c with refusal := none, journal }) readings now hended hwaits)

theorem Still.settle (h : c.Still t) (halive : c.isAlive = true) (readings : Readings) :
    c.settle readings t = c := by
  have hworked : c.workOff readings t = c := by
    obtain ⟨machine, phase, refusal, queue, running, registration, k, journal⟩ := c
    cases h.announced
    cases h.drained
    rfl
  rw [Controller.settle, settleThrough_of_alive readings t halive, hworked, if_pos halive]
  exact fireThrough_of_nothing readings t h.ended h.waits

/-- To look at a controller that has nothing to do changes nothing. -/
theorem Quiet.settle (h : c.Quiet t) (readings : Readings) : c.settle readings t = c := by
  cases hphase : c.phase with
  | stopped => simp only [Controller.settle, settleThrough, hphase]
  | abandoned => exact absurd hphase h.kept
  | alive =>
      have halive : c.isAlive = true := by simp [isAlive, hphase]
      exact (h.still halive).settle halive readings

theorem not_spins {m : Machine} (h : ∀ p, m.policy = some p → p.Timed) :
    ¬ m.Spins readings now := by
  intro hspins
  obtain ⟨p, hp, a, hzero⟩ := delay_zero_of_spins hspins
  have hdelay := h p hp a
  omega

/-- A live controller that rests where waits take time has nothing to do. -/
theorem Rests.still (h : c.Rests readings now now) (htimed : Scene.Timed ⟨now, readings, c⟩) :
    c.Still now where
  announced := h.announced
  drained := h.drained
  ended := h.ended
  waits d hd := by
    rcases h.watched d hd with ⟨hlt, _⟩ | hspins
    · exact hlt
    · exact absurd hspins (not_spins htimed.loaded)

theorem quiet_settle (htimed : Scene.Timed ⟨now, readings, c⟩) :
    (c.settle readings now).Quiet now := by
  have hproceeds := settleThrough_proceeds readings now (Nat.le_refl now) c
  refine ⟨?_, fun halive => (rests_settle readings now halive).still (hproceeds.timed htimed)⟩
  by_cases hphase : c.phase = .abandoned
  · simp [Controller.settle, settleThrough, hphase]
  · exact hproceeds.kept hphase

/-! ## Time cut in two -/

/-- For a controller with an empty queue nothing falls due before an instant. -/
structure Undisturbed (target : Nat) (c : Controller) : Prop where
  drained : c.queue = []
  recheck : ∀ d, c.machine.state.deadline = some d → target ≤ d
  actions : ∀ r ∈ c.running, target ≤ r.endsAt

/-- What falls due first is the re-check or the end of an action. -/
theorem nextDue_cases {due : Nat} (hdue : c.nextDue? = some due) :
    c.machine.state.deadline = some due ∨ ∃ r ∈ c.running, r.endsAt = due := by
  have halive := isAlive_of_nextDue hdue
  cases hd : c.machine.state.deadline with
  | some d =>
      obtain ⟨due', hdue', _, hwhich⟩ := nextDue_of_deadline halive hd
      cases hdue.symm.trans hdue'
      exact hwhich.imp_left fun heq => by rw [heq]
  | none =>
      rw [nextDue?, if_pos halive, hd] at hdue
      obtain ⟨r, hr, hend⟩ := Option.map_eq_some_iff.mp hdue
      exact .inr ⟨r, List.mem_of_head? hr, hend⟩

/-- No action under way ends before something falls due. -/
theorem nextDue_of_running (hsorted : c.running.Pairwise (·.endsAt ≤ ·.endsAt))
    (halive : c.isAlive = true) {r : Running} (hr : r ∈ c.running) :
    ∃ due, c.nextDue? = some due ∧ due ≤ r.endsAt := by
  cases hrunning : c.running with
  | nil => exact absurd hr (by simp [hrunning])
  | cons first rest =>
      have hfirst : first.endsAt ≤ r.endsAt := by
        rw [hrunning] at hr hsorted
        rcases List.mem_cons.mp hr with rfl | hlater
        · exact Nat.le_refl _
        · exact (List.pairwise_cons.mp hsorted).1 r hlater
      rw [nextDue?, if_pos halive, hrunning]
      cases c.machine.state.deadline with
      | none => exact ⟨first.endsAt, rfl, hfirst⟩
      | some d => exact ⟨min d first.endsAt, rfl, Nat.le_trans (Nat.min_le_right _ _) hfirst⟩

/-- There is nothing to do until something falls due. -/
theorem Still.until (h : c.Still now) (hsorted : c.running.Pairwise (·.endsAt ≤ ·.endsAt))
    (halive : c.isAlive = true) (hlater : ∀ due, c.nextDue? = some due → t < due) :
    c.Still t where
  announced := h.announced
  drained := h.drained
  ended r hr := by
    obtain ⟨due, hdue, hle⟩ := nextDue_of_running hsorted halive hr
    have hlt := hlater due hdue
    have hnow := h.ended r hr
    simp only [Running.hasEnded, Bool.or_eq_false_iff, decide_eq_false_iff_not] at hnow ⊢
    exact ⟨hnow.1, by omega⟩
  waits d hd := by
    obtain ⟨due, hdue, hle, _⟩ := nextDue_of_deadline halive hd
    exact Nat.lt_of_lt_of_le (hlater due hdue) hle

theorem Quiet.until (h : c.Quiet now) (hsorted : c.running.Pairwise (·.endsAt ≤ ·.endsAt))
    (hlater : ∀ due, c.nextDue? = some due → t < due) : c.Quiet t :=
  ⟨h.kept, fun halive => (h.still halive).until hsorted halive hlater⟩

/-- Whatever falls due for a controller that has nothing to do is still to come. -/
theorem Quiet.lt_nextDue (h : c.Quiet now) {due : Nat} (hdue : c.nextDue? = some due) :
    now < due := by
  have hstill := h.still (isAlive_of_nextDue hdue)
  rcases nextDue_cases hdue with hd | ⟨r, hr, rfl⟩
  · exact hstill.waits due hd
  · have hnot := hstill.ended r hr
    simp only [Running.hasEnded, Bool.or_eq_false_iff, decide_eq_false_iff_not] at hnot
    omega

theorem passTo_of_none (hnone : c.nextDue? = none) : c.passTo readings target now = c := by
  rw [passTo]
  simp only [hnone]

/-- A controller that is passed over may be looked at on the way. -/
theorem passTo_cut {middle : Nat} (hmiddle : middle < target) (hle : now ≤ middle)
    (htimed : Scene.Timed ⟨now, readings, c⟩) (hquiet : c.Quiet now) :
    c.passTo readings target now
      = ((c.passTo readings middle now).settle readings middle).passTo readings target middle := by
  fun_induction Controller.passTo readings middle now c with
  | case1 now c hnone =>
      have hsettled := (hquiet.until (t := middle) htimed.underway.sorted
        fun due hdue => absurd hdue (by simp [hnone])).settle readings
      rw [hsettled, passTo_of_none hnone, passTo_of_none hnone]
  | case2 now c due hdue h ih =>
      have hlater : Scene.Timed ⟨due, readings, c⟩ :=
        ⟨htimed.loaded, htimed.queued, htimed.underway.later (Nat.le_of_lt h.1)⟩
      have hproceeds := settleThrough_proceeds readings due (Nat.le_refl due) c
      rw [passTo_of_next hdue h.1 (Nat.lt_trans h.2 hmiddle)]
      exact ih (Nat.le_of_lt h.2) (hproceeds.timed hlater) (quiet_settle hlater)
  | case3 now c due hdue hnot =>
      have hlt := hquiet.lt_nextDue hdue
      rcases Nat.lt_or_eq_of_le (show middle ≤ due by omega) with hafter | rfl
      · have hsettled := (hquiet.until (t := middle) htimed.underway.sorted fun due' hdue' => by
          cases hdue.symm.trans hdue'
          exact hafter).settle readings
        rw [hsettled]
        by_cases hto : due < target
        · rw [passTo_of_next hdue hlt hto, passTo_of_next hdue hafter hto]
        · rw [passTo_of_due hdue (by omega), passTo_of_due hdue (by omega)]
      · exact passTo_of_next hdue hlt hmiddle

/-- Where nothing falls due on the way, it does not matter when the clock is moved. -/
theorem settleThrough_undisturbed (hlt : now < target) (htimed : Scene.Timed ⟨now, readings, c⟩)
    (hundisturbed : c.isAlive = true → c.Undisturbed target) :
    c.settleThrough readings target now = (c.settle readings now).passTo readings target now := by
  cases hphase : c.phase with
  | stopped =>
      have hnone : c.nextDue? = none := by simp [nextDue?, isAlive, hphase]
      simp only [settle, settleThrough, hphase]
      exact (passTo_of_none hnone).symm
  | abandoned =>
      simp only [settle, settleThrough, hphase]
      exact (passTo_of_none rfl).symm
  | alive =>
      have halive : c.isAlive = true := by simp [isAlive, hphase]
      obtain ⟨hqueue, hrecheck, hactions⟩ := hundisturbed halive
      have hended : ∀ r ∈ c.running, r.hasEnded now = false := by
        intro r hr
        have hbegun : r.startedAt ≤ now := htimed.underway.begun r hr
        have hend : target ≤ r.startedAt + r.duration := hactions r hr
        have htakes : r.duration ≠ 0 := by omega
        have hlater : ¬ r.endsAt ≤ now := Nat.not_le_of_lt (Nat.lt_of_lt_of_le hlt hend)
        simp [Running.hasEnded, htakes, hlater]
      have hwaits : ∀ d, c.machine.state.deadline = some d → now < d :=
        fun d hd => Nat.lt_of_lt_of_le hlt (hrecheck d hd)
      obtain ⟨journal, hsettled⟩ := settleThrough_of_nothing halive hqueue
      rw [settle, hsettled readings target now hended hwaits,
        hsettled readings now now hended hwaits]
      cases hdue : nextDue? { c with refusal := none, journal } with
      | none => exact (passTo_of_none hdue).symm
      | some due =>
          refine (passTo_of_due hdue ?_).symm
          rcases nextDue_cases hdue with hd | ⟨r, hr, rfl⟩
          · exact hrecheck due hd
          · exact hactions r hr

end Controller

namespace Deployment

variable {d : Deployment}

/-! ## Moments cut in two -/

/-- It makes no difference how the time `a + b` is slept through, nor whether the time `a` is where
nothing happens in it. -/
structure Sliced (d : Deployment) (a b : Nat) (after : List Moment) : Prop where
  /-- Back to back. -/
  twice : d.follow (.act (.sleep a) :: .act (.sleep b) :: after)
    = d.follow (.act (.sleep (a + b)) :: after)
  /-- With everything let happen in between. -/
  settled : d.follow (.act (.sleep a) :: .settle :: .act (.sleep b) :: .settle :: after)
    = d.follow (.act (.sleep (a + b)) :: .settle :: after)
  jumped : (∀ c ∈ d.controllers, c.isAlive = true → c.Undisturbed (d.now + a)) →
    d.follow (.act (.jump a) :: .settle :: after) = d.follow (.act (.sleep a) :: .settle :: after)

theorem sleepUntil_of_lt {target : Nat} (hlt : d.now < target) :
    d.sleepUntil target = { d with
      now := target
      controllers := d.controllers.map fun c =>
        (c.settle d.readings d.now).passTo d.readings target d.now } := by
  rw [sleepUntil, if_pos hlt]
  simp only [settle, List.map_map]
  rfl

theorem sleepUntil_of_le {target : Nat} (hle : target ≤ d.now) : d.sleepUntil target = d :=
  if_neg (Nat.not_lt_of_le hle)

theorem now_sleepUntil (d : Deployment) (target : Nat) :
    (d.sleepUntil target).now = max d.now target := by
  rcases Nat.lt_or_ge d.now target with hlt | hle
  · rw [sleepUntil_of_lt hlt, Nat.max_eq_right (Nat.le_of_lt hlt)]
  · rw [sleepUntil_of_le hle, Nat.max_eq_left hle]

/-- To let everything happen twice is to let it happen once. -/
theorem settle_settle (h : d.Timed) : d.settle.settle = d.settle := by
  have hquiet : ∀ c ∈ d.controllers,
      (c.settle d.readings d.now).settle d.readings d.now = c.settle d.readings d.now :=
    fun c hc => (Controller.quiet_settle (h.scene hc)).settle d.readings
  simp only [settle, List.map_map]
  congr 1
  exact List.map_congr_left hquiet

/-- An instant may be waited for by way of an earlier one. -/
theorem sleepUntil_cut (h : d.Timed) {middle target : Nat} (hle : middle ≤ target) :
    (d.sleepUntil middle).sleepUntil target = d.sleepUntil target := by
  by_cases hnow : d.now < middle
  · rcases Nat.lt_or_eq_of_le hle with hlt | rfl
    · rw [sleepUntil_of_lt hnow, sleepUntil_of_lt hlt, sleepUntil_of_lt (Nat.lt_trans hnow hlt)]
      simp only [List.map_map]
      congr 1
      refine List.map_congr_left fun c hc => ?_
      have hscene := h.scene hc
      have hproceeds := c.settleThrough_proceeds d.readings d.now (Nat.le_refl d.now)
      exact (Controller.passTo_cut hlt (Nat.le_of_lt hnow) (hproceeds.timed hscene)
        (Controller.quiet_settle hscene)).symm
    · rw [sleepUntil_of_lt hnow]
      exact sleepUntil_of_le (Nat.le_refl middle)
  · rw [sleepUntil_of_le (Nat.le_of_not_lt hnow)]

/-- To wait is to let everything happen first. -/
theorem settle_sleepUntil (h : d.Timed) {target : Nat} (hlt : d.now < target) :
    d.settle.sleepUntil target = d.sleepUntil target := by
  have hlt' : d.settle.now < target := hlt
  rw [sleepUntil, if_pos hlt', settle_settle h, sleepUntil, if_pos hlt]

theorem settle_sleepUntil_settle (h : d.Timed) (target : Nat) :
    (d.settle.sleepUntil target).settle = (d.sleepUntil target).settle := by
  rcases Nat.lt_or_ge d.now target with hlt | hle
  · rw [settle_sleepUntil h hlt]
  · have hle' : target ≤ d.settle.now := hle
    rw [sleepUntil_of_le hle', sleepUntil_of_le hle, settle_settle h]

/-- The clock may be moved to an instant before which nothing is due. -/
theorem jumpTo_eq_sleepUntil (h : d.Timed) {target : Nat} (hlt : d.now < target)
    (hundisturbed : ∀ c ∈ d.controllers, c.isAlive = true → c.Undisturbed target) :
    d.jumpTo target = d.sleepUntil target := by
  rw [sleepUntil_of_lt hlt, jumpTo]
  congr 1
  exact List.map_congr_left fun c hc =>
    Controller.settleThrough_undisturbed hlt (h.scene hc) (hundisturbed c hc)

/--
**Behaviour does not depend on how time is sliced.**

In every run whose policies take time, whatever its controllers have under way, to sleep for `a + b`
is to sleep for `a` and then for `b`: the same deployment is reached, with the same machines and the
same journals. To move the clock by `a` is to sleep for `a` where no queue holds anything and
nothing falls due before.
-/
theorem time_sliced {before : List Moment} (hbefore : ∀ m ∈ before, m.Timed) (a b : Nat)
    (after : List Moment) :
    Sliced (Deployment.empty.follow before) a b after := by
  have htimed := timed_follow (timed_of_nobody (d := Deployment.empty) rfl) hbefore
  generalize Deployment.empty.follow before = d at htimed
  have hslept : (d.sleepUntil (d.now + a)).sleepUntil ((d.sleepUntil (d.now + a)).now + b)
      = d.sleepUntil (d.now + (a + b)) := by
    rw [now_sleepUntil, Nat.max_eq_right (Nat.le_add_right _ _),
      sleepUntil_cut htimed (Nat.le_add_right _ b), Nat.add_assoc]
  have hfirst : (d.sleepUntil (d.now + a)).Timed := htimed.meet (m := .act (.sleep a)) trivial
  refine ⟨?_, ?_, fun hundisturbed => ?_⟩
  · exact congrArg (·.follow after) hslept
  · have hsettled := settle_sleepUntil_settle hfirst ((d.sleepUntil (d.now + a)).now + b)
    rw [hslept] at hsettled
    exact congrArg (·.follow after) hsettled
  · have hmoved : (d.jumpTo (d.now + a)).settle = (d.sleepUntil (d.now + a)).settle := by
      rcases Nat.eq_zero_or_pos a with rfl | hpos
      · have hslept : d.sleepUntil (d.now + 0) = d := sleepUntil_of_le (Nat.le_refl d.now)
        rw [hslept]
        exact settle_settle htimed
      · rw [jumpTo_eq_sleepUntil htimed (Nat.lt_add_of_pos_right hpos) hundisturbed]
    exact congrArg (·.follow after) hmoved

/-- The network stalls, and the first action outlasts the wait after it. -/
def stalling : List Moment :=
  [.act (.start (.complete .standard)), .act (.setActionTime 0 (defaultDelay + 1)),
    .act (.publish false), .settle]

theorem timed_stalling : ∀ m ∈ stalling, m.Timed := by
  have hstandard : (Moment.act (.start (.complete .standard))).Timed := by
    intro p hp
    cases hp
    exact Policy.timed_standard
  exact List.forall_mem_cons.mpr ⟨hstandard, by simp [Moment.Timed]⟩

theorem undisturbed_stalling : ∃ c, (Deployment.empty.follow stalling).controllers = [c]
    ∧ c.machine.state.deadline = some defaultDelay
    ∧ c.running = [⟨.reestablishInternet, 0, defaultDelay + 1⟩]
    ∧ c.Undisturbed ((Deployment.empty.follow stalling).now + defaultDelay) := by
  have hactions : ∀ r ∈ [(⟨.reestablishInternet, 0, defaultDelay + 1⟩ : Running)],
      0 + defaultDelay ≤ r.endsAt := by
    simp [Running.endsAt]
  have hrecheck : ∀ d, some defaultDelay = some d → 0 + defaultDelay ≤ d :=
    fun d hd => Nat.le_of_eq ((Nat.zero_add _).trans (Option.some.inj hd))
  exact ⟨_, rfl, rfl, rfl, rfl, hrecheck, hactions⟩

theorem time_sliced_stalling :
    (∀ m ∈ stalling, m.Timed)
      ∧ Sliced (Deployment.empty.follow stalling) defaultDelay (3 * defaultDelay) []
      ∧ (Deployment.empty.follow stalling).follow [.act (.jump defaultDelay), .settle]
        = (Deployment.empty.follow stalling).follow [.act (.sleep defaultDelay), .settle] := by
  have hsliced := time_sliced timed_stalling defaultDelay (3 * defaultDelay) []
  refine ⟨timed_stalling, hsliced, hsliced.jumped fun c hc _ => ?_⟩
  obtain ⟨c', hc', _, _, hundisturbed⟩ := undisturbed_stalling
  rw [hc'] at hc
  cases List.mem_singleton.mp hc
  exact hundisturbed

end Deployment

end StallRecovery
