import StallRecovery.Proofs.Errands
import StallRecovery.Proofs.Idling
import StallRecovery.Proofs.Inertia
import StallRecovery.Proofs.Slicing
import StallRecovery.Simulation.Replay

/-!
# Controllers show what a replay comes to

Where actions take no time and do not fail, a controller is little more than its machine: what is
under way ends at the instant at which it begins and comes back without a word. Such a controller
shows a replay if its machine is the replay's and its journal says what the replay has noted. It
goes on doing so whatever both are fed, and so through a whole instant, and through all the instants
that it is passed over.

A replay reads off the steps what a simulation reads off a radio that they have changed one after
the other, and this is the same.

A replay looks at its re-check as soon as that has come, while a controller that is slept over is
woken by what falls due next. That is the same where nothing but the re-check is ever pending, and
where every wait takes time, so that there is one look at an instant.
-/

namespace StallRecovery

/-! ## The deadline after an input -/

/-- An input leaves the re-check that was pending, or one that is not overdue. -/
theorem deadline_move {m m' : Machine} {x : Stimulus} {out : Outcome} (hmove : Move m x m' out)
    {d : Nat} (hd : m'.state.deadline = some d) : m.state.deadline = some d ∨ x.now ≤ d := by
  cases hmove with
  | refused f hin => exact .inl hd
  | failed a f hin => exact .inl hd
  | early hin hnot => exact .inl hd
  | inert trigger s hask hnone => exact .inl (hask.pending hd)
  | recovered hin => exact absurd hd nofun
  | replaced p hin =>
      simp only at hd
      split at hd
      · cases hd
        exact .inr (Nat.le_add_right _ _)
      · exact absurd hd nofun
  | decided p trigger s s' out hask hp hactive hdec =>
      cases hdec with
      | quiet level hweak hidle => exact absurd hd nofun
      | ended level hweak hbusy => exact absurd hd nofun
      | waited hproceed hstep hreport hearly => exact .inl (hask.pending hd)
      | escalated hproceed hdue =>
          cases hd
          exact .inr (Nat.le_add_right _ _)
      | held reason hhold =>
          cases hd
          refine .inr ?_
          unfold State.heldUntil
          cases hs : s.deadline.filter (x.now < ·) with
          | none => exact Nat.le_add_right _ _
          | some d' =>
              have hlater := (Option.filter_eq_some_iff.mp hs).2
              exact Nat.le_of_lt (by simpa using hlater)

/-! ## The radio of a replay -/

/-- Where each item may replace what is there, the last one that does so counts. -/
theorem foldl_getD {α β : Type} (f : β → Option α) (a : α) (items : List β) :
    items.foldl (fun a item => (f item).getD a) a = (items.filterMap f).getLast?.getD a := by
  induction items generalizing a with
  | nil => rfl
  | cons item items ih =>
      rw [List.foldl_cons, ih]
      cases hitem : f item with
      | none => rw [List.filterMap_cons_none hitem, Option.getD_none]
      | some a' =>
          rw [List.filterMap_cons_some hitem, List.getLast?_cons, Option.getD_some,
            Option.getD_some]

section

variable (steps : List Scenario.Step) (radio : Radio)

theorem level_played : (steps.foldl Radio.apply radio).level
    = (steps.filterMap (·.signal)).getLast?.getD radio.level :=
  (List.foldl_hom Radio.level fun _ _ => rfl).symm.trans (foldl_getD (·.signal) _ steps)

theorem inCall_played : (steps.foldl Radio.apply radio).inCall
    = (steps.filterMap (·.inCall)).getLast?.getD radio.inCall :=
  (List.foldl_hom Radio.inCall fun _ _ => rfl).symm.trans (foldl_getD (·.inCall) _ steps)

theorem unavailable_played : (steps.foldl Radio.apply radio).unavailable
    = (steps.filterMap (·.signalUnavailable)).getLast?.getD radio.unavailable :=
  (List.foldl_hom Radio.unavailable fun _ _ => rfl).symm.trans
    (foldl_getD (·.signalUnavailable) _ steps)

end

/-- **The radio after some steps shows the last change of each kind.** -/
theorem readings_played (signal : UInt8) (steps : List Scenario.Step) :
    (steps.foldl Radio.apply (.initial signal)).readings
      = Scenario.readingsAfter signal steps := by
  have hlast : ∀ last : Option Bool, (last.getD false = true) = (last = some true) := by
    rintro (_ | _ | _) <;> simp
  simp only [Radio.readings, Scenario.readingsAfter, level_played, inCall_played,
    unavailable_played, Radio.initial, hlast]

namespace Replay

variable {r : Replay} {now target : Nat}

/-- The radio of a simulation that has played the same steps. -/
def radio (r : Replay) : Radio := r.played.foldl Radio.apply (.initial r.initialSignal)

theorem readings_radio (r : Replay) : r.radio.readings = r.readings := readings_played _ _

theorem radio_tune (steps : List Scenario.Step) (r : Replay) :
    (r.tune steps).radio = steps.foldl Radio.apply r.radio := List.foldl_append

/-- The guards read the same as long as the radio is the same. -/
theorem readings_eq {r' : Replay} (h : r'.radio = r.radio) : r'.readings = r.readings := by
  rw [← readings_radio, h, readings_radio]

/-! ## Replays in time -/

/-- Nothing is overdue, and every wait takes time. -/
structure Timely (now : Nat) (r : Replay) : Prop where
  coherent : Coherent r.machine
  waits : r.machine.Waits
  ahead : ∀ d, r.machine.state.deadline = some d → now ≤ d

/-- A replay that has nothing due now may be a little later. -/
theorem Timely.later (h : r.Timely now) (hnot : r.machine.state.deadline ≠ some now) :
    r.Timely (now + 1) := by
  refine ⟨h.coherent, h.waits, fun d hd => Nat.lt_of_le_of_ne (h.ahead d hd) ?_⟩
  rintro rfl
  exact hnot hd

theorem machine_feed (r : Replay) (now : Nat) (input : Input) :
    (r.feed now input).machine = (r.machine.step ⟨input, now, r.readings⟩).1 := rfl

theorem Timely.tune (h : r.Timely now) (steps : List Scenario.Step) : (r.tune steps).Timely now :=
  ⟨h.coherent, h.waits, h.ahead⟩

/-- Whatever brings no policy leaves a replay in time that leaves it nothing overdue. -/
theorem Timely.feed {at' : Nat} {input : Input} (h : r.Timely now) (hinput : input.policy? = none)
    (hahead : ∀ d, (r.feed at' input).machine.state.deadline = some d → target ≤ d) :
    (r.feed at' input).Timely target where
  coherent := coherent_move h.coherent (move_step h.coherent _)
  waits := by
    have hpolicy := Machine.policy_step r.machine ⟨input, at', r.readings⟩
    rw [hinput] at hpolicy
    intro p hp
    exact h.waits p (hpolicy.symm.trans hp)
  ahead := hahead

theorem Timely.tell (h : r.Timely now) (valid : Bool) : (r.tell now valid).Timely now := by
  unfold Replay.tell
  split
  · exact h
  · have hfed : (r.feed now (.validation valid)).Timely now := by
      refine h.feed rfl fun d hd => ?_
      have hmove := move_step h.coherent ⟨.validation valid, now, r.readings⟩
      exact (deadline_move hmove hd).elim (h.ahead d) id
    exact ⟨hfed.coherent, hfed.waits, hfed.ahead⟩

theorem radio_tell (now : Nat) (r : Replay) (valid : Bool) :
    (r.tell now valid).radio = r.radio := by
  unfold tell
  split <;> rfl

/-- A replay that has been told what some steps report. -/
def told (now : Nat) (steps : List Scenario.Step) (r : Replay) : Replay :=
  (steps.filterMap (·.validation)).foldl (tell now) r

theorem told_append (now : Nat) (steps later : List Scenario.Step) (r : Replay) :
    r.told now (steps ++ later) = (r.told now steps).told now later := by
  rw [told, List.filterMap_append, List.foldl_append, told, told]

theorem Timely.told (h : r.Timely now) (steps : List Scenario.Step) :
    (r.told now steps).Timely now := by
  unfold Replay.told
  induction steps.filterMap (·.validation) generalizing r with
  | nil => exact h
  | cons valid rest ih => exact ih (h.tell valid)

theorem radio_told (now : Nat) (steps : List Scenario.Step) (r : Replay) :
    (r.told now steps).radio = r.radio := by
  unfold told
  induction steps.filterMap (·.validation) generalizing r with
  | nil => rfl
  | cons valid rest ih => rw [List.foldl_cons, ih, radio_tell]

/-- A look leaves nothing due. -/
theorem Timely.look {due : Nat} (h : r.Timely now) : (r.feed due .recheck).Timely (due + 1) := by
  refine h.feed rfl fun d hd => ?_
  have hnot := not_due_after_look h.coherent h.waits due r.readings
  have hlater : ¬ d ≤ due := by
    simpa [show (r.machine.onRecheck due r.readings).1.state.deadline = some d from hd]
      using hnot
  omega

theorem Timely.all_later {due : Nat} (h : r.Timely now) :
    (r.feed due .recheck).machine.state.deadline.all (due < ·) = true := by
  cases hnext : (r.feed due .recheck).machine.state.deadline with
  | none => rfl
  | some next =>
      have hle : due + 1 ≤ next := h.look.ahead next hnext
      simp
      omega

theorem fireUntil_of_none (hd : r.machine.state.deadline = none) (target : Nat) :
    r.fireUntil target = r := by
  rw [fireUntil]
  split
  · rfl
  · rename_i due hdue
    cases hd.symm.trans hdue

theorem fireUntil_of_later {d : Nat} (hd : r.machine.state.deadline = some d) (hle : target ≤ d) :
    r.fireUntil target = r := by
  rw [fireUntil]
  split
  · rfl
  · rename_i due hdue
    cases hd.symm.trans hdue
    exact dif_neg (Nat.not_lt_of_le hle)

theorem fireUntil_of_due {d : Nat} (h : r.Timely now) (hd : r.machine.state.deadline = some d)
    (hlt : d < target) : r.fireUntil target = (r.feed d .recheck).fireUntil target := by
  rw [fireUntil]
  split
  · rename_i hnone
    cases hd.symm.trans hnone
  · rename_i due hdue
    cases hd.symm.trans hdue
    rw [dif_pos hlt]
    exact dif_pos h.all_later

/-- Looks leave nothing overdue, and neither the radio nor what was reported changes by them. -/
theorem Timely.fireUntil (h : r.Timely now) (target : Nat) :
    (r.fireUntil target).Timely target ∧ (r.fireUntil target).radio = r.radio
      ∧ (r.fireUntil target).reported = r.reported := by
  induction r using Replay.fireUntil.induct target generalizing now with
  | case1 r hd =>
      rw [fireUntil_of_none hd]
      exact ⟨⟨h.coherent, h.waits, fun d hd' => absurd (hd.symm.trans hd') nofun⟩, rfl, rfl⟩
  | case2 r due hd hlt hlater ih =>
      rw [fireUntil_of_due h hd hlt]
      exact ih h.look
  | case3 r due hd hlt hnot => exact absurd h.all_later hnot
  | case4 r due hd hnot =>
      have hle : target ≤ due := Nat.le_of_not_lt hnot
      rw [fireUntil_of_later hd hle]
      refine ⟨⟨h.coherent, h.waits, fun d hd' => ?_⟩, rfl, rfl⟩
      cases hd.symm.trans hd'
      exact hle

theorem Timely.fireUntil_self (h : r.Timely target) : r.fireUntil target = r := by
  cases hd : r.machine.state.deadline with
  | none => exact fireUntil_of_none hd target
  | some d => exact fireUntil_of_later hd (h.ahead d hd)

/-- It does not matter where a replay stops on the way. -/
theorem Timely.fireUntil_fireUntil (h : r.Timely now) {middle : Nat} (hle : middle ≤ target) :
    (r.fireUntil middle).fireUntil target = r.fireUntil target := by
  induction r using Replay.fireUntil.induct middle generalizing now with
  | case1 r hd => rw [fireUntil_of_none hd middle]
  | case2 r due hd hlt hlater ih =>
      rw [fireUntil_of_due h hd hlt, fireUntil_of_due h hd (Nat.lt_of_lt_of_le hlt hle)]
      exact ih h.look
  | case3 r due hd hlt hnot => exact absurd h.all_later hnot
  | case4 r due hd hnot => rw [fireUntil_of_later hd (Nat.le_of_not_lt hnot)]

end Replay

/-! ## Controllers that carry everything out at once -/

namespace Controller

variable {c : Controller} {r : Replay} {now target limit : Nat}

/-- A controller that is through with its queue shows a replay. Its actions take no time and do not
fail, and somebody hears what it surfaces. -/
structure Shows (r : Replay) (c : Controller) : Prop where
  alive : c.isAlive = true
  announced : c.refusal = none
  drained : c.queue = []
  plain : c.collaborators = {}
  momentary : ∀ action ∈ c.running, action.duration = 0
  machine : c.machine = r.machine
  dispatches : c.journal.dispatched.toList = r.dispatches
  failures : c.journal.failures.toList = r.failures

namespace Shows

theorem workOff (h : c.Shows r) (readings : Readings) (now : Nat) :
    c.workOff readings now = c := by
  obtain ⟨machine, phase, refusal, queue, running, registration, k, journal⟩ := c
  cases h.announced
  cases h.drained
  rfl

theorem tune (h : c.Shows r) (steps : List Scenario.Step) : c.Shows (r.tune steps) :=
  ⟨h.alive, h.announced, h.drained, h.plain, h.momentary, h.machine, h.dispatches, h.failures⟩

/-- What both are fed, both note. -/
theorem feed (h : c.Shows r) (now : Nat) (input : Input) :
    (c.feed now (·.step ⟨input, now, r.readings⟩)).Shows (r.feed now input) := by
  have hran := running_feed r.readings now (·.step ⟨input, now, r.readings⟩) c
  have hmomentary : ∀ action ∈ (c.feed now (·.step ⟨input, now, r.readings⟩)).running,
      action.duration = 0 := by
    intro action haction
    rcases List.mem_append.mp (hran.mem_iff.mpr haction) with hbefore | hstarted
    · exact h.momentary action hbefore
    · obtain ⟨a, _, rfl⟩ := List.mem_map.mp hstarted
      rw [h.plain]
  rw [feed_eq r.readings now] at hmomentary ⊢
  refine ⟨h.alive, h.announced, h.drained, h.plain, hmomentary, ?_, ?_, ?_⟩
  · rw [Replay.machine_feed, h.machine]
  · simp only [Journal.add, Replay.feed, h.machine, ← h.dispatches]
    cases (r.machine.step ⟨input, now, r.readings⟩).2.dispatch <;> simp
  · simp only [Journal.add, Replay.feed, h.machine, h.plain, ← h.failures]
    cases (r.machine.step ⟨input, now, r.readings⟩).2.failure <;> simp

/-- What is under way comes back at once, and nobody hears of it. -/
theorem finishThrough (h : c.Shows r) (readings : Readings) (now limit : Nat) :
    c.finishThrough readings now limit = { c with running := [] } := by
  have hended : ∀ action ∈ c.running, action.hasEnded limit = true :=
    fun action haction => by simp [Running.hasEnded, h.momentary action haction]
  have hnone : c.running.filter (!Running.hasEnded limit ·) = [] :=
    List.filter_eq_nil_iff.mpr fun action haction => by simp [hended action haction]
  have hcome : ∀ (ended : List Running) (c' : Controller), c'.isAlive = true →
      c'.drain readings now (ended.map (Running.result {})) = c' := by
    intro ended c' halive
    induction ended with
    | nil => rfl
    | cons action rest ih =>
        rw [List.map_cons, action.result_accepted rfl]
        exact (if_pos halive).trans ih
  rw [finishThrough_drain, hnone, h.plain]
  exact hcome _ _ h.alive

theorem finished (h : c.Shows r) : ({ c with running := [] } : Controller).Shows r :=
  ⟨h.alive, h.announced, h.drained, h.plain, fun _ haction => absurd haction List.not_mem_nil,
    h.machine, h.dispatches, h.failures⟩

/-- A controller that is ready to look does so if its re-check is due, and once. -/
theorem lookThrough (h : c.Shows r) (hr : r.Timely now) (looks : Nat) :
    (c.lookThrough r.readings now now (looks + 1)).Shows (r.fireUntil (now + 1)) := by
  rw [lookThrough_once (h.machine ▸ hr.coherent) (h.machine ▸ hr.waits), h.machine]
  split
  · rename_i hdue
    obtain ⟨d, hd, hle⟩ := (Option.any_eq_true _ _).mp hdue
    obtain rfl : d = now := Nat.le_antisymm (by simpa using hle) (hr.ahead d hd)
    rw [Replay.fireUntil_of_due hr hd (Nat.lt_succ_self d), hr.look.fireUntil_self]
    exact h.feed d .recheck
  · rename_i hnot
    have hlater : r.Timely (now + 1) := by
      refine ⟨hr.coherent, hr.waits, fun d hd => Nat.lt_of_not_le fun hle => hnot ?_⟩
      simp [hd, hle]
    rw [hlater.fireUntil_self]
    exact h

/-- When the queue is empty everything ends that is under way, and a look is taken if one is due. -/
theorem fireThrough (h : c.Shows r) (hr : r.Timely now) :
    (c.fireThrough r.readings now now).Shows (r.fireUntil (now + 1))
      ∧ (c.fireThrough r.readings now now).running = [] := by
  have hend : ∀ c' : Controller, c'.Shows (r.fireUntil (now + 1)) →
      (c'.finishThrough r.readings now now).Shows (r.fireUntil (now + 1))
        ∧ (c'.finishThrough r.readings now now).running = [] := by
    intro c' h'
    rw [h'.finishThrough]
    exact ⟨h'.finished, rfl⟩
  unfold Controller.fireThrough
  cases hd : c.machine.state.deadline with
  | none =>
      refine hend c ?_
      rw [Replay.fireUntil_of_none (h.machine ▸ hd)]
      exact h
  | some d =>
      by_cases hle : d ≤ now
      · simp only [if_pos hle, h.finishThrough]
        exact hend _ (h.finished.lookThrough hr _)
      · simp only [if_neg hle]
        refine hend c ?_
        rw [Replay.fireUntil_of_later (h.machine ▸ hd) (Nat.lt_of_not_le hle)]
        exact h

/-- A controller that has worked off its queue goes through an instant like a replay. -/
theorem settle (halive : c.isAlive = true) (h : (c.workOff r.readings now).Shows r)
    (hr : r.Timely now) :
    (c.settle r.readings now).Shows (r.fireUntil (now + 1))
      ∧ (c.settle r.readings now).running = [] := by
  rw [Controller.settle, settleThrough_of_alive r.readings now halive, if_pos h.alive]
  exact h.fireThrough hr

/-- With nothing under way, only the re-check can fall due. -/
theorem nextDue (h : c.Shows r) (hrunning : c.running = []) :
    c.nextDue? = r.machine.state.deadline := by
  rw [← h.machine, nextDue?, if_pos h.alive, hrunning]
  cases c.machine.state.deadline with
  | none => rfl
  | some d => rfl

/-- **A controller that is passed over looks when a replay does.** -/
theorem passTo (h : c.Shows r) (hrunning : c.running = []) (hr : r.Timely (now + 1)) :
    (c.passTo r.readings target now).Shows (r.fireUntil target)
      ∧ (c.passTo r.readings target now).running = [] := by
  generalize hreadings : r.readings = readings
  fun_induction Controller.passTo readings target now c generalizing r with
  | case1 now c hnone =>
      rw [h.nextDue hrunning] at hnone
      rw [Replay.fireUntil_of_none hnone]
      exact ⟨h, hrunning⟩
  | case2 now c due hdue hlt ih =>
      rw [h.nextDue hrunning] at hdue
      have hdueNow : r.Timely due :=
        ⟨hr.coherent, hr.waits, fun d hd => Nat.le_of_eq (Option.some.inj (hdue.symm.trans hd))⟩
      obtain ⟨hnext, hradio, _⟩ := hr.fireUntil (due + 1)
      have hworked : (c.workOff r.readings due).Shows r := by
        rw [h.workOff]
        exact h
      obtain ⟨hshows, hnone⟩ := settle h.alive hworked hdueNow
      rw [hreadings] at hshows hnone
      rw [← hr.fireUntil_fireUntil (Nat.succ_le_of_lt hlt.2)]
      exact ih hshows hnone hnext ((Replay.readings_eq hradio).trans hreadings)
  | case3 now c due hdue hnot =>
      rw [h.nextDue hrunning] at hdue
      have hlater := hr.ahead due hdue
      rw [Replay.fireUntil_of_later hdue (by omega)]
      exact ⟨h, hrunning⟩

/-- **A controller that is slept over is the same.** -/
theorem sleep (halive : c.isAlive = true) (h : (c.workOff r.readings now).Shows r)
    (hr : r.Timely now) (hlt : now < target) :
    ((c.settle r.readings now).passTo r.readings target now).Shows
      (r.fireUntil target) := by
  obtain ⟨hshows, hnone⟩ := settle halive h hr
  obtain ⟨hnext, hradio, _⟩ := hr.fireUntil (now + 1)
  rw [← Replay.readings_eq hradio] at hnone hshows ⊢
  rw [← hr.fireUntil_fireUntil (Nat.succ_le_of_lt hlt)]
  exact (hshows.passTo hnone hnext).1

end Shows

end Controller

end StallRecovery
