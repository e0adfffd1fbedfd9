import StallRecovery.Proofs.Settling

/-!
# Controllers that are alike

Actions that come back and policies that were refused reach a controller through the queue that
brings it reports, at any time, and actions keep it busy at instants of their own. None of that has
a say in what it decides. `Controller.core` is what has: the machine, the commands that matter, and
how far its life has gone, together with the dispatches and snapshots that come of it. Two
controllers are alike if they agree on that.

Whatever a controller does is impartial: it leaves alike controllers alike. Where something that
does not matter is handled, the controller is alike to itself before. Time is the one place where
controllers that are alike go different ways, since each is settled whenever one of its own actions
ends. Those instants leave it as it was, so both come to their re-check alike.
-/

namespace StallRecovery

/-- Whether a command has a say in what is decided. -/
def Command.matters : Command → Bool
  | .finished _ _ => false
  | .reload (.error _) => false
  | _ => true

namespace Controller

/-- A controller without whatever has no say in what it decides. -/
def core (c : Controller) : Controller where
  machine := c.machine
  phase := c.phase
  refusal := none
  queue := c.queue.filter (·.matters)
  running := []
  registration := c.registration
  collaborators := {}
  journal := {
    dispatched := c.journal.dispatched
    requests := c.journal.requests
    snapshots := c.journal.snapshots }

def Alike (c c' : Controller) : Prop := c.core = c'.core

namespace Alike

variable {c c' c'' : Controller}

theorem refl (c : Controller) : c.Alike c := rfl

theorem symm (h : c.Alike c') : c'.Alike c := Eq.symm h

theorem trans (h : c.Alike c') (h' : c'.Alike c'') : c.Alike c'' := Eq.trans h h'

theorem of (machine : c.machine = c'.machine) (phase : c.phase = c'.phase)
    (registration : c.registration = c'.registration)
    (queue : c.queue.filter (·.matters) = c'.queue.filter (·.matters))
    (dispatched : c.journal.dispatched = c'.journal.dispatched)
    (requests : c.journal.requests = c'.journal.requests)
    (snapshots : c.journal.snapshots = c'.journal.snapshots) : c.Alike c' := by
  unfold Alike core
  rw [machine, phase, registration, queue, dispatched, requests, snapshots]

section

variable (h : c.Alike c')
include h

theorem machine : c.machine = c'.machine := congrArg (·.machine) h

theorem phase : c.phase = c'.phase := congrArg (·.phase) h

theorem registration : c.registration = c'.registration := congrArg (·.registration) h

theorem queue : c.queue.filter (·.matters) = c'.queue.filter (·.matters) :=
  congrArg (·.queue) h

theorem dispatched : c.journal.dispatched = c'.journal.dispatched :=
  congrArg (·.journal.dispatched) h

theorem requests : c.journal.requests = c'.journal.requests :=
  congrArg (·.journal.requests) h

theorem snapshots : c.journal.snapshots = c'.journal.snapshots :=
  congrArg (·.journal.snapshots) h

theorem isAlive : c.isAlive = c'.isAlive := by rw [Controller.isAlive, h.phase]; rfl

theorem isOpen : c.isOpen = c'.isOpen := by rw [Controller.isOpen, h.phase]; rfl

end

end Alike

/-- Alike controllers are alike afterwards. -/
def Impartial (f : Controller → Controller) : Prop :=
  ∀ ⦃c c' : Controller⦄, c.Alike c' → (f c).Alike (f c')

/-! ## What a controller is told -/

theorem impartial_send (command : Command) : Impartial (·.send command) := by
  intro c c' h
  simp only [send, h.isOpen]
  split
  · refine .of h.machine h.phase h.registration ?_ h.dispatched h.requests h.snapshots
    simp only [List.filter_append, h.queue]
  · exact h

theorem send_alike {command : Command} (hmatters : command.matters = false) (c : Controller) :
    (c.send command).Alike c := by
  unfold send
  split
  · refine .of rfl rfl rfl ?_ rfl rfl rfl
    simp [hmatters]
  · exact .refl c

theorem impartial_abandon : Impartial abandon := by
  intro c c' h
  simp only [abandon, h.isAlive]
  split
  · exact .of h.machine rfl h.registration h.queue h.dispatched h.requests h.snapshots
  · exact h

/-! ## One command -/

variable (readings : Readings) (now : Nat)

include readings in
theorem impartial_feed (input : Machine → Machine × Outcome) : Impartial (·.feed now input) := by
  intro c c' h
  simp only
  rw [feed_eq readings now input c, feed_eq readings now input c']
  refine .of ?_ h.phase h.registration h.queue ?_ ?_ h.snapshots
  · simp only [h.machine]
  · simp only [Journal.add, h.machine, h.dispatched]
  · simp only [Journal.add, h.machine, h.requests]

include readings in
/-- What neither changes the machine nor dispatches anything does not matter. -/
theorem feed_alike {input : Machine → Machine × Outcome} {c : Controller}
    (hmachine : (input c.machine).1 = c.machine) (hnone : (input c.machine).2.dispatch = none) :
    (c.feed now input).Alike c := by
  rw [feed_eq readings now input c]
  refine .of hmachine rfl rfl rfl ?_ ?_ rfl
  · simp only [Journal.add, hnone]
  · simp [Journal.add, hnone]

theorem impartial_handle (command : Command) : Impartial (·.handle readings now command) := by
  intro c c' h
  cases command with
  | validation valid => exact impartial_feed readings now (·.onValidation valid now readings) h
  | reload policy =>
      cases policy with
      | ok p => exact impartial_feed readings now (·.onReload p now) h
      | error fault => exact impartial_feed readings now (·.onRefusal fault) h
  | finished action result =>
      cases result with
      | ok _ => exact h
      | error fault => exact impartial_feed readings now (·.onFailure action fault) h
  | snapshot =>
      refine .of h.machine h.phase h.registration h.queue h.dispatched h.requests ?_
      simp only [handle, h.machine, h.snapshots]
  | shutdown => exact .of h.machine rfl h.registration rfl h.dispatched h.requests h.snapshots

theorem handle_alike {command : Command} (hmatters : command.matters = false) (c : Controller) :
    (c.handle readings now command).Alike c := by
  cases command with
  | validation valid => exact absurd hmatters nofun
  | snapshot => exact absurd hmatters nofun
  | shutdown => exact absurd hmatters nofun
  | reload policy =>
      cases policy with
      | ok p => exact absurd hmatters nofun
      | error fault => exact feed_alike readings now rfl rfl
  | finished action result =>
      cases result with
      | ok _ => exact .refl c
      | error fault => exact feed_alike readings now rfl rfl

include readings in
theorem reportRefusal_alike (c : Controller) : (c.reportRefusal now).Alike c := by
  unfold reportRefusal
  split
  · exact .refl c
  · exact feed_alike (c := { c with refusal := none }) readings now rfl rfl

/-! ## A queue -/

theorem impartial_drain (commands : List Command) :
    Impartial (·.drain readings now commands) := by
  intro c c' h
  induction commands generalizing c c' with
  | nil => exact h
  | cons command rest ih =>
      have hhandled : (c.handle readings now command).Alike (c'.handle readings now command) :=
        impartial_handle readings now command h
      simp only [drain, hhandled.isAlive]
      split
      · exact ih hhandled
      · exact hhandled

theorem drain_alike {commands : List Command} (hmatters : ∀ x ∈ commands, x.matters = false)
    (c : Controller) : (c.drain readings now commands).Alike c := by
  induction commands generalizing c with
  | nil => exact .refl c
  | cons command rest ih =>
      obtain ⟨hfirst, hrest⟩ := List.forall_mem_cons.mp hmatters
      have hhandled := handle_alike readings now hfirst c
      rw [drain]
      split
      · exact (ih hrest _).trans hhandled
      · exact hhandled

/-- Only the commands that matter need to be handled. -/
theorem drain_matters (commands : List Command) {c : Controller} (halive : c.isAlive = true) :
    (c.drain readings now commands).Alike
      (c.drain readings now (commands.filter (·.matters))) := by
  induction commands generalizing c with
  | nil => exact .refl c
  | cons command rest ih =>
      cases hmatters : command.matters with
      | true =>
          rw [List.filter_cons_of_pos hmatters, drain, drain]
          split
          · rename_i hstill
            exact ih hstill
          · exact .refl _
      | false =>
          have hhandled := handle_alike readings now hmatters c
          have hstill : (c.handle readings now command).isAlive = true :=
            hhandled.isAlive.trans halive
          rw [List.filter_cons_of_neg (by simp [hmatters]), drain, if_pos hstill]
          exact (ih hstill).trans (impartial_drain readings now _ hhandled)

/-- Alike controllers are alike once they have worked off their queues. -/
theorem Alike.drained {c c' : Controller} (h : c.Alike c') (halive : c.isAlive = true) :
    ({ c with queue := [] }.drain readings now c.queue).Alike
      ({ c' with queue := [] }.drain readings now c'.queue) := by
  have hemptied : { c with queue := [] }.Alike { c' with queue := [] } :=
    .of h.machine h.phase h.registration rfl h.dispatched h.requests h.snapshots
  have halive' : c'.isAlive = true := h.isAlive ▸ halive
  have hleft := drain_matters readings now c.queue (c := { c with queue := [] }) halive
  have hright := drain_matters readings now c'.queue (c := { c' with queue := [] }) halive'
  have hboth := impartial_drain readings now (c.queue.filter (·.matters)) hemptied
  rw [← h.queue] at hright
  exact (hleft.trans hboth).trans hright.symm

/-! ## An instant -/

theorem finishThrough_alike (limit : Nat) (c : Controller) :
    (c.finishThrough readings now limit).Alike c := by
  rw [finishThrough_drain]
  have hended : ∀ x ∈ (c.running.filter (Running.hasEnded limit)).map
      (Running.result c.collaborators), x.matters = false := by
    intro x hx
    obtain ⟨r, _, rfl⟩ := List.mem_map.mp hx
    rfl
  exact drain_alike readings now hended { c with running := _ }

theorem impartial_lookThrough (limit looks : Nat) :
    Impartial (·.lookThrough readings now limit looks) := by
  intro c c' h
  induction looks generalizing c c' with
  | zero => exact h
  | succ looks ih =>
      simp only [lookThrough, h.machine]
      split
      · exact ih (impartial_feed readings now (·.onRecheck now readings) h)
      · exact h

theorem fireThrough_of_not_due {limit : Nat} {c : Controller}
    (hnot : ∀ d, c.machine.state.deadline = some d → limit < d) :
    (c.fireThrough readings now limit).Alike c := by
  unfold fireThrough
  cases hd : c.machine.state.deadline with
  | none => exact finishThrough_alike readings now limit c
  | some d =>
      have hlater : ¬ d ≤ limit := Nat.not_le_of_lt (hnot d hd)
      simp only [if_neg hlater]
      exact finishThrough_alike readings now limit c

/-- Of all that falls due, only the re-check matters. -/
theorem fireThrough_alike (limit : Nat) (c : Controller) :
    (c.fireThrough readings now limit).Alike
      (c.lookThrough readings now limit Action.all.length) := by
  by_cases hdue : c.machine.state.deadline.any (· ≤ limit) = true
  · obtain ⟨d, hd, hle⟩ := (Option.any_eq_true _ _).mp hdue
    have hlooked := impartial_lookThrough readings now limit Action.all.length
      (finishThrough_alike readings now d c)
    simp only [fireThrough, hd, if_pos (of_decide_eq_true hle)]
    exact (finishThrough_alike readings now limit _).trans hlooked
  · have hlater : ∀ d, c.machine.state.deadline = some d → limit < d :=
      fun d hd => Nat.lt_of_not_le fun hle => hdue (by simp [hd, hle])
    rw [lookThrough_of_not_due readings now hdue]
    exact fireThrough_of_not_due readings now hlater

theorem impartial_fireThrough (limit : Nat) : Impartial (·.fireThrough readings now limit) := by
  intro c c' h
  have hlooked := impartial_lookThrough readings now limit Action.all.length h
  exact ((fireThrough_alike readings now limit c).trans hlooked).trans
    (fireThrough_alike readings now limit c').symm

theorem impartial_settleThrough (limit : Nat) :
    Impartial (·.settleThrough readings now limit) := by
  intro c c' h
  have hphase := h.phase
  cases hphase' : c'.phase with
  | stopped =>
      rw [hphase'] at hphase
      simp only [settleThrough, hphase, hphase']
      exact h
  | abandoned =>
      rw [hphase'] at hphase
      simp only [settleThrough, hphase, hphase']
      exact .of h.machine rfl h.registration rfl h.dispatched h.requests h.snapshots
  | alive =>
      rw [hphase'] at hphase
      have hreported : (c.reportRefusal now).Alike (c'.reportRefusal now) :=
        ((reportRefusal_alike readings now c).trans h).trans
          (reportRefusal_alike readings now c').symm
      have halive : (c.reportRefusal now).isAlive = true := by
        rw [(reportRefusal_alike readings now c).isAlive, isAlive, hphase]
        rfl
      -- the two queues may differ in length, and either may hold what the other does not
      have hdrained := hreported.drained readings now halive
      simp only [settleThrough, hphase, hphase', hdrained.isAlive]
      split
      · exact impartial_fireThrough readings now limit hdrained
      · exact hdrained

theorem impartial_settle : Impartial (·.settle readings now) :=
  impartial_settleThrough readings now now

/-- At this instant there is nothing to do that matters. -/
structure Idle (now : Nat) (c : Controller) : Prop where
  kept : c.phase ≠ .abandoned
  drained : c.isAlive = true → c.queue.filter (·.matters) = []
  waits : c.isAlive = true → ∀ d, c.machine.state.deadline = some d → now < d

theorem Idle.settle {now : Nat} {c : Controller} (h : c.Idle now) :
    (c.settle readings now).Alike c := by
  unfold Controller.settle
  cases hphase : c.phase with
  | stopped =>
      simp only [settleThrough, hphase]
      exact .refl c
  | abandoned => exact absurd hphase h.kept
  | alive =>
      have halive : c.isAlive = true := by simp [isAlive, hphase]
      have hreported := reportRefusal_alike readings now c
      have hempty : (c.reportRefusal now).queue.filter (·.matters) = [] :=
        hreported.queue.trans (h.drained halive)
      have himmaterial : ∀ x ∈ (c.reportRefusal now).queue, x.matters = false := by
        simpa using List.filter_eq_nil_iff.mp hempty
      have hdrained : ({ c.reportRefusal now with queue := [] }.drain readings now
          (c.reportRefusal now).queue).Alike c := by
        have hemptied : { c.reportRefusal now with queue := [] }.Alike (c.reportRefusal now) :=
          .of rfl rfl rfl hempty.symm rfl rfl rfl
        exact ((drain_alike readings now himmaterial _).trans hemptied).trans hreported
      simp only [settleThrough, hphase, hdrained.isAlive, halive, if_true]
      exact (impartial_fireThrough readings now now hdrained).trans
        (fireThrough_of_not_due readings now (h.waits halive))

/-! ## Time that passes -/

section

variable {readings : Readings} {now target due : Nat} {c c' : Controller}

theorem isAlive_of_nextDue (hdue : c.nextDue? = some due) : c.isAlive = true := by
  unfold nextDue? at hdue
  split at hdue
  · assumption
  · exact absurd hdue nofun

theorem Rests.idle (h : c.Rests readings now now) (halive : c.isAlive = true)
    (hlater : ∀ d, c.machine.state.deadline = some d → due < d) : c.Idle due := by
  have hphase : c.phase = .alive := by simpa [isAlive] using halive
  refine ⟨by simp [hphase], fun _ => ?_, fun _ => hlater⟩
  rw [h.drained]
  rfl

/-- Time that does not reach the re-check passes without anything that matters. -/
theorem passTo_alike (hrests : c.isAlive = true → c.Rests readings now now)
    (hlater : c.isAlive = true → ∀ d, c.machine.state.deadline = some d → now < d → target ≤ d) :
    (c.passTo readings target now).Alike c := by
  fun_induction Controller.passTo readings target now c with
  | case1 now c hnone => exact .refl c
  | case2 now c due hdue h ih =>
      have halive := isAlive_of_nextDue hdue
      have hnot_yet : ∀ d, c.machine.state.deadline = some d → due < d := by
        intro d hd
        obtain ⟨due', hdue', hle, _⟩ := nextDue_of_deadline halive hd
        cases hdue.symm.trans hdue'
        have hto := hlater halive d hd (Nat.lt_of_lt_of_le h.1 hle)
        omega
      -- an action ends, and that is settled
      have hsettled := ((hrests halive).idle halive hnot_yet).settle readings
      refine (ih (rests_settle readings due) ?_).trans hsettled
      intro _ d hd hlt
      rw [hsettled.machine] at hd
      exact hlater halive d hd (Nat.lt_trans h.1 hlt)
  | case3 now c due hdue hnot => exact .refl c

/-- Nothing that matters happens on the way to a re-check. -/
theorem passTo_of_deadline {d : Nat} (hrests : c.Rests readings now now)
    (halive : c.isAlive = true) (hd : c.machine.state.deadline = some d) (hlt : now < d)
    (hto : d < target) :
    ∃ c₁ : Controller, c₁.Alike c
      ∧ c.passTo readings target now = (c₁.settle readings d).passTo readings target d := by
  fun_induction Controller.passTo readings target now c with
  | case1 now c hnone =>
      obtain ⟨due, hdue, _⟩ := nextDue_of_deadline halive hd
      exact absurd hdue (by simp [hnone])
  | case2 now c due hdue h ih =>
      have hle : due ≤ d := (hrests.lt_nextDue halive hd hlt hdue).2
      rcases Nat.lt_or_eq_of_le hle with hbefore | rfl
      · have hnot_yet : ∀ d', c.machine.state.deadline = some d' → due < d' := by
          intro d' hd'
          cases hd.symm.trans hd'
          exact hbefore
        have hsettled := (hrests.idle halive hnot_yet).settle readings
        have halive' : (c.settle readings due).isAlive = true := hsettled.isAlive.trans halive
        rw [← hsettled.machine] at hd
        obtain ⟨c₁, h₁, heq⟩ := ih (rests_settle readings due halive') halive' hd hbefore
        exact ⟨c₁, h₁.trans hsettled, heq⟩
      · exact ⟨c, .refl c, rfl⟩
  | case3 now c due hdue hnot =>
      have hnext := hrests.lt_nextDue halive hd hlt hdue
      omega

/-- Alike controllers that rest are alike after some time, whatever is under way for each. -/
theorem Alike.passTo (h : c.Alike c') (hrests : c.isAlive = true → c.Rests readings now now)
    (hrests' : c'.isAlive = true → c'.Rests readings now now) :
    (c.passTo readings target now).Alike (c'.passTo readings target now) := by
  -- each goes to its next re-check past actions of its own, so the induction is on the time left
  induction hleft : target - now using Nat.strongRecOn generalizing now c c' with
  | ind left ih =>
      by_cases hnext : c.isAlive = true
          ∧ ∃ d, c.machine.state.deadline = some d ∧ now < d ∧ d < target
      · obtain ⟨halive, d, hd, hlt, hto⟩ := hnext
        have halive' : c'.isAlive = true := h.isAlive ▸ halive
        have hd' : c'.machine.state.deadline = some d := h.machine ▸ hd
        obtain ⟨c₁, h₁, heq⟩ := passTo_of_deadline (hrests halive) halive hd hlt hto
        obtain ⟨c₁', h₁', heq'⟩ := passTo_of_deadline (hrests' halive') halive' hd' hlt hto
        have hsettled : (c₁.settle readings d).Alike (c₁'.settle readings d) :=
          impartial_settle readings d ((h₁.trans h).trans h₁'.symm)
        rw [heq, heq']
        exact ih (target - d) (by omega) hsettled (rests_settle readings d)
          (rests_settle readings d) rfl
      · have hlater : c.isAlive = true →
            ∀ d, c.machine.state.deadline = some d → now < d → target ≤ d :=
          fun halive d hd hlt => Nat.le_of_not_lt fun hto => hnext ⟨halive, d, hd, hlt, hto⟩
        have hlater' := hlater
        rw [h.isAlive, h.machine] at hlater'
        exact ((passTo_alike hrests hlater).trans h).trans (passTo_alike hrests' hlater').symm

theorem impartial_passTo (readings : Readings) (now target : Nat) :
    Impartial fun c => (c.settle readings now).passTo readings target now := by
  intro c c' h
  have hsettled := impartial_settle readings now h
  exact hsettled.passTo (rests_settle readings now) (rests_settle readings now)

end

end Controller

end StallRecovery
