import StallRecovery.Proofs.Clearance
import StallRecovery.Proofs.Forgetting

/-!
# Reports neither hurry nor delay

A network that is not valid may be reported as such any number of times. What the machine does then
is decided in the same place as what it does at its own re-check, but not in the same state: a
report finds the re-check still pending and has to ask whether the delay of the step has passed,
while a re-check has been forgotten by the time it is decided upon, and asks nothing.

The two meet where the re-check is due. A hold finds no re-check to wait for on either path, and the
delay has passed because the re-check says so. Before that, a report has nothing to add: it can find
the signal too weak, and otherwise everything stays where it is.
-/

namespace StallRecovery

section

variable {m : Machine} {p : Policy} {now d : Nat} {readings : Readings} {s s' : State}
  {out : Outcome}

/-- A report that says what is known is decided where the machine stands. -/
theorem onReport_of_stalled (hvalid : m.state.validated = false) (hp : m.policy = some p)
    (hactive : p.isActive = true) (now : Nat) (readings : Readings) :
    ∃ s' out, m.onValidation false now readings = (⟨some p, s'⟩, out)
      ∧ Decision p .report now readings m.state s' out := by
  have hstate : { m.state with validated := false } = m.state :=
    State.ext rfl hvalid.symm rfl rfl rfl
  obtain ⟨s', out, hreport, hdec⟩ := onReport_of_active now readings hp hactive
  rw [hstate] at hdec
  exact ⟨s', out, hreport, hdec⟩

/-! ## Once the re-check is due -/

theorem stepElapsed_of_due (hdue : s.deadline.any (· ≤ now) = true) (p : Policy) :
    s.stepElapsed p now = true := by
  obtain ⟨d, hd, hle⟩ := (Option.any_eq_true _ _).mp hdue
  simp [State.stepElapsed, hd, of_decide_eq_true hle]

/-- What a report comes to once the re-check is due, the re-check comes to. -/
theorem decision_of_report (hdue : s.deadline.any (· ≤ now) = true)
    (hdec : Decision p .report now readings s s' out) :
    Decision p .recheck now readings { s with deadline := none } s' out := by
  cases hdec with
  | quiet level hweak hidle => exact .quiet level hweak hidle
  | ended level hweak hbusy => exact .ended level hweak hbusy
  | held reason hhold =>
      obtain ⟨d, hd, hle⟩ := (Option.any_eq_true _ _).mp hdue
      have hpast : s.deadline.any (now < ·) = false := by simpa [hd] using hle
      have huntil : s.heldUntil p now = State.heldUntil p now { s with deadline := none } := by
        rw [State.heldUntil_of_none_pending hpast, State.heldUntil_of_none_pending rfl]
      rw [huntil]
      exact .held reason hhold
  | waited hproceed hstep hreport hearly =>
      rw [stepElapsed_of_due hdue] at hearly
      exact absurd hearly (by simp)
  | escalated hproceed hgo => exact .escalated hproceed (.inr (.inl rfl))

/-- A report and a re-check that is due do the same. -/
theorem onReport_eq_onRecheck (h : Coherent m) (hdue : m.state.deadline.any (· ≤ now) = true)
    (hp : m.policy = some p) (hactive : p.isActive = true) (readings : Readings) :
    m.onValidation false now readings = m.onRecheck now readings := by
  have hvalid : m.state.validated = false := h.not_valid_of_due hdue
  obtain ⟨s₁, out₁, hreport, hdec₁⟩ := onReport_of_stalled hvalid hp hactive now readings
  obtain ⟨s₂, out₂, hrecheck, hdec₂⟩ := onRecheck_of_active readings hdue hvalid hp hactive
  have hsame := decide_of_decision (decision_of_report hdue hdec₁)
  rw [decide_of_decision hdec₂] at hsame
  obtain ⟨rfl, rfl⟩ := Prod.mk.inj hsame
  rw [hreport, hrecheck]

/-! ## While the re-check is to come -/

/-- What a report can come to while a step was tried and its delay has not passed: the signal is too
weak, or nothing changes. -/
theorem early_decision (hd : s.deadline = some d) (hlt : now < d) (hstep : s.action ≠ .baseline)
    {t : Nat} (ht : s.episodeStarted = some t) (hdec : Decision p .report now readings s s' out) :
    out.dispatch = none
      ∧ (s' = s ∧ (out.events = [] ∨ ∃ reason, out.events = [.held s.action reason])
        ∨ ∃ level, readings.signal = .ok level ∧ level < p.threshold
          ∧ s' = { State.healthy with validated := s.validated }
          ∧ out.events = [.reset s.action .weakSignal (some (now - t)) (some level)]) := by
  have hopen : s.opening = [] := State.opening_of_open (by rw [ht]; rfl)
  have hepisode : { s with episodeStarted := some (s.episodeStarted.getD now) } = s :=
    State.ext rfl rfl rfl (by simp [ht]) rfl
  cases hdec with
  | quiet level hweak hidle => exact absurd (State.isIdle_iff.mp hidle).1 hstep
  | ended level hweak hbusy =>
      obtain ⟨hsignal, hlevel⟩ := weak_of_consult hweak
      exact ⟨rfl, .inr ⟨level, hsignal, hlevel, rfl, by simp [hopen, ht]⟩⟩
  | held reason hhold =>
      refine ⟨rfl, .inl ⟨State.ext rfl rfl ?_ ?_ rfl, .inr ⟨reason, by simp [hopen]⟩⟩⟩
      · rw [State.heldUntil_of_pending hd hlt, hd]
      · simp [ht]
  | waited hproceed hnot hreport hearly => exact ⟨rfl, .inl ⟨hepisode, .inl hopen⟩⟩
  | escalated hproceed hdue =>
      rcases hdue with hbase | hrecheck | helapsed
      · exact absurd hbase hstep
      · cases hrecheck
      · have hle : d ≤ now := by simpa [State.stepElapsed, hd] using helapsed
        omega

end

/-- What a report does while a step was tried and the re-check is to come: nothing is dispatched,
and the machine stays what it was, with at most a hold to report, or is reset upon a signal that is
too weak for its policy. -/
structure Unhurried (m : Machine) (now : Nat) (readings : Readings) (m' : Machine)
    (out : Outcome) : Prop where
  undispatched : out.dispatch = none
  stays_or_ends :
    m' = m ∧ (out.events = [] ∨ ∃ reason, out.events = [.held m.state.action reason])
      ∨ ∃ p level t, m.policy = some p ∧ readings.signal = .ok level ∧ level < p.threshold
        ∧ m.state.episodeStarted = some t
        ∧ m' = ⟨some p, { State.healthy with validated := false }⟩
        ∧ out.events = [.reset m.state.action .weakSignal (some (now - t)) (some level)]

theorem unhurried_of_early {m : Machine} (h : Coherent m) {now d : Nat}
    (hd : m.state.deadline = some d) (hlt : now < d) (hstep : m.state.action ≠ .baseline)
    (readings : Readings) :
    Unhurried m now readings (m.onValidation false now readings).1
      (m.onValidation false now readings).2 := by
  obtain ⟨hopen, _⟩ := h.tried hstep
  obtain ⟨t, ht⟩ := Option.isSome_iff_exists.mp hopen
  obtain ⟨_, p, hp, henabled, hne⟩ := h.watched hopen
  obtain ⟨hvalid, _⟩ := h.pending (by rw [hd]; rfl)
  obtain ⟨s', out, hreport, hdec⟩ := onReport_of_stalled hvalid hp
    (Policy.isActive_iff.mpr ⟨henabled, hne⟩) now readings
  obtain ⟨hnone, hstays | hends⟩ := early_decision hd hlt hstep ht hdec
  · obtain ⟨rfl, hevents⟩ := hstays
    rw [hreport, ← hp]
    exact ⟨hnone, .inl ⟨rfl, hevents⟩⟩
  · obtain ⟨level, hsignal, hlevel, rfl, hevents⟩ := hends
    rw [hreport, hvalid]
    exact ⟨hnone, .inr ⟨p, level, t, hp, hsignal, hlevel, ht, rfl, hevents⟩⟩

/--
**A report neither hurries nor delays what is to be done.**

Whatever a machine has been through, let it have a re-check pending. After a step was tried, a
further report that comes before the re-check dispatches nothing and moves nothing, unless it finds
the signal too weak. Once the re-check is due, a report does exactly what the re-check would do, and
so it does before anything was tried, if the policy leaves any step in.
-/
theorem report_keeps_schedule (initial : Except Fault Policy) (xs : List Stimulus) {d : Nat}
    (hd : ((Machine.start initial).run xs).1.state.deadline = some d) (now : Nat)
    (readings : Readings) :
    let m := ((Machine.start initial).run xs).1
    (m.state.action ≠ .baseline → now < d →
      Unhurried m now readings (m.onValidation false now readings).1
        (m.onValidation false now readings).2)
      ∧ (m.state.action ≠ .baseline
          ∨ (∃ p, m.policy = some p ∧ ∃ a, a ≠ .baseline ∧ p.isSkipped a = false) →
        d ≤ now → m.onValidation false now readings = m.onRecheck now readings) := by
  intro m
  have h : Coherent m := coherent_reachable ((reachable_start initial).run xs)
  refine ⟨fun hstep hlt => unhurried_of_early h hd hlt hstep readings, ?_⟩
  intro hleft hle
  have hpending : m.state.deadline.isSome = true := by rw [hd]; rfl
  have hdue : m.state.deadline.any (· ≤ now) = true := by simp [m, hd, hle]
  obtain ⟨p, hp, hactive⟩ : ∃ p, m.policy = some p ∧ p.isActive = true := by
    rcases hleft with hstep | ⟨p, hp, hleft⟩
    · obtain ⟨_, p, hp, hcan⟩ := h.watched (h.tried hstep).1
      exact ⟨p, hp, Policy.isActive_iff.mpr hcan⟩
    · -- a re-check is pending only under an enabled policy
      obtain ⟨_, q, hq, henabled⟩ := h.pending hpending
      cases hp.symm.trans hq
      exact ⟨p, hp, Policy.isActive_of_left henabled hleft⟩
  exact onReport_eq_onRecheck h hdue hp hactive readings

/-- A report while a call is on moves nothing in the first delay, and at its end is held like the
re-check. -/
theorem report_keeps_schedule_in_call :
    let m := ((Machine.start (.ok .standard)).run [reportedAt 0 4]).1
    let readings : Readings := ⟨.ok 4, .ok .active⟩
    m.state.deadline = some defaultDelay ∧ m.state.action = .reestablishInternet
      ∧ Unhurried m 5 readings (m.onValidation false 5 readings).1
        (m.onValidation false 5 readings).2
      ∧ m.onValidation false defaultDelay readings = m.onRecheck defaultDelay readings := by
  intro m readings
  have hd : m.state.deadline = some defaultDelay := by decide
  have hstep : m.state.action = .reestablishInternet := by decide
  have hne : m.state.action ≠ .baseline := by simp [hstep]
  exact ⟨hd, hstep,
    (report_keeps_schedule (.ok .standard) [reportedAt 0 4] hd 5 readings).1 hne (by decide),
    (report_keeps_schedule (.ok .standard) [reportedAt 0 4] hd defaultDelay readings).2
      (.inl hne) (Nat.le_refl _)⟩

end StallRecovery
