import StallRecovery.Machine.Run
import StallRecovery.Proofs.Decision
import StallRecovery.Proofs.Ladder

/-!
# The five fields of the state fit together

A machine remembers its step, what it was last told, a deadline, and two instants. They are written
in many places and no place writes all of them, so that they fit is a fact about whole runs:
`Coherent` says what fits, and it holds of everything a run leads to.

No clause of it is inductive alone. That an open episode is watched by a re-check needs that a step
tried is one the loaded policy leaves in, and that needs that a policy is never replaced under an
open episode, which is where the clause about a valid network comes from.

Two corners of the machine turn out to be unreachable, because a pending re-check is known to belong
to a network that is not valid, and a step tried is known to have a re-check pending.

The second half of the module says once what an input can do to a coherent machine: `Move` lists it,
and every later proof about inputs is by cases on that list.
-/

namespace StallRecovery

/-- What holds of the state and the policy between any two inputs. -/
structure Coherent (m : Machine) : Prop where
  /-- While the network is valid nothing was tried and nothing is pending. -/
  rests : m.state.validated = true →
    m.state.action = .baseline ∧ m.state.deadline = none ∧ m.state.episodeStarted = none
      ∧ m.state.lastActionAt = none
  /-- A step was tried exactly when its instant is on record. -/
  dated : m.state.action ≠ .baseline ↔ m.state.lastActionAt.isSome = true
  /-- A step tried belongs to an open episode, and the loaded policy leaves it in. -/
  tried : m.state.action ≠ .baseline →
    m.state.episodeStarted.isSome = true
      ∧ ∃ p, m.policy = some p ∧ m.state.action ∈ p.eligible
  /-- An open episode is never stranded: a re-check is pending, under a policy that can act. -/
  watched : m.state.episodeStarted.isSome = true →
    m.state.deadline.isSome = true
      ∧ ∃ p, m.policy = some p ∧ p.enabled = true ∧ p.eligible ≠ []
  /-- A re-check is pending only while the network is not valid, under an enabled policy. -/
  pending : m.state.deadline.isSome = true →
    m.state.validated = false ∧ ∃ p, m.policy = some p ∧ p.enabled = true

/-- A machine with no episode open is coherent if its deadline is in order. -/
theorem coherent_of_closed {policy : Option Policy} {v : Bool} {d : Option Nat}
    (hd : d.isSome = true → v = false ∧ ∃ p, policy = some p ∧ p.enabled = true) :
    Coherent ⟨policy, ⟨.baseline, v, d, none, none⟩⟩ where
  rests := by
    intro hv
    have hnone : d = none := by
      cases d with
      | none => rfl
      | some t => exact absurd (hd rfl).1 (by simpa using hv)
    exact ⟨rfl, hnone, rfl, rfl⟩
  dated := by simp
  tried := fun h => absurd rfl h
  watched := fun h => absurd h (by simp)
  pending := hd

/-- A machine with an open episode is coherent under a policy that can act. -/
theorem coherent_of_open {p : Policy} {a : Action} {d t : Nat} {l : Option Nat}
    (hp : p.isActive = true) (hl : a ≠ .baseline ↔ l.isSome = true)
    (ha : a ≠ .baseline → a ∈ p.eligible) :
    Coherent ⟨some p, ⟨a, false, some d, some t, l⟩⟩ where
  rests := fun h => absurd h (by simp)
  dated := hl
  tried := fun h => ⟨rfl, p, rfl, ha h⟩
  watched := fun _ => ⟨rfl, p, rfl, Policy.isActive_iff.mp hp⟩
  pending := fun _ => ⟨rfl, p, rfl, (Policy.isActive_iff.mp hp).1⟩

theorem coherent_healthy (policy : Option Policy) : Coherent ⟨policy, .healthy⟩ :=
  coherent_of_closed (by simp)

namespace Coherent

variable {m : Machine}

/-- Without an open episode nothing was tried. -/
theorem untried (h : Coherent m) (he : m.state.episodeStarted = none) :
    m.state.action = .baseline ∧ m.state.lastActionAt = none := by
  have ha : m.state.action = .baseline := by
    by_cases hb : m.state.action = .baseline
    · exact hb
    · have hopen := (h.tried hb).1
      rw [he] at hopen
      exact absurd hopen (by simp)
  refine ⟨ha, ?_⟩
  rw [← Option.not_isSome_iff_eq_none, ← h.dated]
  exact fun hne => hne ha

theorem isIdle_iff (h : Coherent m) : m.state.isIdle = true ↔ m.state.episodeStarted = none := by
  rw [State.isIdle_iff]
  exact ⟨And.right, fun he => ⟨(h.untried he).1, he⟩⟩

theorem open_of_busy (h : Coherent m) (hbusy : m.state.isIdle = false) :
    ∃ t, m.state.episodeStarted = some t := by
  rw [← Option.ne_none_iff_exists', ne_eq, ← h.isIdle_iff, hbusy]
  decide

/-- Without a policy that can act no episode is open. -/
theorem closed_of_inert (h : Coherent m) (hnone : ∀ p, m.policy = some p → p.isActive = false) :
    m.state.episodeStarted = none := by
  cases he : m.state.episodeStarted with
  | none => rfl
  | some t =>
      obtain ⟨_, p, hp, henabled, hne⟩ := h.watched (by rw [he]; rfl)
      have hactive := Policy.isActive_iff.mpr ⟨henabled, hne⟩
      rw [hnone p hp] at hactive
      exact absurd hactive (by simp)

theorem not_valid_of_due (h : Coherent m) {now : Nat}
    (hdue : m.state.deadline.any (· ≤ now) = true) : m.state.validated = false := by
  obtain ⟨d, hd, _⟩ := (Option.any_eq_true _ _).mp hdue
  exact (h.pending (by rw [hd]; rfl)).1

theorem deadline_of_tried (h : Coherent m) (ha : m.state.action ≠ .baseline) :
    ∃ d, m.state.deadline = some d :=
  Option.isSome_iff_exists.mp (h.watched (h.tried ha).1).1

end Coherent

/-! ## What an input can do -/

/-- `Asks m x trigger s`: the input makes the machine decide, and this is the state it decides in.
A re-check that has come is forgotten before the decision. -/
inductive Asks (m : Machine) (x : Stimulus) : Trigger → State → Prop where
  | report (hin : x.input = .validation false) :
      Asks m x .report { m.state with validated := false }
  | recheck (hin : x.input = .recheck) (hdue : m.state.deadline.any (· ≤ x.now) = true) :
      Asks m x .recheck { m.state with deadline := none }

/-- What is reported when an episode is closed from outside, if one is open. -/
def State.closing (reason : ResetReason) (now : Nat) (s : State) : List Event :=
  if s.isIdle then [] else [(s.reset reason none now).2]

/-- What an input can do to a coherent machine. -/
inductive Move (m : Machine) (x : Stimulus) : Machine → Outcome → Prop where
  | refused (f : Fault) (hin : x.input = .refuse f) :
      Move m x m { events := [.configRejected f.message], failure := some f }
  | failed (a : Action) (f : Fault) (hin : x.input = .fail a f) :
      Move m x m { events := [.dispatchFailed a f.message], failure := some f }
  | early (hin : x.input = .recheck) (hnot : m.state.deadline.any (· ≤ x.now) = false) :
      Move m x m {}
  /-- A decision is asked for, but there is no policy that can act. -/
  | inert (trigger : Trigger) (s : State) (hask : Asks m x trigger s)
      (hnone : ∀ p, m.policy = some p → p.isActive = false) :
      Move m x ⟨m.policy, s⟩ {}
  | decided (p : Policy) (trigger : Trigger) (s s' : State) (out : Outcome)
      (hask : Asks m x trigger s) (hp : m.policy = some p) (hactive : p.isActive = true)
      (hdec : Decision p trigger x.now x.readings s s' out) :
      Move m x ⟨some p, s'⟩ out
  | recovered (hin : x.input = .validation true) :
      Move m x ⟨m.policy, .healthy⟩ { events := m.state.closing .recovered x.now }
  | replaced (p : Policy) (hin : x.input = .reload p) :
      Move m x
        ⟨some p,
          { State.healthy with
            validated := m.state.validated
            deadline := if !m.state.validated && p.enabled then
              some (x.now + p.delayFor .baseline) else none }⟩
        { events := m.state.closing .reconfigured x.now }

/-- A decision asked for is taken if there is a policy that can act. -/
theorem move_of_evaluate {m : Machine} {x : Stimulus} {trigger : Trigger} {s : State}
    (hask : Asks m x trigger s) :
    Move m x (Machine.evaluate trigger x.now x.readings ⟨m.policy, s⟩).1
      (Machine.evaluate trigger x.now x.readings ⟨m.policy, s⟩).2 := by
  cases hp : m.policy with
  | none =>
      have hmove := Move.inert trigger s hask (by simp [hp])
      rwa [hp] at hmove
  | some p =>
      cases hactive : p.isActive with
      | true =>
          simp only [Machine.evaluate, hactive, if_true]
          exact .decided p trigger s _ _ hask hp hactive (decision_of_decide rfl)
      | false =>
          have hmove := Move.inert trigger s hask (by simp [hp, hactive])
          simpa [Machine.evaluate, hactive, hp] using hmove

/-- A report that the network is valid leaves nothing but the policy. -/
theorem onValidation_true {m : Machine} (h : Coherent m) (now : Nat) (readings : Readings) :
    m.onValidation true now readings
      = (⟨m.policy, .healthy⟩, { events := m.state.closing .recovered now }) := by
  have hidle : State.isIdle { m.state with validated := true } = m.state.isIdle := rfl
  unfold Machine.onValidation Machine.recover State.closing
  simp only [if_true, hidle]
  cases hi : m.state.isIdle with
  | true =>
      obtain ⟨ha, hl⟩ := h.untried (h.isIdle_iff.mp hi)
      simp [State.healthy, h.isIdle_iff.mp hi, ha, hl]
  | false => rfl

/-- A re-check that is due asks for a decision: the network is known not to be valid. -/
theorem onRecheck_of_due {m : Machine} (h : Coherent m) {now : Nat}
    (hdue : m.state.deadline.any (· ≤ now) = true) (readings : Readings) :
    m.onRecheck now readings
      = Machine.evaluate .recheck now readings ⟨m.policy, { m.state with deadline := none }⟩ := by
  unfold Machine.onRecheck
  rw [if_pos hdue]
  exact if_neg (by simp [h.not_valid_of_due hdue])

/-- A replaced policy leaves nothing but itself, what was last reported, and a re-check if the
network is not valid. -/
theorem onReload_eq {m : Machine} (h : Coherent m) (p : Policy) (now : Nat) :
    m.onReload p now
      = (⟨some p,
          { State.healthy with
            validated := m.state.validated
            deadline := if !m.state.validated && p.enabled then
              some (now + p.delayFor .baseline) else none }⟩,
        { events := m.state.closing .reconfigured now }) := by
  unfold Machine.onReload State.closing
  cases hi : m.state.isIdle with
  | true =>
      obtain ⟨ha, hl⟩ := h.untried (h.isIdle_iff.mp hi)
      simp [State.healthy, h.isIdle_iff.mp hi, ha, hl]
  | false => rfl

/-- **An input does one of the things listed.** -/
theorem move_step {m : Machine} (h : Coherent m) (x : Stimulus) :
    Move m x (m.step x).1 (m.step x).2 := by
  cases hin : x.input with
  | refuse f =>
      simp only [Machine.step, hin]
      exact .refused f hin
  | fail a f =>
      simp only [Machine.step, hin]
      exact .failed a f hin
  | validation valid =>
      cases valid with
      | false =>
          simp only [Machine.step, hin]
          exact move_of_evaluate (.report hin)
      | true =>
          simp only [Machine.step, hin, onValidation_true h]
          exact .recovered hin
  | recheck =>
      cases hdue : m.state.deadline.any (· ≤ x.now) with
      | false =>
          simp only [Machine.step, hin, Machine.onRecheck, hdue]
          exact .early hin hdue
      | true =>
          simp only [Machine.step, hin, onRecheck_of_due h hdue]
          exact move_of_evaluate (.recheck hin hdue)
  | reload p =>
      simp only [Machine.step, hin, onReload_eq h]
      exact .replaced p hin

/-- Under a policy that can act, a report that the network is not valid and a re-check that is due
both make the machine decide. -/
theorem Move.decided_of_cause {m m' : Machine} {x : Stimulus} {out : Outcome} {p : Policy}
    (hmove : Move m x m' out) (hp : m.policy = some p) (hactive : p.isActive = true)
    (hcause : x.input = .validation false
      ∨ x.input = .recheck ∧ ∃ d, m.state.deadline = some d ∧ d ≤ x.now) :
    ∃ trigger s s', Asks m x trigger s ∧ m' = ⟨some p, s'⟩
      ∧ Decision p trigger x.now x.readings s s' out := by
  cases hmove with
  | refused f hin => simp [hin] at hcause
  | failed a f hin => simp [hin] at hcause
  | recovered hin => simp [hin] at hcause
  | replaced q hin => simp [hin] at hcause
  | early hin hnot =>
      obtain ⟨_, d, hd, hle⟩ := hcause.resolve_left (by simp [hin])
      exact absurd hle (by simpa [hd] using hnot)
  | inert trigger s hask hnone =>
      have hinert := hnone p hp
      rw [hactive] at hinert
      exact absurd hinert (by simp)
  | decided q trigger s s' out hask hq _ hdec =>
      cases hp.symm.trans hq
      exact ⟨trigger, s, s', hask, rfl, hdec⟩

/-! ## Coherence is kept -/

namespace Asks

variable {m : Machine} {x : Stimulus} {trigger : Trigger} {s : State}

/-- Being asked changes neither the step nor the episode. -/
theorem kept (hask : Asks m x trigger s) :
    s.action = m.state.action ∧ s.episodeStarted = m.state.episodeStarted
      ∧ s.lastActionAt = m.state.lastActionAt := by
  cases hask with
  | report hin => exact ⟨rfl, rfl, rfl⟩
  | recheck hin hdue => exact ⟨rfl, rfl, rfl⟩

/-- A re-check still pending when a decision is asked for was pending before. -/
theorem pending (hask : Asks m x trigger s) {d : Nat} (hd : s.deadline = some d) :
    m.state.deadline = some d := by
  cases hask with
  | report hin => exact hd
  | recheck hin hdue => exact absurd hd (by simp)

/-- A decision is only taken while the network is not valid. -/
theorem not_valid (h : Coherent m) (hask : Asks m x trigger s) : s.validated = false := by
  cases hask with
  | report hin => rfl
  | recheck hin hdue => exact h.not_valid_of_due hdue

end Asks

theorem coherent_decision {m : Machine} {x : Stimulus} {p : Policy} {trigger : Trigger}
    {s s' : State} {out : Outcome} (h : Coherent m) (hask : Asks m x trigger s)
    (hp : m.policy = some p) (hactive : p.isActive = true)
    (hdec : Decision p trigger x.now x.readings s s' out) : Coherent ⟨some p, s'⟩ := by
  obtain ⟨haction, hepisode, hlast⟩ := hask.kept
  have hvalid : s.validated = false := hask.not_valid h
  have hdated : s.action ≠ .baseline ↔ s.lastActionAt.isSome = true := by
    rw [haction, hlast]
    exact h.dated
  -- the policy that decides is the one the step was tried under
  have htried : s.action ≠ .baseline → s.action ∈ p.eligible := by
    intro ha
    obtain ⟨_, q, hq, hmem⟩ := h.tried (haction ▸ ha)
    rw [hp] at hq
    cases hq
    rwa [haction]
  have hclosed : s.isIdle = true → s.lastActionAt = none := by
    intro hidle
    rw [hlast]
    exact (h.untried (hepisode ▸ (State.isIdle_iff.mp hidle).2)).2
  -- from here on the fields are all that matters of the state
  obtain ⟨a, v, d, e, l⟩ := s
  simp only at haction hepisode hlast hvalid hdated htried hclosed
  subst hvalid
  cases hdec with
  | quiet level hweak hidle =>
      obtain ⟨rfl, rfl⟩ := State.isIdle_iff.mp hidle
      rw [hclosed hidle]
      exact coherent_of_closed (by simp)
  | ended level hweak hbusy => exact coherent_of_closed (by simp [State.healthy])
  | held reason hhold => exact coherent_of_open hactive hdated htried
  | waited hproceed hstep hreport hearly =>
      -- a report leaves the pending re-check where it is
      subst hreport
      cases hask with
      | report hin =>
          obtain ⟨t, ht⟩ := h.deadline_of_tried (haction ▸ hstep)
          rw [ht]
          exact coherent_of_open hactive hdated htried
  | escalated hproceed hdue =>
      have hmem := Policy.target_mem (Policy.isActive_iff.mp hactive).2 htried
      have hne : p.target a ≠ .baseline := (Policy.mem_eligible.mp hmem).1
      exact coherent_of_open hactive (by simp [hne]) (fun _ => hmem)

/-- Without a policy that can act, what is asked for changes nothing that matters. -/
theorem coherent_inert {m : Machine} {x : Stimulus} {trigger : Trigger} {s : State}
    (h : Coherent m) (hask : Asks m x trigger s)
    (hnone : ∀ p, m.policy = some p → p.isActive = false) : Coherent ⟨m.policy, s⟩ := by
  have hclosed := h.closed_of_inert hnone
  obtain ⟨ha, hl⟩ := h.untried hclosed
  cases hask with
  | report hin =>
      -- a re-check of a policy that is enabled but leaves nothing in may still be pending
      simp only [ha, hl, hclosed]
      exact coherent_of_closed (fun hd => ⟨rfl, (h.pending hd).2⟩)
  | recheck hin hdue =>
      simp only [ha, hl, hclosed]
      exact coherent_of_closed (by simp)

/-- **An input leaves a coherent machine.** -/
theorem coherent_move {m m' : Machine} {x : Stimulus} {out : Outcome} (h : Coherent m)
    (hmove : Move m x m' out) : Coherent m' := by
  cases hmove with
  | refused f hin => exact h
  | failed a f hin => exact h
  | early hin hnot => exact h
  | inert trigger s hask hnone => exact coherent_inert h hask hnone
  | decided p trigger s s' out hask hp hactive hdec =>
      exact coherent_decision h hask hp hactive hdec
  | recovered hin => exact coherent_healthy m.policy
  | replaced p hin =>
      -- a re-check is armed only for a network that is not valid, under an enabled policy
      refine coherent_of_closed ?_
      intro hsome
      cases hv : m.state.validated with
      | true => simp [hv] at hsome
      | false =>
          cases he : p.enabled with
          | true => exact ⟨rfl, p, rfl, he⟩
          | false => simp [he] at hsome

/-- **Every machine that a run leads to is coherent.** -/
theorem coherent_reachable {m : Machine} (h : m.Reachable) : Coherent m := by
  induction h with
  | new p => exact coherent_healthy (some p)
  | unconfigured => exact coherent_healthy none
  | step x _ ih => exact coherent_move ih (move_step ih x)

theorem reachable_start (initial : Except Fault Policy) : (Machine.start initial).Reachable := by
  cases initial with
  | ok p => exact .new p
  | error f => exact .unconfigured

/-- While a step was tried, whether its delay has passed is read off the re-check alone. -/
theorem stepElapsed_of_tried {m : Machine} (h : Coherent m) (ha : m.state.action ≠ .baseline)
    (p : Policy) (now : Nat) :
    m.state.stepElapsed p now = m.state.deadline.any (· ≤ now) := by
  obtain ⟨d, hd⟩ := h.deadline_of_tried ha
  simp [State.stepElapsed, hd]

/--
**The state is coherent in every run**, whatever is fed, at whatever times, and whatever the guards
answer. So a re-check that is due always asks for a decision, as if it were not checked once more
whether the network is valid; and whether the delay of a step has passed is never computed from the
instant of the step.
-/
theorem run_coherent (initial : Except Fault Policy) (xs : List Stimulus) :
    let m := ((Machine.start initial).run xs).1
    Coherent m
      ∧ (∀ now readings, m.onRecheck now readings =
          if m.state.deadline.any (· ≤ now) then
            Machine.evaluate .recheck now readings ⟨m.policy, { m.state with deadline := none }⟩
          else (m, {}))
      ∧ (m.state.action ≠ .baseline →
          ∀ p now, m.state.stepElapsed p now = m.state.deadline.any (· ≤ now)) := by
  intro m
  have h : Coherent m := coherent_reachable ((reachable_start initial).run xs)
  refine ⟨h, ?_, fun ha p now => stepElapsed_of_tried h ha p now⟩
  intro now readings
  split
  · rename_i hdue
    exact onRecheck_of_due h hdue readings
  · rename_i hnot
    exact if_neg hnot

end StallRecovery
