import StallRecovery.Machine

/-!
# What a decision comes to

`State.decide` asks the guards once and then does one of five things. `Decision` lists them: each
with the verdict and the further conditions it is taken under, and with the state and the outcome it
leaves. `decision_of_decide` says that there are no others, and `decide_of_decision` that nothing
else has to be known to tell which of them it is.

Nothing is assumed about the state that decides, so the list can be used to find an invariant as
well as to use one. No later proof opens `State.decide` again.
-/

namespace StallRecovery

attribute [ext] State Machine

/-- Why a verdict holds recovery, if it does. -/
def Verdict.hold? : Verdict → Option HoldReason
  | .proceed => none
  | .weakSignal _ => none
  | .inCall state => some (.inCall state)
  | .unavailable _ => some .guardUnavailable

namespace State

theorem isIdle_iff {s : State} :
    s.isIdle = true ↔ s.action = .baseline ∧ s.episodeStarted = none := by
  simp [isIdle]

/-- What a decision learns from the guards in this state. -/
def consulted (p : Policy) (readings : Readings) (s : State) : Consultation :=
  p.consult readings (s.action == .baseline)

/-- What is reported first by a decision that acts on an episode: its start, unless it is open. -/
def opening (s : State) : List Event :=
  if s.episodeStarted.isSome then [] else [.episodeStarted]

theorem opening_of_open {s : State} (h : s.episodeStarted.isSome = true) : s.opening = [] := by
  simp [opening, h]

theorem openEpisode_eq (now : Nat) (s : State) :
    s.openEpisode now
      = ({ s with episodeStarted := some (s.episodeStarted.getD now) }, s.opening) := by
  obtain ⟨action, validated, deadline, episodeStarted, lastActionAt⟩ := s
  cases episodeStarted with
  | none => rfl
  | some t => rfl

/-- Until when a hold waits: for the pending re-check if that is still to come, and otherwise for
one delay of the current step from now. -/
def heldUntil (p : Policy) (now : Nat) (s : State) : Nat :=
  (s.deadline.filter (now < ·)).getD (now + p.delayFor s.action)

theorem heldUntil_of_pending {p : Policy} {now d : Nat} {s : State} (hd : s.deadline = some d)
    (hlt : now < d) : s.heldUntil p now = d := by
  simp [heldUntil, hd, Option.filter, hlt]

theorem heldUntil_of_none_pending {p : Policy} {now : Nat} {s : State}
    (hnot : s.deadline.any (now < ·) = false) :
    s.heldUntil p now = now + p.delayFor s.action := by
  unfold heldUntil
  cases hd : s.deadline with
  | none => rfl
  | some d =>
      have hle : ¬ now < d := by simpa [hd] using hnot
      simp [Option.filter, hle]

theorem hold_eq (p : Policy) (reason : HoldReason) (now : Nat) (s : State) :
    s.hold p reason now
      = ({ s with deadline := some (s.heldUntil p now) }, .held s.action reason) := by
  obtain ⟨action, validated, deadline, episodeStarted, lastActionAt⟩ := s
  cases deadline with
  | none => rfl
  | some d => by_cases hlt : now < d <;> simp [hold, heldUntil, Option.filter, hlt]

theorem stepElapsed_episode (p : Policy) (now : Nat) (s : State) (episode : Option Nat) :
    State.stepElapsed p now { s with episodeStarted := episode } = s.stepElapsed p now := rfl

end State

/-- What a decision under an active policy can come to, and when. -/
inductive Decision (p : Policy) (trigger : Trigger) (now : Nat) (readings : Readings) (s : State) :
    State → Outcome → Prop where
  /-- The signal is too weak and nothing was tried: no episode is opened. -/
  | quiet (level : UInt8)
      (hweak : (s.consulted p readings).verdict = .weakSignal level)
      (hidle : s.isIdle = true) :
      Decision p trigger now readings s
        { s with deadline := none }
        { asked := (s.consulted p readings).asked }
  /-- The signal is too weak and the episode ends. -/
  | ended (level : UInt8)
      (hweak : (s.consulted p readings).verdict = .weakSignal level)
      (hbusy : s.isIdle = false) :
      Decision p trigger now readings s
        { State.healthy with validated := s.validated }
        { events := s.opening
            ++ [.reset s.action .weakSignal (some (now - s.episodeStarted.getD now)) (some level)]
          asked := (s.consulted p readings).asked }
  /-- A call, or a source that does not answer, holds the episode. -/
  | held (reason : HoldReason)
      (hhold : (s.consulted p readings).verdict.hold? = some reason) :
      Decision p trigger now readings s
        { s with
          episodeStarted := some (s.episodeStarted.getD now)
          deadline := some (s.heldUntil p now) }
        { events := s.opening ++ [.held s.action reason]
          asked := (s.consulted p readings).asked }
  /-- A report comes before the delay of the current step has passed. -/
  | waited
      (hproceed : (s.consulted p readings).verdict = .proceed)
      (hstep : s.action ≠ .baseline) (hreport : trigger = .report)
      (hearly : s.stepElapsed p now = false) :
      Decision p trigger now readings s
        { s with episodeStarted := some (s.episodeStarted.getD now) }
        { events := s.opening, asked := (s.consulted p readings).asked }
  /-- The next step is performed. -/
  | escalated
      (hproceed : (s.consulted p readings).verdict = .proceed)
      (hdue : s.action = .baseline ∨ trigger = .recheck ∨ s.stepElapsed p now = true) :
      Decision p trigger now readings s
        { s with
          action := p.target s.action
          lastActionAt := some now
          episodeStarted := some (s.episodeStarted.getD now)
          deadline := some (now + p.delayFor (p.target s.action)) }
        { dispatch := some (p.target s.action)
          events := s.opening ++ [.actionDispatched (p.target s.action)]
          asked := (s.consulted p readings).asked }

/-- **A decision comes to one of the five.** -/
theorem decision_of_decide {p : Policy} {trigger : Trigger} {now : Nat} {readings : Readings}
    {s s' : State} {out : Outcome} (hd : s.decide p trigger now readings = (s', out)) :
    Decision p trigger now readings s s' out := by
  have hconsult : p.consult readings (s.action == .baseline) = s.consulted p readings := rfl
  -- the verdict fixes which of the five it is, except where the step may still have to wait
  unfold State.decide at hd
  simp only [hconsult, State.openEpisode_eq] at hd
  cases hv : (s.consulted p readings).verdict with
  | weakSignal level =>
      simp only [hv] at hd
      split at hd
      · rename_i hidle
        cases hd
        exact .quiet level hv hidle
      · rename_i hbusy
        cases hd
        exact .ended level hv (Bool.eq_false_iff.mpr hbusy)
  | inCall state =>
      simp only [hv, State.hold_eq] at hd
      cases hd
      exact .held (.inCall state) (by rw [hv]; rfl)
  | unavailable fault =>
      simp only [hv, State.hold_eq] at hd
      cases hd
      exact .held .guardUnavailable (by rw [hv]; rfl)
  | proceed =>
      simp only [hv] at hd
      rw [if_neg (by decide)] at hd
      split at hd
      · rename_i hwait
        cases hd
        simp only [State.stepElapsed_episode, Bool.and_eq_true, bne_iff_ne, beq_iff_eq,
          Bool.not_eq_true'] at hwait
        exact .waited hv hwait.1.1 hwait.1.2 hwait.2
      · rename_i hgo
        cases hd
        refine .escalated hv ?_
        cases trigger with
        | recheck => exact .inr (.inl rfl)
        | report =>
            by_cases hstep : s.action = .baseline
            · exact .inl hstep
            · refine .inr (.inr ?_)
              simpa [State.stepElapsed_episode, hstep] using hgo

/-- Each of the five is a decision. -/
theorem decide_of_decision {p : Policy} {trigger : Trigger} {now : Nat} {readings : Readings}
    {s s' : State} {out : Outcome} (hdec : Decision p trigger now readings s s' out) :
    s.decide p trigger now readings = (s', out) := by
  have hconsult : p.consult readings (s.action == .baseline) = s.consulted p readings := rfl
  unfold State.decide
  simp only [hconsult, State.openEpisode_eq]
  cases hdec with
  | quiet level hweak hidle => simp only [hweak, hidle, if_true]
  | ended level hweak hbusy =>
      simp only [hweak, hbusy, Bool.false_eq_true, if_false]
      rfl
  | held reason hhold =>
      cases hv : (s.consulted p readings).verdict with
      | proceed => simp [hv, Verdict.hold?] at hhold
      | weakSignal level => simp [hv, Verdict.hold?] at hhold
      | inCall state =>
          have hreason : reason = .inCall state := by simpa [hv, Verdict.hold?] using hhold.symm
          subst hreason
          simp only [Bool.false_eq_true, if_false, State.hold_eq]
          rfl
      | unavailable fault =>
          have hreason : reason = .guardUnavailable := by
            simpa [hv, Verdict.hold?] using hhold.symm
          subst hreason
          simp only [Bool.false_eq_true, if_false, State.hold_eq]
          rfl
  | waited hproceed hstep hreport hearly =>
      simp [hproceed, hstep, hreport, State.stepElapsed_episode, hearly]
  | escalated hproceed hdue =>
      have hgo : (s.action != .baseline && trigger == .report && !s.stepElapsed p now) = false := by
        rcases hdue with hbase | hrecheck | helapsed
        · simp [hbase]
        · simp [hrecheck]
        · simp [helapsed]
      simp only [hproceed, State.stepElapsed_episode, hgo, Bool.false_eq_true, if_false]
      rfl

/-! ## Inputs that are decided -/

section

variable {m : Machine} {p : Policy} {now : Nat}

/-- A report to a machine that can decide is a decision. -/
theorem onReport_of_active (now : Nat) (readings : Readings) (hp : m.policy = some p)
    (hactive : p.isActive = true) :
    ∃ s' out, m.onValidation false now readings = (⟨some p, s'⟩, out)
      ∧ Decision p .report now readings { m.state with validated := false } s' out := by
  refine ⟨_, _, ?_, decision_of_decide rfl⟩
  unfold Machine.onValidation
  simp only [Bool.false_eq_true, if_false, hp, Machine.evaluate, hactive, if_true]
  rfl

/-- A look by a machine that can decide is a decision. -/
theorem onRecheck_of_active (readings : Readings)
    (hdue : m.state.deadline.any (· ≤ now) = true) (hvalid : m.state.validated = false)
    (hp : m.policy = some p) (hactive : p.isActive = true) :
    ∃ s' out, m.onRecheck now readings = (⟨some p, s'⟩, out)
      ∧ Decision p .recheck now readings { m.state with deadline := none } s' out := by
  refine ⟨_, _, ?_, decision_of_decide rfl⟩
  unfold Machine.onRecheck
  rw [if_pos hdue]
  simp only [hvalid, hp, Machine.evaluate, hactive, if_true]
  rfl

end

end StallRecovery
