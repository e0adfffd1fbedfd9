import StallRecovery.Machine.Run
import StallRecovery.Proofs.Decision
import StallRecovery.Proofs.Ladder

/-!
# Re-checks at one instant

Where a policy waits no time after a step, a re-check is due again as soon as it has been looked at.
Nothing changes between two such looks but the machine, so it either climbs or stands where it was;
and a machine that stands where it was does so for ever. `Spins` says that of a machine.

The ladder is finite, so a re-check that is still due after a look from every rung belongs to a
machine that spins. Where delays take time there is none.
-/

namespace StallRecovery

/-- A re-check is due and stays due at this instant, however often it is looked at. -/
def Machine.Spins (readings : Readings) (now : Nat) (m : Machine) : Prop :=
  ∀ n, (m.run (List.replicate n ⟨.recheck, now, readings⟩)).1.state.deadline.any (· ≤ now) = true

namespace Policy

/-- A step is performed again or the ladder is climbed. -/
theorem target_eq_or_lt (p : Policy) (a : Action) : p.target a = a ∨ a < p.target a := by
  unfold target
  cases hnext : p.nextEligibleAfter? a with
  | none => exact .inl rfl
  | some b =>
      have hlt := List.find?_some hnext
      exact .inr (by simpa using hlt)

end Policy

section

variable {readings : Readings} {now : Nat} {m : Machine}

/-- An input that leaves a machine as it was can be fed any number of times. -/
theorem run_of_fixed {x : Stimulus} (h : (m.step x).1 = m) (n : Nat) :
    m.run (List.replicate n x) = (m, List.replicate n (m.step x).2) := by
  induction n with
  | zero => rfl
  | succ n ih =>
      simp only [List.replicate_succ, Machine.run, h]
      rw [ih]

theorem spins_of_fixed (hdue : m.state.deadline.any (· ≤ now) = true)
    (hfixed : (m.onRecheck now readings).1 = m) : m.Spins readings now := by
  intro n
  rw [run_of_fixed (x := ⟨.recheck, now, readings⟩) hfixed n]
  exact hdue

/-- A machine whose re-check is still due after a look can decide. -/
theorem active_of_due (hdue : m.state.deadline.any (· ≤ now) = true)
    (hagain : (m.onRecheck now readings).1.state.deadline.any (· ≤ now) = true) :
    m.state.validated = false ∧ ∃ p, m.policy = some p ∧ p.isActive = true := by
  -- a look that decides nothing forgets the deadline
  unfold Machine.onRecheck at hagain
  rw [if_pos hdue] at hagain
  cases hv : m.state.validated with
  | true => simp [hv] at hagain
  | false =>
      cases hp : m.policy with
      | none => simp [hv, hp, Machine.evaluate] at hagain
      | some p =>
          cases hactive : p.isActive with
          | false => simp [hv, hp, hactive, Machine.evaluate] at hagain
          | true => exact ⟨rfl, p, rfl, hactive⟩

/-- A second look that finds the step as the first one found it leaves it as the first one did. -/
theorem decision_again {p : Policy} {s s₁ s₂ : State} {out₁ out₂ : Outcome}
    (h₁ : Decision p .recheck now readings { s with deadline := none } s₁ out₁)
    (hdue : s₁.deadline.any (· ≤ now) = true) (haction : s₁.action = s.action)
    (h₂ : Decision p .recheck now readings { s₁ with deadline := none } s₂ out₂) : s₂ = s₁ := by
  -- the guards are asked about the same step, so their verdict is the same
  have hverdict : (State.consulted p readings { s₁ with deadline := none }).verdict
      = (State.consulted p readings { s with deadline := none }).verdict := by
    simp only [State.consulted, haction]
  cases h₁ with
  | quiet level hweak hidle => exact absurd hdue (by simp)
  | ended level hweak hbusy => exact absurd hdue (by simp [State.healthy])
  | waited hproceed hstep hreport hearly => exact absurd hreport (by simp)
  | held reason hhold =>
      rw [← hverdict] at hhold
      cases h₂ with
      | quiet level hweak hidle => exact absurd hhold (by simp [hweak, Verdict.hold?])
      | ended level hweak hbusy => exact absurd hhold (by simp [hweak, Verdict.hold?])
      | held reason' hhold' => rfl
      | waited hproceed hstep hreport hearly => exact absurd hreport (by simp)
      | escalated hproceed hdue' => exact absurd hhold (by simp [hproceed, Verdict.hold?])
  | escalated hproceed hdue' =>
      rw [← hverdict] at hproceed
      have htarget : p.target s.action = s.action := haction
      cases h₂ with
      | quiet level hweak hidle => exact absurd hproceed (by simp [hweak])
      | ended level hweak hbusy => exact absurd hproceed (by simp [hweak])
      | held reason hhold => exact absurd hhold (by simp [hproceed, Verdict.hold?])
      | waited hproceed' hstep hreport hearly => exact absurd hreport (by simp)
      | escalated hproceed' hdue'' => simp [htarget]

/-- A look after which a re-check is still due climbs the ladder, or is the last to change
anything. -/
theorem fixed_or_rises (hdue : m.state.deadline.any (· ≤ now) = true)
    (hagain : (m.onRecheck now readings).1.state.deadline.any (· ≤ now) = true) :
    ((m.onRecheck now readings).1.onRecheck now readings).1 = (m.onRecheck now readings).1
      ∨ m.state.action < (m.onRecheck now readings).1.state.action := by
  obtain ⟨hvalid, p, hp, hactive⟩ := active_of_due hdue hagain
  obtain ⟨s₁, out₁, hlook, hdec⟩ := onRecheck_of_active readings hdue hvalid hp hactive
  rw [hlook] at hagain ⊢
  have hvalid₁ : s₁.validated = false := by
    cases hdec <;> exact hvalid
  obtain ⟨s₂, out₂, hlook', hdec'⟩ :=
    onRecheck_of_active (m := ⟨some p, s₁⟩) readings hagain hvalid₁ rfl hactive
  rw [hlook']
  have hfixed : s₁.action = m.state.action → s₂ = s₁ :=
    fun haction => decision_again hdec hagain haction hdec'
  cases hdec with
  | quiet level hweak hidle => exact absurd hagain (by simp)
  | ended level hweak hbusy => exact absurd hagain (by simp [State.healthy])
  | waited hproceed hstep hreport hearly => exact absurd hreport (by simp)
  | held reason hhold => exact .inl (by rw [hfixed rfl])
  | escalated hproceed hdue' =>
      rcases p.target_eq_or_lt m.state.action with htarget | hlt
      · exact .inl (by rw [hfixed htarget])
      · exact .inr hlt

/-- A re-check is still due after a look only where the machine then waits no time. -/
theorem delay_zero_of_due_again (hdue : m.state.deadline.any (· ≤ now) = true)
    (hagain : (m.onRecheck now readings).1.state.deadline.any (· ≤ now) = true) :
    ∃ p, m.policy = some p ∧ p.isActive = true
      ∧ p.delayFor (m.onRecheck now readings).1.state.action = 0 := by
  obtain ⟨hvalid, p, hp, hactive⟩ := active_of_due hdue hagain
  obtain ⟨s₁, out₁, hlook, hdec⟩ := onRecheck_of_active readings hdue hvalid hp hactive
  rw [hlook] at hagain ⊢
  refine ⟨p, hp, hactive, ?_⟩
  cases hdec with
  | quiet level hweak hidle => exact absurd hagain (by simp)
  | ended level hweak hbusy => exact absurd hagain (by simp [State.healthy])
  | waited hproceed hstep hreport hearly => exact absurd hreport (by simp)
  | held reason hhold =>
      rw [State.heldUntil_of_none_pending rfl] at hagain
      have hle : now + p.delayFor m.state.action ≤ now := by simpa using hagain
      show p.delayFor m.state.action = 0
      omega
  | escalated hproceed hdue' =>
      have hle : now + p.delayFor (p.target m.state.action) ≤ now := by simpa using hagain
      show p.delayFor (p.target m.state.action) = 0
      omega

/-- Only a delay that takes no time makes a machine spin. -/
theorem delay_zero_of_spins (hspins : m.Spins readings now) :
    ∃ p, m.policy = some p ∧ ∃ a, p.delayFor a = 0 := by
  obtain ⟨p, hp, _, hzero⟩ := delay_zero_of_due_again (hspins 0) (hspins 1)
  exact ⟨p, hp, _, hzero⟩

theorem not_spins_of_timed {p : Policy} (hp : m.policy = some p) (hpos : ∀ a, 0 < p.delayFor a) :
    ¬ m.Spins readings now := by
  intro hspins
  obtain ⟨q, hq, a, hzero⟩ := delay_zero_of_spins hspins
  cases hp.symm.trans hq
  have hdelay := hpos a
  omega

end

end StallRecovery
