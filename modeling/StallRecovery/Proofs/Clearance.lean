import StallRecovery.Proofs.Coherence

/-!
# Nothing is dispatched without the guards

The guards are asked in one place, and a dispatch is decided in another. `Clears` says what an
answer that lets a decision pass looks like, and which sources were asked for it; every dispatch
rests on one, and what gives the machine nothing to decide asks no source at all.

The exemption of a first step from the call guard hangs on the baseline, while the step that is
performed is found by what the policy leaves in. The two do not fit where a policy leaves the
mildest step out: then it is a radio step that is performed during the call. The second half of the
module says that this is the only way in which a call is ever disturbed.
-/

namespace StallRecovery

/-! ## What the guards answer -/

/-- The readings let a decision pass, after the sources listed were asked. -/
inductive Clears (p : Policy) (readings : Readings) (firstStep : Bool) : List Source → Prop where
  | idle (level : UInt8) (hsignal : readings.signal = .ok level) (hlevel : p.threshold ≤ level)
      (hcall : readings.call = .ok .idle) :
      Clears p readings firstStep [.signal, .callState]
  | exempt (level : UInt8) (hsignal : readings.signal = .ok level) (hlevel : p.threshold ≤ level)
      (hfirst : firstStep = true) (hguard : p.callGuard = .beyondFirstStep) :
      Clears p readings firstStep [.signal]

theorem idle_of_proceed {reading : Except String CallState}
    (h : Verdict.ofCall reading = .proceed) : reading = .ok .idle := by
  cases reading with
  | error reason => exact absurd h (by simp [Verdict.ofCall])
  | ok state =>
      cases state with
      | idle => rfl
      | ringing => exact absurd h (by simp [Verdict.ofCall])
      | active => exact absurd h (by simp [Verdict.ofCall])

/-- The guards let a decision pass only upon a strong signal, and without a call unless a first
step is exempt. -/
theorem clears_of_proceed {p : Policy} {readings : Readings} {firstStep : Bool}
    (h : (p.consult readings firstStep).verdict = .proceed) :
    Clears p readings firstStep (p.consult readings firstStep).asked := by
  unfold Policy.consult at h ⊢
  cases hsignal : readings.signal with
  | error reason =>
      rw [hsignal] at h
      exact absurd h (by simp)
  | ok level =>
      simp only [hsignal] at h ⊢
      by_cases hweak : level < p.threshold
      · rw [if_pos hweak] at h
        exact absurd h (by simp)
      · rw [if_neg hweak] at h ⊢
        have hlevel : p.threshold ≤ level := UInt8.not_lt.mp hweak
        cases hexempt : firstStep && p.callGuard == .beyondFirstStep with
        | true =>
            rw [Bool.and_eq_true, beq_iff_eq] at hexempt
            exact .exempt level hsignal hlevel hexempt.1 hexempt.2
        | false =>
            rw [hexempt] at h
            exact .idle level hsignal hlevel (idle_of_proceed h)

/-- The signal is looked at first, and nothing else if it is too weak. -/
theorem consult_of_weak {p : Policy} {readings : Readings} {level : UInt8}
    (hsignal : readings.signal = .ok level) (hlevel : level < p.threshold) (firstStep : Bool) :
    p.consult readings firstStep = ⟨.weakSignal level, [.signal]⟩ := by
  simp [Policy.consult, hsignal, hlevel]

theorem weak_of_consult {p : Policy} {readings : Readings} {firstStep : Bool} {level : UInt8}
    (h : (p.consult readings firstStep).verdict = .weakSignal level) :
    readings.signal = .ok level ∧ level < p.threshold := by
  unfold Policy.consult at h
  cases hsignal : readings.signal with
  | error reason => simp [hsignal] at h
  | ok level' =>
      simp only [hsignal] at h
      split at h
      · rename_i hweak
        cases h
        exact ⟨rfl, hweak⟩
      · split at h
        · simp at h
        · -- what a call makes of the decision is not a weak signal
          cases hcall : readings.call with
          | error reason => simp [hcall, Verdict.ofCall] at h
          | ok state => cases state <;> simp [hcall, Verdict.ofCall] at h

theorem asked_consult (p : Policy) (readings : Readings) (firstStep : Bool) :
    (p.consult readings firstStep).asked = [.signal]
      ∨ (p.consult readings firstStep).asked = [.signal, .callState] := by
  unfold Policy.consult
  cases readings.signal with
  | error reason => exact .inl rfl
  | ok level =>
      simp only
      split
      · exact .inl rfl
      · split
        · exact .inl rfl
        · exact .inr rfl

/-- No source is asked twice for one decision. -/
theorem count_asked_consult (p : Policy) (readings : Readings) (firstStep : Bool)
    (source : Source) : (p.consult readings firstStep).asked.count source ≤ 1 := by
  rcases asked_consult p readings firstStep with h | h
  · rw [h]
    cases source <;> decide
  · rw [h]
    cases source <;> decide

/-! ## What an input asks -/

section

variable {m m' : Machine} {x : Stimulus} {out : Outcome}

theorem asked_decision {p : Policy} {trigger : Trigger} {now : Nat} {readings : Readings}
    {s s' : State} (hdec : Decision p trigger now readings s s' out) :
    out.asked = (s.consulted p readings).asked := by
  cases hdec with
  | quiet level hweak hidle => rfl
  | ended level hweak hbusy => rfl
  | held reason hhold => rfl
  | waited hproceed hstep hreport hearly => rfl
  | escalated hproceed hdue => rfl

theorem asked_move (hmove : Move m x m' out) (source : Source) : out.asked.count source ≤ 1 := by
  cases hmove with
  | refused f hin => exact Nat.zero_le 1
  | failed a f hin => exact Nat.zero_le 1
  | early hin hnot => exact Nat.zero_le 1
  | inert trigger s hask hnone => exact Nat.zero_le 1
  | recovered hin => exact Nat.zero_le 1
  | replaced p hin => exact Nat.zero_le 1
  | decided p trigger s s' out hask hp hactive hdec =>
      rw [asked_decision hdec]
      exact count_asked_consult p x.readings _ source

/-- An input that gives the machine nothing to decide. -/
inductive Undecided (m : Machine) (x : Stimulus) : Prop where
  | recovery (hin : x.input = .validation true)
  | early (hin : x.input = .recheck) (hnot : ∀ d, m.state.deadline = some d → x.now < d)
  | reload (p : Policy) (hin : x.input = .reload p)
  | refusal (f : Fault) (hin : x.input = .refuse f)
  | failure (a : Action) (f : Fault) (hin : x.input = .fail a f)
  | unloaded (hnone : m.policy = none)
  | disabled (p : Policy) (hp : m.policy = some p) (hoff : p.enabled = false)
  | skipped (p : Policy) (hp : m.policy = some p)
      (hall : ∀ a, a ≠ .baseline → p.isSkipped a = true)

/-- A decision is only ever asked for by a report or by a re-check that is due. -/
theorem Asks.cause {trigger : Trigger} {s : State} (hask : Asks m x trigger s) :
    x.input = .validation false
      ∨ x.input = .recheck ∧ ∃ d, m.state.deadline = some d ∧ d ≤ x.now := by
  cases hask with
  | report hin => exact .inl hin
  | recheck hin hdue =>
      obtain ⟨d, hd, hle⟩ := (Option.any_eq_true _ _).mp hdue
      exact .inr ⟨hin, d, hd, by simpa using hle⟩

theorem not_undecided_of_asks {p : Policy} {trigger : Trigger} {s : State}
    (hask : Asks m x trigger s) (hp : m.policy = some p) (hactive : p.isActive = true) :
    ¬ Undecided m x := by
  obtain ⟨henabled, hne⟩ := Policy.isActive_iff.mp hactive
  have hcause := hask.cause
  intro h
  cases h with
  | recovery hin => simp [hin] at hcause
  | reload q hin => simp [hin] at hcause
  | refusal f hin => simp [hin] at hcause
  | failure a f hin => simp [hin] at hcause
  | early hin hnot =>
      rw [hin] at hcause
      obtain ⟨_, d, hd, hle⟩ := hcause.resolve_left (by simp)
      exact absurd hle (Nat.not_le_of_lt (hnot d hd))
  | unloaded hnone => simp [hnone] at hp
  | disabled q hq hoff =>
      cases hp.symm.trans hq
      simp [hoff] at henabled
  | skipped q hq hall =>
      cases hp.symm.trans hq
      obtain ⟨a, ha⟩ := List.exists_mem_of_ne_nil _ hne
      obtain ⟨hstep, hleft⟩ := Policy.mem_eligible.mp ha
      simp [hall a hstep] at hleft

/-- What gives the machine nothing to decide asks nobody. -/
theorem asked_undecided (hmove : Move m x m' out) (h : Undecided m x) : out.asked = [] := by
  cases hmove with
  | refused f hin => rfl
  | failed a f hin => rfl
  | early hin hnot => rfl
  | inert trigger s hask hnone => rfl
  | recovered hin => rfl
  | replaced p hin => rfl
  | decided p trigger s s' out hask hp hactive hdec =>
      exact absurd h (not_undecided_of_asks hask hp hactive)

/-- A dispatch is a decision that the readings have let pass. -/
theorem cleared_of_dispatch (hmove : Move m x m' out) {a : Action} (ha : out.dispatch = some a) :
    ∃ p trigger s, Asks m x trigger s ∧ m.policy = some p ∧ p.isActive = true
      ∧ a = p.target m.state.action
      ∧ Clears p x.readings (m.state.action == .baseline) out.asked := by
  cases hmove with
  | refused f hin => exact absurd ha (by simp)
  | failed b f hin => exact absurd ha (by simp)
  | early hin hnot => exact absurd ha (by simp)
  | inert trigger s hask hnone => exact absurd ha (by simp)
  | recovered hin => exact absurd ha (by simp)
  | replaced p hin => exact absurd ha (by simp)
  | decided p trigger s s' out hask hp hactive hdec =>
      refine ⟨p, trigger, s, hask, hp, hactive, ?_⟩
      rw [← hask.kept.1]
      cases hdec with
      | quiet level hweak hidle => exact absurd ha (by simp)
      | ended level hweak hbusy => exact absurd ha (by simp)
      | held reason hhold => exact absurd ha (by simp)
      | waited hproceed hstep hreport hearly => exact absurd ha (by simp)
      | escalated hproceed hdue =>
          cases ha
          exact ⟨rfl, clears_of_proceed hproceed⟩

end

/-! ## Dispatches in a run -/

/-- What a dispatch rests on: it was decided upon a report or a re-check that was due, under an
enabled policy; the signal was asked for once and is strong enough; and the call state was asked for
once and is idle, unless it was not asked for because a first step is exempt. -/
structure Guarded (m : Machine) (x : Stimulus) (asked : List Source) : Prop where
  cause : x.input = .validation false
    ∨ x.input = .recheck ∧ ∃ d, m.state.deadline = some d ∧ d ≤ x.now
  cleared : ∃ p, m.policy = some p ∧ p.enabled = true
    ∧ asked.count .signal = 1
    ∧ (∃ level, x.readings.signal = .ok level ∧ p.threshold ≤ level)
    ∧ (asked.count .callState = 1 ∧ x.readings.call = .ok .idle
      ∨ asked.count .callState = 0 ∧ m.state.action = .baseline
        ∧ p.callGuard = .beyondFirstStep)

theorem guarded_of_dispatch {m m' : Machine} {x : Stimulus} {out : Outcome}
    (hmove : Move m x m' out) {a : Action} (ha : out.dispatch = some a) :
    Guarded m x out.asked := by
  obtain ⟨p, trigger, s, hask, hp, hactive, _, hclears⟩ := cleared_of_dispatch hmove ha
  refine ⟨hask.cause, p, hp, (Policy.isActive_iff.mp hactive).1, ?_⟩
  generalize out.asked = asked at hclears
  cases hclears with
  | idle level hsignal hlevel hcall =>
      exact ⟨by decide, ⟨level, hsignal, hlevel⟩, .inl ⟨by decide, hcall⟩⟩
  | exempt level hsignal hlevel hfirst hguard =>
      exact ⟨by decide, ⟨level, hsignal, hlevel⟩, .inr ⟨by decide, by simpa using hfirst, hguard⟩⟩

/--
**No dispatch without passing guards.**

Whatever was fed before, an input that makes the machine dispatch has asked the guards and was let
pass; an input that gives it nothing to decide asks nobody; and no input asks a source twice.
-/
theorem dispatch_guarded (initial : Except Fault Policy) (before : List Stimulus) (x : Stimulus) :
    let m := ((Machine.start initial).run before).1
    let out := (m.step x).2
    (∀ a, out.dispatch = some a → Guarded m x out.asked)
      ∧ (Undecided m x → out.asked = [])
      ∧ ∀ source, out.asked.count source ≤ 1 := by
  intro m out
  have h : Coherent m := coherent_reachable ((reachable_start initial).run before)
  have hmove : Move m x (m.step x).1 out := move_step h x
  exact ⟨fun a ha => guarded_of_dispatch hmove ha, asked_undecided hmove, asked_move hmove⟩

/-! ## Dispatches during a call -/

theorem eligible_head_disruptive {p : Policy} {a : Action} (ha : p.eligible.head? = some a) :
    a.isRadioDisruptive = true ↔ p.reestablish.skip = true := by
  have heligible : p.eligible = Action.steps.filter (!p.isSkipped ·) := rfl
  have hskip : p.isSkipped .reestablishInternet = p.reestablish.skip := rfl
  rw [heligible, Action.steps, List.filter_cons, hskip] at ha
  cases hs : p.reestablish.skip with
  | false =>
      rw [hs] at ha
      have hfirst : a = .reestablishInternet := by simpa using ha.symm
      simp [hfirst, Action.isRadioDisruptive]
  | true =>
      rw [hs] at ha
      -- the steps that remain are radio steps, all of them
      have hmem : a ∈ [Action.radioPowerCycle, .modemReboot] :=
        (List.mem_filter.mp (List.mem_of_head? ha)).1
      have hradio : ∀ b ∈ [Action.radioPowerCycle, .modemReboot], b.isRadioDisruptive = true := by
        decide
      simp [hradio a hmem]

/--
**What a call can be disturbed by.**

An input at which a call is on dispatches nothing, unless the policy exempts the first step and
nothing was tried yet. What is dispatched then is the first step left in, and it disturbs the call
exactly if the policy leaves the mildest step out.
-/
theorem dispatch_during_call (initial : Except Fault Policy) (before : List Stimulus)
    (x : Stimulus) {state : CallState} (hcall : x.readings.call = .ok state)
    (hon : state ≠ .idle) {a : Action}
    (ha : (((Machine.start initial).run before).1.step x).2.dispatch = some a) :
    let m := ((Machine.start initial).run before).1
    ∃ p, m.policy = some p ∧ p.callGuard = .beyondFirstStep ∧ m.state.action = .baseline
      ∧ p.eligible.head? = some a
      ∧ (a.isRadioDisruptive = true ↔ p.reestablish.skip = true) := by
  intro m
  have h : Coherent m := coherent_reachable ((reachable_start initial).run before)
  obtain ⟨p, trigger, s, hask, hp, hactive, htarget, hclears⟩ :=
    cleared_of_dispatch (move_step h x) ha
  generalize ((m.step x).2).asked = asked at hclears
  cases hclears with
  | idle level hsignal hlevel hidle =>
      rw [hcall] at hidle
      exact absurd (Except.ok.inj hidle) hon
  | exempt level hsignal hlevel hfirst hguard =>
      have hbase : m.state.action = .baseline := by simpa using hfirst
      have hhead : p.eligible.head? = some a := by
        rw [htarget, hbase, Policy.target, Policy.nextEligibleAfter?_baseline]
        obtain ⟨b, hb⟩ := List.exists_mem_of_ne_nil _ (Policy.isActive_iff.mp hactive).2
        cases he : p.eligible with
        | nil => simp [he] at hb
        | cons c cs => rfl
      exact ⟨p, hp, hguard, hbase, hhead, eligible_head_disruptive hhead⟩

/-- A policy that exempts the first step and leaves the mildest one out. -/
def exemptingWithoutReestablish : Policy :=
  { Policy.standard with
    reestablish := ⟨defaultDelay, true⟩
    callGuard := .beyondFirstStep }

/-- A report while a call is on. -/
def reportDuringCall : Stimulus := ⟨.validation false, 0, ⟨.ok 4, .ok .active⟩⟩

/-- The exemption does not keep to the mild step: the radio is power-cycled during the call. -/
theorem power_cycled_during_call :
    ((Machine.new exemptingWithoutReestablish).step reportDuringCall).2.dispatch
        = some .radioPowerCycle
      ∧ Action.radioPowerCycle.isRadioDisruptive = true := by decide

/-- The power cycle during a call comes from the exemption, and from leaving the mild step out. -/
theorem dispatch_during_call_exempt :
    ∃ p, some exemptingWithoutReestablish = some p ∧ p.callGuard = .beyondFirstStep
      ∧ Action.baseline = .baseline ∧ p.eligible.head? = some .radioPowerCycle
      ∧ (Action.radioPowerCycle.isRadioDisruptive = true ↔ p.reestablish.skip = true) :=
  dispatch_during_call (.ok exemptingWithoutReestablish) [] reportDuringCall
    (show reportDuringCall.readings.call = .ok .active from rfl) (by decide)
    (show ((Machine.new exemptingWithoutReestablish).step reportDuringCall).2.dispatch
      = some .radioPowerCycle by decide)

end StallRecovery
