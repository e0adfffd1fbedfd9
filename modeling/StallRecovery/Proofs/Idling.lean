import StallRecovery.Proofs.Forgetting
import StallRecovery.Proofs.Schedule

/-!
# Looking again at one instant comes to an end

A look at a re-check that is due arms the next one by the delay of the step it leaves the machine
at. Where that takes time the next look at the same instant finds nothing to do, so there is one
look at most. Where it takes none, a look that is held leaves the machine due as it was, and the
next one, and so on; nothing that is accepted as a policy rules that out.

So it is the delays alone that decide, and only those that a machine can come to wait for: the one
at the baseline, which is the first step's even where that step is left out, and those of the steps
left in. Every one of them is waited for in some run, as a stall that runs on schedule reaches every
rung.
-/

namespace StallRecovery

/-- Every wait that a policy can come to takes time. -/
def Policy.Waits (p : Policy) : Prop := ∀ a, a = .baseline ∨ a ∈ p.eligible → 0 < p.delayFor a

/-- Every wait that a machine can come to takes time, if its policy can act. -/
def Machine.Waits (m : Machine) : Prop := ∀ p, m.policy = some p → p.isActive = true → p.Waits

/-- Looking again and again at one instant, with the same answers of the guards, performs one action
at most, and at some point leaves no re-check that is due. -/
structure Machine.GoesIdle (now : Nat) (readings : Readings) (m : Machine) : Prop where
  once : ∀ n, ((m.run (List.replicate n ⟨.recheck, now, readings⟩)).2.filterMap (·.dispatch)).length
    ≤ 1
  idle : ∃ n, ∀ d,
    (m.run (List.replicate n ⟨.recheck, now, readings⟩)).1.state.deadline = some d → now < d

/-- The signal is not known, and no call is on. -/
def Readings.silent : Readings := ⟨.error "", .ok .idle⟩

/-- The weakest signal that a policy makes do with, and no call. -/
def Policy.clear (p : Policy) : Readings := ⟨.ok p.threshold, .ok .idle⟩

section

variable {p : Policy} {m : Machine} {now : Nat} {readings : Readings}

/-! ## Where waits take time -/

theorem waits_of_policy (hp : m.policy = some p) (hwaits : p.isActive = true → p.Waits) :
    m.Waits := by
  intro q hq
  cases hp.symm.trans hq
  exact hwaits

theorem onRecheck_of_not_due (h : m.state.deadline.any (· ≤ now) = false) (readings : Readings) :
    m.onRecheck now readings = (m, {}) := by
  simp [Machine.onRecheck, h]

/-- A look leaves nothing due, where every wait takes time that it can leave the machine at. -/
theorem not_due_after_look (h : Coherent m) (hwaits : m.Waits) (now : Nat) (readings : Readings) :
    (m.onRecheck now readings).1.state.deadline.any (· ≤ now) = false := by
  cases hdue : m.state.deadline.any (· ≤ now) with
  | false =>
      rw [onRecheck_of_not_due hdue]
      exact hdue
  | true =>
      refine Bool.eq_false_iff.mpr fun hagain => ?_
      obtain ⟨p, hp, hactive, hzero⟩ := delay_zero_of_due_again hdue hagain
      -- what the look leaves is coherent, so a step tried is one that the policy leaves in
      have hleft : Coherent (m.onRecheck now readings).1 :=
        coherent_move h (move_step h ⟨.recheck, now, readings⟩)
      have hpolicy : (m.onRecheck now readings).1.policy = some p := by
        obtain ⟨hvalid, _⟩ := active_of_due hdue hagain
        obtain ⟨s', out, hlook, _⟩ := onRecheck_of_active readings hdue hvalid hp hactive
        rw [hlook]
      have hpos : 0 < p.delayFor (m.onRecheck now readings).1.state.action := by
        refine hwaits p hp hactive _ (Classical.or_iff_not_imp_left.mpr fun htried => ?_)
        obtain ⟨_, q, hq, hmem⟩ := hleft.tried htried
        cases hpolicy.symm.trans hq
        exact hmem
      omega

/-- The first of several looks is the only one. -/
theorem run_looks (h : Coherent m) (hwaits : m.Waits) (n : Nat) :
    m.run (List.replicate (n + 1) ⟨.recheck, now, readings⟩)
      = ((m.onRecheck now readings).1, (m.onRecheck now readings).2 :: List.replicate n {}) := by
  have hfirst : m.step ⟨.recheck, now, readings⟩ = m.onRecheck now readings := rfl
  have hagain : (m.onRecheck now readings).1.step ⟨.recheck, now, readings⟩
      = ((m.onRecheck now readings).1, {}) :=
    onRecheck_of_not_due (not_due_after_look h hwaits now readings) readings
  have hrest := run_of_fixed (x := ⟨.recheck, now, readings⟩) (by rw [hagain]) n
  rw [hagain] at hrest
  simp only [List.replicate_succ, Machine.run, hfirst, hrest]

theorem goesIdle_of_waits (h : Coherent m) (hwaits : m.Waits) (now : Nat) (readings : Readings) :
    m.GoesIdle now readings where
  once n := by
    cases n with
    | zero => exact Nat.zero_le 1
    | succ n =>
        rw [run_looks h hwaits]
        cases hdispatch : (m.onRecheck now readings).2.dispatch <;> simp [hdispatch]
  idle := by
    refine ⟨1, fun d hd => ?_⟩
    have hnot := not_due_after_look h hwaits now readings
    rw [run_looks h hwaits 0] at hd
    simpa [show (m.onRecheck now readings).1.state.deadline = some d from hd] using hnot

/-! ## Where a wait takes none -/

theorem not_spins_of_goesIdle (h : m.GoesIdle now readings) : ¬ m.Spins readings now := by
  intro hspins
  obtain ⟨n, hidle⟩ := h.idle
  obtain ⟨d, hd, hle⟩ := (Option.any_eq_true _ _).mp (hspins n)
  have hlt := hidle d hd
  have hle' : d ≤ now := by simpa using hle
  omega

/-- Without a signal every decision is a hold. -/
theorem held_of_silent {trigger : Trigger} {s s' : State} {out : Outcome}
    (hdec : Decision p trigger now .silent s s' out) :
    s' = { s with
      episodeStarted := some (s.episodeStarted.getD now)
      deadline := some (s.heldUntil p now) } := by
  have hverdict : (s.consulted p .silent).verdict = .unavailable (.unavailable .signal "") := rfl
  cases hdec with
  | quiet level hweak hidle => simp [hverdict] at hweak
  | ended level hweak hbusy => simp [hverdict] at hweak
  | held reason hhold => rfl
  | waited hproceed hstep hreport hearly => simp [hverdict] at hproceed
  | escalated hproceed hdue => simp [hverdict] at hproceed

/-- A machine that is held for no time is held for ever. -/
theorem spins_of_silent (hdue : m.state.deadline.any (· ≤ now) = true)
    (hvalid : m.state.validated = false) (hp : m.policy = some p) (hactive : p.isActive = true)
    (hzero : p.delayFor m.state.action = 0) : (m.onRecheck now .silent).1.Spins .silent now := by
  obtain ⟨s', out, hlook, hdec⟩ := onRecheck_of_active .silent hdue hvalid hp hactive
  have hheld := held_of_silent hdec
  rw [State.heldUntil_of_none_pending rfl] at hheld
  have hagain : (m.onRecheck now .silent).1.state.deadline.any (· ≤ now) = true := by
    simp [hlook, hheld, hzero]
  rcases fixed_or_rises hdue hagain with hfixed | hrises
  · exact spins_of_fixed hagain hfixed
  · rw [hlook, hheld] at hrises
    exact absurd hrises (Action.lt_irrefl _)

/-- Every rung is reached. -/
theorem exists_climbing (hactive : p.isActive = true) (n : Nat) :
    ∃ m : Machine, m.Reachable ∧ m.Climbing p 0 (n + 1) := by
  have hclear : p.clear.Clear p := ⟨⟨p.threshold, rfl, UInt8.le_refl _⟩, rfl⟩
  induction n with
  | zero =>
      obtain ⟨s', out, hreport, hdec⟩ :=
        onReport_of_active (m := .new p) 0 p.clear rfl hactive
      have hclimbing : Machine.Climbing p 0 1 ⟨some p, s'⟩ :=
        (climbing_of_decision (s := { State.healthy with validated := false }) hclear rfl
          p.rung_zero.symm rfl (.inl rfl) hdec).1
      have hreach := (Machine.Reachable.new p).step ⟨.validation false, 0, p.clear⟩
      have hstep : ((Machine.new p).step ⟨.validation false, 0, p.clear⟩).1 = ⟨some p, s'⟩ :=
        congrArg Prod.fst hreport
      rw [hstep] at hreach
      exact ⟨_, hreach, hclimbing⟩
  | succ n ih =>
      obtain ⟨m, hreach, hclimbing⟩ := ih
      exact ⟨_, hreach.step ⟨.recheck, p.dueAt 0 (n + 1), p.clear⟩,
        (hclimbing.recheck hactive hclear rfl).1⟩

theorem exists_rung {a : Action} (ha : a ∈ p.eligible) : ∃ k, p.rung (k + 1) = a := by
  obtain ⟨k, hk, hget⟩ := List.getElem_of_mem ha
  refine ⟨k, ?_⟩
  simp [Policy.rung, Nat.min_eq_left (Nat.succ_le_of_lt hk), hget]

/-- A wait that takes no time is waited for at some point, on any rung. -/
theorem exists_due (hactive : p.isActive = true) {a : Action} (ha : a = .baseline ∨ a ∈ p.eligible)
    (hzero : p.delayFor a = 0) :
    ∃ (m : Machine) (now : Nat), m.Reachable ∧ m.policy = some p ∧ m.state.validated = false
      ∧ m.state.action = a ∧ m.state.deadline = some now := by
  rcases ha with rfl | hmem
  · -- a stall that is held before anything was tried
    obtain ⟨s', out, hreport, hdec⟩ :=
      onReport_of_active (m := .new p) 0 .silent rfl hactive
    have hheld := held_of_silent hdec
    have hreach := (Machine.Reachable.new p).step ⟨.validation false, 0, .silent⟩
    have hstep : ((Machine.new p).step ⟨.validation false, 0, .silent⟩).1 = ⟨some p, s'⟩ :=
      congrArg Prod.fst hreport
    rw [hstep, hheld] at hreach
    exact ⟨_, _, hreach, rfl, rfl, rfl, rfl⟩
  · obtain ⟨k, rfl⟩ := exists_rung hmem
    obtain ⟨m, hreach, hclimbing⟩ := exists_climbing hactive k
    exact ⟨m, _, hreach, hclimbing.loaded, hclimbing.stalled, hclimbing.stands, hclimbing.watched⟩

theorem waits_of_goesIdle (hactive : p.isActive = true)
    (h : ∀ m : Machine, m.Reachable → m.policy = some p → ∀ now readings,
      m.GoesIdle now readings) : p.Waits := by
  intro a ha
  refine Nat.pos_of_ne_zero fun hzero => ?_
  obtain ⟨m, now, hreach, hp, hvalid, hstands, hd⟩ := exists_due hactive ha hzero
  have hdue : m.state.deadline.any (· ≤ now) = true := by simp [hd]
  obtain ⟨s', out, hlook, _⟩ := onRecheck_of_active .silent hdue hvalid hp hactive
  have hloaded : (m.onRecheck now .silent).1.policy = some p := by rw [hlook]
  have hidle := h _ (hreach.step ⟨.recheck, now, .silent⟩) hloaded now .silent
  exact not_spins_of_goesIdle hidle
    (spins_of_silent hdue hvalid hp hactive (by rw [hstands, hzero]))

/-! ## Controllers at one instant -/

/-- However often a controller is ready to look, it looks at most once. -/
theorem lookThrough_once {c : Controller} (h : Coherent c.machine) (hwaits : c.machine.Waits)
    (now : Nat) (readings : Readings) (looks : Nat) :
    c.lookThrough readings now now (looks + 1)
      = if c.machine.state.deadline.any (· ≤ now) then c.feed now (·.onRecheck now readings)
        else c := by
  rw [Controller.lookThrough]
  split
  · refine Controller.lookThrough_of_not_due readings now ?_ looks
    rw [Controller.machine_look]
    simp [not_due_after_look h hwaits now readings]
  · rfl

end

/--
**Looking again at one instant comes to an end exactly where waits take time.**

Under a policy, every machine that some run leads to goes idle at every instant and with any answers
of the guards, exactly if the policy can never act, or every wait that it can come to takes time: at
the baseline, and after each step that it leaves in. A controller then looks once at an instant, if
a re-check is due, and finds no reason to look once more.
-/
theorem goes_idle_iff_waits (p : Policy) :
    ((∀ m : Machine, m.Reachable → m.policy = some p → ∀ now readings, m.GoesIdle now readings)
      ↔ (p.isActive = true → p.Waits))
      ∧ ((p.isActive = true → p.Waits) → ∀ c : Controller, c.machine.Reachable →
        c.machine.policy = some p → ∀ now readings looks,
          c.lookThrough readings now now (looks + 1)
            = if c.machine.state.deadline.any (· ≤ now) then c.feed now (·.onRecheck now readings)
              else c) := by
  refine ⟨⟨fun h hactive => waits_of_goesIdle hactive h, ?_⟩, ?_⟩
  · intro hwaits m hreach hp now readings
    exact goesIdle_of_waits (coherent_reachable hreach) (waits_of_policy hp hwaits) now readings
  · intro hwaits c hreach hp now readings looks
    exact lookThrough_once (coherent_reachable hreach) (waits_of_policy hp hwaits) now readings
      looks

/-- The standard policy waits everywhere, so a re-check that a call holds is looked at once. -/
theorem goes_idle_standard :
    let m := ((Machine.start (.ok .standard)).run [reportedAt 0 4]).1
    Policy.standard.Waits ∧ m.state.deadline = some defaultDelay
      ∧ m.GoesIdle defaultDelay ⟨.ok 4, .ok .active⟩ := by
  intro m
  have hwaits : Policy.standard.Waits := fun a _ => by cases a <;> decide
  have hreach : m.Reachable := (reachable_start (.ok .standard)).run [reportedAt 0 4]
  have hp : m.policy = some .standard := by decide
  exact ⟨hwaits, by decide,
    (goes_idle_iff_waits .standard).1.mpr (fun _ => hwaits) m hreach hp defaultDelay _⟩

/-- Settings by which no step is waited for. -/
def hasty : Settings := { Settings.standard with delays := [0, 0, 0] }

/-- The settings are accepted, and then the modem is rebooted again and again at one instant, with a
re-check due for ever. -/
theorem hasty_never_idle :
    ∃ p, hasty.toPolicy = .ok p ∧
      let look : Stimulus := ⟨.recheck, 0, ⟨.ok 4, .ok .idle⟩⟩
      let m := ((Machine.start (.ok p)).run [reportedAt 0 4, look, look]).1
      ∀ n, ((m.run (List.replicate n look)).2.filterMap (·.dispatch)).length = n
        ∧ (m.run (List.replicate n look)).1.state.deadline = some 0 := by
  refine ⟨_, rfl, ?_⟩
  intro look m
  have hfixed : (m.step look).1 = m := by decide
  have hdispatch : (m.step look).2.dispatch = some .modemReboot := by decide
  have hdue : m.state.deadline = some 0 := by decide
  intro n
  rw [run_of_fixed hfixed n]
  exact ⟨by simp [hdispatch], hdue⟩

end StallRecovery
