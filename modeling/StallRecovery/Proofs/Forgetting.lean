import StallRecovery.Proofs.Coherence

/-!
# Valid reports and new policies forget the past

Neither a report that the network is valid nor a new policy clears every field of the state. Where
no episode is open both write the deadline alone, and rely on the fields they leave to be clear
already. That they are is a fact about whole runs, and coherence settles it: without an open episode
no step was tried, and no instant of one is on record.

So nothing but the policy outlives a valid report, and the machine goes on like one that has been
fed nothing. Nothing but the last report outlives a new policy: two machines that agree in that are
one machine from then on, whatever either has been through.
-/

namespace StallRecovery

/-- A machine that has been fed nothing, under a policy or without one. -/
def Machine.fresh : Option Policy → Machine
  | some p => .new p
  | none => .unconfigured

theorem Machine.fresh_eq (policy : Option Policy) : Machine.fresh policy = ⟨policy, .healthy⟩ := by
  cases policy with
  | none => rfl
  | some p => rfl

/-- What a new policy leaves of a machine: itself, what was last reported, and a re-check if the
network is not valid and the policy does anything about it. -/
structure Reloaded (p : Policy) (now : Nat) (reported : Bool) (m : Machine) : Prop where
  loaded : m.policy = some p
  untried : m.state.action = .baseline
  closed : m.state.episodeStarted = none
  undated : m.state.lastActionAt = none
  validated : m.state.validated = reported
  watched : ∀ d, m.state.deadline = some d
    ↔ reported = false ∧ p.enabled = true ∧ d = now + p.delayFor .baseline

section

variable {m n : Machine}

/-- In a coherent machine an episode that is closed from outside is known by its start alone. -/
theorem closing_eq (h : Coherent m) (reason : ResetReason) (now : Nat) :
    m.state.closing reason now = match m.state.episodeStarted with
      | none => []
      | some t => [.reset m.state.action reason (some (now - t)) none] := by
  unfold State.closing
  cases he : m.state.episodeStarted with
  | none =>
      have hidle : m.state.isIdle = true := h.isIdle_iff.mpr he
      rw [if_pos hidle]
  | some t =>
      have hbusy : ¬ m.state.isIdle = true := by
        intro hidle
        have hnone := h.isIdle_iff.mp hidle
        rw [he] at hnone
        exact absurd hnone nofun
      rw [if_neg hbusy]
      simp [State.reset, he]

/-- Whatever a run goes on with after a valid report, it gets the answers of a fresh machine. -/
theorem run_after_valid (h : Coherent m) {x : Stimulus} (hin : x.input = .validation true)
    (zs : List Stimulus) :
    m.run (x :: zs)
      = (((Machine.fresh m.policy).run zs).1,
        (m.step x).2 :: ((Machine.fresh m.policy).run zs).2) := by
  have hstep : (m.step x).1 = Machine.fresh m.policy := by
    simp only [Machine.step, hin]
    rw [onValidation_true h, Machine.fresh_eq]
  rw [← hstep]
  rfl

theorem reloaded_onReload (h : Coherent m) (p : Policy) (now : Nat) :
    Reloaded p now m.state.validated (m.onReload p now).1 := by
  rw [onReload_eq h]
  refine ⟨rfl, rfl, rfl, rfl, rfl, ?_⟩
  intro d
  cases hv : m.state.validated with
  | true => simp
  | false =>
      cases he : p.enabled with
      | true => simp [eq_comm]
      | false => simp

/-- Two machines that were last told the same are the same under a new policy. -/
theorem Reloaded.unique {p : Policy} {now : Nat} {reported : Bool}
    (hm : Reloaded p now reported m) (hn : Reloaded p now reported n) : m = n := by
  have hstate : m.state = n.state := by
    apply State.ext
    · exact hm.untried.trans hn.untried.symm
    · exact hm.validated.trans hn.validated.symm
    · apply Option.ext
      intro d
      rw [hm.watched d, hn.watched d]
    · exact hm.closed.trans hn.closed.symm
    · exact hm.undated.trans hn.undated.symm
  exact Machine.ext (hm.loaded.trans hn.loaded.symm) hstate

end

/--
**Valid reports and new policies forget the past.**

Whatever a machine has been through, a valid report leaves it fresh under its policy, so that
everything it answers later is what a fresh machine would answer. A new policy leaves nothing but
what was last reported: any two machines that agree in that are the same after it. It reports the
reset of the episode that was open, and nothing if there was none.
-/
theorem past_forgotten (initial initial' : Except Fault Policy) (xs ys : List Stimulus) :
    let m := ((Machine.start initial).run xs).1
    let n := ((Machine.start initial').run ys).1
    (∀ now readings, (m.onValidation true now readings).1 = .fresh m.policy)
      ∧ (∀ x zs, x.input = .validation true →
        ((Machine.start initial).run (xs ++ x :: zs)).2
          = ((Machine.start initial).run xs).2
            ++ (m.step x).2 :: ((Machine.fresh m.policy).run zs).2)
      ∧ ∀ p now,
        Reloaded p now m.state.validated (m.onReload p now).1
          ∧ (m.onReload p now).2 = { events := match m.state.episodeStarted with
              | none => []
              | some t => [.reset m.state.action .reconfigured (some (now - t)) none] }
          ∧ (m.state.validated = n.state.validated →
            (m.onReload p now).1 = (n.onReload p now).1) := by
  intro m n
  have hm : Coherent m := coherent_reachable ((reachable_start initial).run xs)
  have hn : Coherent n := coherent_reachable ((reachable_start initial').run ys)
  refine ⟨?_, ?_, ?_⟩
  · intro now readings
    rw [onValidation_true hm, Machine.fresh_eq]
  · intro x zs hin
    rw [Machine.run_append]
    have hrun := run_after_valid hm hin zs
    rw [hrun]
  · intro p now
    refine ⟨reloaded_onReload hm p now, ?_, ?_⟩
    · rw [onReload_eq hm, closing_eq hm]
    · intro hsame
      have hreloaded := reloaded_onReload hn p now
      rw [← hsame] at hreloaded
      exact (reloaded_onReload hm p now).unique hreloaded

/-- A report that the network is not valid, with a signal of this strength and no call. -/
def reportedAt (now : Nat) (level : UInt8) : Stimulus :=
  ⟨.validation false, now, ⟨.ok level, .ok .idle⟩⟩

/-- A machine that has tried a step and one that was too weak to are the same under a new policy,
and fresh after a valid report. -/
theorem past_forgotten_strong_and_weak :
    let m := ((Machine.start (.ok .standard)).run [reportedAt 5 4]).1
    let n := ((Machine.start (.ok .standard)).run [reportedAt 7 0]).1
    let valid : Stimulus := ⟨.validation true, 9, ⟨.ok 4, .ok .idle⟩⟩
    m.state.action = .reestablishInternet ∧ n.state.action = .baseline
      ∧ m.state.validated = n.state.validated
      ∧ (∀ p now, (m.onReload p now).1 = (n.onReload p now).1)
      ∧ valid.input = .validation true
      ∧ ∀ zs, ((Machine.start (.ok .standard)).run ([reportedAt 5 4] ++ valid :: zs)).2
        = ((Machine.start (.ok .standard)).run [reportedAt 5 4]).2
          ++ (m.step valid).2 :: ((Machine.fresh m.policy).run zs).2 := by
  intro m n valid
  have hforgotten :=
    past_forgotten (.ok .standard) (.ok .standard) [reportedAt 5 4] [reportedAt 7 0]
  refine ⟨by decide, by decide, by decide, ?_, rfl, ?_⟩
  · intro p now
    exact (hforgotten.2.2 p now).2.2 (by decide)
  · intro zs
    exact hforgotten.2.1 valid zs rfl

end StallRecovery
