import StallRecovery.Proofs.Clearance

/-!
# Holds wait, and never for long

A call, or a source that does not answer, holds recovery where it is. Of a hold two things have to
be known. It moves nothing: the step, its instant and the start of the episode stay, and so does a
re-check that is still to come. And it does not put off what it holds: a re-check is armed anew only
once the old one has come.

The second is a bound on whole runs. Every writer of the deadline adds the delay of the step it
leaves behind to its own instant, so a pending re-check is never more than one such delay away from
the latest input (`Near`), provided that the clock is not set back. Nothing writes the deadline when
a hold finds a re-check to come, so reports that are held on the way change nothing at all.
-/

namespace StallRecovery

/-- No input comes before an earlier one. -/
def Orderly (xs : List Stimulus) : Prop := xs.Pairwise fun x y => x.now ≤ y.now

/-- A pending re-check is at most one delay of the current step away. -/
def Near (now : Nat) (m : Machine) : Prop :=
  ∀ d, m.state.deadline = some d → ∃ p, m.policy = some p ∧ d ≤ now + p.delayFor m.state.action

/-- A decision is asked for under a policy that can act, and the guards hold it. -/
structure Holds (p : Policy) (reason : HoldReason) (m : Machine) (x : Stimulus) : Prop where
  loaded : m.policy = some p
  enabled : p.enabled = true
  left : ∃ a, a ≠ .baseline ∧ p.isSkipped a = false
  cause : x.input = .validation false
    ∨ x.input = .recheck ∧ ∃ d, m.state.deadline = some d ∧ d ≤ x.now
  verdict : (p.consult x.readings (m.state.action == .baseline)).verdict.hold? = some reason

/-- What a hold makes of a machine, and what it reports. -/
structure Held (p : Policy) (reason : HoldReason) (m : Machine) (x : Stimulus) (m' : Machine)
    (out : Outcome) : Prop where
  undispatched : out.dispatch = none
  reported : out.events = m.state.opening ++ [.held m.state.action reason]
  loaded : m'.policy = some p
  validated : m'.state.validated = false
  action : m'.state.action = m.state.action
  lastActionAt : m'.state.lastActionAt = m.state.lastActionAt
  episode : m'.state.episodeStarted = some (m.state.episodeStarted.getD x.now)
  /-- A re-check that is still to come stays. -/
  kept : ∀ d, m.state.deadline = some d → x.now < d → m'.state.deadline = some d
  /-- Otherwise one is armed. -/
  armed : (∀ d, m.state.deadline = some d → d ≤ x.now) →
    m'.state.deadline = some (x.now + p.delayFor m.state.action)

section

variable {m m' : Machine} {x : Stimulus} {out : Outcome} {p : Policy} {reason : HoldReason}

/-! ## What a hold does -/

theorem Holds.active (h : Holds p reason m x) : p.isActive = true :=
  Policy.isActive_of_left h.enabled h.left

/-- What is asked for is what a hold finds, but for a re-check that has come. -/
theorem Asks.heldUntil {trigger : Trigger} {s : State} (hask : Asks m x trigger s) (p : Policy) :
    s.heldUntil p x.now = m.state.heldUntil p x.now := by
  cases hask with
  | report hin => rfl
  | recheck hin hdue =>
      obtain ⟨d, hd, hle⟩ := (Option.any_eq_true _ _).mp hdue
      have hnot : m.state.deadline.any (x.now < ·) = false := by simpa [hd] using hle
      rw [State.heldUntil_of_none_pending hnot, State.heldUntil_of_none_pending rfl]

theorem held_decision {trigger : Trigger} {s s' : State} (h : Coherent m)
    (hask : Asks m x trigger s)
    (hverdict : (s.consulted p x.readings).verdict.hold? = some reason)
    (hdec : Decision p trigger x.now x.readings s s' out) :
    Held p reason m x ⟨some p, s'⟩ out := by
  cases hdec with
  | quiet level hweak hidle => exact absurd hverdict (by simp [hweak, Verdict.hold?])
  | ended level hweak hbusy => exact absurd hverdict (by simp [hweak, Verdict.hold?])
  | waited hproceed hstep hreport hearly =>
      exact absurd hverdict (by simp [hproceed, Verdict.hold?])
  | escalated hproceed hdue => exact absurd hverdict (by simp [hproceed, Verdict.hold?])
  | held reason' hhold =>
      have hreason : reason' = reason := Option.some.inj (hhold.symm.trans hverdict)
      subst hreason
      obtain ⟨haction, hepisode, hlast⟩ := hask.kept
      have huntil := hask.heldUntil p
      have hvalid : s.validated = false := hask.not_valid h
      refine ⟨rfl, ?_, rfl, hvalid, haction, hlast, ?_, ?_, ?_⟩
      · simp only [State.opening, haction, hepisode]
      · simp only [hepisode]
      · intro d hd hlt
        simp only [huntil, State.heldUntil_of_pending hd hlt]
      · intro hnot
        have hnone : m.state.deadline.any (x.now < ·) = false := by
          cases hd : m.state.deadline with
          | none => rfl
          | some d => simpa using hnot d hd
        simp only [huntil, State.heldUntil_of_none_pending hnone]

/-- **What the guards hold is held.** -/
theorem held_move (h : Coherent m) (hholds : Holds p reason m x) (hmove : Move m x m' out) :
    Held p reason m x m' out := by
  obtain ⟨trigger, s, s', hask, rfl, hdec⟩ :=
    hmove.decided_of_cause hholds.loaded hholds.active hholds.cause
  have hsame : s.consulted p x.readings
      = p.consult x.readings (m.state.action == .baseline) := by
    rw [State.consulted, hask.kept.1]
  refine held_decision h hask ?_ hdec
  rw [hsame]
  exact hholds.verdict

/-! ## How far away a re-check can be -/

theorem near_of_unwatched {now : Nat} (hd : m.state.deadline = none) : Near now m := by
  intro d hd'
  rw [hd] at hd'
  exact absurd hd' nofun

theorem Near.later {now later : Nat} (h : Near now m) (hle : now ≤ later) : Near later m := by
  intro d hd
  obtain ⟨p, hp, hnear⟩ := h d hd
  exact ⟨p, hp, by omega⟩

theorem near_decision {now : Nat} {trigger : Trigger} {s s' : State} (hnear : Near now m)
    (hle : now ≤ x.now) (hask : Asks m x trigger s) (hp : m.policy = some p)
    (hdec : Decision p trigger x.now x.readings s s' out) : Near x.now ⟨some p, s'⟩ := by
  -- a re-check that stays was near before, and the step it is measured by stays too
  have hstays : ∀ d, s.deadline = some d → d ≤ x.now + p.delayFor s.action := by
    intro d hd
    obtain ⟨q, hq, hbound⟩ := hnear d (hask.pending hd)
    cases hp.symm.trans hq
    rw [hask.kept.1]
    omega
  cases hdec with
  | quiet level hweak hidle => exact near_of_unwatched rfl
  | ended level hweak hbusy => exact near_of_unwatched rfl
  | waited hproceed hstep hreport hearly => exact fun d hd => ⟨p, rfl, hstays d hd⟩
  | escalated hproceed hdue =>
      intro d hd
      cases hd
      exact ⟨p, rfl, Nat.le_refl _⟩
  | held reason hhold =>
      intro d hd
      cases hd
      refine ⟨p, rfl, ?_⟩
      cases hpending : s.deadline.any (x.now < ·) with
      | true =>
          obtain ⟨d, hd, hlt⟩ := (Option.any_eq_true _ _).mp hpending
          rw [State.heldUntil_of_pending hd (by simpa using hlt)]
          exact hstays d hd
      | false =>
          exact Nat.le_of_eq (State.heldUntil_of_none_pending hpending)

/-- **An input leaves a re-check near**, if it does not come before the input that left it so. -/
theorem near_move {now : Nat} (hnear : Near now m) (hle : now ≤ x.now)
    (hmove : Move m x m' out) : Near x.now m' := by
  cases hmove with
  | refused f hin => exact hnear.later hle
  | failed a f hin => exact hnear.later hle
  | early hin hnot => exact hnear.later hle
  | recovered hin => exact near_of_unwatched rfl
  | decided p trigger s s' out hask hp hactive hdec => exact near_decision hnear hle hask hp hdec
  | inert trigger s hask hnone =>
      intro d hd
      obtain ⟨p, hp, hbound⟩ := hnear d (hask.pending hd)
      refine ⟨p, hp, ?_⟩
      simp only [hask.kept.1]
      omega
  | replaced p hin =>
      intro d hd
      refine ⟨p, rfl, ?_⟩
      simp only at hd ⊢
      split at hd
      · cases hd
        exact Nat.le_refl _
      · exact absurd hd nofun

theorem near_run {now later : Nat} {xs : List Stimulus} (h : Coherent m) (hnear : Near now m)
    (hle : now ≤ later) (horderly : Orderly xs)
    (hbetween : ∀ x ∈ xs, now ≤ x.now ∧ x.now ≤ later) : Near later (m.run xs).1 := by
  induction xs generalizing m now with
  | nil => exact hnear.later hle
  | cons x xs ih =>
      obtain ⟨hlater, horderly⟩ := List.pairwise_cons.mp horderly
      obtain ⟨⟨hfrom, hto⟩, hbetween⟩ := List.forall_mem_cons.mp hbetween
      have hmove := move_step h x
      refine ih (coherent_move h hmove) (near_move hnear hfrom hmove) hto horderly ?_
      intro y hy
      exact ⟨hlater y hy, (hbetween y hy).2⟩

/-! ## Held again and again -/

/-- Held before its re-check has come, an open episode stays as it is to the last field. -/
theorem Held.same {d : Nat} (h : Held p reason m x m' out) (hp : m.policy = some p)
    (hvalid : m.state.validated = false) (hopen : m.state.episodeStarted.isSome = true)
    (hd : m.state.deadline = some d) (hlt : x.now < d) : m' = m := by
  obtain ⟨t, ht⟩ := Option.isSome_iff_exists.mp hopen
  have hstate : m'.state = m.state := by
    apply State.ext
    · exact h.action
    · exact h.validated.trans hvalid.symm
    · exact (h.kept d hd hlt).trans hd.symm
    · rw [h.episode, ht, Option.getD_some]
    · exact h.lastActionAt
  exact Machine.ext (h.loaded.trans hp.symm) hstate

/-- However many reports are held before the re-check has come, they change nothing. -/
theorem run_held {d : Nat} {ys : List Stimulus} (h : Coherent m) (hp : m.policy = some p)
    (hvalid : m.state.validated = false) (hopen : m.state.episodeStarted.isSome = true)
    (hd : m.state.deadline = some d)
    (hys : ∀ y ∈ ys, y.now < d ∧ ∃ reason, Holds p reason m y) : (m.run ys).1 = m := by
  induction ys with
  | nil => rfl
  | cons y ys ih =>
      obtain ⟨⟨hlt, reason, hholds⟩, hys⟩ := List.forall_mem_cons.mp hys
      have hheld := held_move h hholds (move_step h y)
      have hstep : (m.step y).1 = m := hheld.same hp hvalid hopen hd hlt
      have hrun : (m.run (y :: ys)).1 = ((m.step y).1.run ys).1 := rfl
      rw [hrun, hstep]
      exact ih hys

/-- A re-check that is due under a policy that can act asks the guards. -/
theorem asked_of_due {d : Nat} (h : Coherent m) (hp : m.policy = some p)
    (hactive : p.isActive = true) (hd : m.state.deadline = some d) (hin : x.input = .recheck)
    (hle : d ≤ x.now) : (m.step x).2.asked ≠ [] := by
  obtain ⟨trigger, s, s', _, _, hdec⟩ :=
    (move_step h x).decided_of_cause hp hactive (.inr ⟨hin, d, hd, hle⟩)
  rw [asked_decision hdec]
  rcases asked_consult p x.readings (s.action == .baseline) with hasked | hasked
  · rw [State.consulted, hasked]
    nofun
  · rw [State.consulted, hasked]
    nofun

end

/--
**A hold moves nothing, and is looked at again within one delay.**

Whatever was fed before, an input whose decision the guards hold leaves the step where it is, and
leaves a re-check to come. While the clock is not set back, a re-check is never further away from the
latest input than the delay of the current step. So what is held is looked at again one delay later
at most: the reports that are held until then leave no trace, however many they are, and the
re-check asks the guards anew.
-/
theorem hold_decided_again (initial : Except Fault Policy) (xs : List Stimulus) (x : Stimulus) :
    let m := ((Machine.start initial).run xs).1
    let m' := (m.step x).1
    (Orderly (xs ++ [x]) → Near x.now m')
      ∧ ∀ p reason, Holds p reason m x →
        Held p reason m x m' (m.step x).2
          ∧ ∃ d, m'.state.deadline = some d
            ∧ (Orderly (xs ++ [x]) → d ≤ x.now + p.delayFor m.state.action)
            ∧ ∀ ys, (∀ y ∈ ys, y.now < d ∧ ∃ reason, Holds p reason m' y) →
              (m'.run ys).1 = m'
                ∧ ∀ z, z.input = .recheck → d ≤ z.now → (m'.step z).2.asked ≠ [] := by
  intro m m'
  have h : Coherent m := coherent_reachable ((reachable_start initial).run xs)
  have hmove : Move m x m' (m.step x).2 := move_step h x
  have h' : Coherent m' := coherent_move h hmove
  have hnear : Orderly (xs ++ [x]) → Near x.now m' := by
    intro horderly
    obtain ⟨hbefore, _, hlast⟩ := List.pairwise_append.mp horderly
    have hstart : Near 0 (Machine.start initial) := by
      cases initial with
      | ok p => exact near_of_unwatched rfl
      | error f => exact near_of_unwatched rfl
    have hrun := near_run (coherent_reachable (reachable_start initial)) hstart (Nat.zero_le x.now)
      hbefore (fun y hy => ⟨Nat.zero_le _, hlast y hy x (List.mem_singleton.mpr rfl)⟩)
    exact near_move hrun (Nat.le_refl _) hmove
  refine ⟨hnear, ?_⟩
  intro p reason hholds
  have hheld := held_move h hholds hmove
  have hopen : m'.state.episodeStarted.isSome = true := by rw [hheld.episode]; rfl
  obtain ⟨d, hd⟩ := Option.isSome_iff_exists.mp (h'.watched hopen).1
  refine ⟨hheld, d, hd, ?_, ?_⟩
  · intro horderly
    obtain ⟨q, hq, hbound⟩ := hnear horderly d hd
    cases hheld.loaded.symm.trans hq
    rwa [hheld.action] at hbound
  · intro ys hys
    refine ⟨run_held h' hheld.loaded hheld.validated hopen hd hys, ?_⟩
    intro z hin hle
    exact asked_of_due h' hheld.loaded hholds.active hd hin hle

/-- A stall that begins during a call is held, and looked at again. -/
theorem hold_decided_again_call :
    let m' := ((Machine.new .standard).step reportDuringCall).1
    let out := ((Machine.new .standard).step reportDuringCall).2
    Holds .standard (.inCall .active) (.new .standard) reportDuringCall
      ∧ Held .standard (.inCall .active) (.new .standard) reportDuringCall m' out
      ∧ ∃ d, m'.state.deadline = some d
        ∧ (Orderly [reportDuringCall] → d ≤ 0 + Policy.standard.delayFor .baseline)
        ∧ ∀ ys, (∀ y ∈ ys, y.now < d ∧ ∃ reason, Holds .standard reason m' y) →
          (m'.run ys).1 = m'
            ∧ ∀ z, z.input = .recheck → d ≤ z.now → (m'.step z).2.asked ≠ [] := by
  have hholds : Holds .standard (.inCall .active) (.new .standard) reportDuringCall :=
    ⟨rfl, rfl, ⟨.reestablishInternet, by decide, rfl⟩, .inl rfl, by decide⟩
  exact ⟨hholds, (hold_decided_again (.ok .standard) [] reportDuringCall).2 _ _ hholds⟩

end StallRecovery
