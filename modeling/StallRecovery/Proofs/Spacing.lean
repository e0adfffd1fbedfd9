import StallRecovery.Proofs.Escalation

/-!
# Dispatches keep their distance

A dispatch is let through by one of two rules: the re-check must be due, or, where a report asks for
it, the delay of the current step must have passed. Holds arm the re-check anew from the clock they
see, and the clock may be set back between inputs. What makes both rules one is `Paced`: a pending
re-check is never earlier than the last dispatch plus the delay of its step.

A hold keeps it because it only arms a new re-check once the old one has come, so the clock it sees
is past the last dispatch. That is the only place where time has to be compared, and no input is
assumed to come later than another.
-/

namespace StallRecovery

/-- A pending re-check leaves the last step its delay. -/
def Paced (m : Machine) : Prop :=
  ∀ p t d, m.policy = some p → m.state.lastActionAt = some t → m.state.deadline = some d →
    t + p.delayFor m.state.action ≤ d

/-- When a decision is asked for and no re-check is to come, the one that was pending has come. -/
theorem Asks.overdue {m : Machine} {x : Stimulus} {trigger : Trigger} {s : State}
    (h : Coherent m) (hask : Asks m x trigger s) (ha : m.state.action ≠ .baseline)
    (hnot : s.deadline.any (x.now < ·) = false) :
    ∃ d, m.state.deadline = some d ∧ d ≤ x.now := by
  obtain ⟨d, hd⟩ := h.deadline_of_tried ha
  refine ⟨d, hd, ?_⟩
  cases hask with
  | report hin => simpa [hd] using hnot
  | recheck hin hdue => simpa [hd] using hdue

/-- A step escalated from has had its delay. -/
theorem elapsed_of_escalated {m : Machine} {x : Stimulus} {trigger : Trigger} {s : State}
    {p : Policy} (h : Coherent m) (hpaced : Paced m) (hask : Asks m x trigger s)
    (hp : m.policy = some p)
    (hdue : s.action = .baseline ∨ trigger = .recheck ∨ s.stepElapsed p x.now = true)
    {t : Nat} (ht : m.state.lastActionAt = some t) :
    t + p.delayFor m.state.action ≤ x.now := by
  have ha : m.state.action ≠ .baseline := h.dated.mpr (by rw [ht]; rfl)
  -- both rules come to this: no re-check is still to come
  have hnot : s.deadline.any (x.now < ·) = false := by
    rcases hdue with hbase | rfl | helapsed
    · exact absurd (hask.kept.1 ▸ hbase) ha
    · cases hask with
      | recheck hin hdue => rfl
    · cases hask with
      | recheck hin hdue => rfl
      | report hin =>
          obtain ⟨d, hd⟩ := h.deadline_of_tried ha
          simpa [State.stepElapsed, hd] using helapsed
  obtain ⟨d, hd, hle⟩ := hask.overdue h ha hnot
  exact Nat.le_trans (hpaced p t d hp ht hd) hle

theorem paced_of_untried {policy : Option Policy} {s : State} (hs : s.lastActionAt = none) :
    Paced ⟨policy, s⟩ := by
  intro p t d _ ht
  rw [hs] at ht
  exact absurd ht (by simp)

theorem paced_decision {m : Machine} {x : Stimulus} {p : Policy} {trigger : Trigger}
    {s s' : State} {out : Outcome} (h : Coherent m) (hpaced : Paced m)
    (hask : Asks m x trigger s) (hp : m.policy = some p)
    (hdec : Decision p trigger x.now x.readings s s' out) : Paced ⟨some p, s'⟩ := by
  obtain ⟨haction, hepisode, hlast⟩ := hask.kept
  cases hdec with
  | quiet level hweak hidle =>
      have hclosed := hepisode.symm.trans (State.isIdle_iff.mp hidle).2
      exact paced_of_untried (hlast.trans (h.untried hclosed).2)
  | ended level hweak hbusy => exact paced_of_untried rfl
  | held reason hhold =>
      intro q t d hq ht hd
      cases hq
      cases hd
      simp only at ht
      rw [hlast] at ht
      cases hpending : s.deadline.any (x.now < ·) with
      | true =>
          -- the re-check that is still to come stays as it is
          obtain ⟨d, hd, hlt⟩ := (Option.any_eq_true _ _).mp hpending
          rw [State.heldUntil_of_pending hd (by simpa using hlt), haction]
          exact hpaced p t d hp ht (hask.pending hd)
      | false =>
          -- the old re-check has come, so the new one is armed after the last dispatch
          have ha : m.state.action ≠ .baseline := h.dated.mpr (by rw [ht]; rfl)
          obtain ⟨d, hd, hle⟩ := hask.overdue h ha hpending
          have hdelay := hpaced p t d hp ht hd
          rw [State.heldUntil_of_none_pending hpending, haction]
          omega
  | waited hproceed hstep hreport hearly =>
      -- nothing is armed and nothing performed
      intro q t d hq ht hd
      cases hq
      have hdelay := hpaced p t d hp (hlast.symm.trans ht) (hask.pending hd)
      rwa [← haction] at hdelay
  | escalated hproceed hdue =>
      intro q t d hq ht hd
      cases hq
      cases ht
      cases hd
      exact Nat.le_refl _

/-- **An input keeps the pace**, whatever its instant. -/
theorem paced_move {m m' : Machine} {x : Stimulus} {out : Outcome} (h : Coherent m)
    (hpaced : Paced m) (hmove : Move m x m' out) : Paced m' := by
  cases hmove with
  | refused f hin => exact hpaced
  | failed a f hin => exact hpaced
  | early hin hnot => exact hpaced
  | inert trigger s hask hnone =>
      obtain ⟨_, _, hlast⟩ := hask.kept
      exact paced_of_untried (hlast.trans (h.untried (h.closed_of_inert hnone)).2)
  | decided p trigger s s' out hask hp hactive hdec => exact paced_decision h hpaced hask hp hdec
  | recovered hin => exact paced_of_untried rfl
  | replaced p hin => exact paced_of_untried rfl

theorem paced_reachable {m : Machine} (h : m.Reachable) : Paced m := by
  induction h with
  | new p => exact paced_of_untried rfl
  | unconfigured => exact paced_of_untried rfl
  | step x hm ih =>
      have hcoherent := coherent_reachable hm
      exact paced_move hcoherent ih (move_step hcoherent x)

/-! ## The distance between dispatches -/

/-- A dispatch comes no earlier than the delay of the step before it allows. -/
def Spaced (st : Standing) (e : Entry) : Prop :=
  ∀ a, e.event.dispatched? = some a →
    ∃ p, e.policy = some p ∧ ∀ t, st.actedAt = some t → t + p.delayFor st.action ≤ e.time

/-- **Every dispatch of a log is spaced from the one before it.** -/
theorem spaced_log (initial : Except Fault Policy) (xs : List Stimulus) :
    Throughout Spaced .closed ((Machine.start initial).log xs) := by
  refine throughout_log (fun hm hmove => ?_) initial xs
  refine throughout_of_dispatch ?_ ?_ (coherent_reachable hm) hmove
  · intro st e he a ha
    rw [he] at ha
    exact absurd ha (by simp)
  · intro p trigger s hask hp _ hdue a _
    refine ⟨p, hp, fun t ht => ?_⟩
    exact elapsed_of_escalated (coherent_reachable hm) (paced_reachable hm) hask hp hdue ht

/-- The last dispatch before some point of an episode and those after it keep their distance. -/
theorem spaced_in_episode {p : Policy} {st : Standing} {body : List Entry}
    (h : Unfolds Spaced st body) (hp : st.policy = some p) :
    ((st.actedAt.map fun t => (t, st.action)).toList ++ dispatches body).Pairwise
      (fun x y => x.1 + p.delayFor x.2 ≤ y.1) := by
  induction h with
  | nil st =>
      cases st.actedAt with
      | none => exact .nil
      | some t => exact List.pairwise_singleton _ _
  | between hpolicy hnone rest ih =>
      rw [dispatches_cons_none hnone]
      exact ih hp
  | @dispatch st e es a hpolicy ha hspaced rest ih =>
      have hih := ih hp
      rw [dispatches_cons_some ha]
      cases hacted : st.actedAt with
      | none => exact hih
      | some t =>
          obtain ⟨q, hq, hgap⟩ := hspaced a ha
          rw [hpolicy, hp] at hq
          cases hq
          have hgap := hgap t hacted
          refine List.pairwise_cons.mpr ⟨?_, hih⟩
          -- what comes after the next dispatch is further away still
          intro y hy
          rcases List.mem_cons.mp hy with rfl | hy
          · exact hgap
          · have hlater := (List.pairwise_cons.mp hih).1 y hy
            simp only at hlater ⊢
            omega

/-- Dispatches that keep a positive distance are at most one at any instant. -/
theorem length_at_le_one {p : Policy} (hpos : ∀ a, 0 < p.delayFor a) {ds : List (Nat × Action)}
    (h : ds.Pairwise fun x y => x.1 + p.delayFor x.2 ≤ y.1) (now : Nat) :
    (ds.filter (·.1 = now)).length ≤ 1 := by
  have hat : ∀ x ∈ ds.filter (·.1 = now), x.1 = now := by
    intro x hx
    simpa using (List.mem_filter.mp hx).2
  have hspaced := h.filter (·.1 = now)
  cases hds : ds.filter (·.1 = now) with
  | nil => exact Nat.zero_le 1
  | cons x rest =>
      cases rest with
      | nil => exact Nat.le_refl 1
      | cons y rest =>
          rw [hds] at hat hspaced
          have hgap := (List.pairwise_cons.mp hspaced).1 y List.mem_cons_self
          have hx := hat x List.mem_cons_self
          have hy := hat y (List.mem_cons_of_mem x List.mem_cons_self)
          have hdelay := hpos x.2
          omega

/--
**Dispatches of an episode are spaced by the delays of its policy.**

In every run, at whatever instants its inputs come, each dispatch of an episode is at least the
delay of its step before every later one. So if delays are positive, an episode performs at most one
step at any instant, however far the clock has jumped to get there.
-/
theorem episode_spaced (initial : Except Fault Policy) (xs : List Stimulus) {opening : Entry}
    {body : List Entry} (h : EpisodeIn ((Machine.start initial).log xs) opening body) :
    ∃ p, opening.policy = some p ∧ (∀ e ∈ body, e.policy = some p)
      ∧ (dispatches body).Pairwise (fun x y => x.1 + p.delayFor x.2 ≤ y.1)
      ∧ ((∀ a, 0 < p.delayFor a) →
          ∀ now, ((dispatches body).filter (·.1 = now)).length ≤ 1) := by
  have hfits := faithful_log initial xs
  obtain ⟨p, _, hp, hbody⟩ := h.policy hfits
  have hspaced := spaced_in_episode (h.unfolds hfits (spaced_log initial xs)) hp
  exact ⟨p, hp, hbody, hspaced, fun hpos => length_at_le_one hpos hspaced⟩

/-- The stall waits for the call to end, and once its clock has jumped it reboots only once. -/
theorem episode_spaced_stall :
    dispatches stallReport
        = [(0, .reestablishInternet), (210, .modemReboot), (5000, .modemReboot)]
      ∧ ∃ p, some withoutPowerCycle = some p
        ∧ (∀ e ∈ stallReport, e.policy = some p)
        ∧ (dispatches stallReport).Pairwise (fun x y => x.1 + p.delayFor x.2 ≤ y.1)
        ∧ ((∀ a, 0 < p.delayFor a) →
            ∀ now, ((dispatches stallReport).filter (·.1 = now)).length ≤ 1) :=
  ⟨by decide, episode_spaced (.ok withoutPowerCycle) stall stall_episode⟩

end StallRecovery
