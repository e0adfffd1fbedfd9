import StallRecovery.Proofs.Chronicle

/-!
# An episode climbs in order

Within an episode nothing but a dispatch moves the step, and a dispatch moves it to `target`. Holds,
early reports, failed actions and refused policies may come between dispatches in any number, and
leave it where it is; a replaced policy ends the episode. So the actions of an episode depend on the
policy alone: they are its steps left in, in order, with the last of them repeated.

The log carries the argument. `Climbs` says of one entry that a dispatch performs the target of the
step before it; along an episode that puts the `k`-th dispatch on `rung k`.
-/

namespace StallRecovery

/-- `opening` begins an episode of a log, and `body` is what is reported after it, up to the reset
of the episode or up to anywhere before it. -/
structure EpisodeIn (log : List Entry) (opening : Entry) (body : List Entry) : Prop where
  /-- The episode begins with its opening. -/
  starts : opening.event = .episodeStarted
  /-- It has not been reset. -/
  lasts : ∀ e ∈ body, e.event.resetReason? = none
  /-- It is a stretch of the log. -/
  found : ∃ before after, log = before ++ opening :: (body ++ after)

/-- The dispatches among some entries: each with its instant, in order. -/
def dispatches (es : List Entry) : List (Nat × Action) :=
  es.filterMap fun e => e.event.dispatched?.map fun a => (e.time, a)

theorem dispatches_cons_none {e : Entry} (he : e.event.dispatched? = none) (es : List Entry) :
    dispatches (e :: es) = dispatches es := by
  unfold dispatches
  rw [List.filterMap_cons_none (by rw [he]; rfl)]

theorem dispatches_cons_some {e : Entry} {a : Action} (he : e.event.dispatched? = some a)
    (es : List Entry) : dispatches (e :: es) = (e.time, a) :: dispatches es := by
  unfold dispatches
  rw [List.filterMap_cons_some (by rw [he]; rfl)]

/-! ## What a dispatch is known to do -/

section

variable {P : Standing → Entry → Prop}

/-- A property that only dispatches could break holds along the entries of an input, if it holds of
a dispatch that the input makes. -/
theorem throughout_of_dispatch {m m' : Machine} {x : Stimulus} {out : Outcome}
    (hother : ∀ st e, e.event.dispatched? = none → P st e)
    (hdispatch : ∀ p trigger s, Asks m x trigger s → m.policy = some p → p.isActive = true →
      (s.action = .baseline ∨ trigger = .recheck ∨ s.stepElapsed p x.now = true) →
      P ⟨some (s.episodeStarted.getD x.now), m.policy, m.state.action, m.state.lastActionAt⟩
        ⟨x.now, m.policy, .actionDispatched (p.target s.action)⟩)
    (h : Coherent m) (hmove : Move m x m' out) :
    Throughout P m.standing (m.entries x out) := by
  -- what reports no dispatch is settled by `hother`, whatever is known before it
  have hnone : ∀ es : List Event, es.filterMap Event.dispatched? = [] →
      Throughout P m.standing (m.entries x { events := es }) := by
    intro es hes
    refine throughout_of_forall ?_
    intro st e he
    obtain ⟨event, hevent, rfl⟩ := List.mem_map.mp he
    exact hother st _ (List.filterMap_eq_nil_iff.mp hes event hevent)
  have hevents := dispatched_move hmove
  cases hmove with
  | refused f hin => exact hnone _ hevents
  | failed a f hin => exact hnone _ hevents
  | early hin hnot => exact hnone _ hevents
  | inert trigger s hask hnone' => exact hnone _ hevents
  | recovered hin => exact hnone _ hevents
  | replaced p hin => exact hnone _ hevents
  | decided p trigger s s' out hask hp hactive hdec =>
      cases hdec with
      | quiet level hweak hidle => exact hnone _ hevents
      | ended level hweak hbusy => exact hnone _ hevents
      | held reason hhold => exact hnone _ hevents
      | waited hproceed hstep hreport hearly => exact hnone _ hevents
      | escalated hproceed hdue =>
          rw [entries_append, throughout_append, standing_opening h hask.kept.2.1]
          exact
            ⟨hnone _ (dispatched_opening s), hdispatch p trigger s hask hp hactive hdue, trivial⟩

end

/-! ## The order of the dispatches -/

/-- A dispatch performs the target of the step before it, under the policy in force. -/
def Climbs (st : Standing) (e : Entry) : Prop :=
  ∀ a, e.event.dispatched? = some a → ∃ p, e.policy = some p ∧ a = p.target st.action

/-- **Every dispatch of a log climbs.** -/
theorem climbs_log (initial : Except Fault Policy) (xs : List Stimulus) :
    Throughout Climbs .closed ((Machine.start initial).log xs) := by
  refine throughout_log (fun hm hmove => ?_) initial xs
  refine throughout_of_dispatch ?_ ?_ (coherent_reachable hm) hmove
  · intro st e he a ha
    rw [he] at ha
    exact absurd ha (by simp)
  · intro p trigger s hask hp _ _ a ha
    cases ha
    exact ⟨p, hp, by rw [hask.kept.1]⟩

/-! ## Within an episode -/

/-- How an episode unfolds from a standing in it: the policy stays, only a dispatch changes what is
known, and every dispatch has the property `P`. -/
inductive Unfolds (P : Standing → Entry → Prop) : Standing → List Entry → Prop where
  | nil (st : Standing) : Unfolds P st []
  | between {st : Standing} {e : Entry} {es : List Entry} (hpolicy : e.policy = st.policy)
      (hnone : e.event.dispatched? = none) (rest : Unfolds P st es) : Unfolds P st (e :: es)
  | dispatch {st : Standing} {e : Entry} {es : List Entry} (a : Action)
      (hpolicy : e.policy = st.policy) (ha : e.event.dispatched? = some a) (hP : P st e)
      (rest : Unfolds P { st with action := a, actedAt := some e.time } es) :
      Unfolds P st (e :: es)

section

variable {P : Standing → Entry → Prop} {st : Standing} {body : List Entry}

/-- A log that fits unfolds from a standing with an open episode, for as long as nothing resets
it. -/
theorem unfolds_of_throughout (hopen : st.began.isSome = true)
    (hlasts : ∀ e ∈ body, e.event.resetReason? = none) (hfits : Throughout Faithful st body)
    (hP : Throughout P st body) : Unfolds P st body := by
  induction body generalizing st with
  | nil => exact .nil st
  | cons e es ih =>
      obtain ⟨hlast, hrest⟩ := List.forall_mem_cons.mp hlasts
      obtain ⟨⟨hpolicy, hfit⟩, hfits⟩ := hfits
      obtain ⟨hhere, hP⟩ := hP
      obtain ⟨time, policy, event⟩ := e
      cases event with
      | episodeStarted =>
          -- no episode begins within another
          have hclosed : st.began = none := hfit.1
          rw [hclosed] at hopen
          exact absurd hopen (by simp)
      | actionDispatched a =>
          exact .dispatch a (hpolicy hopen) rfl hhere (ih hopen hrest hfits hP)
      | held a reason => exact .between (hpolicy hopen) rfl (ih hopen hrest hfits hP)
      | reset source reason episode signal => exact absurd hlast (by simp [Event.resetReason?])
      | dispatchFailed a reason => exact .between (hpolicy hopen) rfl (ih hopen hrest hfits hP)
      | configRejected message => exact .between (hpolicy hopen) rfl (ih hopen hrest hfits hP)

/-- What holds along a log holds along an episode in it, from the standing at its opening. -/
theorem EpisodeIn.throughout {log : List Entry} {opening : Entry}
    (h : EpisodeIn log opening body) (hP : Throughout P .closed log) :
    Throughout P ⟨some opening.time, opening.policy, .baseline, none⟩ body := by
  obtain ⟨before, after, rfl⟩ := h.found
  have hbody := (throughout_append.mp hP).2.2
  have hnext : ∀ st : Standing,
      st.next opening = ⟨some opening.time, opening.policy, .baseline, none⟩ := by
    intro st
    unfold Standing.next
    rw [h.starts]
  rw [hnext] at hbody
  exact (throughout_append.mp hbody).1

/-- An episode of a run unfolds from its opening. -/
theorem EpisodeIn.unfolds {log : List Entry} {opening : Entry} (h : EpisodeIn log opening body)
    (hfits : Throughout Faithful .closed log) (hP : Throughout P .closed log) :
    Unfolds P ⟨some opening.time, opening.policy, .baseline, none⟩ body :=
  unfolds_of_throughout rfl h.lasts (h.throughout hfits) (h.throughout hP)

theorem policy_in_episode (h : Unfolds P st body) : ∀ e ∈ body, e.policy = st.policy := by
  induction h with
  | nil st => simp
  | between hpolicy hnone rest ih => exact List.forall_mem_cons.mpr ⟨hpolicy, ih⟩
  | dispatch a hpolicy ha hP rest ih => exact List.forall_mem_cons.mpr ⟨hpolicy, ih⟩

end

/-- From a standing on `rung k`, the dispatches of an episode go on with `rung (k + 1)`. -/
theorem climbs_in_episode {p : Policy} {k : Nat} {st : Standing} {body : List Entry}
    (h : Unfolds Climbs st body) (hp : st.policy = some p) (hk : st.action = p.rung k) :
    (dispatches body).map Prod.snd
      = (List.range (dispatches body).length).map fun i => p.rung (k + 1 + i) := by
  induction h generalizing k with
  | nil st => rfl
  | between hpolicy hnone rest ih =>
      rw [dispatches_cons_none hnone]
      exact ih hp hk
  | dispatch a hpolicy ha hclimbs rest ih =>
      -- the dispatch takes the episode one rung up
      have hrung : a = p.rung (k + 1) := by
        obtain ⟨q, hq, htarget⟩ := hclimbs a ha
        rw [hpolicy, hp] at hq
        cases hq
        rw [htarget, hk, Policy.target_rung]
      have hih := ih (k := k + 1) hp hrung
      rw [dispatches_cons_some ha, List.map_cons, hih, List.length_cons,
        List.range_succ_eq_map, List.map_cons, List.map_map, ← hrung]
      refine congrArg (a :: ·) (List.map_congr_left fun i _ => ?_)
      exact congrArg p.rung (by omega)

/-- An episode of a run has one policy, which can act. -/
theorem EpisodeIn.policy {log body : List Entry} {opening : Entry}
    (h : EpisodeIn log opening body) (hfits : Throughout Faithful .closed log) :
    ∃ p, p.isActive = true ∧ opening.policy = some p ∧ ∀ e ∈ body, e.policy = some p := by
  obtain ⟨before, after, hlog⟩ := h.found
  have hopening : Faithful (before.foldl Standing.next .closed) opening := by
    rw [hlog] at hfits
    exact hfits.entry
  have hstart := hopening.2
  rw [h.starts] at hstart
  obtain ⟨_, p, hp, hactive⟩ := hstart
  refine ⟨p, hactive, hp, fun e he => ?_⟩
  rw [policy_in_episode (h.unfolds hfits hfits) e he]
  exact hp

/--
**An episode climbs in order.**

In every run, whatever is interleaved, the actions dispatched in an episode are the steps that its
policy leaves in, in the order of the ladder, followed by the last of them again and again: the
first is performed first, none is jumped, and neither the baseline nor a step left out is performed.
-/
theorem episode_climbs (initial : Except Fault Policy) (xs : List Stimulus) {opening : Entry}
    {body : List Entry} (h : EpisodeIn ((Machine.start initial).log xs) opening body) :
    ∃ p, opening.policy = some p ∧ (∀ e ∈ body, e.policy = some p)
      ∧ p.eligible.Pairwise (· < ·)
      ∧ (∃ hne : p.eligible ≠ [], ∃ n,
          (dispatches body).map Prod.snd
            <+: p.eligible ++ List.replicate n (p.eligible.getLast hne))
      ∧ ∀ a ∈ (dispatches body).map Prod.snd,
          a ≠ .baseline ∧ p.isSkipped a = false ∧ ¬ Action.final < a := by
  have hfits := faithful_log initial xs
  obtain ⟨p, hactive, hp, hbody⟩ := h.policy hfits
  have hne : p.eligible ≠ [] := (Policy.isActive_iff.mp hactive).2
  have hclimbs :=
    climbs_in_episode (h.unfolds hfits (climbs_log initial xs)) hp p.rung_zero.symm
  have hactions : (dispatches body).map Prod.snd
      = (List.range (dispatches body).length).map fun i => p.rung (i + 1) := by
    rw [hclimbs]
    exact List.map_congr_left fun i _ => congrArg p.rung (by omega)
  refine ⟨p, hp, hbody, p.eligible_sorted, ⟨hne, (dispatches body).length, ?_⟩, ?_⟩
  · rw [hactions]
    exact Policy.rungs_prefix hne _
  · intro a ha
    rw [hactions] at ha
    obtain ⟨i, _, rfl⟩ := List.mem_map.mp ha
    obtain ⟨hstep, hleft⟩ := Policy.mem_eligible.mp (Policy.rung_mem hne i)
    exact ⟨hstep, hleft, Action.not_final_lt _⟩

/-! ## A stall in full -/

/-- A policy that leaves the radio power cycle out, with short delays. -/
def withoutPowerCycle : Policy :=
  { Policy.standard with
    reestablish := ⟨100, false⟩
    powerCycle := ⟨200, true⟩
    reboot := ⟨300, false⟩ }

/-- A stall with a failed action, an early report, a call, a refused policy and a clock set back. -/
def stall : List Stimulus :=
  let calm : Readings := ⟨.ok 4, .ok .idle⟩
  let onCall : Readings := ⟨.ok 4, .ok .active⟩
  [⟨.validation false, 0, calm⟩, ⟨.fail .reestablishInternet .stopped, 20, calm⟩,
    ⟨.validation false, 50, calm⟩, ⟨.recheck, 100, onCall⟩, ⟨.refuse .stopped, 150, calm⟩,
    ⟨.recheck, 210, calm⟩, ⟨.validation false, 40, calm⟩, ⟨.recheck, 5000, calm⟩,
    ⟨.validation true, 5001, calm⟩]

/-- What the stall makes the machine report between the start of the episode and its reset. -/
def stallReport : List Entry :=
  [⟨0, some withoutPowerCycle, .actionDispatched .reestablishInternet⟩,
    ⟨20, some withoutPowerCycle, .dispatchFailed .reestablishInternet Fault.stopped.message⟩,
    ⟨100, some withoutPowerCycle, .held .reestablishInternet (.inCall .active)⟩,
    ⟨150, some withoutPowerCycle, .configRejected Fault.stopped.message⟩,
    ⟨210, some withoutPowerCycle, .actionDispatched .modemReboot⟩,
    ⟨5000, some withoutPowerCycle, .actionDispatched .modemReboot⟩]

theorem stall_episode :
    EpisodeIn ((Machine.start (.ok withoutPowerCycle)).log stall)
      ⟨0, some withoutPowerCycle, .episodeStarted⟩ stallReport where
  starts := rfl
  lasts := by decide
  found :=
    ⟨[], [⟨5001, some withoutPowerCycle, .reset .modemReboot .recovered (some 5001) none⟩],
      by decide⟩

/-- The stall climbs from the first step to the last and repeats it. -/
theorem episode_climbs_stall :
    dispatches stallReport
        = [(0, .reestablishInternet), (210, .modemReboot), (5000, .modemReboot)]
      ∧ ∃ p, some withoutPowerCycle = some p
        ∧ (∀ e ∈ stallReport, e.policy = some p)
        ∧ p.eligible.Pairwise (· < ·)
        ∧ (∃ hne : p.eligible ≠ [], ∃ n,
            (dispatches stallReport).map Prod.snd
              <+: p.eligible ++ List.replicate n (p.eligible.getLast hne))
        ∧ ∀ a ∈ (dispatches stallReport).map Prod.snd,
            a ≠ .baseline ∧ p.isSkipped a = false ∧ ¬ Action.final < a :=
  ⟨by decide, episode_climbs (.ok withoutPowerCycle) stall stall_episode⟩

end StallRecovery
