import StallRecovery.Proofs.Clearance
import StallRecovery.Proofs.Rehearsal

/-!
# Policies under which nothing happens

A policy that is switched off, one that leaves every step out, and no policy at all come to the
same: recovery never acts. The machine does not treat them alike, and under one that leaves every
step out it even keeps a re-check; but none of them opens an episode, and the one that is open when
such a policy is loaded ends there. What is left to report are faults.

A simulation under settings that describe no policy is the plainest case, and its report can be
written down.
-/

namespace StallRecovery

/-- A policy under which recovery never acts, or none. -/
inductive Inert : Option Policy → Prop where
  | absent : Inert none
  | disabled {p : Policy} (hoff : p.enabled = false) : Inert (some p)
  | skipped {p : Policy} (hall : ∀ a ∈ Action.steps, p.isSkipped a = true) : Inert (some p)

theorem Inert.isActive_eq_false {policy : Option Policy} (h : Inert policy) :
    ∀ p, policy = some p → p.isActive = false := by
  intro p hp
  subst hp
  rw [← Bool.not_eq_true, Policy.isActive_iff]
  rintro ⟨henabled, hleft⟩
  cases h with
  | disabled hoff =>
      rw [hoff] at henabled
      exact Bool.false_ne_true henabled
  | skipped hall =>
      obtain ⟨a, ha⟩ := List.exists_mem_of_ne_nil _ hleft
      obtain ⟨hstep, hin⟩ := Policy.mem_eligible.mp ha
      rw [hall a (Action.mem_steps.mpr hstep)] at hin
      exact Bool.false_ne_true hin.symm

/-- No step was tried and no episode is open. -/
structure Snapshot.Idle (s : Snapshot) : Prop where
  untried : s.action = .baseline
  closed : s.episodeStarted = none

theorem Coherent.idle_of_inert {m : Machine} (h : Coherent m) (hinert : Inert m.policy) :
    m.snapshot.Idle := by
  have hclosed := h.closed_of_inert hinert.isActive_eq_false
  exact ⟨(h.untried hclosed).1, hclosed⟩

/-! ## A turn -/

/-- A turn in which nothing is done and nobody is asked. What is reported are faults, or the end of
the episode that was open when the policy was loaded. -/
structure Uneventful (m : Machine) (t : Turn) : Prop where
  undispatched : (m.take t).2.dispatch = none
  unasked : (m.take t).2.asked = []
  reported : ∀ e ∈ (m.take t).2.events, e.isNote = true
    ∨ ∃ p source episode, t.work = .command (.reload (.ok p)) ∧ ¬ Inert m.policy
      ∧ e = .reset source .reconfigured episode none
  idle : (m.take t).1.snapshot.Idle

section

variable {m m' : Machine} {x : Stimulus} {out : Outcome} {t : Turn}

theorem uneventful_of_move (h : Coherent m) (hmove : Move m x m' out) (hinert : Inert m'.policy) :
    out.dispatch = none ∧ out.asked = []
      ∧ ∀ e ∈ out.events, e.isNote = true
        ∨ ∃ p source episode, x.input = .reload p ∧ ¬ Inert m.policy
          ∧ e = .reset source .reconfigured episode none := by
  cases hmove with
  | refused f hin => exact ⟨rfl, rfl, fun e he => .inl (by rw [List.mem_singleton.mp he]; rfl)⟩
  | failed a f hin => exact ⟨rfl, rfl, fun e he => .inl (by rw [List.mem_singleton.mp he]; rfl)⟩
  | early hin hnot => exact ⟨rfl, rfl, fun e he => absurd he List.not_mem_nil⟩
  | inert trigger s hask hnone => exact ⟨rfl, rfl, fun e he => absurd he List.not_mem_nil⟩
  | decided p trigger s s' out hask hp hactive hdec =>
      have hoff := hinert.isActive_eq_false p rfl
      rw [hactive] at hoff
      exact absurd hoff.symm Bool.false_ne_true
  | recovered hin =>
      have hidle : m.state.isIdle = true :=
        h.isIdle_iff.mpr (h.closed_of_inert hinert.isActive_eq_false)
      refine ⟨rfl, rfl, fun e he => absurd he ?_⟩
      simp [State.closing, hidle]
  | replaced p hin =>
      refine ⟨rfl, rfl, fun e he => .inr ?_⟩
      simp only [State.closing] at he
      split at he
      · exact absurd he List.not_mem_nil
      · rename_i hbusy
        -- an episode is open, so the policy before could act
        have hactive : ¬ Inert m.policy := by
          intro hinert'
          exact hbusy (h.isIdle_iff.mpr (h.closed_of_inert hinert'.isActive_eq_false))
        exact ⟨p, _, _, hin, hactive, List.mem_singleton.mp he⟩

theorem reload_of_input {w : Work} {p : Policy} (h : w.input? = some (.reload p)) :
    w = .command (.reload (.ok p)) := by
  cases w with
  | refusal fault => exact absurd h nofun
  | recheck => exact absurd h nofun
  | command command =>
      cases command with
      | validation valid => exact absurd h nofun
      | snapshot => exact absurd h nofun
      | shutdown => exact absurd h nofun
      | finished action result => cases result <;> exact absurd h nofun
      | reload policy =>
          cases policy with
          | error fault => exact absurd h nofun
          | ok q =>
              cases h
              rfl

/-- **A turn after which an inert policy is in force is uneventful.** -/
theorem uneventful_of_inert (h : Coherent m) (hinert : Inert (m.take t).1.policy) :
    Uneventful m t := by
  have hidle := (coherent_take t h).idle_of_inert hinert
  cases hinput : t.work.input? with
  | none =>
      have htake : m.take t = (m, {}) := by simp [Machine.take, Turn.stimulus?, hinput]
      refine ⟨by rw [htake], by rw [htake], ?_, hidle⟩
      rw [htake]
      exact fun e he => absurd he List.not_mem_nil
  | some input =>
      have htake : m.take t = m.step ⟨input, t.setting.now, t.setting.readings⟩ := by
        simp [Machine.take, Turn.stimulus?, hinput]
      rw [htake] at hinert
      obtain ⟨hdispatch, hasked, hreported⟩ := uneventful_of_move h (move_step h _) hinert
      refine ⟨by rw [htake]; exact hdispatch, by rw [htake]; exact hasked, ?_, hidle⟩
      rw [htake]
      intro e he
      refine (hreported e he).imp_right ?_
      rintro ⟨p, source, episode, hreload, hrest⟩
      cases hreload
      exact ⟨p, source, episode, reload_of_input hinput, hrest⟩

end

/-! ## A part of a life -/

/-- What is added to a journal while nothing happens: notes of faults, and snapshots that show
nothing. -/
structure Dormant (j j' : Journal) : Prop where
  dispatched : j'.dispatched = j.dispatched
  events : ∃ notes, (∀ e ∈ notes, e.isNote = true) ∧ j'.events.toList = j.events.toList ++ notes
  snapshots : ∃ shown, (∀ s ∈ shown, s.Idle)
    ∧ j'.snapshots.toList = j.snapshots.toList ++ shown

theorem Dormant.refl (j : Journal) : Dormant j j where
  dispatched := rfl
  events := ⟨[], fun _ he => absurd he List.not_mem_nil, (List.append_nil _).symm⟩
  snapshots := ⟨[], fun _ hs => absurd hs List.not_mem_nil, (List.append_nil _).symm⟩

theorem Dormant.trans {j j' j'' : Journal} (h : Dormant j j') (h' : Dormant j' j'') :
    Dormant j j'' := by
  obtain ⟨notes, hnotes, hevents⟩ := h.events
  obtain ⟨notes', hnotes', hevents'⟩ := h'.events
  obtain ⟨shown, hshown, hsnapshots⟩ := h.snapshots
  obtain ⟨shown', hshown', hsnapshots'⟩ := h'.snapshots
  refine ⟨h'.dispatched.trans h.dispatched, ⟨notes ++ notes', ?_, ?_⟩,
    ⟨shown ++ shown', ?_, ?_⟩⟩
  · exact List.forall_mem_append.mpr ⟨hnotes, hnotes'⟩
  · rw [hevents', hevents, List.append_assoc]
  · exact List.forall_mem_append.mpr ⟨hshown, hshown'⟩
  · rw [hsnapshots', hsnapshots, List.append_assoc]

section

variable {m : Machine} {t : Turn}

theorem dormant_after (h : Coherent m) (hinert : Inert m.policy)
    (hinert' : Inert (m.take t).1.policy) (j : Journal) : Dormant j (j.after t m) := by
  have hturn := uneventful_of_inert h hinert'
  refine ⟨dispatched_after hturn.undispatched,
    ⟨if t.setting.collaborators.records then (m.take t).2.events else [], ?_, ?_⟩,
    ⟨if t.work.shows then [m.snapshot] else [], ?_, j.snapshots_after t m⟩⟩
  · intro e he
    split at he
    · refine (hturn.reported e he).resolve_right ?_
      rintro ⟨p, source, episode, hwork, hactive, hreset⟩
      exact hactive hinert
    · exact absurd he List.not_mem_nil
  · rw [(j.after_eq t m).2.2.2, Journal.events_add]
  · intro s hs
    split at hs
    · rw [List.mem_singleton.mp hs]
      exact h.idle_of_inert hinert
    · exact absurd hs List.not_mem_nil

end

/-! ## The policy in force -/

/-- The policy that an input loads. -/
def Input.policy? : Input → Option Policy
  | .reload p => some p
  | _ => none

/-- The policy that a command loads. -/
def Command.policy? : Command → Option Policy
  | .reload (.ok p) => some p
  | _ => none

/-- Why there is no policy, if there is none. -/
def refusal? : Except Fault Policy → Option Fault
  | .ok _ => none
  | .error fault => some fault

/-- Why the policy to load was refused, if it was. -/
def Command.rejection? : Command → Option Fault
  | .reload policy => refusal? policy
  | _ => none

/-- Why the policy that controller `i` is to load at a moment is refused, if it is. -/
def Moment.rejected? (i : Nat) : Moment → Option Fault
  | .act (.reload j settings) => if j = i then refusal? settings.toPolicy else none
  | _ => none

theorem Machine.policy_evaluate (trigger : Trigger) (now : Nat) (readings : Readings)
    (m : Machine) : (m.evaluate trigger now readings).1.policy = m.policy := by
  unfold evaluate
  split
  · rfl
  · split <;> rfl

theorem Machine.policy_step (m : Machine) (x : Stimulus) :
    (m.step x).1.policy = (x.input.policy?.map some).getD m.policy := by
  obtain ⟨input, now, readings⟩ := x
  cases input with
  | validation valid =>
      cases valid with
      | false => exact policy_evaluate .report now readings _
      | true =>
          simp only [step, onValidation, recover, if_true]
          split <;> rfl
  | recheck =>
      simp only [step, onRecheck]
      split
      · split
        · rfl
        · exact policy_evaluate .recheck now readings _
      · rfl
  | reload p => rfl
  | refuse fault => rfl
  | fail action fault => rfl

/-- The policy in force is the one that was loaded last. -/
theorem policy_machineAfter (initial : Except Fault Policy) (life : List Occurrence) :
    (machineAfter initial life).policy
      = ((handled life).filterMap Command.policy?).getLast?.or initial.toOption := by
  have hstart : (Machine.start initial).policy = initial.toOption := by cases initial <;> rfl
  have hloaded : ∀ w : Work, w.input?.bind (·.policy?.map some)
      = (w.command?.bind Command.policy?).map some := by
    intro w
    cases w with
    | refusal fault => rfl
    | recheck => rfl
    | command command =>
        cases command with
        | reload policy => cases policy <;> rfl
        | finished action result => cases result <;> rfl
        | _ => rfl
  have hlast := Machine.replay_last (g := Machine.policy)
    (f := fun input => input.policy?.map some) Machine.policy_step (Machine.start initial) {}
    (turns life)
  rw [machineAfter_replay, hlast, hstart]
  simp only [hloaded]
  rw [← List.map_filterMap, List.getLast?_map, handled, List.filterMap_filterMap]
  cases ((turns life).filterMap fun t => t.work.command?.bind Command.policy?).getLast? <;> rfl

/-! ## What is refused -/

theorem Scene.Occurs.refused_of_turned {s s' : Scene} {t : Turn} (ho : s.Occurs (.turned t) s') :
    t.work.refused?.toList
      = s.controller.refusal.toList ++ (t.work.command?.bind Command.rejection?).toList := by
  cases ho with
  | refused halive hrefusal => simp [Work.refused?, Work.command?, hrefusal]
  | @handled now readings c command rest halive hrefusal hqueue =>
      rw [hrefusal]
      cases command with
      | reload policy => cases policy <;> rfl
      | _ => rfl
  | rechecked halive hrefusal hqueue hd hdue => simp [Work.refused?, Work.command?, hrefusal]

/-- What was refused is said once for each policy, in the order in which they were to be loaded. -/
theorem Scene.Lives.refusals {s s' : Scene} {life : List Occurrence} (h : s.Lives life s') :
    (turns life).filterMap (·.work.refused?)
      = (if turns life = [] then [] else s.controller.refusal.toList)
        ++ (handled life).filterMap Command.rejection? := by
  rw [handled, List.filterMap_filterMap]
  induction h with
  | nil s => rfl
  | @cons s₁ s₂ s₃ o life ho rest ih =>
      have hrefusal := ho.tallies.refusal
      cases hturn : o.turn? with
      | none =>
          have hturns : turns (o :: life) = turns life := List.filterMap_cons_none hturn
          have hnone : turns [o] = [] := List.filterMap_cons_none hturn
          rw [hturns, ih, hrefusal, if_pos hnone]
      | some t =>
          have hturned := Occurrence.eq_turned hturn
          subst hturned
          have hturns : turns (.turned t :: life) = t :: turns life := rfl
          have hcons : ∀ f : Turn → Option Fault,
              (t :: turns life).filterMap f = (f t).toList ++ (turns life).filterMap f := by
            intro f
            cases hf : f t <;> simp [hf]
          -- after a turn nothing is left to announce
          have hannounced : s₂.controller.refusal = none := hrefusal
          rw [hannounced, Option.toList_none, ite_self, List.nil_append] at ih
          rw [hturns, if_neg (List.cons_ne_nil _ _), hcons, hcons, ih, ho.refused_of_turned,
            List.append_assoc]

namespace Deployment

variable {i : Nat} {d : Deployment} {c : Controller}

theorem rejected_doneTo (m : Moment) (halive : c.isAlive = true) :
    (queued (d.doneTo i c m)).filterMap Command.rejection? = (m.rejected? i).toList := by
  have hgate : ∀ (p : Prop) [Decidable p] (o : Occurrence),
      (queued [o]).filterMap Command.rejection? = [] →
      (queued (if p then [o] else [])).filterMap Command.rejection? = [] := by
    intro p _ o ho
    split
    · exact ho
    · rfl
  cases m with
  | settle => rfl
  | ask j => exact hgate _ _ rfl
  | act op =>
      cases op with
      | publish valid =>
          refine List.filterMap_eq_nil_iff.mpr fun command hcommand => ?_
          obtain ⟨o, ho, hqueued⟩ := List.mem_filterMap.mp hcommand
          obtain ⟨r, _, rfl⟩ := List.mem_map.mp ho
          cases hqueued
          rfl
      | reload j settings =>
          simp only [doneTo, Moment.rejected?, halive, and_true]
          split
          · cases hpolicy : settings.toPolicy <;> rfl
          · rfl
      | reloadChecked j settings =>
          simp only [doneTo]
          split
          · cases settings.toPolicy <;> rfl
          · rfl
      | report | deliver | rejectActions | setActionTime | setRecorderBroken | shutdown | abandon =>
          exact hgate _ _ rfl
      | start | sinkClosed | register | unregister | setSignal | setCall | sleep | jump => rfl

/-- Whoever is alive at the end was told of every refused reload. -/
theorem Lived.rejections {ms : List Moment} {life : List Occurrence} (h : Lived i d ms life)
    (hc : (d.follow ms).controllers[i]? = some c) (halive : c.isAlive = true) :
    (queued life).filterMap Command.rejection? = ms.filterMap (Moment.rejected? i) := by
  induction h with
  | nil d => rfl
  | @cons d m ms s s' segment life hs hs' hlives hdone rest ih =>
      obtain ⟨s'', hs'', hlater⟩ := rest.lives hs'
      obtain ⟨hfound, _⟩ := eq_of_scene? hs''
      cases hfound.symm.trans hc
      have halive' := (hlater.tallies.alive.mp halive).1
      have hnow : (queued segment).filterMap Command.rejection? = (m.rejected? i).toList := by
        rw [hlives.told_only (f := Command.rejection?) (fun r k => rfl), hdone]
        exact rejected_doneTo m (hlives.tallies.alive.mp halive').1
      rw [queued_append, List.filterMap_append, hnow, ih hc]
      cases hm : m.rejected? i <;> simp [hm]

end Deployment

/-! ## A life under inert policies -/

/-- What has been reported over a life. -/
def journalAfter (initial : Except Fault Policy) (life : List Occurrence) : Journal :=
  ((Machine.start initial).replay {} (turns life)).2

/-- How a controller that has lived this life fared under the policies that were inert. -/
structure StaysInert (initial : Except Fault Policy) (hears : Bool) (life : List Occurrence)
    (c : Controller) : Prop where
  /-- One machine accounts for all that is reported. -/
  reported : c.machine = machineAfter initial life ∧ c.journal = journalAfter initial life
  /-- The policy in force is the one that was loaded last, or the initial one, or none. -/
  inForce : ∀ before after, life = before ++ after →
    (machineAfter initial before).policy
      = ((handled before).filterMap Command.policy?).getLast?.or initial.toOption
  /-- While an inert policy is in force there is nothing to show. -/
  idle : ∀ before after, life = before ++ after → Inert (machineAfter initial before).policy →
    (machineAfter initial before).snapshot.Idle
  /-- Every turn is uneventful that leaves an inert policy in force. -/
  uneventful : ∀ before t after, life = before ++ .turned t :: after →
    Inert (machineAfter initial (before ++ [.turned t])).policy →
    Uneventful (machineAfter initial before) t
  /-- So is any part of the life throughout which one is in force. -/
  dormant : ∀ before part after, life = before ++ part ++ after →
    (∀ part₁ part₂, part = part₁ ++ part₂ → Inert (machineAfter initial (before ++ part₁)).policy) →
    Dormant (journalAfter initial before) (journalAfter initial (before ++ part))
  /-- The misconfigurations surfaced are that of the initial policy and those of the policies that
  were refused later. -/
  misconfigured : c.journal.failures.toList.filter Fault.isMisconfigured
    = if hears then
        (if turns life = [] then [] else (refusal? initial).toList)
          ++ (handled life).filterMap Command.rejection?
      else []

section

variable {initial : Except Fault Policy} {life : List Occurrence}

theorem coherent_machineAfter (initial : Except Fault Policy) (life : List Occurrence) :
    Coherent (machineAfter initial life) :=
  coherent_reachable ((reachable_start initial).run _)

theorem machineAfter_concat (initial : Except Fault Policy) (before : List Occurrence) (t : Turn) :
    machineAfter initial (before ++ [.turned t]) = ((machineAfter initial before).take t).1 := by
  rw [machineAfter_replay, machineAfter_replay, turns_append, Machine.replay_append]
  rfl

theorem journalAfter_concat (initial : Except Fault Policy) (before : List Occurrence) (t : Turn) :
    journalAfter initial (before ++ [.turned t])
      = (journalAfter initial before).after t (machineAfter initial before) := by
  rw [machineAfter_replay, journalAfter, turns_append, Machine.replay_append]
  rfl

/-- While an inert policy is in force, nothing happens. -/
theorem dormant_of_inert {before part : List Occurrence}
    (hinert : ∀ part₁ part₂, part = part₁ ++ part₂ →
      Inert (machineAfter initial (before ++ part₁)).policy) :
    Dormant (journalAfter initial before) (journalAfter initial (before ++ part)) := by
  induction part generalizing before with
  | nil =>
      rw [List.append_nil]
      exact .refl _
  | cons o part ih =>
      have hcut : ∀ part₁, before ++ o :: part₁ = before ++ [o] ++ part₁ := fun part₁ => by simp
      have hrest := @ih (before ++ [o]) fun part₁ part₂ hpart => by
        rw [← hcut]
        exact hinert (o :: part₁) part₂ (congrArg (o :: ·) hpart)
      rw [hcut]
      refine .trans ?_ hrest
      cases hturn : o.turn? with
      | none =>
          have hsame : journalAfter initial (before ++ [o]) = journalAfter initial before := by
            have hnone : turns [o] = [] := List.filterMap_cons_none hturn
            rw [journalAfter, turns_append, hnone, List.append_nil]
            rfl
          rw [hsame]
          exact .refl _
      | some t =>
          have hturned := Occurrence.eq_turned hturn
          subst hturned
          have hnow := hinert [] _ rfl
          have hnext := hinert [.turned t] part rfl
          rw [List.append_nil] at hnow
          rw [machineAfter_concat] at hnext
          rw [journalAfter_concat]
          exact dormant_after (coherent_machineAfter initial before) hnow hnext _

theorem staysInert_of_lives {i : Nat} {d : Deployment} {moments : List Moment}
    {registration now : Nat} {k : Collaborators} {readings : Readings} {s : Scene}
    (h : Deployment.Lived i d moments life)
    (hscene : d.scene? i = some ⟨now, readings, .new initial registration k⟩)
    (hlives : Scene.Lives ⟨now, readings, .new initial registration k⟩ life s)
    (hinitial : ∀ fault, initial = .error fault → fault.isMisconfigured = true) :
    StaysInert initial k.hearsFailures life s.controller where
  reported := ⟨machineAfter_eq hlives, congrArg Prod.snd hlives.tallies.replayed⟩
  inForce before after hlife := policy_machineAfter initial before
  idle before after hlife hinert := (coherent_machineAfter initial before).idle_of_inert hinert
  uneventful before t after hlife hinert := by
    rw [machineAfter_concat] at hinert
    exact uneventful_of_inert (coherent_machineAfter initial before) hinert
  dormant before part after hlife hinert := dormant_of_inert hinert
  misconfigured := by
    have hrefusal : (Controller.new initial registration k).refusal = refusal? initial := by
      cases initial <;> rfl
    rw [h.failures hscene hlives, ← hrefusal]
    by_cases hheard : k.hearsFailures = true
    · rw [if_pos hheard, if_pos hheard, ← hlives.refusals]
      exact (Deployment.filter_faults (h.traced hlives hinitial)).2
    · rw [if_neg hheard, if_neg hheard]
      rfl

/-- A controller that rests has announced what was refused, and handled what was queued. -/
theorem settled_of_rests {registration now now' : Nat} {k : Collaborators}
    {readings readings' : Readings} {s : Scene}
    (hlives : Scene.Lives ⟨now, readings, .new initial registration k⟩ life s)
    (halive : s.controller.isAlive = true) (hrests : s.controller.Rests readings' now' now') :
    (if turns life = [] then [] else (refusal? initial).toList) = (refusal? initial).toList
      ∧ handled life = queued life := by
  refine ⟨?_, handled_of_drained hlives halive hrests.drained⟩
  split
  · rename_i hturns
    have hrefusal := hlives.tallies.refusal
    rw [if_pos hturns, hrests.announced] at hrefusal
    cases initial with
    | ok policy => rfl
    | error fault => exact absurd hrefusal nofun
  · rfl

end

/-! ## A simulation without a policy -/

/-- Without a policy a machine follows reports and does nothing else. -/
theorem Coherent.snapshot_of_absent {m : Machine} (h : Coherent m) (hp : m.policy = none) :
    m.snapshot = ⟨.baseline, false, m.state.validated, none, false⟩ := by
  have hidle := h.idle_of_inert (by rw [hp]; exact .absent)
  have hpending : m.state.deadline = none := by
    cases hd : m.state.deadline with
    | none => rfl
    | some deadline =>
        obtain ⟨_, p, hp', _⟩ := h.pending (by rw [hd]; rfl)
        rw [hp] at hp'
        exact absurd hp' nofun
  have huntried : m.state.action = .baseline := hidle.untried
  have hclosed : m.state.episodeStarted = none := hidle.closed
  simp only [Machine.snapshot, huntried, hclosed, hpending, hp, Option.isSome_none]

namespace Simulation

variable {settings : Settings} {scenario : Scenario} {life : List Occurrence} {s : Scene}

/-- The controller of a simulation hears of the network, and is asked for a snapshot. -/
theorem Performed.told (h : Performed settings scenario life s) {command : Command}
    (hmem : .told command ∈ life) :
    (∃ valid, command = .validation valid) ∨ command = .snapshot := by
  obtain ⟨m, hm, k, hdeed⟩ := h.lived.deed hmem rfl
  have hrehearsed := rehearsed_rehearsal settings scenario m hm
  cases hdeed with
  | published valid => exact .inl ⟨valid, rfl⟩
  | reported valid => cases hrehearsed
  | delivered valid => cases hrehearsed
  | reloaded settings => cases hrehearsed
  | replaced settings policy hpolicy => cases hrehearsed
  | asked => exact .inr rfl
  | stopped => cases hrehearsed

/-- It handles what was queued, and loads no policy. -/
theorem Performed.unloaded (h : Performed settings scenario life s) :
    handled life = queued life ∧ (handled life).filterMap Command.policy? = [] := by
  have hhandled : handled life = queued life :=
    handled_of_drained h.lives h.alive h.rests.drained
  refine ⟨hhandled, ?_⟩
  rw [hhandled, h.lives.told_only (f := Command.policy?) fun r k => rfl]
  refine List.filterMap_eq_nil_iff.mpr fun command hcommand => ?_
  rcases mem_queued.mp hcommand with htold | ⟨r, hreturned⟩
  · rcases h.told (List.mem_filter.mp htold).1 with ⟨valid, rfl⟩ | rfl <;> rfl
  · exact absurd (List.mem_filter.mp hreturned).2 nofun

theorem Performed.absent {fault : Fault} (h : Performed settings scenario life s)
    (hrefused : settings.toPolicy = .error fault) {before after : List Occurrence}
    (hlife : life = before ++ after) : (machineAfter settings.toPolicy before).policy = none := by
  have hunloaded := h.unloaded.2
  rw [hlife, handled_append, List.filterMap_append] at hunloaded
  rw [policy_machineAfter, (List.append_eq_nil_iff.mp hunloaded).1, hrefused]
  rfl

/-- Nothing is started, so nothing comes back. -/
theorem Performed.unstarted {fault : Fault} (h : Performed settings scenario life s)
    (hrefused : settings.toPolicy = .error fault) :
    s.controller.journal.dispatched.toList = [] ∧ cameBack life = [] := by
  have hscene := scene_start settings scenario.initialSignal
  have hinitial := @PolicySource.isMisconfigured_of_error (.given settings) _ rfl
  have hstays := staysInert_of_lives h.lived hscene h.lives hinitial
  have herrands := errands_of_lives h.lived hscene h.lives hinitial
  have hdormant := hstays.dormant [] life [] (by simp) fun part₁ part₂ hpart => by
    have hnone := h.absent hrefused hpart
    rw [List.nil_append, hnone]
    exact .absent
  have hdispatched : s.controller.journal.dispatched = #[] := by
    rw [hstays.reported.2]
    exact hdormant.dispatched
  have hlaunched := herrands.started.2
  rw [hdispatched] at hlaunched
  have hnothing := herrands.once
  rw [List.map_eq_nil_iff.mp hlaunched.symm] at hnothing
  exact ⟨by rw [hdispatched], (List.append_eq_nil_iff.mp hnothing.nil_eq.symm).1⟩

/-- So it handles nothing but what it was told. -/
theorem Performed.heard {fault : Fault} (h : Performed settings scenario life s)
    (hrefused : settings.toPolicy = .error fault) {command : Command}
    (hmem : command ∈ handled life) :
    (∃ valid, command = .validation valid) ∨ command = .snapshot := by
  rw [h.unloaded.1] at hmem
  rcases mem_queued.mp hmem with htold | ⟨r, hreturned⟩
  · exact h.told htold
  · have hback : r ∈ cameBack life := List.mem_filterMap.mpr ⟨_, hreturned, rfl⟩
    rw [(h.unstarted hrefused).2] at hback
    exact absurd hback List.not_mem_nil

/-- What goes wrong is that there is no policy. -/
theorem Performed.failures {fault : Fault} (h : Performed settings scenario life s)
    (hrefused : settings.toPolicy = .error fault) :
    s.controller.journal.failures.toList = [fault] := by
  have hrefusal : (Controller.new settings.toPolicy 1 {}).refusal = some fault := by
    rw [hrefused]
    rfl
  have hannounced := h.lives.tallies.refusal
  rw [h.rests.announced] at hannounced
  have hturned : turns life ≠ [] := by
    intro hnone
    rw [if_pos hnone, hrefusal] at hannounced
    exact absurd hannounced nofun
  have hnone : (handled life).filterMap Command.rejection? = [] := by
    refine List.filterMap_eq_nil_iff.mpr fun command hcommand => ?_
    rcases h.heard hrefused hcommand with ⟨valid, rfl⟩ | rfl <;> rfl
  have hsame : ∀ t ∈ turns life, t.work.fault? = t.work.refused? := by
    intro t ht
    obtain ⟨work, setting⟩ := t
    cases work with
    | refusal fault => rfl
    | recheck => rfl
    | command command =>
        have hcommand : command ∈ handled life := List.mem_filterMap.mpr ⟨_, ht, rfl⟩
        rcases h.heard hrefused hcommand with ⟨valid, rfl⟩ | rfl <;> rfl
  rw [h.lived.failures (scene_start settings scenario.initialSignal) h.lives, if_pos rfl,
    List.filterMap_congr hsame, h.lives.refusals, hnone, if_neg hturned, hrefusal]
  rfl

/-- **A simulation under settings that describe no policy** reports why they do not, and shows the
network as it was reported last. -/
theorem run_of_refused {fault : Fault} (hrefused : settings.toPolicy = .error fault)
    (scenario : Scenario) :
    run settings scenario = ⟨[], [fault],
      ⟨.baseline, false, (scenario.steps.filterMap (·.validation)).getLast?.getD true, none,
        false⟩⟩ := by
  obtain ⟨life, s, before, t, after, h, hlife, hwork, hresults, hfinal⟩ :=
    exists_performed settings scenario
  have hvalidated := final_validated settings scenario
  have hshown := (coherent_machineAfter settings.toPolicy before).snapshot_of_absent
    (h.absent hrefused hlife)
  rw [hfinal] at hvalidated
  have hfailures : (run settings scenario).failures = [fault] := by
    rw [h.reported]
    exact h.failures hrefused
  refine report_eq (h.dispatches.trans (h.unstarted hrefused).1) hfailures ?_
  rw [hfinal, hshown, ← hvalidated]
  rfl

end Simulation

/--
**Inert policies stay inert.**

While the policy in force is absent, switched off or leaves every step out, a controller does
nothing, asks nobody, and has nothing to show. What it surfaces of its configuration is why the
settings it was started with were refused, and why those were that it was to load later. A
simulation under settings that describe no policy comes to nothing else.
-/
theorem inert_policies_stay_inert :
    (∀ (d : Deployment) (launch : Launch) (moments : List Moment), (d.start launch).2 = .done →
      let d' := (d.start launch).1
      let i := d.controllers.length
      ∃ initial, launch.policy.resolve = .ok initial
        ∧ (∃ life, Deployment.Lived i d' moments life)
        ∧ ∀ life, Deployment.Lived i d' moments life →
          ∃ c, (d'.follow moments).controllers[i]? = some c
            ∧ StaysInert initial launch.collaborators.hearsFailures life c
            ∧ (∀ earlier, moments = earlier ++ [.settle] → c.isAlive = true →
              c.journal.failures.toList.filter Fault.isMisconfigured
                = if launch.collaborators.hearsFailures then
                    (refusal? initial).toList ++ moments.filterMap (Moment.rejected? i)
                  else []))
      ∧ ∀ (settings : Settings) (fault : Fault) (scenario : Scenario),
        settings.toPolicy = .error fault →
        Simulation.run settings scenario = ⟨[], [fault],
          ⟨.baseline, false, (scenario.steps.filterMap (·.validation)).getLast?.getD true, none,
            false⟩⟩ := by
  refine ⟨?_, fun settings fault scenario hrefused => Simulation.run_of_refused hrefused scenario⟩
  intro d launch moments hstart d' i
  obtain ⟨initial, registration, hresolve, hscene⟩ := scene_of_start hstart
  refine ⟨initial, hresolve, Deployment.exists_lived moments hscene, fun life hlived => ?_⟩
  obtain ⟨s, hs, hlives⟩ := hlived.lives hscene
  obtain ⟨hc, _⟩ := Deployment.eq_of_scene? hs
  have hinitial := PolicySource.isMisconfigured_of_error hresolve
  have hstays := staysInert_of_lives hlived hscene hlives hinitial
  refine ⟨s.controller, hc, hstays, ?_⟩
  intro earlier hmoments halive
  have hrests := rests_of_settled_last hc halive hmoments
  obtain ⟨hannounced, hhandled⟩ := settled_of_rests hlives halive hrests
  rw [hstays.misconfigured, hannounced, hhandled, hlived.rejections hc halive]

/-- Settings with a wait and a skip flag too few. -/
def Settings.short : Settings :=
  { Settings.standard with delays := [180000, 180000], skips := [false, false] }

/-- Settings that leave every step out. -/
def Settings.idle : Settings := { Settings.standard with skips := [true, true, true] }

/-- The network stalls under no policy, and under one that leaves every step out; the settings are
refused a second time. -/
def stalledInVain : List Moment :=
  [.act (.publish false), .settle, .act (.reload 0 .short), .act (.jump defaultDelay), .settle,
    .act (.reload 0 .idle), .settle, .act (.jump defaultDelay), .settle]

theorem inert_policies_stay_inert_short :
    let d := (Deployment.empty.start (.complete (.given .short))).1
    ((Deployment.empty.start (.complete (.given .short))).2 = .done
      ∧ ∃ initial, (PolicySource.given .short).resolve = .ok initial
        ∧ (∃ life, Deployment.Lived 0 d stalledInVain life)
        ∧ ∀ life, Deployment.Lived 0 d stalledInVain life →
          ∃ c, (d.follow stalledInVain).controllers[0]? = some c
            ∧ StaysInert initial true life c
            ∧ (∀ earlier, stalledInVain = earlier ++ [.settle] → c.isAlive = true →
              c.journal.failures.toList.filter Fault.isMisconfigured
                = (refusal? initial).toList ++ stalledInVain.filterMap (Moment.rejected? 0)))
      ∧ Settings.short.toPolicy = .error (.misconfigured "expected 3 escalation steps, got 2")
      ∧ Simulation.run .short ⟨4, 600000, [⟨0, some false, none, none, none⟩]⟩
        = ⟨[], [.misconfigured "expected 3 escalation steps, got 2"],
          ⟨.baseline, false, false, none, false⟩⟩ :=
  ⟨⟨rfl, inert_policies_stay_inert.1 .empty (.complete (.given .short)) stalledInVain rfl⟩, rfl,
    inert_policies_stay_inert.2 .short _ ⟨4, 600000, [⟨0, some false, none, none, none⟩]⟩ rfl⟩

end StallRecovery
