import StallRecovery.Proofs.Causes
import StallRecovery.Proofs.Delivery
import StallRecovery.Proofs.Enrolment

/-!
# Controllers agree with the monitor

The monitor passes on changes only, and a controller takes the network to be valid until it hears
otherwise. What it shows once everything has settled is therefore the last change published since it
was started. That is the status published last, but for one case: who is started when the status
published last was that the network is not valid misses that, and shows the opposite until the
monitor publishes a change.

The invariant is about what a controller was told, handled or not, since a status reaches it in the
queue long before it counts.
-/

namespace StallRecovery

/-! ## The last change -/

theorem changes_append (last : Option Bool) (statuses later : List Bool) :
    changes last (statuses ++ later)
      = changes last statuses ++ changes (statuses.getLast?.or last) later := by
  induction statuses generalizing last with
  | nil => rfl
  | cons valid rest ih =>
      rw [List.cons_append, changes_cons, changes_cons last valid rest, ih, List.append_assoc,
        List.getLast?_cons]
      cases rest.getLast? <;> rfl

theorem getLast?_changes (last : Option Bool) (statuses : List Bool) :
    (changes last statuses).getLast?.or last = statuses.getLast?.or last := by
  induction statuses generalizing last with
  | nil => rfl
  | cons valid rest ih =>
      have hrest := ih (some valid)
      rw [changes, List.getLast?_cons]
      split
      · rename_i hsame
        rw [hsame, hrest]
        cases rest.getLast? <;> rfl
      · rw [List.getLast?_cons]
        cases hlast : rest.getLast? <;> cases hchange : (changes (some valid) rest).getLast? <;>
          simp_all

theorem changes_eq_nil {last : Bool} {statuses : List Bool} :
    changes (some last) statuses = [] ↔ ∀ valid ∈ statuses, valid = last := by
  induction statuses with
  | nil => simp [changes]
  | cons valid rest ih =>
      rw [changes, List.forall_mem_cons, ← ih]
      by_cases hsame : last = valid
      · simp [hsame]
      · simp [hsame, Ne.symm hsame]

/-! ## What a machine takes the network for -/

/-- The status that an input reports. -/
def Input.status? : Input → Option Bool
  | .validation valid => some valid
  | _ => none

/-- The status that a command reports. -/
def Command.status? : Command → Option Bool
  | .validation valid => some valid
  | _ => none

/-- What some commands report about the network, in order. -/
def reports (commands : List Command) : List Bool := commands.filterMap Command.status?

theorem reports_append (commands later : List Command) :
    reports (commands ++ later) = reports commands ++ reports later := List.filterMap_append

theorem Decision.validated {p : Policy} {trigger : Trigger} {now : Nat} {readings : Readings}
    {s s' : State} {out : Outcome} (h : Decision p trigger now readings s s' out) :
    s'.validated = s.validated := by
  cases h <;> rfl

namespace Machine

theorem validated_evaluate (trigger : Trigger) (now : Nat) (readings : Readings) (m : Machine) :
    (m.evaluate trigger now readings).1.state.validated = m.state.validated := by
  unfold evaluate
  split
  · rfl
  · rename_i p hp
    split
    · cases hd : m.state.decide p trigger now readings with
      | mk s out => exact (decision_of_decide hd).validated
    · rfl

/-- A machine takes the network for what was reported last. -/
theorem validated_step (m : Machine) (x : Stimulus) :
    (m.step x).1.state.validated = x.input.status?.getD m.state.validated := by
  obtain ⟨input, now, readings⟩ := x
  cases input with
  | validation valid =>
      cases valid with
      | false => exact validated_evaluate .report now readings _
      | true =>
          simp only [step, onValidation, recover, if_true]
          split <;> rfl
  | recheck =>
      simp only [step, onRecheck]
      split
      · split
        · rfl
        · exact validated_evaluate .recheck now readings _
      · rfl
  | reload p =>
      simp only [step, onReload]
      split <;> rfl
  | refuse fault => rfl
  | fail action fault => rfl

theorem validated_replay (m : Machine) (j : Journal) (ts : List Turn) :
    (m.replay j ts).1.state.validated
      = (reports (ts.filterMap (·.work.command?))).getLast?.getD m.state.validated := by
  have hstatus : ∀ w : Work, w.input?.bind Input.status? = w.command?.bind Command.status? := by
    intro w
    cases w with
    | refusal fault => rfl
    | recheck => rfl
    | command command =>
        cases command with
        | reload policy => cases policy <;> rfl
        | finished action result => cases result <;> rfl
        | _ => rfl
  rw [replay_last (g := (·.state.validated)) validated_step m j ts, reports,
    List.filterMap_filterMap]
  simp only [hstatus]

end Machine

theorem validated_machineAfter (initial : Except Fault Policy) (life : List Occurrence) :
    (machineAfter initial life).state.validated
      = (reports (handled life)).getLast?.getD true := by
  have hstart : (Machine.start initial).state.validated = true := by cases initial <;> rfl
  rw [machineAfter_replay, Machine.validated_replay, hstart]
  rfl

/-! ## What a controller was told -/

/-- What a controller was last told about the network, whether it has handled that or not. -/
def Controller.lastTold (c : Controller) : Bool :=
  (reports c.queue).getLast?.getD c.machine.state.validated

namespace Scene

variable {s s' : Scene} {life : List Occurrence}

/-- What a live controller was last told is what was queued last for it. -/
theorem Lives.lastTold (h : s.Lives life s') (halive : s'.controller.isAlive = true) :
    s'.controller.lastTold
      = (reports (queued life)).getLast?.getD s.controller.lastTold := by
  have hmachine : s'.controller.machine.state.validated
      = (reports (handled life)).getLast?.getD s.controller.machine.state.validated := by
    rw [← show _ = s'.controller.machine from congrArg Prod.fst h.tallies.replayed.symm]
    exact Machine.validated_replay _ _ _
  have hfifo := congrArg (fun commands => (reports commands).getLast?) (h.fifo halive)
  simp only [reports_append, List.getLast?_append] at hfifo
  unfold Controller.lastTold
  rw [hmachine, ← Option.getD_or, ← hfifo, Option.getD_or]

end Scene

/-! ## What the monitor has to do with it -/

/-- Whether a moment leaves it to the monitor to report the network. -/
def Moment.viaMonitor : Moment → Bool
  | .act (.report _ _) | .act (.deliver _ _) | .act (.unregister _) => false
  | _ => true

namespace Deployment

variable {d : Deployment} {i : Nat} {c c' : Controller} {m : Moment}

/-- As long as nothing is published, nobody is told anything about the network. -/
theorem reports_of_unpublished (hm : m.viaMonitor = true) (hnone : m.published? = none) :
    reports (queued (d.doneTo i c m)) = [] := by
  refine List.filterMap_eq_nil_iff.mpr fun command hcommand => ?_
  rcases mem_queued.mp hcommand with htold | ⟨r, hreturned⟩
  · cases deed_of_doneTo htold with
    | published valid => exact absurd hnone nofun
    | reported valid => exact absurd hm Bool.false_ne_true
    | delivered valid => exact absurd hm Bool.false_ne_true
    | reloaded | replaced | asked | stopped => rfl
  · exact absurd (deed_of_doneTo hreturned) nofun

/-- A controller that has an owner is told every change that the monitor publishes, and otherwise
nothing about the network. -/
theorem reports_doneTo (h : d.Enrolled) (hm : m.viaMonitor = true)
    (hc : d.controllers[i]? = some c) (halive : c.isAlive = true) :
    (reports (queued (d.doneTo i c m))).getLast?
      = (changes d.monitor.published m.published?.toList).getLast? := by
  by_cases hpublished : ∃ valid, m = .act (.publish valid)
  · obtain ⟨valid, rfl⟩ := hpublished
    have htold : ∀ registrations : List Registration,
        reports (queued (registrations.map fun _ => .told (.validation valid)))
          = registrations.map fun _ => valid := by
      intro registrations
      induction registrations with
      | nil => rfl
      | cons r rest ih => exact congrArg (valid :: ·) ih
    simp only [doneTo, htold, Moment.published?, Option.toList_some, changes]
    unfold Monitor.publish
    split
    · rfl
    · have hopen : d.isOpen i = true := by
        rw [isOpen, hc]
        exact Controller.isOpen_of_isAlive halive
      have hreached : (⟨c.registration, i⟩ : Registration)
          ∈ (d.monitor.registrations.filter (d.isOpen ·.sink)).filter (·.sink == i) :=
        List.mem_filter.mpr ⟨List.mem_filter.mpr ⟨h.entered i c hc halive, hopen⟩, by simp⟩
      rw [List.map_const', List.getLast?_replicate, if_neg]
      · rfl
      · exact List.length_pos_of_mem hreached |>.ne'
  · have hnone : m.published? = none := by
      cases m with
      | act op =>
          cases op with
          | publish valid => exact absurd ⟨valid, rfl⟩ hpublished
          | _ => rfl
      | _ => rfl
    rw [reports_of_unpublished hm hnone, hnone]
    rfl

theorem lastTold_meet (h : d.Enrolled) (hm : m.viaMonitor = true)
    (hc : d.controllers[i]? = some c) (hc' : (d.meet m).controllers[i]? = some c')
    (halive' : c'.isAlive = true) :
    c.isAlive = true
      ∧ c'.lastTold
        = (changes d.monitor.published m.published?.toList).getLast?.getD c.lastTold := by
  obtain ⟨segment, hlives, hdone⟩ := lives_of_meet hc hc'
  have halive := (hlives.tallies.alive.mp halive').1
  refine ⟨halive, ?_⟩
  have htold : reports (queued segment) = reports (queued (segment.filter Occurrence.isDone)) :=
    hlives.told_only fun r k => rfl
  rw [hlives.lastTold halive', htold, hdone, reports_doneTo h hm hc halive]

theorem published_append (moments later : List Moment) :
    published (moments ++ later) = published moments ++ published later := List.filterMap_append

theorem published_concat (moments : List Moment) (m : Moment) :
    published (moments ++ [m]) = published moments ++ m.published?.toList := by
  rw [published_append]
  unfold published
  cases hm : m.published? <;> simp [hm]

theorem Enrolled.viaMonitor {moments : List Moment} (h : d.Enrolled)
    (hm : ∀ m ∈ moments, m.viaMonitor = true) : (d.follow moments).Enrolled := by
  refine enrolled_follow h fun m hmem id hstruck => ?_
  subst hstruck
  exact Bool.false_ne_true (hm _ hmem)

/-- **A controller is told every change that the monitor publishes.** -/
theorem lastTold_follow (h : d.Enrolled) (hc : d.controllers[i]? = some c)
    {moments : List Moment} (hm : ∀ m ∈ moments, m.viaMonitor = true)
    (hc' : (d.follow moments).controllers[i]? = some c') (halive' : c'.isAlive = true) :
    c'.lastTold
      = (changes d.monitor.published (published moments)).getLast?.getD c.lastTold := by
  induction moments using List.reverseRecOn generalizing c' with
  | nil =>
      cases hc.symm.trans hc'
      rfl
  | append_singleton moments m ih =>
      have hbefore : ∀ m ∈ moments, m.viaMonitor = true :=
        fun m' hm' => hm m' (List.mem_append_left _ hm')
      have hlast : m.viaMonitor = true := hm m (List.mem_append_right _ List.mem_cons_self)
      obtain ⟨_, c₁, _, hc₁, _⟩ := exists_lives moments hc
      rw [follow_append] at hc'
      obtain ⟨halive₁, htold⟩ := lastTold_meet (h.viaMonitor hbefore) hlast hc₁ hc' halive'
      rw [htold, ih hbefore hc₁ halive₁, published_follow, published_concat, changes_append,
        List.getLast?_append, Option.getD_or]

/-- Who was not there before a moment is started in it. -/
theorem start_of_added (hnew : ¬ i < d.controllers.length)
    (hc : (d.meet m).controllers[i]? = some c) :
    ∃ launch, m = .act (.start launch) ∧ (d.start launch).2 = .done
      ∧ d.controllers.length = i := by
  have hlt := (List.getElem?_eq_some_iff.mp hc).1
  by_cases hstart : ∃ launch, m = .act (.start launch)
  · obtain ⟨launch, rfl⟩ := hstart
    rcases d.start_cases launch with ⟨_, hsame⟩ | ⟨initial, _, hdone, hadded⟩
    · exact absurd (hsame ▸ hlt) hnew
    · simp only [meet, act, hadded, List.length_append, List.length_singleton] at hlt
      exact ⟨launch, rfl, hdone, by omega⟩
  · rw [(meet_books m fun launch h => hstart ⟨launch, h⟩).length] at hlt
    exact absurd hlt hnew

/-- Every controller was started at some moment. -/
theorem exists_start {moments : List Moment}
    (hc : (empty.follow moments).controllers[i]? = some c) :
    ∃ before launch after, moments = before ++ .act (.start launch) :: after
      ∧ ((empty.follow before).start launch).2 = .done
      ∧ (empty.follow before).controllers.length = i := by
  induction moments using List.reverseRecOn generalizing c with
  | nil => exact absurd hc (by simp [follow, empty])
  | append_singleton moments m ih =>
      by_cases hold : i < (empty.follow moments).controllers.length
      · obtain ⟨before, launch, after, rfl, hstarted⟩ := ih (List.getElem?_eq_getElem hold)
        exact ⟨before, launch, after ++ [m], by simp, hstarted⟩
      · rw [follow_append] at hc
        obtain ⟨launch, rfl, hstarted⟩ := start_of_added hold hc
        exact ⟨moments, launch, [], rfl, hstarted⟩

/-- A controller that is started takes the network to be valid. -/
theorem lastTold_new (initial : Except Fault Policy) (registration : Nat) (k : Collaborators) :
    (Controller.new initial registration k).lastTold = true := by
  cases initial <;> rfl

/-- Since it was started, a controller was told every change that the monitor published. -/
theorem lastTold_since {before after : List Moment} {launch : Launch}
    (hm : ∀ m ∈ before ++ .act (.start launch) :: after, m.viaMonitor = true)
    (hstarted : ((empty.follow before).start launch).2 = .done)
    (hlength : (empty.follow before).controllers.length = i)
    (hc : (empty.follow (before ++ .act (.start launch) :: after)).controllers[i]? = some c)
    (halive : c.isAlive = true) :
    c.lastTold = (changes (published before).getLast? (published after)).getLast?.getD true := by
  obtain ⟨hbefore, hrest⟩ := List.forall_mem_append.mp hm
  obtain ⟨hstart, hafter⟩ := List.forall_mem_cons.mp hrest
  obtain ⟨initial, registration, _, hscene⟩ := scene_of_start hstarted
  obtain ⟨hnew, _⟩ := eq_of_scene? hscene
  rw [hlength] at hnew
  have henrolled : ((empty.follow before).start launch).1.Enrolled :=
    (enrolled_empty.viaMonitor hbefore).start launch
  have hpublished : ((empty.follow before).start launch).1.monitor.published
      = (published before).getLast? := by
    have hstill := published_meet (d := empty.follow before) (.act (.start launch))
    rw [published_follow] at hstill
    exact hstill.trans Option.or_none
  rw [follow_append] at hc
  have htold := lastTold_follow henrolled hnew hafter hc halive
  rw [hpublished, lastTold_new] at htold
  exact htold

/-- Whoever is started between these moments never hears what the monitor published last: it has
published that the network is not valid, and nothing else since. -/
def missed (before after : List Moment) : Bool :=
  (published before).getLast? == some false && (published after).all (!·)

theorem lastTold_eq (before after : List Moment) (launch : Launch) :
    (changes (published before).getLast? (published after)).getLast?.getD true
      = if missed before after then true
        else (published (before ++ .act (.start launch) :: after)).getLast?.getD true := by
  have hwhole : (published (before ++ .act (.start launch) :: after)).getLast?
      = (published after).getLast?.or (published before).getLast? := by
    rw [published_append, List.getLast?_append]
    rfl
  have hmissed : missed before after = true ↔ (published before).getLast? = some false
      ∧ changes (some false) (published after) = [] := by
    rw [changes_eq_nil]
    simp [missed]
  rw [hwhole, ← getLast?_changes]
  by_cases hlate : missed before after = true
  · obtain ⟨hlast, hnothing⟩ := hmissed.mp hlate
    rw [if_pos hlate, hlast, hnothing]
    rfl
  rw [if_neg hlate, Option.getD_or]
  -- what was published before matters only if no change was published since
  cases hchange : (changes (published before).getLast? (published after)).getLast? with
  | some valid => rfl
  | none =>
      cases hlast : (published before).getLast? with
      | none => rfl
      | some last =>
          cases last with
          | true => rfl
          | false =>
              rw [hlast] at hchange
              exact absurd (hmissed.mpr ⟨hlast, List.getLast?_eq_none_iff.mp hchange⟩) hlate

/--
**Controllers agree with the monitor.**

Whenever everything has settled, a controller that was left to the monitor takes the network for
what the monitor published last, or for valid if that is nothing; only one that missed a report that
the network is not valid still takes it for valid.
-/
theorem controllers_agree_with_monitor (moments : List Moment)
    (hmonitor : ∀ m ∈ moments, m.viaMonitor = true) (i : Nat) (snap : Snapshot)
    (hsnap : ((empty.follow moments).settle.controllers[i]?).bind Controller.snapshot?
      = some snap) :
    ∃ before launch after, moments = before ++ .act (.start launch) :: after
      ∧ ((empty.follow before).start launch).2 = .done
      ∧ (empty.follow before).controllers.length = i
      ∧ snap.validated = if missed before after then true
        else (published moments).getLast?.getD true := by
  obtain ⟨c, hc, hshown⟩ := Option.bind_eq_some_iff.mp hsnap
  unfold Controller.snapshot? at hshown
  split at hshown
  · rename_i halive
    cases hshown
    obtain ⟨c₀, hc₀, _⟩ := earlier_of_meet (d := empty.follow moments) (m := .settle)
      (fun _ h => nomatch h) hc
    obtain ⟨halive₀, htold⟩ :=
      lastTold_meet (enrolled_empty.viaMonitor hmonitor) (m := .settle) rfl hc₀ hc halive
    have hhandled : c.lastTold = c.machine.state.validated := by
      rw [Controller.lastTold, (rests_of_settled hc halive).drained]
      rfl
    obtain ⟨before, launch, after, rfl, hstarted, hlength⟩ := exists_start hc₀
    refine ⟨before, launch, after, rfl, hstarted, hlength, ?_⟩
    rw [← lastTold_eq, ← lastTold_since hmonitor hstarted hlength hc₀ halive₀]
    exact hhandled.symm.trans htold
  · exact absurd hshown nofun

/-- The network is not valid when the second controller is started, and recovers after that. -/
def joinedLate : List Moment :=
  [.act (.start (.complete .standard)), .act (.publish false), .settle,
    .act (.start (.complete .standard)), .settle, .act (.publish true)]

theorem late_controller_agrees_again :
    (∀ m ∈ joinedLate, m.viaMonitor = true)
      ∧ ((empty.follow joinedLate).settle.controllers[1]?).bind Controller.snapshot?
        = some ⟨.baseline, false, true, none, true⟩
      ∧ ∃ before launch after, joinedLate = before ++ .act (.start launch) :: after
        ∧ ((empty.follow before).start launch).2 = .done
        ∧ (empty.follow before).controllers.length = 1
        ∧ true = if missed before after then true else (published joinedLate).getLast?.getD true :=
  ⟨by decide, rfl, controllers_agree_with_monitor joinedLate (by decide) 1 _ rfl⟩

/-- One that is started after the network was reported not to be valid shows it as valid. -/
theorem not_every_controller_agrees :
    ¬ ∀ (moments : List Moment) (i : Nat) (snap : Snapshot),
      (∀ m ∈ moments, m.viaMonitor = true) →
      ((empty.follow moments).settle.controllers[i]?).bind Controller.snapshot? = some snap →
      snap.validated = (published moments).getLast?.getD true := by
  intro hagree
  have hshown := hagree [.act (.publish false), .act (.start (.complete .standard))] 0
    ⟨.baseline, false, true, none, true⟩ (by decide) rfl
  exact absurd hshown (by decide)

end Deployment

end StallRecovery
