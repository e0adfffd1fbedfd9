import StallRecovery.Proofs.Inertia

/-!
# Waits that take time

A wait that takes no time is due again at the instant at which it begins, and a controller that is
looked at then may go on for ever. `Policy.Timed` leaves that out. A policy comes into force only
where it was put into a queue, so in a run whose moments bring only such policies none of another
kind is ever in force. The same induction shows that the actions under way have all begun and are
listed in the order in which they will end, which is what tells a controller when to wake up.
-/

namespace StallRecovery

/-- Every wait of the policy takes time. -/
def Policy.Timed (p : Policy) : Prop := ∀ a, 0 < p.delayFor a

theorem Policy.timed_standard : Policy.standard.Timed := fun a => by cases a <;> decide

/-- The policy that the settings describe, if they describe one, takes time. -/
def Settings.Timed (s : Settings) : Prop := ∀ p, s.toPolicy = .ok p → p.Timed

/-- A policy that a moment brings takes time. -/
def Moment.Timed : Moment → Prop
  | .act (.start launch) => ∀ p, launch.policy.resolve = .ok (.ok p) → p.Timed
  | .act (.reload _ settings) => settings.Timed
  | .act (.reloadChecked _ settings) => settings.Timed
  | _ => True

/-- The actions under way have begun, and are listed in the order in which they will end. -/
structure Underway (now : Nat) (running : List Running) : Prop where
  begun : ∀ r ∈ running, r.startedAt ≤ now
  sorted : running.Pairwise (·.endsAt ≤ ·.endsAt)

/-- Every policy that is in force or waits to be takes time. -/
structure Scene.Timed (s : Scene) : Prop where
  loaded : ∀ p, s.controller.machine.policy = some p → p.Timed
  queued : ∀ p, .reload (.ok p) ∈ s.controller.queue → p.Timed
  underway : Underway s.now s.controller.running

namespace Underway

variable {now now' : Nat} {running : List Running}

theorem later (h : Underway now running) (hle : now ≤ now') : Underway now' running :=
  ⟨fun r hr => Nat.le_trans (h.begun r hr) hle, h.sorted⟩

theorem fewer {rest : List Running} (h : Underway now running) (hsub : rest.Sublist running) :
    Underway now rest :=
  ⟨fun r hr => h.begun r (hsub.subset hr), h.sorted.sublist hsub⟩

/-- An action that starts goes where it will end. -/
theorem launch {c : Controller} (h : Underway now c.running) (action : Action) :
    Underway now (c.launch now action).running := by
  simp only [Controller.launch, List.partition_eq_filter_filter]
  refine ⟨fun r hr => ?_, ?_⟩
  · rcases List.mem_append.mp hr with hsooner | hlater
    · exact h.begun r (List.mem_filter.mp hsooner).1
    · rcases List.mem_cons.mp hlater with rfl | hlater
      · exact Nat.le_refl now
      · exact h.begun r (List.mem_filter.mp hlater).1
  · refine List.pairwise_append.mpr ⟨h.sorted.filter _, List.pairwise_cons.mpr
      ⟨fun r hr => ?_, h.sorted.filter _⟩, fun r hr r' hr' => ?_⟩
    · have hnot := (List.mem_filter.mp hr).2
      simp only [Function.comp_apply, Bool.not_eq_true', decide_eq_false_iff_not] at hnot
      omega
    · have hle := (List.mem_filter.mp hr).2
      simp only [decide_eq_true_eq] at hle
      rcases List.mem_cons.mp hr' with rfl | hlater
      · exact hle
      · have hnot := (List.mem_filter.mp hlater).2
        simp only [Function.comp_apply, Bool.not_eq_true', decide_eq_false_iff_not] at hnot
        omega

theorem carryOut {c : Controller} (h : Underway now c.running) (out : Outcome) :
    Underway now (c.carryOut now out).running := by
  cases hdispatch : out.dispatch with
  | none =>
      rw [Controller.running_carryOut now hdispatch]
      exact h
  | some action =>
      have hrecorded : Underway now (c.record out.events).running := by
        rw [Controller.record_eq]
        exact h
      have hlaunched := hrecorded.launch action
      simp only [Controller.carryOut, hdispatch]
      cases out.failure with
      | none => exact hlaunched
      | some fault =>
          simp only [Controller.surface_eq]
          exact hlaunched

theorem feed {c : Controller} (h : Underway now c.running)
    (input : Machine → Machine × Outcome) : Underway now (c.feed now input).running :=
  carryOut (c := { c with machine := (input c.machine).1 }) h (input c.machine).2

theorem handle {c : Controller} (h : Underway now c.running) (readings : Readings)
    (command : Command) : Underway now (c.handle readings now command).running := by
  cases command with
  | validation valid => exact h.feed (·.onValidation valid now readings)
  | reload policy =>
      cases policy with
      | ok p => exact h.feed (·.onReload p now)
      | error fault => exact h.feed (·.onRefusal fault)
  | finished action result =>
      cases result with
      | ok _ => exact h
      | error fault => exact h.feed (·.onFailure action fault)
  | snapshot => exact h
  | shutdown => exact h

end Underway

/-! ## Along a life -/

namespace Scene

variable {s s' : Scene} {o : Occurrence} {life : List Occurrence}

/-- The policy in force after a turn was in force before, or has just been loaded. -/
theorem policy_of_turned {t : Turn} (ho : s.Occurs (.turned t) s') {p : Policy}
    (hp : s'.controller.machine.policy = some p) :
    s.controller.machine.policy = some p ∨ .reload (.ok p) ∈ s.controller.queue := by
  rw [ho.replay_of_turned.1, Machine.take, Turn.stimulus?] at hp
  cases hinput : t.work.input? with
  | none =>
      rw [hinput] at hp
      exact .inl hp
  | some input =>
      rw [hinput] at hp
      have hstep := s.controller.machine.policy_step ⟨input, t.setting.now, t.setting.readings⟩
      rw [Option.map_some, hstep] at hp
      cases input with
      | reload q =>
          cases hp
          obtain ⟨rest, hqueue⟩ := ho.queue_of_turned (reload_of_input hinput)
          exact .inr (hqueue ▸ List.mem_cons_self)
      | _ => exact .inl hp

theorem Occurs.underway (ho : s.Occurs o s') (h : Underway s.now s.controller.running) :
    Underway s'.now s'.controller.running := by
  cases ho with
  | told command hopen =>
      rw [Controller.send_of_open command hopen]
      exact h
  | equipped collaborators => exact h
  | tuned readings' => exact h
  | moved hle => exact h.later hle
  | @abandoned now readings c =>
      unfold Controller.abandon
      split <;> exact h
  | waited hle hrests => exact h.later hle
  | returned halive hrunning hended =>
      rw [show _ = _ from hrunning] at h
      exact h.fewer ((List.sublist_cons_self _ _).append_left _)
  | @refused now readings c fault halive hrefusal =>
      exact Underway.feed (c := { c with refusal := none }) h _
  | @handled now readings c command rest halive hrefusal hqueue =>
      exact Underway.handle (c := { c with queue := rest }) h readings command
  | rechecked halive hrefusal hqueue hd hdue => exact h.feed _
  | closed hphase => exact h

/-- What waits in a queue waited before, or has just been told, or is the result of an action. -/
theorem Occurs.queue_cases (ho : s.Occurs o s') {command : Command}
    (h : command ∈ s'.controller.queue) :
    command ∈ s.controller.queue ∨ o = .told command ∨ command.isResult = true := by
  obtain ⟨lost, hfifo, _⟩ := ho.tallies.fifo
  have hwhere : command ∈ s.controller.queue ++ queued [o] := by
    rw [hfifo]
    exact List.mem_append_right _ (List.mem_append_left _ h)
  refine (List.mem_append.mp hwhere).imp_right fun hqueued => ?_
  rcases mem_queued.mp hqueued with htold | ⟨r, hreturned⟩
  · exact .inl (List.mem_singleton.mp htold).symm
  · cases List.mem_singleton.mp hreturned
    cases ho with
    | returned halive hrunning hended => exact .inr rfl

theorem Occurs.timed (ho : s.Occurs o s') (h : s.Timed)
    (htold : ∀ p, o = .told (.reload (.ok p)) → p.Timed) : s'.Timed where
  loaded p hp := by
    cases hturn : o.turn? with
    | some t =>
        cases Occurrence.eq_turned hturn
        rcases policy_of_turned ho hp with hold | hqueued
        · exact h.loaded p hold
        · exact h.queued p hqueued
    | none =>
        have hmachine : s'.controller.machine = s.controller.machine := by
          have hreplayed := congrArg Prod.fst ho.tallies.replayed
          rw [turns, List.filterMap_cons_none hturn] at hreplayed
          exact hreplayed
        rw [hmachine] at hp
        exact h.loaded p hp
  queued p hp := by
    rcases ho.queue_cases hp with hold | hnow | hresult
    · exact h.queued p hold
    · exact htold p hnow
    · exact absurd hresult Bool.false_ne_true
  underway := ho.underway h.underway

theorem Lives.timed (hl : s.Lives life s') (h : s.Timed)
    (htold : ∀ p, .told (.reload (.ok p)) ∈ life → p.Timed) : s'.Timed := by
  induction hl with
  | nil s => exact h
  | cons ho rest ih =>
      exact ih (ho.timed h fun p hp => htold p (hp ▸ List.mem_cons_self))
        fun p hp => htold p (List.mem_cons_of_mem _ hp)

theorem Proceeds.timed (hs : s.Proceeds s') (h : s.Timed) : s'.Timed := by
  obtain ⟨life, hlives, hown⟩ := hs
  refine hlives.timed h fun p hp => ?_
  exact absurd rfl (List.filter_eq_nil_iff.mp hown _ hp)

end Scene

/-! ## Over a run -/

namespace Deployment

variable {d : Deployment} {i : Nat}

/-- So it is with every controller. -/
def Timed (d : Deployment) : Prop := ∀ (i : Nat) (s : Scene), d.scene? i = some s → s.Timed

theorem timed_of_nobody (h : d.controllers = []) : d.Timed :=
  fun i s hs => absurd hs (by simp [scene?, h])

theorem timed_start {launch : Launch} (hm : (Moment.act (.start launch)).Timed) (h : d.Timed) :
    (d.start launch).1.Timed := by
  rcases d.start_cases launch with ⟨_, hsame⟩ | ⟨initial, hinitial, _, hadded⟩
  · rwa [hsame]
  rw [hadded]
  intro j s hs
  obtain ⟨hc, hscene⟩ := eq_of_scene? hs
  rw [hscene]
  rcases found_of_added hc with hold | ⟨_, hnew⟩
  · exact h j _ (scene?_eq_some hold)
  · rw [hnew]
    refine ⟨fun p hp => ?_, fun p hp => absurd hp List.not_mem_nil, nofun, .nil⟩
    cases initial with
    | error fault => exact absurd hp nofun
    | ok q =>
        cases hp
        exact hm p hinitial

/-- Whatever a controller is told to load is brought by the moment at which it is told. -/
theorem timed_of_doneTo {m : Moment} (hm : m.Timed) {c : Controller} {p : Policy}
    (h : .told (.reload (.ok p)) ∈ d.doneTo i c m) : p.Timed := by
  have hdeed := deed_of_doneTo h
  generalize ho : Occurrence.told (.reload (.ok p)) = o at hdeed
  cases hdeed with
  | reloaded settings => exact hm p (Command.reload.inj (Occurrence.told.inj ho)).symm
  | replaced settings policy hpolicy =>
      cases ho
      exact hm p hpolicy
  | _ => exact absurd ho nofun

theorem Timed.meet (h : d.Timed) {m : Moment} (hm : m.Timed) : (d.meet m).Timed := by
  by_cases hstart : ∃ launch, m = .act (.start launch)
  · obtain ⟨launch, rfl⟩ := hstart
    exact timed_start hm h
  intro j s' hs'
  obtain ⟨hc', hscene⟩ := eq_of_scene? hs'
  obtain ⟨c, hc, _⟩ := earlier_of_meet (fun launch hm => hstart ⟨launch, hm⟩) hc'
  obtain ⟨segment, hlives, hdone⟩ := lives_of_meet hc hc'
  rw [hscene]
  refine hlives.timed (h j _ (scene?_eq_some hc)) fun p hp => ?_
  exact timed_of_doneTo hm ((mem_done hdone rfl).mp hp)

theorem timed_follow (h : d.Timed) {moments : List Moment} (hm : ∀ m ∈ moments, m.Timed) :
    (d.follow moments).Timed := by
  induction moments generalizing d with
  | nil => exact h
  | cons m moments ih =>
      obtain ⟨hfirst, hrest⟩ := List.forall_mem_cons.mp hm
      exact ih (h.meet hfirst) hrest

theorem Timed.scene (h : d.Timed) {c : Controller} (hc : c ∈ d.controllers) :
    Scene.Timed ⟨d.now, d.readings, c⟩ := by
  obtain ⟨i, hi⟩ := List.getElem?_of_mem hc
  exact h i _ (scene?_eq_some hi)

end Deployment

end StallRecovery
