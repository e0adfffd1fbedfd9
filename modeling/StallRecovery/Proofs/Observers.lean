import StallRecovery.Proofs.Alike
import StallRecovery.Proofs.Recounting

/-!
# Observers never decide

Two runs have the same steps if they differ only in what has no say in what is decided: in who hears
of events and failures, in how the actions end and how long they take, and in policies that are
refused. Such steps may stand in one run and not in the other, and so may letting everything happen
where nothing that matters can.

Alike deployments are alike after the same moment, and after a moment that has no say a deployment
is alike to what it was. So runs with the same steps show the same, moment after moment.
-/

namespace StallRecovery

namespace Controller.Impartial

variable {f : Controller → Controller} {cs cs' : List Controller}

theorem option (hf : Impartial f) {x y : Option Controller} (h : x.map core = y.map core) :
    (x.map f).map core = (y.map f).map core := by
  cases x with
  | none =>
      cases y with
      | none => rfl
      | some c' => exact absurd h nofun
  | some c =>
      cases y with
      | none => exact absurd h nofun
      | some c' => exact congrArg some (hf (Option.some.inj h))

theorem map (hf : Impartial f) (h : cs.map core = cs'.map core) :
    (cs.map f).map core = (cs'.map f).map core := by
  refine List.ext_getElem? fun i => ?_
  have hi := congrArg (·[i]?) h
  simp only [List.getElem?_map] at hi ⊢
  exact hf.option hi

theorem modify (hf : Impartial f) (i : Nat) (h : cs.map core = cs'.map core) :
    (cs.modify i f).map core = (cs'.modify i f).map core := by
  refine List.ext_getElem? fun j => ?_
  have hj := congrArg (·[j]?) h
  simp only [List.getElem?_map, List.getElem?_modify] at hj ⊢
  refine option ?_ hj
  intro c c' hc
  split
  · exact hf hc
  · exact hc

end Controller.Impartial

/-- What of a moment has a say in what is decided, if anything has. -/
def Moment.core? : Moment → Option Moment
  | .act (.start launch) => some (.act (.start { launch with collaborators := {} }))
  | .act (.rejectActions _ _) => none
  | .act (.setActionTime _ _) => none
  | .act (.setRecorderBroken _ _) => none
  | .act (.reload i settings) =>
    match settings.toPolicy with
    | .ok _ => some (.act (.reload i settings))
    | .error _ => none
  | .act (.reloadChecked i settings) =>
    match settings.toPolicy with
    | .ok _ => some (.act (.reloadChecked i settings))
    | .error _ => none
  | m => some m

namespace Deployment

/-! ## Deployments that are alike -/

/-- Two deployments whose controllers are alike, one by one. -/
structure Alike (d d' : Deployment) : Prop where
  now : d.now = d'.now
  monitor : d.monitor = d'.monitor
  readings : d.readings = d'.readings
  controllers : d.controllers.map (·.core) = d'.controllers.map (·.core)

variable {d d' d'' : Deployment} {i : Nat}

namespace Alike

theorem refl (d : Deployment) : d.Alike d := ⟨rfl, rfl, rfl, rfl⟩

theorem symm (h : d.Alike d') : d'.Alike d :=
  ⟨h.now.symm, h.monitor.symm, h.readings.symm, h.controllers.symm⟩

theorem trans (h : d.Alike d') (h' : d'.Alike d'') : d.Alike d'' :=
  ⟨h.now.trans h'.now, h.monitor.trans h'.monitor, h.readings.trans h'.readings,
    h.controllers.trans h'.controllers⟩

/-- Wherever one has a controller, so has the other, and the two are alike. -/
theorem found (h : d.Alike d') (i : Nat) :
    (d.controllers[i]? = none ∧ d'.controllers[i]? = none)
      ∨ ∃ c c', d.controllers[i]? = some c ∧ d'.controllers[i]? = some c' ∧ c.Alike c' := by
  have hi := congrArg (·[i]?) h.controllers
  simp only [List.getElem?_map] at hi
  cases hc : d.controllers[i]? with
  | none =>
      cases hc' : d'.controllers[i]? with
      | none => exact .inl ⟨rfl, rfl⟩
      | some c' => simp [hc, hc'] at hi
  | some c =>
      cases hc' : d'.controllers[i]? with
      | none => simp [hc, hc'] at hi
      | some c' =>
          rw [hc, hc'] at hi
          exact .inr ⟨c, c', rfl, rfl, Option.some.inj hi⟩

theorem length (h : d.Alike d') : d.controllers.length = d'.controllers.length := by
  simpa using congrArg List.length h.controllers

theorem isOpen (h : d.Alike d') : d.isOpen = d'.isOpen := by
  funext sink
  unfold Deployment.isOpen
  rcases h.found sink with ⟨hc, hc'⟩ | ⟨c, c', hc, hc', halike⟩
  · rw [hc, hc']
  · rw [hc, hc', Option.any_some, Option.any_some, halike.isOpen]

theorem modify {f : Controller → Controller} (h : d.Alike d') (hf : Controller.Impartial f)
    (i : Nat) : (d.modify i f).Alike (d'.modify i f) :=
  ⟨h.now, h.monitor, h.readings, hf.modify i h.controllers⟩

end Alike

/-- Whoever has something done to one controller does it to alike ones. -/
theorem alike_whenKnown {g g' : Controller → Deployment × Reply} (h : d.Alike d')
    (hg : ∀ c c', c.Alike c' → (g c).1.Alike (g' c').1) :
    (d.whenKnown i g).1.Alike (d'.whenKnown i g').1 := by
  unfold whenKnown
  rcases h.found i with ⟨hc, hc'⟩ | ⟨c, c', hc, hc', halike⟩
  · rw [hc, hc']
    exact h
  · rw [hc, hc']
    exact hg c c' halike

theorem alike_whileAlive {g g' : Controller → Deployment × Reply} (h : d.Alike d')
    (hg : ∀ c c', c.Alike c' → (g c).1.Alike (g' c').1) :
    (d.whileAlive i g).1.Alike (d'.whileAlive i g').1 := by
  refine alike_whenKnown (g := fun c => if c.isAlive then g c else (d, .noController)) h ?_
  intro c c' hc
  simp only [hc.isAlive]
  split
  · exact hg c c' hc
  · exact h

/-! ## What has no say -/

theorem modify_alike {f : Controller → Controller} (hf : ∀ c, (f c).Alike c) (i : Nat)
    (d : Deployment) : (d.modify i f).Alike d := by
  refine ⟨rfl, rfl, rfl, List.ext_getElem? fun j => ?_⟩
  simp only [modify, List.getElem?_map, List.getElem?_modify]
  cases hc : d.controllers[j]? with
  | none => rfl
  | some c =>
      refine congrArg some ?_
      simp only
      split
      · exact hf c
      · rfl

theorem equip_alike (i : Nat) (change : Collaborators → Collaborators) (d : Deployment) :
    (d.equip i change).1.Alike d := by
  unfold equip whenKnown
  split
  · exact .refl d
  · exact modify_alike (f := fun c => { c with collaborators := change c.collaborators })
      (fun _ => .of rfl rfl rfl rfl rfl rfl rfl) i d

/-! ## The same moment -/

namespace Alike

theorem settle (h : d.Alike d') : d.settle.Alike d'.settle := by
  refine ⟨h.now, h.monitor, h.readings, ?_⟩
  simp only [Deployment.settle, h.now, h.readings]
  exact (Controller.impartial_settle d'.readings d'.now).map h.controllers

theorem sleepUntil (h : d.Alike d') (target : Nat) :
    (d.sleepUntil target).Alike (d'.sleepUntil target) := by
  unfold Deployment.sleepUntil
  rw [h.now]
  split
  · refine ⟨rfl, h.monitor, h.readings, ?_⟩
    simp only [Deployment.settle, h.now, h.readings]
    have hpassed := (Controller.impartial_passTo d'.readings d'.now target).map h.controllers
    simpa only [List.map_map, Function.comp_def] using hpassed
  · exact h

theorem jumpTo (h : d.Alike d') (target : Nat) :
    (d.jumpTo target).Alike (d'.jumpTo target) := by
  refine ⟨rfl, h.monitor, h.readings, ?_⟩
  simp only [Deployment.jumpTo, h.now, h.readings]
  exact (Controller.impartial_settleThrough d'.readings target d'.now).map h.controllers

theorem tell (h : d.Alike d') (command : Command) (registrations : List Registration) :
    (registrations.foldl (fun d r => d.modify r.sink (·.send command)) d).Alike
      (registrations.foldl (fun d r => d.modify r.sink (·.send command)) d') := by
  induction registrations generalizing d d' with
  | nil => exact h
  | cons r rest ih => exact ih (h.modify (Controller.impartial_send command) r.sink)

theorem publish (h : d.Alike d') (valid : Bool) :
    (d.publish valid).1.Alike (d'.publish valid).1 := by
  unfold Deployment.publish
  simp only [h.monitor, h.isOpen]
  refine tell ?_ (.validation valid) _
  exact ⟨h.now, rfl, h.readings, h.controllers⟩

/-- It does not matter who hears of what a controller does. -/
theorem start (h : d.Alike d') (launch : Launch) (collaborators : Collaborators) :
    (d.start launch).1.Alike (d'.start { launch with collaborators }).1 := by
  have hmissing : Launch.missing? { launch with collaborators } = launch.missing? := rfl
  unfold Deployment.start
  simp only [hmissing]
  cases launch.policy.resolve with
  | error fault => exact h
  | ok policy =>
      cases launch.missing? with
      | some reason => exact h
      | none =>
          cases launch.monitorRefusal with
          | some reason => exact h
          | none =>
              refine ⟨h.now, ?_, h.readings, ?_⟩
              · simp only [h.monitor, h.length]
              · simp only [List.map_append, h.controllers, h.monitor, h.length]
                rfl

theorem equip (h : d.Alike d') (i : Nat) (change : Collaborators → Collaborators) :
    (d.equip i change).1.Alike (d'.equip i change).1 :=
  ((equip_alike i change d).trans h).trans (equip_alike i change d').symm

/-- Alike deployments are alike after the same moment. -/
theorem meet (h : d.Alike d') (m : Moment) : (d.meet m).Alike (d'.meet m) := by
  cases m with
  | ask i =>
      exact alike_whileAlive h fun _ _ _ => h.modify (Controller.impartial_send .snapshot) i
  | settle => exact h.settle
  | act op =>
    cases op with
    | start launch => exact h.start launch launch.collaborators
    | publish valid => exact h.publish valid
    | report i valid =>
        exact alike_whileAlive h fun _ _ _ =>
          h.modify (Controller.impartial_send (.validation valid)) i
    | deliver i valid =>
        refine alike_whenKnown h fun c c' hc => ?_
        simp only [hc.isOpen]
        split
        · exact h.modify (Controller.impartial_send (.validation valid)) i
        · exact h
    | sinkClosed i => exact alike_whenKnown h fun _ _ _ => h
    | register i =>
        refine alike_whenKnown h fun _ _ _ => ?_
        rw [h.monitor, h.isOpen]
        split
        · exact ⟨h.now, rfl, h.readings, h.controllers⟩
        · exact h
    | unregister id =>
        exact ⟨h.now, congrArg (·.unregister id) h.monitor, h.readings, h.controllers⟩
    | setSignal signal =>
        exact ⟨h.now, h.monitor, congrArg ({ · with signal }) h.readings, h.controllers⟩
    | setCall call =>
        exact ⟨h.now, h.monitor, congrArg ({ · with call }) h.readings, h.controllers⟩
    | reload i settings =>
        refine alike_whileAlive h fun _ _ _ => ?_
        have hsent := fun policy => h.modify (Controller.impartial_send (.reload policy)) i
        cases settings.toPolicy with
        | ok policy => exact hsent (.ok policy)
        | error fault => exact hsent (.error fault)
    | reloadChecked i settings =>
        refine alike_whileAlive h fun _ _ _ => ?_
        cases settings.toPolicy with
        | ok policy => exact h.modify (Controller.impartial_send (.reload (.ok policy))) i
        | error fault => exact h
    | rejectActions i rejection => exact h.equip i _
    | setActionTime i actionTime => exact h.equip i _
    | setRecorderBroken i broken => exact h.equip i _
    | sleep duration =>
        simp only [Deployment.meet, act, h.now]
        exact h.sleepUntil _
    | jump duration =>
        simp only [Deployment.meet, act, h.now]
        exact h.jumpTo _
    | shutdown i =>
        refine alike_whileAlive h fun c c' hc => settle ?_
        refine modify ?_ (Controller.impartial_send .shutdown) i
        refine ⟨h.now, ?_, h.readings, h.controllers⟩
        simp only [h.monitor, hc.registration]
    | abandon i =>
        refine alike_whileAlive h fun c c' hc => ?_
        refine modify ?_ Controller.impartial_abandon i
        refine ⟨h.now, ?_, h.readings, h.controllers⟩
        simp only [h.monitor, hc.registration]

end Alike

/-! ## Moments that have no say -/

/-- A moment that has no say, or that lets everything happen where nothing that matters can. -/
def Indifferent (d : Deployment) (m : Moment) : Prop :=
  m.core? = none ∨ m = .settle ∧ ∀ c ∈ d.controllers, c.Idle d.now

/-- From a deployment on, two runs have the same steps but for what has no say. -/
inductive SameSteps : Deployment → List Moment → List Moment → Prop where
  | nil {d : Deployment} : SameSteps d [] []
  | both {d : Deployment} {m m' : Moment} {ms ns : List Moment} (hcore : m.core? = m'.core?)
      (rest : SameSteps (d.meet m) ms ns) : SameSteps d (m :: ms) (m' :: ns)
  | left {d : Deployment} {m : Moment} {ms ns : List Moment} (hm : d.Indifferent m)
      (rest : SameSteps (d.meet m) ms ns) : SameSteps d (m :: ms) ns
  | right {d : Deployment} {m : Moment} {ms ns : List Moment} (hm : d.Indifferent m)
      (rest : SameSteps d ms ns) : SameSteps d ms (m :: ns)

theorem meet_reload_alike {settings : Settings} {fault : Fault}
    (hbad : settings.toPolicy = .error fault) (i : Nat) (d : Deployment) :
    (d.meet (.act (.reload i settings))).Alike d := by
  simp only [meet, act, whileAlive, hbad]
  split
  · exact .refl d
  · split
    · exact modify_alike (Controller.send_alike rfl) i d
    · exact .refl d

theorem meet_reloadChecked_alike {settings : Settings} {fault : Fault}
    (hbad : settings.toPolicy = .error fault) (i : Nat) (d : Deployment) :
    (d.meet (.act (.reloadChecked i settings))).Alike d := by
  simp only [meet, act, whileAlive, hbad]
  split
  · exact .refl d
  · split <;> exact .refl d

/-- A moment does what of it has a say, and that is all that matters. -/
theorem meet_core (m : Moment) (d : Deployment) :
    (d.meet m).Alike (m.core?.elim d d.meet) := by
  cases m with
  | ask i => exact .refl _
  | settle => exact .refl _
  | act op =>
    cases op with
    | start launch => exact (Alike.refl d).start launch {}
    | rejectActions i rejection => exact equip_alike i _ d
    | setActionTime i actionTime => exact equip_alike i _ d
    | setRecorderBroken i broken => exact equip_alike i _ d
    | reload i settings =>
        cases hpolicy : settings.toPolicy with
        | ok policy =>
            simp only [Moment.core?, hpolicy]
            exact .refl _
        | error fault =>
            simp only [Moment.core?, hpolicy]
            exact meet_reload_alike hpolicy i d
    | reloadChecked i settings =>
        cases hpolicy : settings.toPolicy with
        | ok policy =>
            simp only [Moment.core?, hpolicy]
            exact .refl _
        | error fault =>
            simp only [Moment.core?, hpolicy]
            exact meet_reloadChecked_alike hpolicy i d
    | _ => exact .refl _

theorem Alike.meet_both {m m' : Moment} (h : d.Alike d') (hcore : m.core? = m'.core?) :
    (d.meet m).Alike (d'.meet m') := by
  have hcores : (m.core?.elim d d.meet).Alike (m'.core?.elim d' d'.meet) := by
    rw [hcore]
    cases m'.core? with
    | none => exact h
    | some m₀ => exact h.meet m₀
  exact ((meet_core m d).trans hcores).trans (meet_core m' d').symm

theorem settle_alike (hidle : ∀ c ∈ d.controllers, c.Idle d.now) : d.settle.Alike d := by
  refine ⟨rfl, rfl, rfl, ?_⟩
  simp only [settle, List.map_map]
  exact List.map_congr_left fun c hc => (hidle c hc).settle d.readings

theorem Indifferent.meet {m : Moment} (hm : d.Indifferent m) : (d.meet m).Alike d := by
  rcases hm with hnone | ⟨rfl, hidle⟩
  · have hcore := meet_core m d
    rwa [hnone] at hcore
  · exact settle_alike hidle

/-- Runs with the same steps lead alike deployments to alike ones. -/
theorem Alike.follow {ms ns : List Moment} (h : d.Alike d') (hsame : SameSteps d ms ns) :
    (d.follow ms).Alike (d'.follow ns) := by
  induction hsame generalizing d' with
  | nil => exact h
  | both hcore rest ih => exact ih (h.meet_both hcore)
  | left hm rest ih => exact ih (hm.meet.trans h)
  -- what has no say in the first deployment has none in one that is alike
  | right hm rest ih => exact ih (hm.meet.symm.trans (h.meet _))

/-- What there is to see of a controller. -/
structure Shown where
  state : Option Snapshot
  snapshots : Array Snapshot
  dispatched : Array (Nat × Action)

def shown? (i : Nat) (d : Deployment) : Option Shown :=
  d.controllers[i]?.map fun c => ⟨c.snapshot?, c.journal.snapshots, c.journal.dispatched⟩

theorem Alike.shown (h : d.Alike d') (i : Nat) : d.shown? i = d'.shown? i := by
  unfold shown?
  rcases h.found i with ⟨hc, hc'⟩ | ⟨c, c', hc, hc', halike⟩
  · rw [hc, hc']
  · rw [hc, hc', Option.map_some, Option.map_some, Controller.snapshot?, Controller.snapshot?,
      halike.isAlive, halike.machine, halike.snapshots, halike.dispatched]

end Deployment

/-! ## Refused policies -/

/-- What a refused policy makes of a scene: it leaves the queue, is recorded once and surfaced once,
where there is somebody to hear of it, and changes nothing else. -/
structure Rejected (fault : Fault) (s s' : Scene) : Prop where
  now : s'.now = s.now
  readings : s'.readings = s.readings
  queue : s.controller.queue = .reload (.error fault) :: s'.controller.queue
  controller : s'.controller = { s.controller with
    queue := s'.controller.queue
    journal := { s.controller.journal with
      events :=
        if s.controller.collaborators.recordsEvents && !s.controller.collaborators.recorderBroken
        then s.controller.journal.events.push (.configRejected fault.message)
        else s.controller.journal.events
      failures :=
        if s.controller.collaborators.hearsFailures
        then s.controller.journal.failures.push fault
        else s.controller.journal.failures } }

theorem rejected_of_turned {s s' : Scene} {t : Turn} {fault : Fault}
    (ho : s.Occurs (.turned t) s') (ht : t.work = .command (.reload (.error fault))) :
    Rejected fault s s' := by
  cases ho with
  | refused halive hrefusal => exact absurd ht nofun
  | rechecked halive hrefusal hqueue hd hdue => exact absurd ht nofun
  | handled halive hrefusal hqueue =>
      cases ht
      simp only [Controller.handle, Controller.feed, Controller.carryOut, Machine.onRefusal,
        Controller.record_eq, Controller.surface_eq]
      exact ⟨rfl, rfl, hqueue, rfl⟩

/--
**Observers never decide.**

From alike deployments, runs with the same steps but for what has no say in what is decided show
the same snapshots and start the same actions at the same instants, whoever hears of events and
failures, however actions end and however long they take, and wherever policies are refused. A
controller that turns to a refused policy reports it once and is otherwise as it was.
-/
theorem observers_never_decide {d d' : Deployment} {ms ns : List Moment} (h : d.Alike d')
    (hsame : Deployment.SameSteps d ms ns) :
    (∀ i, (d.follow ms).shown? i = (d'.follow ns).shown? i)
      ∧ ∀ s s' t fault, s.Occurs (.turned t) s' → t.work = .command (.reload (.error fault)) →
        Rejected fault s s' :=
  ⟨(h.follow hsame).shown, fun _ _ _ _ => rejected_of_turned⟩

/-! ## A stall heard by all and heard by none -/

namespace Unheard

/-- A stall whose actions succeed at once. -/
def heard : List Moment :=
  [.act (.start (.complete .standard)), .act (.publish false), .settle,
    .act (.jump defaultDelay), .settle, .ask 0, .settle]

/-- Actions that take long and fail, and nobody who hears of it. -/
def alone : Collaborators where
  rejection := some "modem busy"
  actionTime := 5
  hearsFailures := false
  recordsEvents := false

def incomplete : Settings := { Settings.standard with skips := [] }

/-- The same stall, with two refused policies; one of them is handled at once. -/
def unheard : List Moment :=
  [.act (.start { Launch.complete .standard with collaborators := alone }), .act (.publish false),
    .act (.reload 0 incomplete), .settle, .act (.reload 0 incomplete), .settle,
    .act (.jump defaultDelay), .act (.setActionTime 0 7), .settle, .ask 0, .settle]

/-- What the stall shows once the radio was power cycled. -/
def powerCycled : Snapshot := ⟨.radioPowerCycle, true, false, some 0, true⟩

theorem idle_stalled :
    ∀ c ∈ (Deployment.empty.follow (heard.take 3)).controllers, c.Idle 0 := by
  intro c hc
  cases List.mem_singleton.mp hc
  refine ⟨nofun, fun _ => rfl, fun _ d hd => ?_⟩
  cases hd
  decide

theorem sameSteps : Deployment.SameSteps .empty heard unheard :=
  .both rfl <| .both rfl <| .right (.inl rfl) <| .both rfl <| .right (.inl rfl) <|
    .right (.inr ⟨rfl, idle_stalled⟩) <| .both rfl <| .right (.inl rfl) <| .both rfl <| .both rfl <|
    .both rfl .nil

end Unheard

/-- One run reports everything and the other nothing, and both show the same. -/
theorem observers_never_decide_unheard :
    let d := Deployment.empty.follow Unheard.heard
    let d' := Deployment.empty.follow Unheard.unheard
    Deployment.SameSteps .empty Unheard.heard Unheard.unheard
      ∧ d.shown? 0 = some ⟨some Unheard.powerCycled, #[Unheard.powerCycled],
        #[(0, .reestablishInternet), (defaultDelay, .radioPowerCycle)]⟩
      ∧ d.controllers.map (·.journal.events.size) = [3]
      ∧ d'.controllers.map (·.journal.events.size) = [0]
      ∧ (∀ i, d.shown? i = d'.shown? i)
      ∧ ∀ s s' t fault, s.Occurs (.turned t) s' → t.work = .command (.reload (.error fault)) →
        Rejected fault s s' :=
  ⟨Unheard.sameSteps, rfl, rfl, rfl, observers_never_decide (.refl _) Unheard.sameSteps⟩

end StallRecovery
