import StallRecovery.Deployment.Run
import StallRecovery.Proofs.Settling

/-!
# The life of a controller in a deployment

Whatever happens to a deployment, each of its controllers lives on: `Deployment.doneTo` says what a
moment does to a controller from outside, and the rest of what occurs to it is its own doing. A life
of a controller in a run, `Deployment.Lived`, goes moment after moment, and every run has one.
-/

namespace StallRecovery

namespace Deployment

/-- What a controller is part of. -/
def scene? (i : Nat) (d : Deployment) : Option Scene :=
  d.controllers[i]?.map (⟨d.now, d.readings, ·⟩)

/-- What a moment does to controller `i`, which is `c`, from outside. -/
def doneTo (i : Nat) (d : Deployment) (c : Controller) : Moment → List Occurrence
  | .act (.publish valid) =>
    ((d.monitor.publish d.isOpen valid).2.filter (·.sink == i)).map fun _ =>
      .told (.validation valid)
  | .act (.report j valid) => if j = i ∧ c.isAlive = true then [.told (.validation valid)] else []
  | .act (.deliver j valid) => if j = i ∧ c.isOpen = true then [.told (.validation valid)] else []
  | .act (.setSignal signal) => [.tuned { d.readings with signal }]
  | .act (.setCall call) => [.tuned { d.readings with call }]
  | .act (.reload j settings) =>
    if j = i ∧ c.isAlive = true then [.told (.reload settings.toPolicy)] else []
  | .act (.reloadChecked j settings) =>
    if j = i ∧ c.isAlive = true then
      match settings.toPolicy with
      | .ok policy => [.told (.reload (.ok policy))]
      | .error _ => []
    else []
  | .act (.rejectActions j rejection) =>
    if j = i then [.equipped { c.collaborators with rejection }] else []
  | .act (.setActionTime j actionTime) =>
    if j = i then [.equipped { c.collaborators with actionTime }] else []
  | .act (.setRecorderBroken j recorderBroken) =>
    if j = i then [.equipped { c.collaborators with recorderBroken }] else []
  | .act (.jump duration) => [.moved (d.now + duration)]
  | .act (.shutdown j) => if j = i ∧ c.isAlive = true then [.told .shutdown] else []
  | .act (.abandon j) => if j = i ∧ c.isAlive = true then [.abandoned] else []
  | .ask j => if j = i ∧ c.isAlive = true then [.told .snapshot] else []
  | .act (.start _) | .act (.sinkClosed _) | .act (.register _) | .act (.unregister _)
  | .act (.sleep _) | .settle => []

/-- A life of controller `i` over some moments, from a deployment on. -/
inductive Lived (i : Nat) : Deployment → List Moment → List Occurrence → Prop where
  | nil (d : Deployment) : Lived i d [] []
  | cons {d : Deployment} {m : Moment} {ms : List Moment} {s s' : Scene}
      {segment life : List Occurrence} (hs : d.scene? i = some s)
      (hs' : (d.meet m).scene? i = some s') (hlives : s.Lives segment s')
      (hdone : segment.filter Occurrence.isDone = d.doneTo i s.controller m)
      (rest : Lived i (d.meet m) ms life) : Lived i d (m :: ms) (segment ++ life)

/-! ## One moment -/

/-- A deployment is reached in which the scene of controller `i` has come from another, while this
was done to it. -/
def Reaches (i : Nat) (s : Scene) (done : List Occurrence) (d : Deployment) : Prop :=
  ∃ s' segment, d.scene? i = some s' ∧ s.Lives segment s'
    ∧ segment.filter Occurrence.isDone = done

section

variable {i j : Nat} {d d' : Deployment} {s s' s'' : Scene} {o : Occurrence}

theorem reaches_same (hs : d.scene? i = some s) : Reaches i s [] d := ⟨s, [], hs, .nil s, rfl⟩

theorem reaches_of_proceeds (hs : d.scene? i = some s') (h : s.Proceeds s') :
    Reaches i s [] d := by
  obtain ⟨life, hlives, hown⟩ := h
  exact ⟨s', life, hs, hlives, hown⟩

theorem Reaches.after {done : List Occurrence} (ho : s.Occurs o s') (hdone : o.isDone = true)
    (h : Reaches i s' done d) : Reaches i s (o :: done) d := by
  obtain ⟨s'', segment, hs'', hlives, hrest⟩ := h
  refine ⟨s'', o :: segment, hs'', .cons ho hlives, ?_⟩
  rw [List.filter_cons_of_pos hdone, hrest]

theorem scene?_eq_some {c : Controller} (hc : d.controllers[i]? = some c) :
    d.scene? i = some ⟨d.now, d.readings, c⟩ := by rw [scene?, hc]; rfl

theorem eq_of_scene? (hs : d.scene? i = some s) :
    d.controllers[i]? = some s.controller ∧ s = ⟨d.now, d.readings, s.controller⟩ := by
  obtain ⟨c, hc, rfl⟩ := Option.map_eq_some_iff.mp hs
  exact ⟨hc, rfl⟩

theorem scene?_modify (j : Nat) (f : Controller → Controller) (hs : d.scene? i = some s) :
    (d.modify j f).scene? i
      = some (if j = i then { s with controller := f s.controller } else s) := by
  obtain ⟨hc, hscene⟩ := eq_of_scene? hs
  rw [scene?, modify, List.getElem?_modify, hc, hscene]
  split <;> rfl

theorem scene?_settle (hs : d.scene? i = some s) :
    d.settle.scene? i = some { s with controller := s.controller.settle s.readings s.now } := by
  obtain ⟨hc, hscene⟩ := eq_of_scene? hs
  rw [scene?, settle, List.getElem?_map, hc, hscene]
  rfl

/-- To let everything happen is to do nothing. -/
theorem reaches_settle (hs : d.scene? i = some s) : Reaches i s [] d.settle :=
  reaches_of_proceeds (scene?_settle hs)
    (s.controller.settleThrough_proceeds s.readings s.now (Nat.le_refl s.now))

theorem reaches_sleepUntil {target : Nat} (hs : d.scene? i = some s) :
    Reaches i s [] (d.sleepUntil target) := by
  unfold sleepUntil
  split
  · rename_i hlt
    obtain ⟨hc, hscene⟩ := eq_of_scene? hs
    have hsettled := s.controller.settleThrough_proceeds d.readings d.now (Nat.le_refl d.now)
    have hpassed := (s.controller.settle d.readings d.now).passTo_proceeds d.readings d.now target
      (Nat.le_of_lt hlt) (Controller.rests_settle d.readings d.now)
    rw [hscene]
    refine reaches_of_proceeds ?_ (hsettled.trans hpassed)
    simp only [scene?, settle, List.getElem?_map, hc]
    rfl
  · exact reaches_same hs

theorem reaches_jumpTo {target : Nat} (hle : d.now ≤ target) (hs : d.scene? i = some s) :
    Reaches i s [.moved target] (d.jumpTo target) := by
  obtain ⟨hc, hscene⟩ := eq_of_scene? hs
  have hsettled := s.controller.settleThrough_proceeds d.readings target hle
  rw [hscene]
  refine .after (.moved hle) rfl (reaches_of_proceeds ?_ hsettled)
  simp only [scene?, jumpTo, List.getElem?_map, hc]
  rfl

/-- Something is done to controller `j`, if that passes a gate. -/
theorem reaches_gated (p : Controller → Bool) {g : Controller → Deployment × Reply} (reply : Reply)
    {done : List Occurrence} (hs : d.scene? i = some s)
    (hother : j ≠ i → ∀ c, Reaches i s [] (g c).1)
    (hself : j = i → p s.controller = true → Reaches i s done (g s.controller).1) :
    Reaches i s (if j = i ∧ p s.controller = true then done else [])
      (d.whenKnown j fun c => if p c then g c else (d, reply)).1 := by
  obtain ⟨hc, _⟩ := eq_of_scene? hs
  unfold whenKnown
  by_cases hj : j = i
  · subst hj
    rw [hc]
    simp only [true_and]
    split
    · rename_i hp
      exact hself rfl hp
    · exact reaches_same hs
  · rw [if_neg fun h => hj h.1]
    split
    · exact reaches_same hs
    · simp only
      split
      · exact hother hj _
      · exact reaches_same hs

theorem reaches_whileAlive {g : Controller → Deployment × Reply} {done : List Occurrence}
    (hs : d.scene? i = some s) (hother : j ≠ i → ∀ c, Reaches i s [] (g c).1)
    (hself : j = i → s.controller.isAlive = true → Reaches i s done (g s.controller).1) :
    Reaches i s (if j = i ∧ s.controller.isAlive = true then done else [])
      (d.whileAlive j g).1 :=
  reaches_gated Controller.isAlive .noController hs hother hself

theorem reaches_modify {f : Controller → Controller} (hdone : o.isDone = true)
    (ho : j = i → s.Occurs o { s with controller := f s.controller })
    (hs : d.scene? i = some s) :
    Reaches i s (if j = i then [o] else []) (d.modify j f) := by
  have hchanged := scene?_modify j f hs
  by_cases hj : j = i
  · rw [if_pos hj] at hchanged ⊢
    exact .after (ho hj) hdone (reaches_same hchanged)
  · rw [if_neg hj] at hchanged ⊢
    exact reaches_same hchanged

/-- Controller `j` is changed, if it passes a gate. -/
theorem reaches_gated_modify (p : Controller → Bool) {f : Controller → Controller}
    {g : Controller → Deployment × Reply} (reply : Reply) (hdone : o.isDone = true)
    (ho : p s.controller = true → s.Occurs o { s with controller := f s.controller })
    (hg : ∀ c, ∃ d' : Deployment, d'.scene? i = some s ∧ (g c).1 = d'.modify j f)
    (hs : d.scene? i = some s) :
    Reaches i s (if j = i ∧ p s.controller = true then [o] else [])
      (d.whenKnown j fun c => if p c then g c else (d, reply)).1 := by
  refine reaches_gated p reply hs (fun hj c => ?_) fun hj hp => ?_
  · obtain ⟨d', hs', hd'⟩ := hg c
    have hchanged := reaches_modify (f := f) hdone (fun h => absurd h hj) hs'
    rw [if_neg hj] at hchanged
    rwa [hd']
  · obtain ⟨d', hs', hd'⟩ := hg s.controller
    have hchanged := reaches_modify (j := j) hdone (fun _ => ho hp) hs'
    rw [if_pos hj] at hchanged
    rwa [hd']

theorem reaches_equip {change : Collaborators → Collaborators} (hs : d.scene? i = some s) :
    Reaches i s (if j = i then [.equipped (change s.controller.collaborators)] else [])
      (d.equip j change).1 := by
  obtain ⟨hc, _⟩ := eq_of_scene? hs
  have hequipped := reaches_modify (j := j)
    (f := fun c => { c with collaborators := change c.collaborators }) rfl
    (fun _ => .equipped (change s.controller.collaborators)) hs
  unfold equip whenKnown
  by_cases hj : j = i
  · subst hj
    rw [hc]
    exact hequipped
  · rw [if_neg hj] at hequipped ⊢
    split
    · exact reaches_same hs
    · exact hequipped

/-- A controller that has an owner is told something. -/
theorem reaches_tell {command : Command} {g : Controller → Deployment × Reply}
    (hg : ∀ c, (g c).1 = d.modify j (·.send command)) (hs : d.scene? i = some s) :
    Reaches i s (if j = i ∧ s.controller.isAlive = true then [.told command] else [])
      (d.whileAlive j g).1 :=
  reaches_gated_modify Controller.isAlive .noController rfl
    (fun halive => .told command (Controller.isOpen_of_isAlive halive))
    (fun c => ⟨d, hs, hg c⟩) hs

theorem reaches_told {command : Command} {registrations : List Registration}
    (hs : d.scene? i = some s)
    (hopen : ∀ r ∈ registrations, r.sink = i → s.controller.isOpen = true) :
    Reaches i s ((registrations.filter (·.sink == i)).map fun _ => .told command)
      (registrations.foldl (fun d r => d.modify r.sink (·.send command)) d) := by
  induction registrations generalizing d s with
  | nil => exact reaches_same hs
  | cons r rest ih =>
      have hrest : ∀ r ∈ rest, r.sink = i → s.controller.isOpen = true :=
        fun r hr => hopen r (List.mem_cons_of_mem _ hr)
      have hsent := scene?_modify r.sink (·.send command) hs
      rw [List.foldl_cons]
      by_cases hsink : r.sink = i
      · have hopen' : s.controller.isOpen = true := hopen r List.mem_cons_self hsink
        rw [if_pos hsink] at hsent
        rw [List.filter_cons_of_pos (by simpa using hsink), List.map_cons]
        have hkept : (s.controller.send command).isOpen = true := by
          rw [Controller.send_of_open command hopen']
          exact hopen'
        exact .after (.told command hopen') rfl (ih hsent fun r hr hr' => hkept)
      · rw [if_neg hsink] at hsent
        rw [List.filter_cons_of_neg (by simpa using hsink)]
        exact ih hsent hrest

theorem isOpen_of_reached {m : Monitor} {isOpen : Nat → Bool} {valid : Bool} {r : Registration}
    (hr : r ∈ (m.publish isOpen valid).2) : isOpen r.sink = true := by
  unfold Monitor.publish at hr
  split at hr
  · exact absurd hr (by simp)
  · exact (List.mem_filter.mp hr).2

theorem reaches_publish {valid : Bool} (hs : d.scene? i = some s) :
    Reaches i s (((d.monitor.publish d.isOpen valid).2.filter (·.sink == i)).map fun _ =>
      .told (.validation valid)) (d.publish valid).1 := by
  obtain ⟨hc, _⟩ := eq_of_scene? hs
  refine reaches_told (d := { d with monitor := (d.monitor.publish d.isOpen valid).1 }) hs ?_
  intro r hr hsink
  have hopen : d.isOpen r.sink = true := isOpen_of_reached hr
  rw [hsink, isOpen, hc] at hopen
  exact hopen

theorem reaches_start (launch : Launch) (hs : d.scene? i = some s) :
    Reaches i s [] (d.start launch).1 := by
  obtain ⟨hc, hscene⟩ := eq_of_scene? hs
  have hlt : i < d.controllers.length := (List.getElem?_eq_some_iff.mp hc).1
  unfold start
  split
  · exact reaches_same hs
  · split
    · exact reaches_same hs
    · split
      · exact reaches_same hs
      · refine reaches_same ?_
        rw [hscene]
        exact scene?_eq_some ((List.getElem?_append_left hlt).trans hc)

/-- A moment does to a controller what is said, and the rest is its own doing. -/
theorem reaches_meet (m : Moment) (hs : d.scene? i = some s) :
    Reaches i s (d.doneTo i s.controller m) (d.meet m) := by
  obtain ⟨hc, hscene⟩ := eq_of_scene? hs
  cases m with
  | ask j => exact reaches_tell (fun _ => rfl) hs
  | settle => exact reaches_settle hs
  | act op =>
    cases op with
    | start launch => exact reaches_start launch hs
    | publish valid => exact reaches_publish hs
    | report j valid => exact reaches_tell (fun _ => rfl) hs
    | deliver j valid =>
        exact reaches_gated_modify Controller.isOpen _ rfl (fun hopen => .told _ hopen)
          (fun _ => ⟨d, hs, rfl⟩) hs
    | sinkClosed j =>
        simp only [meet, act, whenKnown]
        split <;> exact reaches_same hs
    | register j =>
        simp only [meet, act, whenKnown]
        split
        · exact reaches_same hs
        · split <;> exact reaches_same hs
    | unregister id => exact reaches_same hs
    | setSignal signal =>
        rw [hscene]
        exact .after (.tuned _) rfl (reaches_same (scene?_eq_some hc))
    | setCall call =>
        rw [hscene]
        exact .after (.tuned _) rfl (reaches_same (scene?_eq_some hc))
    | reload j settings =>
        refine reaches_tell (fun _ => ?_) hs
        cases settings.toPolicy <;> rfl
    | reloadChecked j settings =>
        -- of bad settings the controller hears nothing
        cases hpolicy : settings.toPolicy with
        | ok policy =>
            simp only [doneTo, meet, act, hpolicy]
            exact reaches_tell (fun _ => rfl) hs
        | error fault =>
            simp only [doneTo, meet, act, hpolicy]
            exact reaches_whileAlive hs (fun _ _ => reaches_same hs) fun _ _ => reaches_same hs
    | rejectActions j rejection => exact reaches_equip hs
    | setActionTime j duration => exact reaches_equip hs
    | setRecorderBroken j broken => exact reaches_equip hs
    | sleep duration => exact reaches_sleepUntil hs
    | jump duration => exact reaches_jumpTo (Nat.le_add_right _ _) hs
    | shutdown j =>
        -- whoever asks for it waits, so everybody else comes to their own meanwhile
        refine reaches_whileAlive hs (fun hj c => ?_) fun hj halive => ?_
        · have hsent := scene?_modify j (·.send .shutdown) hs
          rw [if_neg hj] at hsent
          exact reaches_settle hsent
        · have hsent := scene?_modify j (·.send .shutdown) hs
          rw [if_pos hj] at hsent
          exact .after (.told .shutdown (Controller.isOpen_of_isAlive halive)) rfl
            (reaches_settle hsent)
    | abandon j =>
        exact reaches_gated_modify Controller.isAlive .noController rfl (fun _ => .abandoned)
          (fun c => ⟨{ d with monitor := d.monitor.unregister c.registration }, hs, rfl⟩) hs

/-- What a controller goes through in a moment that it outlasts. -/
theorem lives_of_meet {m : Moment} {c c' : Controller} (hc : d.controllers[i]? = some c)
    (hc' : (d.meet m).controllers[i]? = some c') :
    ∃ segment,
      Scene.Lives ⟨d.now, d.readings, c⟩ segment ⟨(d.meet m).now, (d.meet m).readings, c'⟩
      ∧ segment.filter Occurrence.isDone = d.doneTo i c m := by
  obtain ⟨s', segment, hs', hlives, hdone⟩ := reaches_meet m (scene?_eq_some hc)
  obtain ⟨hfound, hscene⟩ := eq_of_scene? hs'
  cases hc'.symm.trans hfound
  rw [hscene] at hlives
  exact ⟨segment, hlives, hdone⟩

/-- What is done from outside occurs where it is said to be done, and nowhere else. -/
theorem mem_done {segment done : List Occurrence}
    (h : segment.filter Occurrence.isDone = done) (ho : o.isDone = true) :
    o ∈ segment ↔ o ∈ done := by
  rw [← h, List.mem_filter, and_iff_left ho]

/-! ## Moment after moment -/

/-- Every run has a life for each of its controllers. -/
theorem exists_lived (ms : List Moment) (hs : d.scene? i = some s) :
    ∃ life, Lived i d ms life := by
  induction ms generalizing d s with
  | nil => exact ⟨[], .nil d⟩
  | cons m ms ih =>
      obtain ⟨s', segment, hs', hlives, hdone⟩ := reaches_meet m hs
      obtain ⟨life, hrest⟩ := ih hs'
      exact ⟨segment ++ life, .cons hs hs' hlives hdone hrest⟩

/-- A life in a run leads to where the run leads. -/
theorem Lived.lives {ms : List Moment} {life : List Occurrence} (h : Lived i d ms life)
    (hs : d.scene? i = some s) : ∃ s', (d.follow ms).scene? i = some s' ∧ s.Lives life s' := by
  induction h generalizing s with
  | nil d => exact ⟨s, hs, .nil s⟩
  | cons hs₁ hs' hlives hdone rest ih =>
      cases hs.symm.trans hs₁
      obtain ⟨s'', hs'', hlater⟩ := ih hs'
      exact ⟨s'', hs'', hlives.append hlater⟩

/-- Every controller lives through a run, and is there at its end. -/
theorem exists_lives (ms : List Moment) {c : Controller} (hc : d.controllers[i]? = some c) :
    ∃ life c', Lived i d ms life ∧ (d.follow ms).controllers[i]? = some c'
      ∧ Scene.Lives ⟨d.now, d.readings, c⟩ life
        ⟨(d.follow ms).now, (d.follow ms).readings, c'⟩ := by
  obtain ⟨life, hlived⟩ := exists_lived ms (scene?_eq_some hc)
  obtain ⟨s', hs', hlives⟩ := hlived.lives (scene?_eq_some hc)
  obtain ⟨hc', hscene⟩ := eq_of_scene? hs'
  rw [hscene] at hlives
  exact ⟨life, s'.controller, hlived, hc', hlives⟩

end

end Deployment

end StallRecovery
