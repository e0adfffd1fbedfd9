import StallRecovery.Proofs.Life

/-!
# Settling is living

`Controller.settle` and `Controller.passTo` are each a piece of life in which nothing is done to the
controller from outside: phase after phase, what they compute in one go is reached by single
occurrences. A controller that has settled rests, so the clock may move on over it.
-/

namespace StallRecovery

/-- One scene leads to another by what the controller does itself. -/
def Scene.Proceeds (s s' : Scene) : Prop :=
  ∃ life, s.Lives life s' ∧ life.filter Occurrence.isDone = []

namespace Scene.Proceeds

variable {s s' s'' : Scene}

theorem refl (s : Scene) : s.Proceeds s := ⟨[], .nil s, rfl⟩

theorem single {o : Occurrence} (ho : s.Occurs o s') (hown : o.isDone = false) :
    s.Proceeds s' := ⟨[o], .single ho, by simp [hown]⟩

theorem trans (h : s.Proceeds s') (h' : s'.Proceeds s'') : s.Proceeds s'' := by
  obtain ⟨life, hlives, hown⟩ := h
  obtain ⟨life', hlives', hown'⟩ := h'
  exact ⟨life ++ life', hlives.append hlives', by rw [List.filter_append, hown, hown']; rfl⟩

/-- What was announced stays announced. -/
theorem refusal (h : s.Proceeds s') (hrefusal : s.controller.refusal = none) :
    s'.controller.refusal = none := by
  obtain ⟨life, hlives, _⟩ := h
  rw [hlives.tallies.refusal, hrefusal]
  split <;> rfl

end Scene.Proceeds

/-! ## What stands by -/

namespace Controller

variable (readings : Readings) (now : Nat)

theorem carryOut_queue (out : Outcome) (queue : List Command) (c : Controller) :
    { c with queue }.carryOut now out = { c.carryOut now out with queue } := by
  unfold carryOut
  rw [record_eq, record_eq]
  cases out.dispatch with
  | none =>
      cases out.failure with
      | none => rfl
      | some fault => simp only [surface_eq]
  | some action =>
      cases out.failure with
      | none => rfl
      | some fault => simp only [surface_eq, launch]

theorem feed_queue (input : Machine → Machine × Outcome) (queue : List Command)
    (c : Controller) : { c with queue }.feed now input = { c.feed now input with queue } :=
  carryOut_queue now (input c.machine).2 queue { c with machine := (input c.machine).1 }

/-- The queue stands by while a command is handled, unless that stops the controller. -/
theorem handle_queue {command : Command} (h : command ≠ .shutdown) (queue : List Command)
    (c : Controller) :
    { c with queue }.handle readings now command
      = { c.handle readings now command with queue } := by
  cases command with
  | validation valid => exact feed_queue now (·.onValidation valid now readings) queue c
  | reload policy =>
      cases policy with
      | ok p => exact feed_queue now (·.onReload p now) queue c
      | error fault => exact feed_queue now (·.onRefusal fault) queue c
  | finished action result =>
      cases result with
      | ok _ => rfl
      | error fault => exact feed_queue now (·.onFailure action fault) queue c
  | snapshot => rfl
  | shutdown => exact absurd rfl h

theorem running_carryOut {out : Outcome} (h : out.dispatch = none) (c : Controller) :
    (c.carryOut now out).running = c.running := by
  unfold carryOut
  rw [record_eq, h]
  cases out.failure with
  | none => rfl
  | some fault => simp [surface_eq]

/-- An action that comes back is reported at most. -/
theorem handle_finished (action : Action) (result : Except Fault Unit) (c : Controller) :
    c.handle readings now (.finished action result) = { c with
      journal := (c.handle readings now (.finished action result)).journal } := by
  cases result with
  | ok _ => rfl
  | error fault =>
      have hrunning : (c.feed now (·.onFailure action fault)).running = c.running :=
        running_carryOut now rfl c
      have hfeed := feed_eq readings now (·.onFailure action fault) c
      rw [hrunning] at hfeed
      simp only [handle]
      rw [hfeed]
      rfl

/-! ## Phase after phase -/

theorem isAlive_handle {command : Command} {c : Controller} (halive : c.isAlive = true) :
    (c.handle readings now command).isAlive = true ↔ command ≠ .shutdown := by
  by_cases h : command = .shutdown
  · subst h
    simp [handle, isAlive]
  · rw [handle_eq readings now h]
    exact ⟨fun _ => h, fun _ => halive⟩

theorem drain_proceeds {c : Controller} (halive : c.isAlive = true) (hrefusal : c.refusal = none)
    (queue : List Command) :
    Scene.Proceeds ⟨now, readings, { c with queue }⟩
      ⟨now, readings, { c with queue := [] }.drain readings now queue⟩ := by
  induction queue generalizing c with
  | nil => exact .refl _
  | cons command rest ih =>
      have hhandled : Scene.Proceeds ⟨now, readings, { c with queue := command :: rest }⟩
          ⟨now, readings, { c with queue := rest }.handle readings now command⟩ :=
        .single (.handled halive hrefusal rfl) rfl
      by_cases hstop : command = .shutdown
      · subst hstop
        exact hhandled
      -- the rest of the queue stands by in the scene, and is put aside by `drain`
      · have halive' : (c.handle readings now command).isAlive = true :=
          (isAlive_handle readings now halive).mpr hstop
        have hrefusal' : (c.handle readings now command).refusal = none := by
          rw [handle_eq readings now hstop]
          exact hrefusal
        have hdrain : { c with queue := [] }.drain readings now (command :: rest)
            = { c.handle readings now command with queue := [] }.drain readings now rest := by
          rw [drain, handle_queue readings now hstop]
          exact if_pos halive'
        rw [hdrain]
        rw [handle_queue readings now hstop] at hhandled
        exact hhandled.trans (ih halive' hrefusal')

theorem drain_append {queue : List Command} {c : Controller}
    (halive : (c.drain readings now queue).isAlive = true) (later : List Command) :
    c.drain readings now (queue ++ later)
      = (c.drain readings now queue).drain readings now later := by
  induction queue generalizing c with
  | nil => rfl
  | cons command rest ih =>
      rw [drain] at halive
      rw [List.cons_append, drain, drain]
      split at halive
      · rename_i hstill
        rw [if_pos hstill, if_pos hstill]
        exact ih halive
      · rename_i hstopped
        exact absurd halive hstopped

theorem queue_drain {c : Controller} (hqueue : c.queue = []) (queue : List Command) :
    (c.drain readings now queue).queue = [] := by
  induction queue generalizing c with
  | nil => exact hqueue
  | cons command rest ih =>
      have hhandled : (c.handle readings now command).queue = [] := by
        by_cases hstop : command = .shutdown
        · subst hstop
          rfl
        · rw [handle_eq readings now hstop]
          exact hqueue
      rw [drain]
      split
      · exact ih hhandled
      · exact hhandled

/-- Actions that come back leave everything but the journal as it was. -/
theorem drain_finished (k : Collaborators) {c : Controller} (halive : c.isAlive = true)
    (ended : List Running) :
    c.drain readings now (ended.map (Running.result k)) = { c with
      journal := (c.drain readings now (ended.map (Running.result k))).journal } := by
  induction ended generalizing c with
  | nil => rfl
  | cons r rest ih =>
      have hhandled : c.handle readings now (r.result k)
          = { c with journal := (c.handle readings now (r.result k)).journal } :=
        handle_finished readings now r.action _ c
      have halive' : (c.handle readings now (r.result k)).isAlive = true := by
        rw [hhandled]
        exact halive
      have hdrain : c.drain readings now ((r :: rest).map (Running.result k))
          = (c.handle readings now (r.result k)).drain readings now
            (rest.map (Running.result k)) := if_pos halive'
      rw [hdrain, ih halive', hhandled]

theorem finishThrough_drain (limit : Nat) (c : Controller) :
    c.finishThrough readings now limit
      = { c with running := c.running.filter (!Running.hasEnded limit ·) }.drain readings now
        ((c.running.filter (Running.hasEnded limit)).map (Running.result c.collaborators)) := by
  unfold finishThrough
  rw [List.partition_eq_filter_filter]
  rfl

/-- Letting actions come back changes nothing but which are under way, and what is reported. -/
theorem finishThrough_eq (limit : Nat) {c : Controller} (halive : c.isAlive = true) :
    c.finishThrough readings now limit = { c with
      running := c.running.filter (!Running.hasEnded limit ·)
      journal := (c.finishThrough readings now limit).journal } := by
  rw [finishThrough_drain]
  exact drain_finished readings now c.collaborators
    (c := { c with running := c.running.filter (!Running.hasEnded limit ·) }) halive _

/-- Actions that have ended come back one by one. -/
theorem returns {limit : Nat} (hlimit : limit ≤ now) {c : Controller} (halive : c.isAlive = true)
    (before running : List Running) :
    Scene.Proceeds ⟨now, readings, { c with running := before ++ running }⟩
      ⟨now, readings, { c with
        running := before ++ running.filter (!Running.hasEnded limit ·)
        queue := c.queue
          ++ (running.filter (Running.hasEnded limit)).map (Running.result c.collaborators) }⟩ := by
  induction running generalizing c before with
  | nil => simpa using Scene.Proceeds.refl _
  | cons r rest ih =>
      cases hended : r.hasEnded limit with
      | false =>
          have hrest := ih halive (before ++ [r])
          simpa [hended] using hrest
      | true =>
          have hnow : r.hasEnded now = true := by
            simp only [Running.hasEnded, Bool.or_eq_true, decide_eq_true_eq] at hended ⊢
            exact hended.imp_right (Nat.le_trans · hlimit)
          have hreturned : Scene.Proceeds
              ⟨now, readings, { c with running := before ++ r :: rest }⟩
              ⟨now, readings, { c with
                running := before ++ rest
                queue := c.queue ++ [r.result c.collaborators] }⟩ :=
            .single (.returned halive rfl hnow) rfl
          have hrest := ih (c := { c with queue := c.queue ++ [r.result c.collaborators] }) halive
            before
          simpa [hended] using hreturned.trans hrest

/-- A live controller that is through with its refusal and its queue. -/
structure Free (c : Controller) : Prop where
  alive : c.isAlive = true
  announced : c.refusal = none
  drained : c.queue = []

namespace Free

variable {readings : Readings} {now : Nat} {c : Controller}

theorem look (h : c.Free) : (c.feed now (·.onRecheck now readings)).Free := by
  rw [feed_eq readings now]
  exact ⟨h.alive, h.announced, h.drained⟩

theorem finishThrough (h : c.Free) (limit : Nat) :
    (c.finishThrough readings now limit).Free := by
  rw [finishThrough_eq readings now limit h.alive]
  exact ⟨h.alive, h.announced, h.drained⟩

end Free

theorem finishThrough_proceeds {limit : Nat} (hlimit : limit ≤ now) {c : Controller}
    (h : c.Free) :
    Scene.Proceeds ⟨now, readings, c⟩
      ⟨now, readings, c.finishThrough readings now limit⟩ := by
  have hqueue := h.drained
  have hdrained := drain_proceeds readings now
    (c := { c with running := c.running.filter (!Running.hasEnded limit ·) }) h.alive h.announced
    ((c.running.filter (Running.hasEnded limit)).map (Running.result c.collaborators))
  have hreturned := returns readings now hlimit h.alive [] c.running
  rw [List.nil_append, List.nil_append, hqueue, List.nil_append, ← hqueue] at hreturned
  rw [← hqueue] at hdrained
  rw [finishThrough_drain]
  exact hreturned.trans hdrained

/-! ## Looking until nothing is due -/

theorem lookThrough_proceeds {limit : Nat} (hlimit : limit ≤ now) (looks : Nat) {c : Controller}
    (h : c.Free) :
    Scene.Proceeds ⟨now, readings, c⟩
        ⟨now, readings, c.lookThrough readings now limit looks⟩
      ∧ (c.lookThrough readings now limit looks).Free := by
  induction looks generalizing c with
  | zero => exact ⟨.refl _, h⟩
  | succ looks ih =>
      unfold lookThrough
      split
      · rename_i hdue
        obtain ⟨d, hd, hle⟩ := (Option.any_eq_true _ _).mp hdue
        have hle' : d ≤ now := Nat.le_trans (by simpa using hle) hlimit
        have hlook : Scene.Proceeds ⟨now, readings, c⟩
            ⟨now, readings, c.feed now (·.onRecheck now readings)⟩ :=
          .single (.rechecked h.alive h.announced h.drained hd hle') rfl
        obtain ⟨hrest, hfree⟩ := ih h.look
        exact ⟨hlook.trans hrest, hfree⟩
      · exact ⟨.refl _, h⟩

theorem lookThrough_of_not_due {limit : Nat} {c : Controller}
    (h : ¬ c.machine.state.deadline.any (· ≤ limit) = true) (looks : Nat) :
    c.lookThrough readings now limit looks = c := by
  cases looks with
  | zero => rfl
  | succ looks => exact if_neg h

theorem machine_look (c : Controller) :
    (c.feed now (·.onRecheck now readings)).machine = (c.machine.onRecheck now readings).1 := by
  rw [feed_eq readings now]

theorem lookThrough_of_fixed {limit : Nat} (looks : Nat) {c : Controller}
    (h : (c.machine.onRecheck now readings).1 = c.machine) :
    (c.lookThrough readings now limit looks).machine = c.machine := by
  induction looks generalizing c with
  | zero => rfl
  | succ looks ih =>
      have hlook := machine_look readings now c
      rw [h] at hlook
      rw [lookThrough]
      split
      · rw [ih (by rw [hlook]; exact h), hlook]
      · rfl

theorem index_lt_all (a : Action) : a.index < Action.all.length := by
  cases a <;> decide

/-- A re-check that is still due after a look from every rung above is due for ever. -/
theorem spins_lookThrough (looks : Nat) {c : Controller}
    (hlooks : Action.all.length ≤ c.machine.state.action.index + looks)
    (hdue : (c.lookThrough readings now now looks).machine.state.deadline.any (· ≤ now) = true) :
    (c.lookThrough readings now now looks).machine.Spins readings now := by
  induction looks generalizing c with
  | zero => exact absurd (index_lt_all c.machine.state.action) (Nat.not_lt_of_le hlooks)
  | succ looks ih =>
      unfold lookThrough at hdue ⊢
      split at hdue
      · rename_i hfirst
        rw [if_pos hfirst]
        have hlook := machine_look readings now c
        -- a look after which nothing is due is the last one
        have hagain : (c.machine.onRecheck now readings).1.state.deadline.any (· ≤ now) = true := by
          refine Decidable.byContradiction fun hnot => ?_
          rw [← hlook] at hnot
          rw [lookThrough_of_not_due readings now hnot] at hdue
          exact hnot hdue
        rcases fixed_or_rises hfirst hagain with hfixed | hrises
        · rw [← hlook] at hfixed hagain
          rw [lookThrough_of_fixed readings now looks hfixed]
          exact spins_of_fixed hagain hfixed
        · refine ih ?_ hdue
          rw [hlook]
          have hindex : c.machine.state.action.index
            < (c.machine.onRecheck now readings).1.state.action.index := hrises
          omega
      · rename_i hnot
        exact absurd hdue hnot

/-! ## A whole instant -/

/-- Before the last actions come back, the re-check is looked at for as long as it is due. -/
theorem fireThrough_looks {limit : Nat} (hlimit : limit ≤ now) {c : Controller} (h : c.Free) :
    ∃ c' : Controller, c.fireThrough readings now limit = c'.finishThrough readings now limit
      ∧ Scene.Proceeds ⟨now, readings, c⟩ ⟨now, readings, c'⟩ ∧ c'.Free
      ∧ (limit = now → ∀ d, c'.machine.state.deadline = some d →
        now < d ∨ c'.machine.Spins readings now) := by
  cases hd : c.machine.state.deadline with
  | none =>
      refine ⟨c, by simp [fireThrough, hd], .refl _, h, fun _ d hd' => ?_⟩
      exact absurd hd' (by simp [hd])
  | some d =>
      by_cases hle : d ≤ limit
      · have hfinished := finishThrough_proceeds readings now (Nat.le_trans hle hlimit) h
        obtain ⟨hlooked, hfree⟩ :=
          lookThrough_proceeds readings now hlimit Action.all.length (h.finishThrough d)
        refine ⟨_, by simp [fireThrough, hd, hle], hfinished.trans hlooked, hfree,
          fun hlast d' hd' => ?_⟩
        subst hlast
        by_cases hdue : d' ≤ limit
        · exact .inr (spins_lookThrough readings limit _ (Nat.le_add_left _ _)
            (by simpa [hd'] using hdue))
        · exact .inl (Nat.lt_of_not_le hdue)
      · refine ⟨c, by simp [fireThrough, hd, hle], .refl _, h, fun hlast d' hd' => .inl ?_⟩
        cases hd.symm.trans hd'
        omega

theorem fireThrough_proceeds {limit : Nat} (hlimit : limit ≤ now) {c : Controller}
    (h : c.Free) :
    Scene.Proceeds ⟨now, readings, c⟩ ⟨now, readings, c.fireThrough readings now limit⟩ := by
  obtain ⟨c', hfire, hlooked, hfree, _⟩ := fireThrough_looks readings now hlimit h
  rw [hfire]
  exact hlooked.trans (finishThrough_proceeds readings now hlimit hfree)

theorem rests_fireThrough {c : Controller} (h : c.Free) :
    (c.fireThrough readings now now).Rests readings now now := by
  obtain ⟨c', hfire, _, hfree, hwatched⟩ := fireThrough_looks readings now (Nat.le_refl now) h
  rw [hfire, finishThrough_eq readings now now hfree.alive]
  refine ⟨hfree.announced, hfree.drained, fun r hr => ?_, fun d hd => ?_⟩
  · simpa using (List.mem_filter.mp hr).2
  · exact (hwatched rfl d hd).imp_left fun hlt => ⟨hlt, Nat.le_of_lt hlt⟩

/-- To report the refusal of a policy takes neither time nor a queue. -/
theorem reportRefusal_eq (c : Controller) :
    ∃ journal, ∀ now, c.reportRefusal now = { c with refusal := none, journal } := by
  unfold reportRefusal
  obtain ⟨machine, phase, refusal, queue, running, registration, collaborators, journal⟩ := c
  cases refusal with
  | none => exact ⟨journal, fun now => rfl⟩
  | some fault =>
      simp only [feed, Machine.onRefusal, carryOut, record_eq, surface_eq]
      exact ⟨_, fun now => rfl⟩

theorem reportRefusal_proceeds {c : Controller} (halive : c.isAlive = true) :
    Scene.Proceeds ⟨now, readings, c⟩ ⟨now, readings, c.reportRefusal now⟩
      ∧ (c.reportRefusal now).isAlive = true ∧ (c.reportRefusal now).refusal = none := by
  unfold reportRefusal
  cases hrefusal : c.refusal with
  | none => exact ⟨.refl _, halive, hrefusal⟩
  | some fault =>
      refine ⟨.single (.refused halive hrefusal) rfl, ?_⟩
      simp only
      rw [feed_eq readings now]
      exact ⟨halive, rfl⟩

/-- A controller that has announced what was refused and worked off its queue. -/
def workOff (c : Controller) : Controller :=
  { c.reportRefusal now with queue := [] }.drain readings now (c.reportRefusal now).queue

theorem reportRefusal_queue (queue : List Command) (c : Controller) :
    { c with queue }.reportRefusal now = { c.reportRefusal now with queue } := by
  obtain ⟨machine, phase, refusal, queue', running, registration, k, journal⟩ := c
  cases refusal with
  | none => rfl
  | some fault =>
      exact feed_queue now (·.onRefusal fault) queue
        ⟨machine, phase, none, queue', running, registration, k, journal⟩

/-- What is queued last is handled last. -/
theorem workOff_send {c : Controller} (halive : c.isAlive = true)
    (hstill : (c.workOff readings now).isAlive = true) (command : Command) :
    (c.send command).workOff readings now
      = (c.workOff readings now).handle readings now command := by
  have hqueue : (c.reportRefusal now).queue = c.queue := by
    obtain ⟨journal, hreported⟩ := c.reportRefusal_eq
    rw [hreported now]
  have hlast : ∀ c' : Controller, c'.drain readings now [command]
      = c'.handle readings now command := by
    intro c'
    simp only [drain]
    split <;> rfl
  rw [send_of_open command (isOpen_of_isAlive halive), workOff, reportRefusal_queue]
  rw [workOff, hqueue] at hstill ⊢
  rw [← hlast]
  exact drain_append readings now hstill [command]

/-- What falls due comes after that. -/
theorem settleThrough_of_alive {c : Controller} (halive : c.isAlive = true) (limit : Nat) :
    c.settleThrough readings now limit
      = if (c.workOff readings now).isAlive then
          (c.workOff readings now).fireThrough readings now limit
        else c.workOff readings now := by
  have hphase : c.phase = .alive := by simpa [isAlive] using halive
  unfold settleThrough
  rw [hphase]
  rfl

/-- Before anything falls due, what was refused is announced and the queue is worked off. That may
stop the controller, and then it is all. -/
theorem settleThrough_drains (limit : Nat) {c : Controller} (halive : c.isAlive = true) :
    ∃ c' : Controller, Scene.Proceeds ⟨now, readings, c⟩ ⟨now, readings, c'⟩
      ∧ (c'.Free ∧ c.settleThrough readings now limit = c'.fireThrough readings now limit
        ∨ c'.isAlive = false ∧ c.settleThrough readings now limit = c') := by
  obtain ⟨hreported, halive', hrefusal'⟩ := reportRefusal_proceeds readings now halive
  have hdrained := drain_proceeds readings now halive' hrefusal' (c.reportRefusal now).queue
  refine ⟨c.workOff readings now, hreported.trans hdrained, ?_⟩
  rw [settleThrough_of_alive readings now halive]
  split
  · rename_i hstill
    exact .inl ⟨⟨hstill, hdrained.refusal hrefusal', queue_drain readings now rfl _⟩, rfl⟩
  · rename_i hstopped
    exact .inr ⟨by simpa using hstopped, rfl⟩

/-- Whatever a controller does at an instant is made of single occurrences. -/
theorem settleThrough_proceeds {limit : Nat} (hlimit : limit ≤ now) (c : Controller) :
    Scene.Proceeds ⟨now, readings, c⟩ ⟨now, readings, c.settleThrough readings now limit⟩ := by
  cases hphase : c.phase with
  | stopped =>
      simp only [settleThrough, hphase]
      exact .refl _
  | abandoned =>
      simp only [settleThrough, hphase]
      exact .single (.closed hphase) rfl
  | alive =>
      have halive : c.isAlive = true := by simp [isAlive, hphase]
      obtain ⟨c', hdrained, ⟨hfree, hsettle⟩ | ⟨_, hsettle⟩⟩ :=
        settleThrough_drains readings now limit halive
      · rw [hsettle]
        exact hdrained.trans (fireThrough_proceeds readings now hlimit hfree)
      · rw [hsettle]
        exact hdrained

/-- A controller rests once everything has happened that can happen at an instant. -/
theorem rests_settle {c : Controller} (halive : (c.settle readings now).isAlive = true) :
    (c.settle readings now).Rests readings now now := by
  unfold settle at halive ⊢
  cases hphase : c.phase with
  | stopped => simp [settleThrough, isAlive, hphase] at halive
  | abandoned => simp [settleThrough, isAlive, hphase] at halive
  | alive =>
      have hbefore : c.isAlive = true := by simp [isAlive, hphase]
      obtain ⟨c', _, ⟨hfree, hsettle⟩ | ⟨hdead, hsettle⟩⟩ :=
        settleThrough_drains readings now now hbefore
      · rw [hsettle]
        exact rests_fireThrough readings now hfree
      · rw [hsettle, hdead] at halive
        exact absurd halive Bool.false_ne_true

/-! ## Time that passes -/

/-- The clock may move on over a controller that rests, up to the next instant at which something
falls due. -/
theorem Rests.until {readings : Readings} {now target : Nat} {c : Controller}
    (h : c.Rests readings now now)
    (hdue : ∀ d, c.machine.state.deadline = some d → now < d → target ≤ d) :
    c.Rests readings now target where
  announced := h.announced
  drained := h.drained
  ended := h.ended
  watched d hd := by
    rcases h.watched d hd with ⟨hlt, _⟩ | hspins
    · exact .inl ⟨hlt, hdue d hd hlt⟩
    · exact .inr hspins

/-- With a re-check to come, what falls due first is that or an action that ends sooner. -/
theorem nextDue_of_deadline {d : Nat} {c : Controller} (halive : c.isAlive = true)
    (hd : c.machine.state.deadline = some d) :
    ∃ due, c.nextDue? = some due ∧ due ≤ d ∧ (due = d ∨ ∃ r ∈ c.running, r.endsAt = due) := by
  unfold nextDue?
  rw [if_pos halive, hd]
  cases hhead : c.running.head? with
  | none => exact ⟨d, rfl, Nat.le_refl d, .inl rfl⟩
  | some r =>
      refine ⟨min d r.endsAt, rfl, Nat.min_le_left _ _, ?_⟩
      rcases Nat.le_total d r.endsAt with hle | hle
      · exact .inl (Nat.min_eq_left hle)
      · exact .inr ⟨r, List.mem_of_head? hhead, (Nat.min_eq_right hle).symm⟩

theorem Rests.lt_nextDue {readings : Readings} {now due d : Nat} {c : Controller}
    (h : c.Rests readings now now) (halive : c.isAlive = true)
    (hd : c.machine.state.deadline = some d) (hlt : now < d) (hdue : c.nextDue? = some due) :
    now < due ∧ due ≤ d := by
  obtain ⟨due', hdue', hle, hwhich⟩ := nextDue_of_deadline halive hd
  cases hdue.symm.trans hdue'
  refine ⟨?_, hle⟩
  rcases hwhich with heq | ⟨r, hr, hend⟩
  · omega
  · have hnot : r.hasEnded now = false := h.ended r hr
    simp only [Running.hasEnded, Bool.or_eq_false_iff, decide_eq_false_iff_not] at hnot
    omega

/-- Nothing happens on the way to what falls due next. -/
theorem passTo_of_due {readings : Readings} {now target due : Nat} {c : Controller}
    (hdue : c.nextDue? = some due) (hle : target ≤ due) :
    c.passTo readings target now = c := by
  have hnot : ¬ (now < due ∧ due < target) := by omega
  rw [passTo]
  simp only [hdue]
  rw [dif_neg hnot]

/-- What falls due next is looked at on the way to a later instant. -/
theorem passTo_of_next {readings : Readings} {now target due : Nat} {c : Controller}
    (hdue : c.nextDue? = some due) (hlt : now < due) (hto : due < target) :
    c.passTo readings target now = (c.settle readings due).passTo readings target due := by
  rw [passTo]
  simp only [hdue]
  rw [dif_pos ⟨hlt, hto⟩]

/-- A controller that is passed over is settled at each instant at which something falls due. -/
theorem passTo_proceeds (target : Nat) (c : Controller)
    (hle : now ≤ target) (hrests : c.isAlive = true → c.Rests readings now now) :
    Scene.Proceeds ⟨now, readings, c⟩ ⟨target, readings, c.passTo readings target now⟩ := by
  fun_induction Controller.passTo readings target now c with
  | case1 now c hnone =>
      refine .single (.waited hle fun halive => (hrests halive).until fun d hd _ => ?_) rfl
      obtain ⟨due, hdue, _⟩ := nextDue_of_deadline halive hd
      exact absurd hdue (by simp [hnone])
  | case2 now c due hdue h ih =>
      have hwaited : Scene.Proceeds ⟨now, readings, c⟩ ⟨due, readings, c⟩ :=
        .single (.waited (Nat.le_of_lt h.1) fun halive => (hrests halive).until fun d hd hlt =>
          ((hrests halive).lt_nextDue halive hd hlt hdue).2) rfl
      have hsettled := settleThrough_proceeds readings due (Nat.le_refl due) c
      exact (hwaited.trans hsettled).trans (ih (Nat.le_of_lt h.2) (rests_settle readings due))
  | case3 now c due hdue hnot =>
      refine .single (.waited hle fun halive => (hrests halive).until fun d hd hlt => ?_) rfl
      have hnext := (hrests halive).lt_nextDue halive hd hlt hdue
      omega

end Controller

end StallRecovery
