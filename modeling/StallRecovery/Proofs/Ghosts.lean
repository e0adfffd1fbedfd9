import StallRecovery.Proofs.Recounting

/-!
# No ghost escalation

A report that the network is valid leaves the machine calm: it knows of no re-check, and only a
report that the network is not valid can change that. So it does nothing of its own until then, and
asks nobody. For a controller that is more than its machine promises. A re-check may long be overdue
when the report is still in the queue; it is not looked at before the queue is empty, and by then it
is forgotten.
-/

namespace StallRecovery

/-! ## Calm machines -/

/-- Nothing is wrong with the network, as far as the machine knows, and it will not look again. -/
structure Machine.Calm (m : Machine) : Prop where
  validated : m.state.validated = true
  unwatched : m.state.deadline = none

/-- Nothing is done and nobody was asked. -/
def Outcome.Idle (out : Outcome) : Prop := out.dispatch = none ∧ out.asked = []

section

variable {m : Machine} {x : Stimulus}

/-- A report that the network is valid calms any machine. -/
theorem calm_of_valid (m : Machine) (hin : x.input = .validation true) :
    (m.step x).1.Calm ∧ (m.step x).2.Idle := by
  have hstep : m.step x
      = Machine.recover x.now ⟨m.policy, { m.state with validated := true }⟩ := by
    simp [Machine.step, hin, Machine.onValidation]
  rw [hstep, Machine.recover]
  split
  · exact ⟨⟨rfl, rfl⟩, rfl, rfl⟩
  · exact ⟨⟨rfl, rfl⟩, rfl, rfl⟩

/-- Only a report that it is not valid disturbs a calm one. -/
theorem calm_step (h : m.Calm) (hin : x.input ≠ .validation false) :
    (m.step x).1.Calm ∧ (m.step x).2.Idle := by
  cases hx : x.input with
  | validation valid =>
      cases valid with
      | true => exact calm_of_valid m hx
      | false => exact absurd hx hin
  | recheck =>
      simp only [Machine.step, hx, Machine.onRecheck, h.unwatched]
      exact ⟨h, rfl, rfl⟩
  | reload p =>
      -- a reset keeps what was reported, so there is no reason to look at the network again
      have hreset : (m.state.reset .reconfigured none x.now).1.validated = true := h.validated
      cases hidle : m.state.isIdle with
      | true =>
          simp only [Machine.step, hx, Machine.onReload, hidle, if_true, h.validated,
            Bool.not_true, Bool.false_and, Bool.false_eq_true, if_false]
          exact ⟨⟨rfl, rfl⟩, rfl, rfl⟩
      | false =>
          simp only [Machine.step, hx, Machine.onReload, hidle, Bool.false_eq_true, if_false,
            hreset, Bool.not_true, Bool.false_and]
          exact ⟨⟨rfl, rfl⟩, rfl, rfl⟩
  | refuse fault =>
      simp only [Machine.step, hx]
      exact ⟨h, rfl, rfl⟩
  | fail action fault =>
      simp only [Machine.step, hx]
      exact ⟨h, rfl, rfl⟩

theorem calm_run (h : m.Calm) {xs : List Stimulus}
    (hin : ∀ x ∈ xs, x.input ≠ .validation false) :
    (m.run xs).1.Calm ∧ ∀ out ∈ (m.run xs).2, out.Idle := by
  induction xs generalizing m with
  | nil => exact ⟨h, nofun⟩
  | cons x xs ih =>
      obtain ⟨hcalm, hidle⟩ := calm_step h (hin x List.mem_cons_self)
      obtain ⟨hcalm', hidles⟩ := ih hcalm fun y hy => hin y (List.mem_cons_of_mem x hy)
      exact ⟨hcalm', List.forall_mem_cons.mpr ⟨hidle, hidles⟩⟩

/-- Calm from a report that the network is valid on, until one that it is not. -/
theorem calm_since_valid (m : Machine) {xs : List Stimulus} (hin : x.input = .validation true)
    (hxs : ∀ y ∈ xs, y.input ≠ .validation false) :
    (m.run (x :: xs)).1.Calm ∧ ∀ out ∈ (m.run (x :: xs)).2, out.Idle := by
  obtain ⟨hcalm, hidle⟩ := calm_of_valid m hin
  obtain ⟨hcalm', hidles⟩ := calm_run hcalm hxs
  exact ⟨hcalm', List.forall_mem_cons.mpr ⟨hidle, hidles⟩⟩

end

/-! ## Calm controllers -/

section

variable {t : Turn} {ts : List Turn} {mid : List Occurrence}

theorem stimulus_of_command {valid : Bool} (ht : t.work = .command (.validation valid)) :
    t.stimulus? = some ⟨.validation valid, t.setting.now, t.setting.readings⟩ := by
  simp [Turn.stimulus?, ht, Work.input?]

theorem command_of_input {w : Work} {valid : Bool} (h : w.input? = some (.validation valid)) :
    w.command? = some (.validation valid) := by
  cases w with
  | refusal fault => simp [Work.input?] at h
  | recheck => simp [Work.input?] at h
  | command command =>
      cases command with
      | validation valid' => simpa [Work.input?, Work.command?] using h
      | reload policy => cases policy <;> simp [Work.input?] at h
      | finished action result => cases result <;> simp [Work.input?] at h
      | snapshot => simp [Work.input?] at h
      | shutdown => simp [Work.input?] at h

theorem input_of_not_handled (hmid : .validation false ∉ handled mid) :
    ∀ x ∈ stimuli mid, x.input ≠ .validation false := by
  intro x hx hin
  obtain ⟨t, ht, hstimulus⟩ := List.mem_filterMap.mp hx
  obtain ⟨input, hinput, rfl⟩ := Option.map_eq_some_iff.mp hstimulus
  cases hin
  exact hmid (List.mem_filterMap.mpr ⟨t, ht, command_of_input hinput⟩)

theorem dispatched_after {m : Machine} {j : Journal} (h : (m.take t).2.dispatch = none) :
    (j.after t m).dispatched = j.dispatched := by
  unfold Journal.after
  split
  · rfl
  · simp only [Journal.add, h]

/-- Nothing is started in turns that dispatch nothing. -/
theorem dispatched_replay {m : Machine} {j : Journal}
    (h : ∀ out ∈ (m.run (ts.filterMap Turn.stimulus?)).2, out.dispatch = none) :
    (m.replay j ts).2.dispatched = j.dispatched := by
  induction ts generalizing m j with
  | nil => rfl
  | cons t ts ih =>
      cases hx : t.stimulus? with
      | none =>
          rw [List.filterMap_cons_none hx] at h
          have htake : m.take t = (m, {}) := by simp [Machine.take, hx]
          have hafter : (j.after t m).dispatched = j.dispatched :=
            dispatched_after (by rw [htake])
          rw [Machine.replay, htake, ih h, hafter]
      | some x =>
          rw [List.filterMap_cons_some hx] at h
          have hrun : (m.run (x :: ts.filterMap Turn.stimulus?)).2
              = (m.step x).2 :: ((m.step x).1.run (ts.filterMap Turn.stimulus?)).2 := rfl
          rw [hrun] at h
          obtain ⟨hnone, hrest⟩ := List.forall_mem_cons.mp h
          have htake : m.take t = m.step x := by simp [Machine.take, hx]
          have hafter : (j.after t m).dispatched = j.dispatched :=
            dispatched_after (by rw [htake]; exact hnone)
          rw [Machine.replay, htake, ih hrest, hafter]

/-- Some turns dispatch nothing, ask nobody, are no re-checks and leave none to come. -/
structure Silent (m : Machine) (j : Journal) (ts : List Turn) : Prop where
  idle : ∀ out ∈ (m.run (ts.filterMap Turn.stimulus?)).2, out.Idle
  dispatched : (m.replay j ts).2.dispatched = j.dispatched
  unlooked : ∀ t ∈ ts, t.work ≠ .recheck
  unwatched : (m.replay j ts).1.state.deadline = none

variable {s s' : Scene} {before after : List Occurrence}

theorem stimuli_turned (ht : t.work = .command (.validation true)) :
    (t :: turns mid).filterMap Turn.stimulus?
      = ⟨.validation true, t.setting.now, t.setting.readings⟩ :: stimuli mid :=
  List.filterMap_cons_some (stimulus_of_command ht)

/-- What was queued has been handled when a live controller has an empty queue. -/
theorem handled_of_drained {life : List Occurrence} (h : s.Lives life s')
    (halive : s'.controller.isAlive = true) (hqueue : s'.controller.queue = []) :
    handled life = s.controller.queue ++ queued life := by
  have hfifo := h.fifo halive
  rw [hqueue, List.append_nil] at hfifo
  exact hfifo.symm

/-- A controller is calm as long as its machine is. -/
theorem calm_of_lives (h : s.Lives (before ++ .turned t :: mid) s')
    (ht : t.work = .command (.validation true)) (hmid : .validation false ∉ handled mid) :
    s'.controller.machine.Calm := by
  have hmachine := congrArg Prod.fst h.tallies.replayed
  have hturns : turns (before ++ .turned t :: mid) = turns before ++ t :: turns mid :=
    turns_append
  simp only [hturns, Machine.replay_append, Machine.replay_fst, stimuli_turned ht] at hmachine
  rw [hmachine]
  exact (calm_since_valid _ rfl (input_of_not_handled hmid)).1

theorem not_recheck_of_calm (hcalm : s.controller.machine.Calm) (ho : s.Occurs (.turned t) s') :
    t.work ≠ .recheck := by
  intro ht
  obtain ⟨_, d, hd, _⟩ := ho.due_of_recheck ht
  exact absurd (hd.symm.trans hcalm.unwatched) nofun

/-- A controller that has handled a report that the network is valid is silent until it handles one
that it is not. -/
theorem silent_of_lives (h : s.Lives (before ++ .turned t :: (mid ++ after)) s')
    (ht : t.work = .command (.validation true)) (hmid : .validation false ∉ handled mid) :
    Silent (s.controller.machine.replay s.controller.journal (turns before)).1
      (s.controller.machine.replay s.controller.journal (turns before)).2 (t :: turns mid) := by
  obtain ⟨hcalm, hidle⟩ := calm_since_valid
    (s.controller.machine.replay s.controller.journal (turns before)).1
    (x := ⟨.validation true, t.setting.now, t.setting.readings⟩) rfl (input_of_not_handled hmid)
  rw [← stimuli_turned ht] at hcalm hidle
  refine ⟨hidle, dispatched_replay fun out hout => (hidle out hout).1, ?_, ?_⟩
  · intro t' ht'
    rcases List.mem_cons.mp ht' with rfl | hmem
    · rw [ht]
      nofun
    · -- the machine is calm at every turn in between
      obtain ⟨mid₁, mid₂, rfl⟩ := List.append_of_mem (mem_turns.mp hmem)
      have hcut : before ++ .turned t :: (mid₁ ++ .turned t' :: mid₂ ++ after)
          = (before ++ .turned t :: mid₁) ++ .turned t' :: (mid₂ ++ after) := by simp
      rw [hcut] at h
      obtain ⟨s₁, s₂, hearlier, hat, _⟩ := h.pick
      have hmid₁ : .validation false ∉ handled mid₁ := by
        rw [handled_append] at hmid
        exact fun hmem => hmid (List.mem_append_left _ hmem)
      exact not_recheck_of_calm (calm_of_lives hearlier ht hmid₁) hat
  · rw [Machine.replay_fst]
    exact hcalm.unwatched

theorem handled_singleton (o : Occurrence) : handled [o] = []
    ∨ ∃ t command, o = .turned t ∧ t.work = .command command ∧ handled [o] = [command] := by
  cases o with
  | turned t =>
      cases hw : t.work with
      | command command =>
          exact .inr ⟨t, command, rfl, hw, by simp [handled, turns, Occurrence.turn?, hw,
            Work.command?]⟩
      | _ => exact .inl (by simp [handled, turns, Occurrence.turn?, hw, Work.command?])
  | _ => exact .inl rfl

/-- What is handled after some commands is handled at a turn of its own. -/
theorem turn_of_handled {life : List Occurrence} {command : Command} {ahead behind : List Command}
    (h : handled life = ahead ++ command :: behind) :
    ∃ before t after, life = before ++ .turned t :: after ∧ t.work = .command command
      ∧ handled after = behind := by
  induction life generalizing ahead with
  | nil => exact absurd h (by simp [handled, turns])
  | cons o life ih =>
      have hcons : handled ([o] ++ life) = handled [o] ++ handled life := handled_append
      rw [List.singleton_append, h] at hcons
      rcases handled_singleton o with hnone | ⟨t, command', rfl, hwork, hone⟩
      · rw [hnone, List.nil_append] at hcons
        obtain ⟨before, t, after, rfl, ht, hafter⟩ := ih hcons.symm
        exact ⟨o :: before, t, after, rfl, ht, hafter⟩
      · rw [hone, List.singleton_append] at hcons
        cases ahead with
        | nil =>
            obtain ⟨rfl, hrest⟩ := List.cons.inj hcons
            exact ⟨[], t, life, rfl, hwork, hrest.symm⟩
        | cons first ahead =>
            obtain ⟨_, hrest⟩ := List.cons.inj hcons
            obtain ⟨before, t', after, rfl, ht, hafter⟩ := ih hrest.symm
            exact ⟨.turned t :: before, t', after, rfl, ht, hafter⟩

/-- While a report that the network is valid was waiting, no re-check is looked at before that is
handled, and none after it before the network is reported not valid again. -/
theorem reopened_of_recheck {ahead behind : List Command}
    (hqueue : s.controller.queue = ahead ++ .validation true :: behind)
    (h : s.Lives (before ++ .turned t :: after) s') (ht : t.work = .recheck) :
    ∃ since, handled before = ahead ++ .validation true :: since ∧ .validation false ∈ since := by
  obtain ⟨s₁, s₂, hbefore, ho, _⟩ := h.pick
  have hhandled :=
    handled_of_drained hbefore ho.alive_of_turned (ho.due_of_recheck ht).1
  rw [hqueue, List.append_assoc, List.cons_append] at hhandled
  refine ⟨_, hhandled, ?_⟩
  by_cases hmem : Command.validation false ∈ behind ++ queued before
  · exact hmem
  · -- the machine would have been calm since the report was handled
    obtain ⟨before₁, t₁, mid, hcut, ht₁, hmid⟩ := turn_of_handled hhandled
    rw [hcut] at hbefore
    rw [← hmid] at hmem
    exact absurd ht (not_recheck_of_calm (calm_of_lives hbefore ht₁ hmem) ho)

end

/-- In a life between two states of a controller, no closed episode is taken up again. -/
structure GhostFree (c : Controller) (life : List Occurrence) (c' : Controller) : Prop where
  /-- The machine accounts for everything. -/
  accounted : (c'.machine, c'.journal) = c.machine.replay c.journal (turns life)
  /-- A report that the network is valid is followed by silence, until one that it is not. -/
  silent : ∀ before t mid after, life = before ++ .turned t :: (mid ++ after) →
    t.work = .command (.validation true) → .validation false ∉ handled mid →
    Silent (c.machine.replay c.journal (turns before)).1
      (c.machine.replay c.journal (turns before)).2 (t :: turns mid)
  /-- One that was already queued is handled before any re-check is looked at. -/
  reopened : ∀ ahead behind, c.queue = ahead ++ .validation true :: behind →
    ∀ before t after, life = before ++ .turned t :: after → t.work = .recheck →
    ∃ since, handled before = ahead ++ .validation true :: since ∧ .validation false ∈ since
  /-- And it is handled by the time the queue is empty. -/
  drained : c'.isAlive = true → c'.queue = [] →
    ∀ ahead behind, c.queue = ahead ++ .validation true :: behind →
    ∃ since, handled life = ahead ++ .validation true :: since

/--
**No ghost escalation.**

Whatever happens to a deployment, a controller that has handled a report that the network is valid
does nothing, asks nobody and has no re-check to come, until it handles one that it is not. A report
in its queue goes before its re-check, however long that is overdue.
-/
theorem no_ghost_escalation {d : Deployment} {i : Nat} {c : Controller}
    (hc : d.controllers[i]? = some c) (moments : List Moment) :
    (∃ life, Deployment.Lived i d moments life)
      ∧ ∀ life, Deployment.Lived i d moments life →
        ∃ c', (d.follow moments).controllers[i]? = some c' ∧ GhostFree c life c' := by
  have hscene := Deployment.scene?_eq_some hc
  refine ⟨Deployment.exists_lived moments hscene, fun life hlived => ?_⟩
  obtain ⟨s, hs, hlives⟩ := hlived.lives hscene
  obtain ⟨hc', _⟩ := Deployment.eq_of_scene? hs
  refine ⟨s.controller, hc', hlives.tallies.replayed, ?_, ?_, ?_⟩
  · intro before t mid after hlife ht hmid
    subst hlife
    exact silent_of_lives hlives ht hmid
  · intro ahead behind hqueue before t after hlife ht
    subst hlife
    exact reopened_of_recheck hqueue hlives ht
  · intro halive hempty ahead behind hqueue
    have hhandled := handled_of_drained hlives halive hempty
    rw [hqueue, List.append_assoc] at hhandled
    exact ⟨_, hhandled⟩

/-- A deployment whose controller has stalled and has just been told that the network is valid. -/
def toldLate : Deployment :=
  (Deployment.empty.start (.complete .standard)).1.follow
    [.act (.publish false), .settle, .act (.publish true)]

theorem no_ghost_escalation_late :
    ∃ c, toldLate.controllers[0]? = some c ∧ c.queue = [.validation true]
      ∧ c.machine.state.deadline = some defaultDelay
      ∧ (∃ life, Deployment.Lived 0 toldLate [.act (.jump (2 * defaultDelay)), .settle] life)
      ∧ ∀ life, Deployment.Lived 0 toldLate [.act (.jump (2 * defaultDelay)), .settle] life →
        ∃ c', (toldLate.follow [.act (.jump (2 * defaultDelay)), .settle]).controllers[0]? = some c'
          ∧ GhostFree c life c' :=
  ⟨_, rfl, rfl, rfl, no_ghost_escalation rfl _⟩

end StallRecovery
