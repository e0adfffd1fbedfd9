import StallRecovery.Proofs.Chronicle
import StallRecovery.Proofs.Life

/-!
# What a journal is made of

A journal is written turn by turn, so what stands in it can be told from the turns: which actions
were started, and when, from what the machine decided; and what went wrong from the work alone. A
machine surfaces a fault exactly when it is fed one, whatever state it is in, and then it reports it
once.
-/

namespace StallRecovery

/-! ## What goes wrong -/

/-- The fault that an input is about. -/
def Input.fault? : Input → Option Fault
  | .refuse fault => some fault
  | .fail _ fault => some fault
  | _ => none

/-- What is reported of the fault that an input is about. -/
def Input.note? : Input → Option Event
  | .refuse fault => some (.configRejected fault.message)
  | .fail action fault => some (.dispatchFailed action fault.message)
  | _ => none

def Work.fault? (w : Work) : Option Fault := w.input?.bind Input.fault?

def Work.note? (w : Work) : Option Event := w.input?.bind Input.note?

/-- Whether events that are recorded now are kept. -/
def Collaborators.records (k : Collaborators) : Bool := k.recordsEvents && !k.recorderBroken

theorem notes_opening (s : State) : s.opening.filter Event.isNote = [] := by
  unfold State.opening
  split <;> rfl

theorem notes_closing (s : State) (reason : ResetReason) (now : Nat) :
    (s.closing reason now).filter Event.isNote = [] := by
  unfold State.closing
  split <;> rfl

/-- A fault is surfaced and reported when the machine is fed one, and at no other time. -/
theorem faults_of_move {m m' : Machine} {x : Stimulus} {out : Outcome}
    (hmove : Move m x m' out) :
    out.failure = x.input.fault? ∧ out.events.filter Event.isNote = x.input.note?.toList := by
  have hasked : ∀ {trigger : Trigger} {s : State}, Asks m x trigger s →
      x.input.fault? = none ∧ x.input.note? = none := by
    intro trigger s hask
    cases hask with
    | report hin => rw [hin]; exact ⟨rfl, rfl⟩
    | recheck hin hdue => rw [hin]; exact ⟨rfl, rfl⟩
  cases hmove with
  | refused f hin => rw [hin]; exact ⟨rfl, rfl⟩
  | failed a f hin => rw [hin]; exact ⟨rfl, rfl⟩
  | early hin hnot => rw [hin]; exact ⟨rfl, rfl⟩
  | recovered hin => rw [hin]; exact ⟨rfl, notes_closing m.state .recovered x.now⟩
  | replaced p hin => rw [hin]; exact ⟨rfl, notes_closing m.state .reconfigured x.now⟩
  | inert trigger s hask hnone =>
      obtain ⟨hfault, hnote⟩ := hasked hask
      rw [hfault, hnote]
      exact ⟨rfl, rfl⟩
  | decided p trigger s s' out hask hp hactive hdec =>
      obtain ⟨hfault, hnote⟩ := hasked hask
      rw [hfault, hnote]
      cases hdec with
      | quiet level hweak hidle => exact ⟨rfl, rfl⟩
      | waited hproceed hstep hreport hearly => exact ⟨rfl, notes_opening s⟩
      | ended level hweak hbusy =>
          exact ⟨rfl, by rw [List.filter_append, notes_opening]; rfl⟩
      | held reason hhold => exact ⟨rfl, by rw [List.filter_append, notes_opening]; rfl⟩
      | escalated hproceed hdue =>
          exact ⟨rfl, by rw [List.filter_append, notes_opening]; rfl⟩

section

variable {m : Machine} (t : Turn)

theorem coherent_take (h : Coherent m) : Coherent (m.take t).1 := by
  cases hx : t.stimulus? with
  | none => simpa only [Machine.take, hx] using h
  | some x =>
      simp only [Machine.take, hx]
      exact coherent_move h (move_step h x)

theorem faults_of_take (h : Coherent m) :
    (m.take t).2.failure = t.work.fault?
      ∧ (m.take t).2.events.filter Event.isNote = t.work.note?.toList := by
  cases hinput : t.work.input? with
  | none => simp [Machine.take, Turn.stimulus?, Work.fault?, Work.note?, hinput]
  | some input =>
      have hmove := move_step h ⟨input, t.setting.now, t.setting.readings⟩
      simp only [Machine.take, Turn.stimulus?, Work.fault?, Work.note?, hinput]
      exact faults_of_move hmove

end

/-! ## What is started -/

/-- What is started when an outcome is carried out in a setting. -/
def Outcome.started (g : Setting) (out : Outcome) : List Running :=
  out.dispatch.toList.map (⟨·, g.now, g.collaborators.actionTime⟩)

/-- What a machine starts in some turns, in the order it decides. -/
def Machine.launches (m : Machine) : List Turn → List Running
  | [] => []
  | t :: ts => (m.take t).2.started t.setting ++ (m.take t).1.launches ts

theorem Machine.launches_single (m : Machine) (t : Turn) :
    m.launches [t] = (m.take t).2.started t.setting := List.append_nil _

theorem Machine.launches_append (m : Machine) (j : Journal) (ts ts' : List Turn) :
    m.launches (ts ++ ts') = m.launches ts ++ (m.replay j ts).1.launches ts' := by
  induction ts generalizing m j with
  | nil => rfl
  | cons t ts ih =>
      have hrest := ih (m.take t).1 (j.after t m)
      simp only [List.cons_append, launches, replay, hrest, List.append_assoc]

/-- What a machine hands over is a step, and never the baseline. -/
theorem mem_steps_of_dispatch {m m' : Machine} {x : Stimulus} {out : Outcome} (h : Coherent m)
    (hmove : Move m x m' out) {a : Action} (ha : out.dispatch = some a) : a ∈ Action.steps := by
  cases hmove with
  | refused f hin => exact absurd ha nofun
  | failed b f hin => exact absurd ha nofun
  | early hin hnot => exact absurd ha nofun
  | inert trigger s hask hnone => exact absurd ha nofun
  | recovered hin => exact absurd ha nofun
  | replaced p hin => exact absurd ha nofun
  | decided p trigger s s' out hask hp hactive hdec =>
      cases hdec with
      | quiet level hweak hidle => exact absurd ha nofun
      | ended level hweak hbusy => exact absurd ha nofun
      | held reason hhold => exact absurd ha nofun
      | waited hproceed hstep hreport hearly => exact absurd ha nofun
      | escalated hproceed hdue =>
          cases ha
          have hleft : s.action ≠ .baseline → s.action ∈ p.eligible := by
            intro hstep
            rw [hask.kept.1] at hstep ⊢
            obtain ⟨_, q, hq, hmem⟩ := h.tried hstep
            cases hp.symm.trans hq
            exact hmem
          have hmem := Policy.target_mem (Policy.isActive_iff.mp hactive).2 hleft
          exact Action.mem_steps.mpr (Policy.mem_eligible.mp hmem).1

theorem mem_steps_of_launched {m : Machine} (h : Coherent m) {ts : List Turn} {r : Running}
    (hr : r ∈ m.launches ts) : r.action ∈ Action.steps := by
  induction ts generalizing m with
  | nil => exact absurd hr List.not_mem_nil
  | cons t ts ih =>
      rcases List.mem_append.mp hr with hnow | hlater
      · obtain ⟨a, ha, rfl⟩ := List.mem_map.mp hnow
        rw [Option.mem_toList] at ha
        cases hx : t.stimulus? with
        | none => simp [Machine.take, hx] at ha
        | some x =>
            simp only [Machine.take, hx] at ha
            exact mem_steps_of_dispatch h (move_step h x) ha
      · exact ih (coherent_take t h) hlater

/-- Whether the work is to show the state. -/
def Work.shows : Work → Bool
  | .command .snapshot => true
  | _ => false

theorem Work.command_of_shows {w : Work} (h : w.shows = true) : w.command? = some .snapshot := by
  unfold shows at h
  split at h
  · rfl
  · exact absurd h Bool.false_ne_true

/-- What a machine shows in some turns, if it is asked to. -/
def Machine.shown (m : Machine) : List Turn → List Snapshot
  | [] => []
  | t :: ts => (if t.work.shows then [m.snapshot] else []) ++ (m.take t).1.shown ts

theorem Machine.shown_append (m : Machine) (j : Journal) (ts ts' : List Turn) :
    m.shown (ts ++ ts') = m.shown ts ++ (m.replay j ts).1.shown ts' := by
  induction ts generalizing m j with
  | nil => rfl
  | cons t ts ih =>
      have hrest := ih (m.take t).1 (j.after t m)
      simp only [List.cons_append, shown, replay, hrest, List.append_assoc]

theorem Machine.shown_eq_nil {ts : List Turn} (h : ∀ t ∈ ts, t.work.shows = false) (m : Machine) :
    m.shown ts = [] := by
  induction ts generalizing m with
  | nil => rfl
  | cons t ts ih =>
      obtain ⟨hfirst, hrest⟩ := List.forall_mem_cons.mp h
      rw [shown, hfirst, ih hrest]
      rfl

/-! ## Turn by turn -/

namespace Journal

variable {m : Machine} (t : Turn) (j : Journal)

theorem dispatched_add (g : Setting) (out : Outcome) :
    (j.add g out).dispatched.toList
      = j.dispatched.toList ++ out.dispatch.toList.map (g.now, ·) := by
  cases h : out.dispatch <;> simp [add, h]

theorem requests_add (g : Setting) (out : Outcome) :
    (j.add g out).requests.toList
      = j.requests.toList ++ (out.dispatch.bind Action.request?).toList.map (g.now, ·) := by
  cases h : out.dispatch.bind Action.request? <;> simp [add, h]

theorem failures_add (g : Setting) (out : Outcome) :
    (j.add g out).failures.toList = j.failures.toList
      ++ if g.collaborators.hearsFailures then out.failure.toList else [] := by
  cases h : out.failure with
  | none => simp [add, h]
  | some fault => cases hheard : g.collaborators.hearsFailures <;> simp [add, h, hheard]

theorem events_add (g : Setting) (out : Outcome) :
    (j.add g out).events.toList = j.events.toList
      ++ if g.collaborators.records then out.events else [] := by
  have hadd : (j.add g out).events
      = if g.collaborators.records then j.events ++ out.events else j.events := rfl
  rw [hadd]
  split <;> simp

/-- A journal keeps an account of each turn; to show the state is none. -/
theorem after_eq (m : Machine) :
    (j.after t m).dispatched = (j.add t.setting (m.take t).2).dispatched
      ∧ (j.after t m).requests = (j.add t.setting (m.take t).2).requests
      ∧ (j.after t m).failures = (j.add t.setting (m.take t).2).failures
      ∧ (j.after t m).events = (j.add t.setting (m.take t).2).events := by
  unfold after
  split
  · rename_i hwork
    have htake : m.take t = (m, {}) := by
      simp [Machine.take, Turn.stimulus?, Work.input?, hwork]
    rw [htake, add_nothing]
    exact ⟨rfl, rfl, rfl, rfl⟩
  · exact ⟨rfl, rfl, rfl, rfl⟩

theorem snapshots_after (m : Machine) :
    (j.after t m).snapshots.toList
      = j.snapshots.toList ++ if t.work.shows then [m.snapshot] else [] := by
  obtain ⟨work, setting⟩ := t
  cases work with
  | command command => cases command <;> simp [after, add, Work.shows]
  | refusal fault => simp [after, add, Work.shows]
  | recheck => simp [after, add, Work.shows]

end Journal

section

variable (m : Machine) (j : Journal) (ts : List Turn)

theorem dispatched_eq :
    (m.replay j ts).2.dispatched.toList
      = j.dispatched.toList ++ (m.launches ts).map fun r => (r.startedAt, r.action) := by
  induction ts generalizing m j with
  | nil => simp [Machine.replay, Machine.launches]
  | cons t ts ih =>
      rw [Machine.replay, ih, (j.after_eq t m).1, Journal.dispatched_add, List.append_assoc,
        Machine.launches, List.map_append, Outcome.started, List.map_map]
      rfl

theorem requests_eq :
    (m.replay j ts).2.requests.toList = j.requests.toList
      ++ (m.launches ts).filterMap fun r => r.action.request?.map (r.startedAt, ·) := by
  induction ts generalizing m j with
  | nil => simp [Machine.replay, Machine.launches]
  | cons t ts ih =>
      have hstarted : ((m.take t).2.started t.setting).filterMap
            (fun r => r.action.request?.map (r.startedAt, ·))
          = ((m.take t).2.dispatch.bind Action.request?).toList.map (t.setting.now, ·) := by
        unfold Outcome.started
        cases (m.take t).2.dispatch with
        | none => rfl
        | some a => cases hrequest : a.request? <;> simp [hrequest]
      rw [Machine.replay, ih, (j.after_eq t m).2.1, Journal.requests_add, List.append_assoc,
        Machine.launches, List.filterMap_append, hstarted]

theorem snapshots_eq :
    (m.replay j ts).2.snapshots.toList = j.snapshots.toList ++ m.shown ts := by
  induction ts generalizing m j with
  | nil => simp [Machine.replay, Machine.shown]
  | cons t ts ih =>
      rw [Machine.replay, ih, j.snapshots_after t m, List.append_assoc, Machine.shown]

variable {m} (h : Coherent m)
include h

theorem failures_eq :
    (m.replay j ts).2.failures.toList = j.failures.toList
      ++ (ts.filter (·.setting.collaborators.hearsFailures)).filterMap (·.work.fault?) := by
  induction ts generalizing m j with
  | nil => simp [Machine.replay]
  | cons t ts ih =>
      rw [Machine.replay, ih _ (coherent_take t h), (j.after_eq t m).2.2.1, Journal.failures_add,
        (faults_of_take t h).1, List.append_assoc]
      cases hheard : t.setting.collaborators.hearsFailures with
      | false => simp [hheard]
      | true => cases hfault : t.work.fault? <;> simp [hheard, hfault]

theorem notes_eq :
    (m.replay j ts).2.events.toList.filter Event.isNote = j.events.toList.filter Event.isNote
      ++ (ts.filter (·.setting.collaborators.records)).filterMap (·.work.note?) := by
  induction ts generalizing m j with
  | nil => simp [Machine.replay]
  | cons t ts ih =>
      rw [Machine.replay, ih _ (coherent_take t h), (j.after_eq t m).2.2.2, Journal.events_add,
        List.filter_append, List.append_assoc]
      have hnotes := (faults_of_take t h).2
      cases hrecords : t.setting.collaborators.records with
      | false => simp [hrecords]
      | true =>
          rw [if_pos rfl, hnotes]
          cases hnote : t.work.note? <;> simp [hrecords, hnote]

end

end StallRecovery
