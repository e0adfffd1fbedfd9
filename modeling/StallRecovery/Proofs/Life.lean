import StallRecovery.Controller
import StallRecovery.Machine.Run
import StallRecovery.Proofs.Standstill

/-!
# The life of a controller, one thing at a time

`Controller.settle` and its kin say in one go what a controller does at an instant. Here the same
life is told in single occurrences: some are done to the controller from outside, and the others it
does itself. Of its own it turns to one thing at a time, and `Scene.Occurs` says to which: to the
refusal of its initial policy before anything else, then to the command that has waited longest, and
to its re-check only when no command waits and the re-check is due. The clock moves on by itself
only over a controller that rests.

From the occurrences alone one can tell what was queued and what was handled, in which setting each
turn was taken, and what a machine that is fed turn after turn would report. The second half of the
module proves that it is so: every fact there is one about a single occurrence, carried along a life
by induction.
-/

namespace StallRecovery

/-- Something a controller turns to: the refusal of its initial policy, a command or its
re-check. -/
inductive Work where
  | refusal (fault : Fault)
  | command (command : Command)
  | recheck

/-- What a controller finds around it. -/
structure Setting where
  now : Nat
  readings : Readings
  collaborators : Collaborators

structure Turn where
  work : Work
  setting : Setting

/-- Something that occurs in the life of a controller. The clock is moved by somebody, or moves on
by itself; a command is told by somebody, or is the result of an action that has ended. -/
inductive Occurrence where
  | told (command : Command)
  | equipped (collaborators : Collaborators)
  | tuned (readings : Readings)
  | moved (now : Nat)
  | abandoned
  | waited (now : Nat)
  | returned (action : Running) (result : Command)
  | turned (turn : Turn)
  /-- An abandoned controller stops. -/
  | closed

/-! ## What occurrences tell -/

namespace Occurrence

/-- Whether it is done to the controller from outside. -/
def isDone : Occurrence → Bool
  | told _ | equipped _ | tuned _ | moved _ | abandoned => true
  | waited _ | returned _ _ | turned _ | closed => false

def queued? : Occurrence → Option Command
  | told command => some command
  | returned _ result => some result
  | _ => none

def turn? : Occurrence → Option Turn
  | turned turn => some turn
  | _ => none

end Occurrence

def Work.command? : Work → Option Command
  | .command c => some c
  | _ => none

def turns (life : List Occurrence) : List Turn := life.filterMap Occurrence.turn?

def queued (life : List Occurrence) : List Command := life.filterMap Occurrence.queued?

def handled (life : List Occurrence) : List Command := (turns life).filterMap (·.work.command?)

def Setting.after (g : Setting) : Occurrence → Setting
  | .equipped collaborators => { g with collaborators }
  | .tuned readings => { g with readings }
  | .moved now => { g with now }
  | .waited now => { g with now }
  | _ => g

/-- What a machine is fed when its controller turns to something. -/
def Work.input? : Work → Option Input
  | .refusal fault => some (.refuse fault)
  | .command (.validation valid) => some (.validation valid)
  | .command (.reload (.ok policy)) => some (.reload policy)
  | .command (.reload (.error fault)) => some (.refuse fault)
  | .command (.finished _ (.ok _)) => none
  | .command (.finished action (.error fault)) => some (.fail action fault)
  | .command .snapshot => none
  | .command .shutdown => none
  | .recheck => some .recheck

def Turn.stimulus? (t : Turn) : Option Stimulus :=
  t.work.input?.map (⟨·, t.setting.now, t.setting.readings⟩)

/-- What a machine is fed in a life, in order. -/
def stimuli (life : List Occurrence) : List Stimulus := (turns life).filterMap Turn.stimulus?

/-- A machine takes its part in a turn, if it has one. -/
def Machine.take (m : Machine) (t : Turn) : Machine × Outcome :=
  match t.stimulus? with
  | none => (m, {})
  | some x => m.step x

/-- What there is to report of an outcome, added to what was reported before. -/
def Journal.add (g : Setting) (out : Outcome) (j : Journal) : Journal where
  dispatched := match out.dispatch with
    | none => j.dispatched
    | some action => j.dispatched.push (g.now, action)
  requests := j.requests ++ ((out.dispatch.bind Action.request?).map (g.now, ·)).toArray
  failures := match out.failure with
    | none => j.failures
    | some fault => if g.collaborators.hearsFailures then j.failures.push fault else j.failures
  events := if g.collaborators.recordsEvents && !g.collaborators.recorderBroken then
    j.events ++ out.events else j.events
  snapshots := j.snapshots

/-- What there is to report of a turn that a machine took part in. -/
def Journal.after (t : Turn) (m : Machine) (j : Journal) : Journal :=
  match t.work with
  | .command .snapshot => { j with snapshots := j.snapshots.push m.snapshot }
  | _ => j.add t.setting (m.take t).2

/-- What a machine comes to over some turns, and what is reported by then. -/
def Machine.replay (m : Machine) (j : Journal) : List Turn → Machine × Journal
  | [] => (m, j)
  | t :: ts => (m.take t).1.replay (j.after t m) ts

/-! ## What occurs -/

/-- A controller with the clock and the guards that it sees. -/
structure Scene where
  now : Nat
  readings : Readings
  controller : Controller

def Scene.setting (s : Scene) : Setting := ⟨s.now, s.readings, s.controller.collaborators⟩

/-- A controller that has nothing to do now, and whose re-check is not due before `target`. One that
spins is left alone. -/
structure Controller.Rests (readings : Readings) (now target : Nat) (c : Controller) : Prop where
  announced : c.refusal = none
  drained : c.queue = []
  ended : ∀ r ∈ c.running, r.hasEnded now = false
  watched : ∀ d, c.machine.state.deadline = some d →
    now < d ∧ target ≤ d ∨ c.machine.Spins readings now

/-- What can occur in a scene, and what it makes of it. -/
inductive Scene.Occurs : Scene → Occurrence → Scene → Prop where
  | told {now : Nat} {readings : Readings} {c : Controller} (command : Command)
      (hopen : c.isOpen = true) :
      Occurs ⟨now, readings, c⟩ (.told command) ⟨now, readings, c.send command⟩
  | equipped {now : Nat} {readings : Readings} {c : Controller} (collaborators : Collaborators) :
      Occurs ⟨now, readings, c⟩ (.equipped collaborators)
        ⟨now, readings, { c with collaborators }⟩
  | tuned {now : Nat} {readings : Readings} {c : Controller} (readings' : Readings) :
      Occurs ⟨now, readings, c⟩ (.tuned readings') ⟨now, readings', c⟩
  | moved {now : Nat} {readings : Readings} {c : Controller} {now' : Nat} (hle : now ≤ now') :
      Occurs ⟨now, readings, c⟩ (.moved now') ⟨now', readings, c⟩
  | abandoned {now : Nat} {readings : Readings} {c : Controller} :
      Occurs ⟨now, readings, c⟩ .abandoned ⟨now, readings, c.abandon⟩
  | waited {now : Nat} {readings : Readings} {c : Controller} {now' : Nat} (hle : now ≤ now')
      (hrests : c.isAlive = true → c.Rests readings now now') :
      Occurs ⟨now, readings, c⟩ (.waited now') ⟨now', readings, c⟩
  | returned {now : Nat} {readings : Readings} {c : Controller} {before after : List Running}
      {r : Running} (halive : c.isAlive = true) (hrunning : c.running = before ++ r :: after)
      (hended : r.hasEnded now = true) :
      Occurs ⟨now, readings, c⟩ (.returned r (r.result c.collaborators))
        ⟨now, readings,
          { c with
            running := before ++ after
            queue := c.queue ++ [r.result c.collaborators] }⟩
  | refused {now : Nat} {readings : Readings} {c : Controller} {fault : Fault}
      (halive : c.isAlive = true) (hrefusal : c.refusal = some fault) :
      Occurs ⟨now, readings, c⟩ (.turned ⟨.refusal fault, now, readings, c.collaborators⟩)
        ⟨now, readings, { c with refusal := none }.feed now (·.onRefusal fault)⟩
  | handled {now : Nat} {readings : Readings} {c : Controller} {command : Command}
      {rest : List Command} (halive : c.isAlive = true) (hrefusal : c.refusal = none)
      (hqueue : c.queue = command :: rest) :
      Occurs ⟨now, readings, c⟩ (.turned ⟨.command command, now, readings, c.collaborators⟩)
        ⟨now, readings, { c with queue := rest }.handle readings now command⟩
  | rechecked {now : Nat} {readings : Readings} {c : Controller} {d : Nat}
      (halive : c.isAlive = true) (hrefusal : c.refusal = none) (hqueue : c.queue = [])
      (hd : c.machine.state.deadline = some d) (hdue : d ≤ now) :
      Occurs ⟨now, readings, c⟩ (.turned ⟨.recheck, now, readings, c.collaborators⟩)
        ⟨now, readings, c.feed now (·.onRecheck now readings)⟩
  | closed {now : Nat} {readings : Readings} {c : Controller} (hphase : c.phase = .abandoned) :
      Occurs ⟨now, readings, c⟩ .closed
        ⟨now, readings, { c with phase := .stopped, queue := [] }⟩

/-- What occurs from one scene to another, in order. -/
inductive Scene.Lives : Scene → List Occurrence → Scene → Prop where
  | nil (s : Scene) : Lives s [] s
  | cons {s s' s'' : Scene} {o : Occurrence} {life : List Occurrence} (ho : s.Occurs o s')
      (rest : Lives s' life s'') : Lives s (o :: life) s''

/-! ## What a turn changes -/

namespace Journal

theorem add_nothing (g : Setting) (j : Journal) : j.add g {} = j := by
  obtain ⟨dispatched, requests, failures, events, snapshots⟩ := j
  simp [add]

end Journal

namespace Controller

variable (readings : Readings) (now : Nat)

theorem record_eq (events : List Event) (c : Controller) :
    c.record events = { c with
      journal := { c.journal with
        events := if c.collaborators.recordsEvents && !c.collaborators.recorderBroken then
          c.journal.events ++ events else c.journal.events } } := by
  unfold record
  split <;> rfl

theorem surface_eq (fault : Fault) (c : Controller) :
    c.surface fault = { c with
      journal := { c.journal with
        failures := if c.collaborators.hearsFailures then c.journal.failures.push fault
          else c.journal.failures } } := by
  unfold surface
  split <;> rfl

/-- Nothing but the actions under way and the journal changes when an outcome is carried out. -/
theorem carryOut_eq (out : Outcome) (c : Controller) :
    c.carryOut now out = { c with
      running := (c.carryOut now out).running
      journal := c.journal.add ⟨now, readings, c.collaborators⟩ out } := by
  unfold carryOut
  rw [record_eq]
  cases hdispatch : out.dispatch with
  | none =>
      cases hfailure : out.failure with
      | none => simp [Journal.add, hdispatch, hfailure]
      | some fault => simp [surface_eq, Journal.add, hdispatch, hfailure]
  | some action =>
      cases hfailure : out.failure with
      | none => simp [launch, Journal.add, hdispatch, hfailure]
      | some fault => simp [launch, surface_eq, Journal.add, hdispatch, hfailure]

theorem feed_eq (input : Machine → Machine × Outcome) (c : Controller) :
    c.feed now input = { c with
      machine := (input c.machine).1
      running := (c.feed now input).running
      journal := c.journal.add ⟨now, readings, c.collaborators⟩ (input c.machine).2 } :=
  carryOut_eq readings now (input c.machine).2 { c with machine := (input c.machine).1 }

/-- What a turn on a command comes to, if that does not stop the controller. -/
theorem handle_eq {command : Command} (h : command ≠ .shutdown) (c : Controller) :
    c.handle readings now command = { c with
      machine := (c.machine.take ⟨.command command, now, readings, c.collaborators⟩).1
      running := (c.handle readings now command).running
      journal := c.journal.after ⟨.command command, now, readings, c.collaborators⟩ c.machine } := by
  cases command with
  | validation valid => exact feed_eq readings now (·.onValidation valid now readings) c
  | reload policy =>
      cases policy with
      | ok p => exact feed_eq readings now (·.onReload p now) c
      | error fault => exact feed_eq readings now (·.onRefusal fault) c
  | finished action result =>
      cases result with
      | ok _ =>
          have hadd := c.journal.add_nothing ⟨now, readings, c.collaborators⟩
          simp only [handle, Journal.after, Machine.take, Turn.stimulus?, Work.input?,
            Option.map_none, hadd]
      | error fault => exact feed_eq readings now (·.onFailure action fault) c
  | snapshot => rfl
  | shutdown => exact absurd rfl h

theorem send_of_open (command : Command) {c : Controller} (h : c.isOpen = true) :
    c.send command = { c with queue := c.queue ++ [command] } := if_pos h

theorem isOpen_of_isAlive {c : Controller} (h : c.isAlive = true) : c.isOpen = true := by
  have hphase : c.phase = .alive := by simpa [isAlive] using h
  simp [isOpen, hphase]

end Controller

/-! ## What a life tells -/

theorem take_eq_step {m : Machine} {t : Turn} {x : Stimulus} (hx : t.stimulus? = some x) :
    m.take t = m.step x := by
  simp [Machine.take, hx]

theorem Occurrence.eq_turned {o : Occurrence} {t : Turn} (h : o.turn? = some t) :
    o = .turned t := by
  cases o with
  | turned t' => exact congrArg turned (Option.some.inj h)
  | _ => exact absurd h nofun

section

variable {life life' : List Occurrence}

@[simp] theorem turns_append : turns (life ++ life') = turns life ++ turns life' :=
  List.filterMap_append

@[simp] theorem queued_append : queued (life ++ life') = queued life ++ queued life' :=
  List.filterMap_append

@[simp] theorem handled_append : handled (life ++ life') = handled life ++ handled life' := by
  simp [handled]

theorem mem_turns {t : Turn} : t ∈ turns life ↔ .turned t ∈ life := by
  constructor
  · intro ht
    obtain ⟨o, ho, hturn⟩ := List.mem_filterMap.mp ht
    cases Occurrence.eq_turned hturn
    exact ho
  · intro ho
    exact List.mem_filterMap.mpr ⟨_, ho, rfl⟩

/-- What is queued has been told, or is the result of an action that has ended. -/
theorem mem_queued {command : Command} :
    command ∈ queued life ↔ .told command ∈ life ∨ ∃ r, .returned r command ∈ life := by
  constructor
  · intro hcommand
    obtain ⟨o, ho, hqueued⟩ := List.mem_filterMap.mp hcommand
    cases o with
    | told command' =>
        cases hqueued
        exact .inl ho
    | returned r result =>
        cases hqueued
        exact .inr ⟨r, ho⟩
    | _ => exact absurd hqueued nofun
  · rintro (htold | ⟨r, hreturned⟩)
    · exact List.mem_filterMap.mpr ⟨_, htold, rfl⟩
    · exact List.mem_filterMap.mpr ⟨_, hreturned, rfl⟩

theorem Machine.replay_append (m : Machine) (j : Journal) (ts ts' : List Turn) :
    m.replay j (ts ++ ts') = (m.replay j ts).1.replay (m.replay j ts).2 ts' := by
  induction ts generalizing m j with
  | nil => rfl
  | cons t ts ih => exact ih (m.take t).1 (j.after t m)

/-- What inputs set stays as the last of them set it. -/
theorem Machine.replay_last {α : Type} {g : Machine → α} {f : Input → Option α}
    (h : ∀ m x, g (Machine.step m x).1 = (f x.input).getD (g m)) (m : Machine) (j : Journal)
    (ts : List Turn) :
    g (m.replay j ts).1 = (ts.filterMap fun t => t.work.input?.bind f).getLast?.getD (g m) := by
  induction ts generalizing m j with
  | nil => rfl
  | cons t ts ih =>
      have htake : g (m.take t).1 = (t.work.input?.bind f).getD (g m) := by
        cases hinput : t.work.input? with
        | none => simp [Machine.take, Turn.stimulus?, hinput]
        | some input => simp [Machine.take, Turn.stimulus?, hinput, h]
      rw [Machine.replay, ih, htake]
      cases hset : t.work.input?.bind f with
      | none => simp [hset]
      | some value => simp [hset, List.getLast?_cons]

/-- A machine that takes its part in turns runs on what they feed it. -/
theorem Machine.replay_fst (m : Machine) (j : Journal) (ts : List Turn) :
    (m.replay j ts).1 = (m.run (ts.filterMap Turn.stimulus?)).1 := by
  induction ts generalizing m j with
  | nil => rfl
  | cons t ts ih =>
      have hrest := ih (m.take t).1 (j.after t m)
      cases hx : t.stimulus? with
      | none =>
          rw [List.filterMap_cons_none hx]
          simpa only [Machine.replay, Machine.take, hx] using hrest
      | some x =>
          rw [List.filterMap_cons_some hx]
          simpa only [Machine.replay, Machine.take, hx, Machine.run] using hrest

/-- What the occurrences from one scene to another tell about the second. -/
structure Scene.Tallies (s : Scene) (life : List Occurrence) (s' : Scene) : Prop where
  setting : s'.setting = life.foldl Setting.after s.setting
  /-- One machine that takes every turn accounts for all that is reported. -/
  replayed : (s'.controller.machine, s'.controller.journal)
    = s.controller.machine.replay s.controller.journal (turns life)
  refusal : s'.controller.refusal = if turns life = [] then s.controller.refusal else none
  /-- What comes in first is handled first, and only a queue that closes loses what is in it. -/
  fifo : ∃ lost, s.controller.queue ++ queued life
      = handled life ++ (s'.controller.queue ++ lost)
    ∧ (s'.controller.isOpen = true → lost = [])
  alive : s'.controller.isAlive = true
    ↔ s.controller.isAlive = true ∧ .abandoned ∉ life ∧ .shutdown ∉ handled life
  /-- Nothing comes of a closed queue. -/
  shut : s.controller.isOpen = false → s'.controller.isOpen = false
    ∧ s'.controller.queue = s.controller.queue ∧ queued life = [] ∧ turns life = []

namespace Scene

variable {s s' s'' : Scene}

theorem Tallies.nil (s : Scene) : s.Tallies [] s where
  setting := rfl
  replayed := rfl
  refusal := rfl
  fifo := ⟨[], by simp [queued, handled, turns], fun _ => rfl⟩
  alive := by simp [handled, turns]
  shut h := ⟨h, rfl, rfl, rfl⟩

theorem Tallies.append (h : s.Tallies life s') (h' : s'.Tallies life' s'') :
    s.Tallies (life ++ life') s'' where
  setting := by rw [List.foldl_append, ← h.setting, h'.setting]
  replayed := by rw [turns_append, Machine.replay_append, ← h.replayed, h'.replayed]
  refusal := by
    rw [h'.refusal, h.refusal]
    by_cases hturns : turns life = [] <;> simp [hturns]
  fifo := by
    obtain ⟨lost, hfifo, hlost⟩ := h.fifo
    cases hopen : s'.controller.isOpen with
    | true =>
        obtain ⟨lost', hfifo', hlost'⟩ := h'.fifo
        rw [hlost hopen, List.append_nil] at hfifo
        refine ⟨lost', ?_, hlost'⟩
        rw [queued_append, handled_append, ← List.append_assoc, hfifo, List.append_assoc, hfifo',
          List.append_assoc]
    | false =>
        -- the queue has closed on the way, so the rest adds neither to it nor to what is handled
        obtain ⟨hshut, hqueue, hqueued, hturns⟩ := h'.shut hopen
        have hhandled : handled life' = [] := by simp [handled, hturns]
        refine ⟨lost, ?_, fun hopen' => absurd hopen' (by simp [hshut])⟩
        rw [queued_append, handled_append, hqueued, hhandled, hqueue, List.append_nil,
          List.append_nil, hfifo]
  alive := by
    rw [h'.alive, h.alive]
    simp only [handled_append, List.mem_append, not_or]
    constructor
    · rintro ⟨⟨halive, hleft, hhandled⟩, hleft', hhandled'⟩
      exact ⟨halive, ⟨hleft, hleft'⟩, hhandled, hhandled'⟩
    · rintro ⟨halive, ⟨hleft, hleft'⟩, hhandled, hhandled'⟩
      exact ⟨⟨halive, hleft, hhandled⟩, hleft', hhandled'⟩
  shut hs := by
    obtain ⟨hopen, hqueue, hqueued, hturns⟩ := h.shut hs
    obtain ⟨hopen', hqueue', hqueued', hturns'⟩ := h'.shut hopen
    exact ⟨hopen', hqueue'.trans hqueue, by simp [hqueued, hqueued'], by simp [hturns, hturns']⟩

/-- Off a turn, nothing happens to a controller but that commands are queued and that what it works
with changes. -/
theorem tallies_off {o : Occurrence} (hturn : o.turn? = none) (hleft : o ≠ .abandoned)
    (hsetting : s'.setting = s.setting.after o)
    (hopen : o.queued?.isSome = true → s.controller.isOpen = true)
    (hcontroller : s'.controller = { s.controller with
      queue := s.controller.queue ++ o.queued?.toList
      running := s'.controller.running
      collaborators := s'.controller.collaborators }) : s.Tallies [o] s' := by
  have hturns : turns [o] = [] := by simp [turns, hturn]
  have hhandled : handled [o] = [] := by simp [handled, hturns]
  have hqueued : queued [o] = o.queued?.toList := by cases h : o.queued? <;> simp [queued, h]
  refine ⟨hsetting, ?_, ?_, ⟨[], ?_, fun _ => rfl⟩, ?_, fun hshut => ?_⟩
  · rw [hcontroller, hturns]
    rfl
  · rw [hcontroller, if_pos hturns]
  · rw [hcontroller, hhandled, hqueued]
    simp
  · rw [hcontroller, hhandled]
    simp [Controller.isAlive, hleft.symm]
  · have hnone : o.queued? = none := by
      cases h : o.queued? with
      | none => rfl
      | some command => exact absurd (hopen (by simp [h])) (by simp [hshut])
    rw [hcontroller, hqueued, hnone]
    exact ⟨hshut, List.append_nil _, rfl, hturns⟩

/-- A turn is taken by a live controller, so the command it is about leaves the front of the queue
and nothing else does. -/
theorem tallies_turn {t : Turn} (halive : s.controller.isAlive = true)
    (hstays : t.work.command? ≠ some .shutdown) (hsetting : s'.setting = s.setting)
    (hmachine : s'.controller.machine = (s.controller.machine.take t).1)
    (hjournal : s'.controller.journal = s.controller.journal.after t s.controller.machine)
    (hrefusal : s'.controller.refusal = none)
    (hqueue : s.controller.queue = t.work.command?.toList ++ s'.controller.queue)
    (hphase : s'.controller.phase = s.controller.phase) : s.Tallies [.turned t] s' := by
  have hhandled : handled [.turned t] = t.work.command?.toList := by
    cases h : t.work.command? <;> simp [handled, turns, Occurrence.turn?, h]
  have hleft : Occurrence.abandoned ∉ [Occurrence.turned t] := by simp
  have hnot : Command.shutdown ∉ handled [.turned t] := by simpa [hhandled] using hstays
  have halive' : s'.controller.isAlive = true := by rwa [Controller.isAlive, hphase]
  refine ⟨hsetting, ?_, hrefusal, ⟨[], ?_, fun _ => rfl⟩, ?_, fun hshut => ?_⟩
  · rw [hmachine, hjournal]
    rfl
  · rw [hhandled, hqueue]
    simp [queued, Occurrence.queued?]
  · exact ⟨fun _ => ⟨halive, hleft, hnot⟩, fun _ => halive'⟩
  · exact absurd (Controller.isOpen_of_isAlive halive) (by simp [hshut])

theorem tallies_abandoned (s : Scene) :
    s.Tallies [.abandoned] ⟨s.now, s.readings, s.controller.abandon⟩ := by
  have hfifo : s.controller.queue ++ [] = [] ++ (s.controller.queue ++ []) := by simp
  cases halive : s.controller.isAlive with
  | false =>
      have hsame : s.controller.abandon = s.controller := if_neg (by simp [halive])
      rw [hsame]
      exact ⟨rfl, rfl, rfl, ⟨[], hfifo, fun _ => rfl⟩, by simp [halive],
        fun hshut => ⟨hshut, rfl, rfl, rfl⟩⟩
  | true =>
      have hleft : s.controller.abandon = { s.controller with phase := .abandoned } := if_pos halive
      rw [hleft]
      exact ⟨rfl, rfl, rfl, ⟨[], hfifo, fun _ => rfl⟩, by simp [Controller.isAlive],
        fun hshut => absurd (Controller.isOpen_of_isAlive halive) (by simp [hshut])⟩

theorem tallies_shutdown {now : Nat} {readings : Readings} {c : Controller} {rest : List Command}
    (halive : c.isAlive = true) (hrefusal : c.refusal = none)
    (hqueue : c.queue = .shutdown :: rest) :
    Tallies ⟨now, readings, c⟩ [.turned ⟨.command .shutdown, now, readings, c.collaborators⟩]
      ⟨now, readings, { c with phase := .stopped, queue := [] }⟩ where
  setting := rfl
  replayed := by
    have hjournal := c.journal.add_nothing ⟨now, readings, c.collaborators⟩
    exact congrArg (c.machine, ·) hjournal.symm
  refusal := hrefusal
  fifo := ⟨rest, by simp [hqueue, queued, handled, turns, Occurrence.queued?, Occurrence.turn?,
    Work.command?], nofun⟩
  alive := by
    simp [Controller.isAlive, handled, turns, Occurrence.turn?, Work.command?]
  shut hshut := absurd (Controller.isOpen_of_isAlive halive) (by simp [hshut])

theorem tallies_closed {now : Nat} {readings : Readings} {c : Controller}
    (hphase : c.phase = .abandoned) :
    Tallies ⟨now, readings, c⟩ [.closed]
      ⟨now, readings, { c with phase := .stopped, queue := [] }⟩ where
  setting := rfl
  replayed := rfl
  refusal := rfl
  fifo := ⟨c.queue, show c.queue ++ [] = [] ++ ([] ++ c.queue) from List.append_nil _, nofun⟩
  alive := by simp [Controller.isAlive, hphase]
  shut hshut := by simp [Controller.isOpen, hphase] at hshut

theorem Occurs.tallies {o : Occurrence} (h : s.Occurs o s') : s.Tallies [o] s' := by
  cases h with
  | told command hopen =>
      rw [Controller.send_of_open command hopen]
      exact tallies_off rfl nofun rfl (fun _ => hopen) rfl
  | equipped collaborators =>
      exact tallies_off rfl nofun rfl nofun (by simp [Occurrence.queued?])
  | tuned readings' => exact tallies_off rfl nofun rfl nofun (by simp [Occurrence.queued?])
  | moved hle => exact tallies_off rfl nofun rfl nofun (by simp [Occurrence.queued?])
  | abandoned => exact tallies_abandoned ⟨_, _, _⟩
  | waited hle hrests => exact tallies_off rfl nofun rfl nofun (by simp [Occurrence.queued?])
  | returned halive hrunning hended =>
      exact tallies_off rfl nofun rfl (fun _ => Controller.isOpen_of_isAlive halive) rfl
  | @refused now readings c fault halive hrefusal =>
      rw [Controller.feed_eq readings now]
      exact tallies_turn halive nofun rfl rfl rfl rfl rfl rfl
  | @handled now readings c command rest halive hrefusal hqueue =>
      -- the only turn after which what is still queued is lost
      by_cases hstop : command = .shutdown
      · subst hstop
        exact tallies_shutdown halive hrefusal hqueue
      · rw [Controller.handle_eq readings now hstop]
        exact tallies_turn halive (by simpa [Work.command?] using hstop) rfl rfl rfl hrefusal
          hqueue rfl
  | @rechecked now readings c d halive hrefusal hqueue hd hdue =>
      rw [Controller.feed_eq readings now]
      exact tallies_turn halive nofun rfl rfl rfl hrefusal rfl rfl
  | closed hphase => exact tallies_closed hphase

/-- What single occurrences tell adds up over a life. -/
theorem Lives.tallies (h : s.Lives life s') : s.Tallies life s' := by
  induction h with
  | nil s => exact .nil s
  | cons ho rest ih => exact ho.tallies.append ih

/-- A live controller has handled what was queued, first in, first out, or still has it in its
queue. -/
theorem Lives.fifo (h : s.Lives life s') (halive : s'.controller.isAlive = true) :
    s.controller.queue ++ queued life = handled life ++ s'.controller.queue := by
  obtain ⟨lost, hfifo, hlost⟩ := h.tallies.fifo
  rw [hlost (Controller.isOpen_of_isAlive halive), List.append_nil] at hfifo
  exact hfifo

/-! ## A turn -/

/-- A turn takes place in the setting of its scene, and leaves that as it is. -/
theorem Occurs.setting_of_turned {t : Turn} (ho : s.Occurs (.turned t) s') :
    t.setting = s.setting ∧ s'.now = s.now ∧ s'.readings = s.readings := by
  have hsetting : s'.setting = s.setting := ho.tallies.setting
  have hfound : t.setting = s.setting := by
    cases ho with
    | refused halive hrefusal => rfl
    | handled halive hrefusal hqueue => rfl
    | rechecked halive hrefusal hqueue hd hdue => rfl
  exact ⟨hfound, congrArg Setting.now hsetting, congrArg Setting.readings hsetting⟩

/-- Only a live controller turns to anything. -/
theorem Occurs.alive_of_turned {t : Turn} (ho : s.Occurs (.turned t) s') :
    s.controller.isAlive = true := by
  cases ho with
  | refused halive hrefusal => exact halive
  | handled halive hrefusal hqueue => exact halive
  | rechecked halive hrefusal hqueue hd hdue => exact halive

/-- A command that is turned to was next in the queue. -/
theorem Occurs.queue_of_turned {t : Turn} {command : Command} (ho : s.Occurs (.turned t) s')
    (ht : t.work = .command command) : ∃ rest, s.controller.queue = command :: rest := by
  cases ho with
  | refused halive hrefusal => exact absurd ht nofun
  | handled halive hrefusal hqueue =>
      cases ht
      exact ⟨_, hqueue⟩
  | rechecked halive hrefusal hqueue hd hdue => exact absurd ht nofun

/-- A re-check is looked at once it is due, while no command waits. -/
theorem Occurs.due_of_recheck {t : Turn} (ho : s.Occurs (.turned t) s') (ht : t.work = .recheck) :
    s.controller.queue = []
      ∧ ∃ d, s.controller.machine.state.deadline = some d ∧ d ≤ s.now := by
  cases ho with
  | refused halive hrefusal => exact absurd ht nofun
  | handled halive hrefusal hqueue => exact absurd ht nofun
  | rechecked halive hrefusal hqueue hd hdue => exact ⟨hqueue, _, hd, hdue⟩

/-- What a machine and a journal come to over a turn. -/
theorem Occurs.replay_of_turned {t : Turn} (ho : s.Occurs (.turned t) s') :
    s'.controller.machine = (s.controller.machine.take t).1
      ∧ s'.controller.journal = s.controller.journal.after t s.controller.machine := by
  have hreplayed := ho.tallies.replayed
  exact ⟨congrArg Prod.fst hreplayed, congrArg Prod.snd hreplayed⟩

/-- As far as results do not matter, what is queued is what is told from outside. -/
theorem Lives.told_only (h : s.Lives life s') {α : Type} {f : Command → Option α}
    (hresult : ∀ r k, f (Running.result k r) = none) :
    (queued life).filterMap f = (queued (life.filter Occurrence.isDone)).filterMap f := by
  induction h with
  | nil s => rfl
  | @cons s₁ s₂ s₃ o life ho rest ih =>
      have hcons : ∀ later, queued (o :: later) = o.queued?.toList ++ queued later := by
        intro later
        unfold queued
        cases ho : o.queued? <;> simp [ho]
      cases hdone : o.isDone with
      | true =>
          rw [List.filter_cons_of_pos hdone, hcons, hcons, List.filterMap_append,
            List.filterMap_append, ih]
      | false =>
          have hown : o.queued?.toList.filterMap f = [] := by
            cases ho with
            | returned halive hrunning hended =>
                simp only [Occurrence.queued?, Option.toList_some, List.filterMap_cons, hresult,
                  List.filterMap_nil]
            | told => exact absurd hdone nofun
            | equipped | tuned | moved | abandoned | waited | refused | handled | rechecked
              | closed => rfl
          rw [List.filter_cons_of_neg (by simp [hdone]), hcons, List.filterMap_append, hown, ih]
          rfl

/-! ## Lives cut in two -/

theorem Lives.single {o : Occurrence} (h : s.Occurs o s') : s.Lives [o] s' := .cons h (.nil s')

theorem Lives.append (h : s.Lives life s') (h' : s'.Lives life' s'') :
    s.Lives (life ++ life') s'' := by
  induction h with
  | nil s => exact h'
  | cons ho rest ih => exact .cons ho (ih h')

theorem Lives.cut (h : s.Lives (life ++ life') s'') :
    ∃ s', s.Lives life s' ∧ s'.Lives life' s'' := by
  induction life generalizing s with
  | nil => exact ⟨s, .nil s, h⟩
  | cons o life ih =>
      cases h with
      | cons ho rest =>
          obtain ⟨s', hlife, hrest⟩ := ih rest
          exact ⟨s', .cons ho hlife, hrest⟩

/-- What happens at a point of a life. -/
theorem Lives.pick {o : Occurrence} (h : s.Lives (life ++ o :: life') s'') :
    ∃ s₁ s₂, s.Lives life s₁ ∧ s₁.Occurs o s₂ ∧ s₂.Lives life' s'' := by
  obtain ⟨s₁, hlife, hrest⟩ := h.cut
  cases hrest with
  | cons ho rest => exact ⟨s₁, _, hlife, ho, rest⟩

end Scene

end

end StallRecovery
