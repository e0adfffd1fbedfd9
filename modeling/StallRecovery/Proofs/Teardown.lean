import StallRecovery.Proofs.Rehearsal

/-!
# Teardown

A controller ends in one of two ways. When it is shut down, its owner waits until it has turned to
everything that was queued before; when it is abandoned, it turns to nothing more. Either way its
registration leaves the monitor's book at once, and what is left of it is a closed sink.

What it does on the way out is said by a list of work, `Controller.remainingWork` for a shutdown and
nothing for one that is abandoned. `TornDown` says that it turns to that list, item after item, and
to nothing else whatever happens afterwards: not to its re-check, even where that is overdue, nor to
an action that comes back.
-/

namespace StallRecovery

/-! ## On the way out -/

theorem turns_turned (ts : List Turn) : turns (ts.map .turned) = ts := by
  rw [turns, List.filterMap_map]
  exact List.filterMap_some

/-- Turns are a controller's own doing. -/
theorem own_of_turned (ts : List Turn) : (ts.map .turned).filter Occurrence.isDone = [] := by
  simp [Occurrence.isDone]

namespace Controller

variable (readings : Readings) (now : Nat)

/-- Commands that do not stop a controller are handled one by one, whatever waits behind them. -/
theorem drain_lives {c : Controller} {k : Collaborators} (hk : c.collaborators = k)
    (halive : c.isAlive = true) (hrefusal : c.refusal = none) {queue : List Command}
    (hstays : .shutdown ∉ queue) (later : List Command) :
    Scene.Lives ⟨now, readings, { c with queue := queue ++ later }⟩
        (queue.map fun command => .turned ⟨.command command, now, readings, k⟩)
        ⟨now, readings, { c.drain readings now queue with queue := later }⟩
      ∧ (c.drain readings now queue).isAlive = true
      ∧ (c.drain readings now queue).refusal = none
      ∧ (c.drain readings now queue).collaborators = k := by
  induction queue generalizing c with
  | nil => exact ⟨.nil _, halive, hrefusal, hk⟩
  | cons command rest ih =>
      obtain ⟨hfirst, hrest⟩ := not_or.mp fun h => hstays (List.mem_cons.mpr h)
      have hstop : command ≠ .shutdown := Ne.symm hfirst
      have hkept := handle_eq readings now hstop c
      have halive' : (c.handle readings now command).isAlive = true :=
        (isAlive_handle readings now halive).mpr hstop
      have hdrain : c.drain readings now (command :: rest)
          = (c.handle readings now command).drain readings now rest := if_pos halive'
      have hhandled : Scene.Occurs ⟨now, readings, { c with queue := command :: (rest ++ later) }⟩
          (.turned ⟨.command command, now, readings, c.collaborators⟩)
          ⟨now, readings, { c with queue := rest ++ later }.handle readings now command⟩ :=
        .handled halive hrefusal rfl
      rw [handle_queue readings now hstop (rest ++ later) c] at hhandled
      obtain ⟨hlives, hend⟩ := ih (c := c.handle readings now command) (by rw [hkept, hk]) halive'
        (by rw [hkept, hrefusal]) hrest
      subst hk
      rw [hdrain]
      exact ⟨.cons hhandled hlives, hend⟩

theorem reportRefusal_lives {c : Controller} (halive : c.isAlive = true) :
    Scene.Lives ⟨now, readings, c⟩
      (c.refusal.toList.map fun fault =>
        .turned ⟨.refusal fault, now, readings, c.collaborators⟩)
      ⟨now, readings, c.reportRefusal now⟩ := by
  unfold reportRefusal
  cases hrefusal : c.refusal with
  | none => exact .nil _
  | some fault => exact .single (.refused halive hrefusal)

/-- What is left for a controller to turn to when it is shut down. -/
def remainingWork (c : Controller) : List Work :=
  c.refusal.toList.map Work.refusal ++ (c.queue ++ [Command.shutdown]).map Work.command

/-- It stops when nothing else waits. -/
theorem stop_lives {c : Controller} {k : Collaborators} (hk : c.collaborators = k)
    (halive : c.isAlive = true) (hrefusal : c.refusal = none) :
    Scene.Lives ⟨now, readings, { c with queue := [Command.shutdown] }⟩
      [.turned ⟨.command .shutdown, now, readings, k⟩]
      ⟨now, readings, c.handle readings now .shutdown⟩ := by
  have hhandled : Scene.Occurs ⟨now, readings, { c with queue := [Command.shutdown] }⟩
      (.turned ⟨.command .shutdown, now, readings, c.collaborators⟩)
      ⟨now, readings, { c with queue := [] }.handle readings now .shutdown⟩ :=
    .handled halive hrefusal rfl
  rw [← hk]
  exact .single hhandled

/-- A controller that is shut down turns to what is left and then stops. -/
theorem shutdown_lives {c : Controller} (halive : c.isAlive = true) (hqueue : .shutdown ∉ c.queue) :
    Scene.Lives ⟨now, readings, c⟩
        (.told .shutdown
          :: (c.remainingWork.map (Turn.mk · ⟨now, readings, c.collaborators⟩)).map .turned)
        ⟨now, readings, (c.send .shutdown).settle readings now⟩
      ∧ ((c.send .shutdown).settle readings now).isOpen = false := by
  have hopen := isOpen_of_isAlive halive
  have htold : Scene.Occurs ⟨now, readings, c⟩ (.told .shutdown)
      ⟨now, readings, c.send .shutdown⟩ := .told .shutdown hopen
  have hsent := send_of_open .shutdown hopen
  have halive₁ : (c.send .shutdown).isAlive = true := by
    rw [hsent]
    exact halive
  have hrefused := reportRefusal_lives readings now halive₁
  obtain ⟨journal, hreported⟩ := c.reportRefusal_eq
  rw [hsent, reportRefusal_queue, hreported now] at hrefused
  have hworked : c.workOff readings now
      = drain readings now { c with refusal := none, queue := [], journal } c.queue := by
    rw [workOff, hreported now]
  obtain ⟨hdrained, halive₂, hrefusal₂, hk⟩ := drain_lives readings now
    (c := { c with refusal := none, queue := [], journal }) rfl halive rfl hqueue
    [Command.shutdown]
  rw [← hworked] at hdrained halive₂ hrefusal₂ hk
  have hsettled : (c.send .shutdown).settle readings now
      = (c.workOff readings now).handle readings now .shutdown := by
    rw [settle, settleThrough_of_alive readings now halive₁,
      workOff_send readings now halive halive₂]
    rfl
  rw [hsettled]
  refine ⟨.cons htold ?_, rfl⟩
  rw [hsent]
  simp only [remainingWork, List.map_append, List.map_map]
  exact hrefused.append (hdrained.append (stop_lives readings now hk halive₂ hrefusal₂))

/-- A controller without an owner closes as soon as it can. -/
theorem isOpen_settle {c : Controller} (hdead : c.isAlive = false) :
    (c.settle readings now).isOpen = false := by
  unfold settle settleThrough
  cases hphase : c.phase with
  | alive => simp [isAlive, hphase] at hdead
  | abandoned => rfl
  | stopped => simp [isOpen, hphase]

end Controller

/-- A controller without an owner turns to nothing any more. -/
theorem Scene.Lives.idle {s s' : Scene} {life : List Occurrence} (h : s.Lives life s')
    (hdead : s.controller.isAlive = false) :
    turns life = [] ∧ s'.controller.isAlive = false := by
  have hlater : ∀ {life : List Occurrence} {s' : Scene}, s.Lives life s' →
      s'.controller.isAlive = false := by
    intro life s' h
    rw [← Bool.not_eq_true, h.tallies.alive]
    rintro ⟨halive, _⟩
    rw [hdead] at halive
    exact Bool.false_ne_true halive
  refine ⟨List.eq_nil_iff_forall_not_mem.mpr fun t ht => ?_, hlater h⟩
  obtain ⟨before, after, rfl⟩ := List.append_of_mem (mem_turns.mp ht)
  obtain ⟨s₁, s₂, hbefore, hat, _⟩ := h.pick
  have halive : s₁.controller.isAlive = true := hat.alive_of_turned
  rw [hlater hbefore] at halive
  exact Bool.false_ne_true halive

/-! ## Whose is an identity -/

namespace Deployment

variable {d : Deployment} {i : Nat}

/-- No identity stands for two controllers or for the sink of another, and nobody who has an owner
is about to stop. -/
structure Owned (d : Deployment) : Prop where
  issued : ∀ (i : Nat) (c : Controller), d.controllers[i]? = some c →
    c.registration < d.monitor.nextId
  booked : ∀ r ∈ d.monitor.registrations, r.id < d.monitor.nextId
  own : ∀ (i : Nat) (c : Controller), d.controllers[i]? = some c →
    ∀ r ∈ d.monitor.registrations, r.id = c.registration → r.sink = i
  unstopped : ∀ (i : Nat) (c : Controller), d.controllers[i]? = some c → c.isAlive = true →
    .shutdown ∉ c.queue

theorem owned_empty : Owned .empty where
  issued := by simp [empty]
  booked := by simp [empty, Monitor.empty]
  own := by simp [empty]
  unstopped := by simp [empty]

theorem Owned.start (h : d.Owned) (launch : Launch) : (d.start launch).1.Owned := by
  rcases d.start_cases launch with ⟨_, hsame⟩ | ⟨initial, _, _, hadded⟩
  · rwa [hsame]
  rw [hadded]
  have hbook : ∀ r ∈ d.monitor.registrations ++ [⟨d.monitor.nextId, d.controllers.length⟩],
      r ∈ d.monitor.registrations ∨ r = ⟨d.monitor.nextId, d.controllers.length⟩ := by simp
  refine ⟨fun j c' hc' => ?_, fun r hr => ?_, fun j c' hc' r hr heq => ?_,
    fun j c' hc' halive => ?_⟩
  · rcases found_of_added hc' with hold | ⟨_, rfl⟩
    · exact Nat.lt_succ_of_lt (h.issued j c' hold)
    · exact Nat.lt_succ_self _
  · rcases hbook r hr with hold | rfl
    · exact Nat.lt_succ_of_lt (h.booked r hold)
    · exact Nat.lt_succ_self _
  · rcases found_of_added hc' with hold | ⟨rfl, rfl⟩ <;> rcases hbook r hr with hold' | rfl
    · exact h.own j c' hold r hold' heq
    · exact absurd heq (Nat.ne_of_gt (h.issued j c' hold))
    · exact absurd heq (Nat.ne_of_lt (h.booked r hold'))
    · rfl
  · rcases found_of_added hc' with hold | ⟨_, rfl⟩
    · exact h.unstopped j c' hold halive
    · exact List.not_mem_nil

/-- Whoever is in the book was there before, or has just got an identity of its own. -/
theorem Book.mem_cases {m : Moment} {monitor : Monitor} (h : d.Book m monitor) {r : Registration}
    (hr : r ∈ monitor.registrations) :
    r ∈ d.monitor.registrations ∨ r.id = d.monitor.nextId ∧ r.id < monitor.nextId := by
  cases h with
  | kept m hm => exact .inl hr
  | published valid =>
      unfold Monitor.publish at hr
      split at hr
      · exact .inl hr
      · exact .inl (List.mem_filter.mp hr).1
  | entered j =>
      rcases List.mem_append.mp hr with hold | hnew
      · exact .inl hold
      · cases List.mem_singleton.mp hnew
        exact .inr ⟨rfl, Nat.lt_succ_self _⟩
  | struck id => exact .inl (List.mem_filter.mp hr).1
  | left m hm hc halive => exact .inl (List.mem_filter.mp hr).1

/-- Nobody has a command to stop in its queue and an owner still. -/
theorem unstopped_meet {m : Moment} {c c' : Controller} (hc : d.controllers[i]? = some c)
    (hqueue : c.isAlive = true → .shutdown ∉ c.queue)
    (hc' : (d.meet m).controllers[i]? = some c') (halive' : c'.isAlive = true) :
    .shutdown ∉ c'.queue := by
  obtain ⟨segment, hlives, hdone⟩ := lives_of_meet hc hc'
  obtain ⟨halive, _⟩ := hlives.tallies.alive.mp halive'
  intro hmem
  have hfifo := hlives.fifo halive'
  have hwhere : .shutdown ∈ c.queue ++ queued segment := by
    rw [hfifo]
    exact List.mem_append_right _ hmem
  rcases List.mem_append.mp hwhere with hbefore | hnow
  · exact hqueue halive hbefore
  · have htold := (mem_done hdone rfl).mp (hlives.told_shutdown hnow)
    cases deed_of_doneTo htold
    rw [not_alive_of_left (.inl rfl) hc halive hc'] at halive'
    exact Bool.false_ne_true halive'

theorem Owned.meet (h : d.Owned) (m : Moment) : (d.meet m).Owned := by
  by_cases hstart : ∃ launch, m = .act (.start launch)
  · obtain ⟨launch, rfl⟩ := hstart
    exact h.start launch
  have hnobody : ∀ launch, m ≠ .act (.start launch) := fun launch hm => hstart ⟨launch, hm⟩
  have hbook := (meet_books (d := d) m hnobody).book
  refine ⟨fun j c' hc' => ?_, fun r hr => ?_, fun j c' hc' r hr heq => ?_,
    fun j c' hc' halive => ?_⟩
  · obtain ⟨c, hc, hsame, _⟩ := earlier_of_meet hnobody hc'
    rw [hsame]
    exact Nat.lt_of_lt_of_le (h.issued j c hc) hbook.nextId_le
  · rcases hbook.mem_cases hr with hold | ⟨_, hnew⟩
    · exact Nat.lt_of_lt_of_le (h.booked r hold) hbook.nextId_le
    · exact hnew
  · obtain ⟨c, hc, hsame, _⟩ := earlier_of_meet hnobody hc'
    rw [hsame] at heq
    rcases hbook.mem_cases hr with hold | ⟨hnew, _⟩
    · exact h.own j c hc r hold heq
    · exact absurd (heq.symm.trans hnew) (Nat.ne_of_lt (h.issued j c hc))
  · obtain ⟨c, hc, _⟩ := earlier_of_meet hnobody hc'
    exact unstopped_meet hc (h.unstopped j c hc) hc' halive

theorem owned_follow (h : d.Owned) (moments : List Moment) : (d.follow moments).Owned := by
  induction moments generalizing d with
  | nil => exact h
  | cons m moments ih => exact ih (h.meet m)

/-- To strike the identity of a controller is to strike its own registration and no other. -/
theorem Owned.struck (h : d.Owned) {c : Controller} (hc : d.controllers[i]? = some c) :
    d.monitor.unregister c.registration = { d.monitor with
      registrations := d.monitor.registrations.filter (· != ⟨c.registration, i⟩) } := by
  unfold Monitor.unregister
  congr 1
  refine List.filter_congr fun r hr => ?_
  obtain ⟨id, sink⟩ := r
  have hown : id = c.registration → sink = i := h.own i c hc _ hr
  by_cases hid : id = c.registration
  · simp [hid, hown hid]
  · have hne : (⟨id, sink⟩ : Registration) ≠ ⟨c.registration, i⟩ :=
      fun heq => hid (congrArg Registration.id heq)
    rw [bne_iff_ne.mpr hid, bne_iff_ne.mpr hne]

/-- A change leaves those in the book whose sinks are open, and those are the ones it reaches. -/
theorem publish_change {valid : Bool} (hchange : d.monitor.published ≠ some valid) :
    (d.publish valid).1.monitor.registrations = d.monitor.registrations.filter (d.isOpen ·.sink)
      ∧ (d.publish valid).2 = (d.monitor.registrations.filter (d.isOpen ·.sink)).length := by
  have hpublished : ∀ monitor, d.Book (.act (.publish valid)) monitor →
      monitor = (d.monitor.publish d.isOpen valid).1 := by
    intro monitor hbook
    cases hbook with
    | kept m hm => exact absurd hm nofun
    | published valid => rfl
    | left m hm hc halive => rcases hm with hm | hm <;> exact absurd hm nofun
  have hreached : d.monitor.publish d.isOpen valid
      = ({ d.monitor with
          registrations := d.monitor.registrations.filter (d.isOpen ·.sink)
          published := some valid }, d.monitor.registrations.filter (d.isOpen ·.sink)) :=
    if_neg hchange
  have hmonitor := hpublished _ (publish_books valid).book
  refine ⟨?_, ?_⟩
  · rw [hmonitor, hreached]
  · rw [publish, hreached]

/-! ## What is left of a controller -/

/-- What is left of a controller that is gone is a closed sink, which the monitor forgets. -/
structure Gone (i : Nat) (d : Deployment) : Prop where
  closed : d.act (.sinkClosed i) = (d, .closed true)
  undeliverable : ∀ valid, d.act (.deliver i valid) = (d, .failed .stopped)
  unregistrable : d.act (.register i) = (d, .failed (.unregistered "sink already closed"))
  /-- A change forgets every registration of the sink and counts none. -/
  forgotten : ∀ valid, d.monitor.published ≠ some valid →
    let kept := d.monitor.registrations.filter fun r => r.sink != i && d.isOpen r.sink
    (d.act (.publish valid)).1.monitor.registrations = kept
      ∧ (d.act (.publish valid)).2 = .delivered kept.length

theorem gone_of_closed {c : Controller} (hc : d.controllers[i]? = some c)
    (hclosed : c.isOpen = false) : d.Gone i := by
  have hshut : d.isOpen i = false := by simp [isOpen, hc, hclosed]
  have hkept : d.monitor.registrations.filter (d.isOpen ·.sink)
      = d.monitor.registrations.filter fun r => r.sink != i && d.isOpen r.sink := by
    refine List.filter_congr fun r _ => ?_
    by_cases hsink : r.sink = i
    · simp [hsink, hshut]
    · simp [hsink]
  refine ⟨?_, fun valid => ?_, ?_, fun valid hchange => ?_⟩
  · simp [act, whenKnown, hc, hclosed]
  · simp [act, whenKnown, hc, hclosed]
  · simp [act, whenKnown, hc, Monitor.register, hshut]
  · rw [← hkept]
    obtain ⟨hregistrations, hcount⟩ := publish_change hchange
    exact ⟨hregistrations, congrArg Reply.delivered hcount⟩

/-- A controller turns to some work when its owner lets go of it, and that is all. -/
structure TornDown (d : Deployment) (i : Nat) (c : Controller) (m : Moment) (work : List Work)
    (after : List Moment) : Prop where
  /-- Its own registration leaves the book at once, and nothing else does. -/
  struck : (d.meet m).monitor = { d.monitor with
    registrations := d.monitor.registrations.filter (· != ⟨c.registration, i⟩) }
  /-- It turns to the work, and to nothing else whatever happens afterwards. -/
  worked : ∃ life, Lived i d (m :: after) life
    ∧ turns life = work.map (⟨·, d.now, d.readings, c.collaborators⟩)
  /-- What it has reported in the end is what it reported by then. -/
  silent : ∃ c', (d.follow (m :: after)).controllers[i]? = some c' ∧ c'.snapshot? = none
    ∧ (c'.machine, c'.journal)
      = c.machine.replay c.journal (work.map (⟨·, d.now, d.readings, c.collaborators⟩))
  gone : m = .act (.shutdown i) ∨ .settle ∈ after → (d.follow (m :: after)).Gone i

/-- A queue that has closed stays closed. -/
theorem closed_follow {c : Controller} (hc : d.controllers[i]? = some c)
    (hclosed : c.isOpen = false) (moments : List Moment) : (d.follow moments).Gone i := by
  obtain ⟨life, c', _, hc', hlives⟩ := exists_lives moments hc
  exact gone_of_closed hc' (hlives.tallies.shut hclosed).1

/-- A controller without an owner is gone once everything has happened that can. -/
theorem gone_follow {c : Controller} (hc : d.controllers[i]? = some c) (hdead : c.isAlive = false)
    {moments : List Moment} (hsettles : .settle ∈ moments) : (d.follow moments).Gone i := by
  obtain ⟨before, after, rfl⟩ := List.append_of_mem hsettles
  obtain ⟨life, c', _, hc', hlives⟩ := exists_lives before hc
  have hclosed := c'.isOpen_settle (d.follow before).readings (d.follow before).now
    (hlives.idle hdead).2
  have hsettled := scene?_settle (scene?_eq_some hc')
  rw [follow_append]
  exact closed_follow (d := (d.follow before).settle) (eq_of_scene? hsettled).1 hclosed after

/-- Whoever lets go of a controller is followed by nothing of its doing. -/
theorem tornDown_of_meet (hbook : d.Owned) {c : Controller} (hc : d.controllers[i]? = some c)
    {m : Moment} {work : List Work} {s : Scene} {segment : List Occurrence}
    (hmonitor : (d.meet m).monitor = d.monitor.unregister c.registration)
    (hs : (d.meet m).scene? i = some s) (hlives : Scene.Lives ⟨d.now, d.readings, c⟩ segment s)
    (hdone : segment.filter Occurrence.isDone = d.doneTo i c m)
    (hturns : turns segment = work.map (⟨·, d.now, d.readings, c.collaborators⟩))
    (hdead : s.controller.isAlive = false)
    (hstopped : m = .act (.shutdown i) → s.controller.isOpen = false) (after : List Moment) :
    TornDown d i c m work after := by
  have hscene := scene?_eq_some hc
  obtain ⟨life, hrest⟩ := exists_lived after hs
  obtain ⟨s', hs', hlater⟩ := hrest.lives hs
  obtain ⟨hidle, hdead'⟩ := hlater.idle hdead
  have hall : turns (segment ++ life) = work.map (⟨·, d.now, d.readings, c.collaborators⟩) := by
    rw [turns_append, hturns, hidle, List.append_nil]
  have hreplayed := (hlives.append hlater).tallies.replayed
  rw [hall] at hreplayed
  refine ⟨hmonitor.trans (hbook.struck hc), ⟨_, .cons hscene hs hlives hdone hrest, hall⟩,
    ⟨s'.controller, (eq_of_scene? hs').1, ?_, hreplayed⟩, fun hend => ?_⟩
  · simp [Controller.snapshot?, hdead']
  · rcases hend with hshutdown | hsettles
    · exact closed_follow (eq_of_scene? hs).1 (hstopped hshutdown) after
    · exact gone_follow (eq_of_scene? hs).1 hdead hsettles

theorem tornDown_shutdown (hbook : d.Owned) {c : Controller} (hc : d.controllers[i]? = some c)
    (halive : c.isAlive = true) (after : List Moment) :
    TornDown d i c (.act (.shutdown i)) c.remainingWork after := by
  obtain ⟨hlives, hstopped⟩ := c.shutdown_lives d.readings d.now halive
    (hbook.unstopped i c hc halive)
  have hmeet : d.meet (.act (.shutdown i)) = ({ d with
      monitor := d.monitor.unregister c.registration }.modify i (·.send .shutdown)).settle := by
    simp only [meet, act, whileAlive, hc, halive, if_true]
  have hs : (d.meet (.act (.shutdown i))).scene? i
      = some ⟨d.now, d.readings, (c.send .shutdown).settle d.readings d.now⟩ := by
    have hsent := scene?_modify i (·.send .shutdown)
      (d := { d with monitor := d.monitor.unregister c.registration }) (scene?_eq_some hc)
    rw [if_pos rfl] at hsent
    rw [hmeet]
    exact scene?_settle hsent
  have hdead := not_alive_of_left (.inl rfl) hc halive (eq_of_scene? hs).1
  refine tornDown_of_meet hbook hc (by rw [hmeet]; rfl) hs hlives ?_ ?_ hdead (fun _ => hstopped)
    after
  · rw [List.filter_cons_of_pos rfl, own_of_turned]
    simp [doneTo, halive]
  · rw [turns, List.filterMap_cons_none rfl]
    exact turns_turned _

theorem tornDown_abandon (hbook : d.Owned) {c : Controller} (hc : d.controllers[i]? = some c)
    (halive : c.isAlive = true) (after : List Moment) :
    TornDown d i c (.act (.abandon i)) [] after := by
  have hmeet : d.meet (.act (.abandon i)) = { d with
      monitor := d.monitor.unregister c.registration }.modify i (·.abandon) := by
    simp only [meet, act, whileAlive, hc, halive, if_true]
  have hs : (d.meet (.act (.abandon i))).scene? i = some ⟨d.now, d.readings, c.abandon⟩ := by
    have hleft := scene?_modify i (·.abandon)
      (d := { d with monitor := d.monitor.unregister c.registration }) (scene?_eq_some hc)
    rw [if_pos rfl] at hleft
    rw [hmeet]
    exact hleft
  have hdead := not_alive_of_left (.inr rfl) hc halive (eq_of_scene? hs).1
  refine tornDown_of_meet hbook hc (by rw [hmeet]; rfl) hs (.single .abandoned) ?_ rfl hdead
    (fun hshutdown => ?_) after
  · simp [doneTo, halive, Occurrence.isDone]
  · cases hshutdown

/--
**Teardown is exact and final.**

In every run, a controller that is shut down turns to what was queued before, in order, and stops;
one that is abandoned turns to nothing more. Its registration leaves the monitor at once, nothing is
heard of it afterwards, and its sink is closed for good.
-/
theorem teardown_exact_and_final {before : List Moment} {i : Nat} {c : Controller}
    (hc : (Deployment.empty.follow before).controllers[i]? = some c) (halive : c.isAlive = true)
    (after : List Moment) :
    TornDown (Deployment.empty.follow before) i c (.act (.shutdown i)) c.remainingWork after
      ∧ TornDown (Deployment.empty.follow before) i c (.act (.abandon i)) [] after :=
  have howned := owned_follow owned_empty before
  ⟨tornDown_shutdown howned hc halive after, tornDown_abandon howned hc halive after⟩

/-- A controller whose sink is registered twice has an action under way and a queue to work off. -/
def busy : List Moment :=
  [.act (.start (.complete .standard)), .act (.register 0),
    .act (.setActionTime 0 (3 * defaultDelay)), .act (.publish false), .settle,
    .act (.deliver 0 true), .act (.report 0 false)]

theorem teardown_exact_and_final_busy :
    ∃ c, (Deployment.empty.follow busy).controllers[0]? = some c
      ∧ c.queue = [.validation true, .validation false] ∧ c.running.length = 1
      ∧ c.machine.state.deadline = some defaultDelay
      ∧ TornDown (Deployment.empty.follow busy) 0 c (.act (.shutdown 0)) c.remainingWork
        [.act (.jump (3 * defaultDelay)), .settle, .act (.publish true), .settle]
      ∧ TornDown (Deployment.empty.follow busy) 0 c (.act (.abandon 0)) []
        [.act (.jump (3 * defaultDelay)), .settle, .act (.publish true), .settle] :=
  ⟨_, rfl, rfl, rfl, rfl, teardown_exact_and_final rfl rfl _⟩

end Deployment

end StallRecovery
