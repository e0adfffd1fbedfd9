import Mathlib.Data.List.SplitBy
import StallRecovery.Proofs.Causality
import StallRecovery.Proofs.Showing

/-!
# A simulation is a replay

Between a scenario and the machine a simulation puts a monitor that passes on changes only, a queue
and a controller that is woken by what falls due. None of it shows in the report: it is that of a
replay, which knows nothing but the machine.

A simulation plays step after step, and a replay instant after instant. At an instant the two do
not agree step by step, as the machine of the replay sees the radio as all the steps of the instant
leave it. They agree on what the controller will have come to when it has worked off its queue,
under whatever the radio will be by then; nothing is handled before time passes, so this is what a
step keeps. `Matches` says it of the deployment.

That nothing is handled before time passes is true of as many steps as fit into a turn. With more of
them at one instant the controller may decide between two of them, and the replay does not.
-/

namespace StallRecovery

/-! ## The instants of a scenario -/

/-- Lists of steps, each of one time, none before `t` and each later than the one before it. -/
inductive Apart : Nat → List (List Scenario.Step) → Prop where
  | nil (t : Nat) : Apart t []
  | cons {t time : Nat} {steps : List Scenario.Step} {later : List (List Scenario.Step)}
      (hsome : steps ≠ []) (hsame : ∀ s ∈ steps, s.atMs = time) (hle : t ≤ time)
      (rest : Apart (time + 1) later) : Apart t (steps :: later)

theorem atMs_of_chain {s : Scenario.Step} {steps : List Scenario.Step}
    (h : (s :: steps).IsChain fun a b => (a.atMs == b.atMs) = true) :
    ∀ s' ∈ s :: steps, s'.atMs = s.atMs := by
  induction steps generalizing s with
  | nil => exact fun s' hs' => by rw [List.mem_singleton.mp hs']
  | cons next rest ih =>
      obtain ⟨hfirst, hrest⟩ := List.isChain_cons_cons.mp h
      have hnext : s.atMs = next.atMs := by simpa using hfirst
      refine List.forall_mem_cons.mpr ⟨rfl, fun s' hs' => ?_⟩
      rw [hnext]
      exact ih hrest s' hs'

/-- Steps in order fall apart where their time changes. -/
theorem apart_of_sorted {groups : List (List Scenario.Step)} (hsome : [] ∉ groups)
    (hsame : ∀ g ∈ groups, g.IsChain fun a b => (a.atMs == b.atMs) = true)
    (hchange : groups.IsChain fun g g' =>
      ∃ hg hg', ((g.getLast hg).atMs == (g'.head hg').atMs) = false)
    (hsorted : groups.flatten.Pairwise (·.atMs ≤ ·.atMs)) {t : Nat}
    (hle : ∀ s ∈ groups.flatten, t ≤ s.atMs) : Apart t groups := by
  induction groups generalizing t with
  | nil => exact .nil t
  | cons g later ih =>
      obtain ⟨hgroup, hlater⟩ := List.forall_mem_cons.mp hsame
      cases g with
      | nil => exact absurd List.mem_cons_self hsome
      | cons s steps =>
          rw [List.flatten_cons] at hsorted hle
          obtain ⟨_, hrest, hacross⟩ := List.pairwise_append.mp hsorted
          have htime := atMs_of_chain hgroup
          refine .cons (List.cons_ne_nil s steps) htime
            (hle s (List.mem_append_left _ List.mem_cons_self)) (ih ?_ hlater ?_ hrest ?_)
          · exact fun hnil => hsome (List.mem_cons_of_mem _ hnil)
          · exact hchange.tail
          · -- the first of the later steps is later, and the others are not before it
            cases later with
            | nil => exact fun s' hs' => absurd hs' List.not_mem_nil
            | cons g' later =>
                obtain ⟨hg, hg', hne⟩ := (List.isChain_cons_cons.mp hchange).1
                cases g' with
                | nil => exact absurd rfl hg'
                | cons next steps' =>
                    have hlast := htime _ (List.getLast_mem hg)
                    have hnext : s.atMs ≤ next.atMs :=
                      hacross s List.mem_cons_self next (by simp)
                    have hchanged : s.atMs ≠ next.atMs := by
                      rw [hlast] at hne
                      simpa using hne
                    rw [List.flatten_cons, List.cons_append] at hrest ⊢
                    refine List.forall_mem_cons.mpr ⟨by omega, fun s' hs' => ?_⟩
                    have hafter := (List.pairwise_cons.mp hrest).1 s' hs'
                    omega

theorem apart_instants {scenario : Scenario} (haccepted : scenario.defect? = none) :
    Apart 0 scenario.instants := by
  have hchange := List.isChain_getLast_head_splitBy
    (fun a b : Scenario.Step => a.atMs == b.atMs) scenario.steps
  refine apart_of_sorted (List.nil_notMem_splitBy _ _) (fun g hg => List.isChain_of_mem_splitBy hg)
    hchange ?_ fun s _ => Nat.zero_le _
  rw [List.flatten_splitBy]
  exact Scenario.sorted_of_accepted haccepted

/-! ## Deployments of one controller -/

namespace Deployment

/-- The only controller, when it has worked off its queue under these readings, shows a replay. The
monitor knows it, and has published what was reported last. -/
structure Matches (readings : Readings) (r : Replay) (d : Deployment) : Prop where
  controller : ∃ c : Controller, d.controllers = [c] ∧ c.isAlive = true
    ∧ (c.workOff readings d.now).Shows r
  registered : ∃ id, d.monitor.registrations = [⟨id, 0⟩]
  published : d.monitor.published = r.reported

variable {d : Deployment} {r : Replay} {target : Nat}

theorem readings_sleepUntil (d : Deployment) (target : Nat) :
    (d.sleepUntil target).readings = d.readings := by
  unfold sleepUntil
  split <;> rfl

theorem Matches.tune {readings : Readings} (h : d.Matches readings r) (steps : List Scenario.Step) :
    d.Matches readings (r.tune steps) := by
  obtain ⟨⟨c, hc, halive, hshows⟩, hregistered, hpublished⟩ := h
  exact ⟨⟨c, hc, halive, hshows.tune steps⟩, hregistered, hpublished⟩

/-- What becomes of the only controller when it is asked for a snapshot and everything happens. -/
theorem controllers_asked {c : Controller} (hc : d.controllers = [c]) (halive : c.isAlive = true) :
    (d.follow [.ask 0, .settle]).controllers
      = [(c.send .snapshot).settle d.readings d.now] := by
  have hasked : d.meet (.ask 0) = d.modify 0 (·.send .snapshot) := by
    simp only [meet, whileAlive, hc, List.getElem?_cons_zero, halive, if_true]
  rw [follow_cons, hasked]
  refine controllers_settle (d := d.modify 0 (·.send .snapshot)) ?_
  rw [modify, hc]
  rfl

/-- A change that is published goes into the queue of the only controller. -/
theorem publish_single {c : Controller} {id : Nat} (hc : d.controllers = [c])
    (halive : c.isAlive = true) (hid : d.monitor.registrations = [⟨id, 0⟩]) {valid : Bool}
    (hchange : d.monitor.published ≠ some valid) :
    (d.publish valid).1 = { d with
      monitor := { d.monitor with published := some valid }
      controllers := [c.send (.validation valid)] } := by
  have hopen : d.isOpen 0 = true := by
    simp [isOpen, hc, Controller.isOpen_of_isAlive halive]
  have hreached : [(⟨id, 0⟩ : Registration)].filter (d.isOpen ·.sink) = [⟨id, 0⟩] := by
    simp [hopen]
  simp only [publish, Monitor.publish, if_neg hchange, hid, hreached, List.foldl_cons,
    List.foldl_nil, modify, hc, List.modify_zero_cons]

theorem publish_same {valid : Bool} (hsame : d.monitor.published = some valid) :
    (d.publish valid).1 = d := by
  simp only [publish, Monitor.publish, if_pos hsame, List.foldl_nil]

/-- What is published the controller is told, unless it is what was published last. -/
theorem Matches.publish (h : d.Matches r.readings r) (valid : Bool) :
    (d.publish valid).1.Matches r.readings (r.tell d.now valid)
      ∧ (d.publish valid).1.now = d.now ∧ (d.publish valid).1.readings = d.readings := by
  obtain ⟨c, hc, halive, hshows⟩ := h.controller
  obtain ⟨id, hid⟩ := h.registered
  by_cases hsame : d.monitor.published = some valid
  · rw [publish_same hsame, Replay.tell, if_pos (h.published ▸ hsame)]
    exact ⟨h, rfl, rfl⟩
  · rw [publish_single hc halive hid hsame, Replay.tell, if_neg (h.published ▸ hsame)]
    have hfed := hshows.feed d.now (.validation valid)
    refine ⟨⟨⟨_, rfl, ?_, ?_⟩, ⟨id, hid⟩, rfl⟩, rfl, rfl⟩
    · rw [Controller.send_of_open _ (Controller.isOpen_of_isAlive halive)]
      exact halive
    · rw [Controller.workOff_send _ _ halive hshows.alive]
      exact ⟨hfed.alive, hfed.announced, hfed.drained, hfed.plain, hfed.momentary, hfed.machine,
        hfed.dispatches, hfed.failures⟩

/-- Where time passes, the queue is worked off and the controller shows the replay at the end of it,
whatever the readings are then. -/
theorem Matches.sleepUntil (h : d.Matches r.readings r)
    (htuned : d.readings = r.readings) (hr : r.Timely d.now) (hlt : d.now < target)
    (readings : Readings) :
    (d.sleepUntil target).Matches readings (r.fireUntil target) := by
  obtain ⟨c, hc, halive, hshows⟩ := h.controller
  rw [sleepUntil_of_lt hlt, hc, htuned]
  have hslept : ((c.settle r.readings d.now).passTo r.readings target d.now).Shows
      (r.fireUntil target) := hshows.sleep halive hr hlt
  refine ⟨⟨_, rfl, hslept.alive, ?_⟩, h.registered, ?_⟩
  · rw [hslept.workOff]
    exact hslept
  · rw [(hr.fireUntil target).2.2]
    exact h.published

end Deployment

namespace Simulation

variable {settings : Settings} {scenario : Scenario} {sim : Simulation} {r : Replay}
  {steps : List Scenario.Step} {target : Nat}

/-! ## Steps of one instant -/

theorem readings_await (sim : Simulation) (target : Nat) :
    (sim.await target).deployment.readings = sim.deployment.readings := by
  unfold await
  split
  · exact sim.deployment.readings_sleepUntil target
  · split <;> rfl

/-- Nothing but the steps has been played between two simulations, and the second agrees with a
replay that the first one agrees with, once that has been told what they report. -/
structure Played (steps : List Scenario.Step) (r : Replay) (sim sim' : Simulation) : Prop where
  deployed : sim'.deployment.Matches (r.told sim.deployment.now steps).readings
    (r.told sim.deployment.now steps)
  now : sim'.deployment.now = sim.deployment.now
  radio : sim'.radio = steps.foldl Radio.apply sim.radio
  tuned : sim'.deployment.readings = sim'.radio.readings

theorem Played.trans {sim' sim'' : Simulation} {later : List Scenario.Step}
    (h : Played steps r sim sim')
    (h' : Played later (r.told sim.deployment.now steps) sim' sim'') :
    Played (steps ++ later) r sim sim'' := by
  refine ⟨?_, h'.now.trans h.now, ?_, h'.tuned⟩
  · rw [Replay.told_append]
    exact h.now ▸ h'.deployed
  · rw [List.foldl_append, ← h.radio, h'.radio]

theorem played_change (s : Scenario.Step) (h : sim.deployment.Matches r.readings r) :
    Played [s] r sim (sim.change s) := by
  have hset : Deployment.Matches r.readings r
      { sim.deployment with readings := (sim.radio.apply s).readings } :=
    ⟨h.controller, h.registered, h.published⟩
  obtain ⟨atMs, validation, signal, inCall, signalUnavailable⟩ := s
  cases validation with
  | none => exact ⟨hset, rfl, rfl, rfl⟩
  | some valid =>
      obtain ⟨hmatches, hclock, hreadings⟩ := hset.publish valid
      rw [← Replay.readings_eq (Replay.radio_tell _ r valid)] at hmatches
      exact ⟨hmatches, hclock, rfl, hreadings⟩

theorem waits_change (sim : Simulation) (s : Scenario.Step) : (sim.change s).waits = sim.waits := by
  unfold change
  cases s.validation <;> rfl

/-- A wait for an instant that has come, in a turn that goes on. -/
theorem await_of_le (hle : target ≤ sim.deployment.now) (hturn : sim.waits < turnLength) :
    sim.await target = { sim with waits := sim.waits + 1 } := by
  rw [await, if_neg (Nat.not_lt_of_le hle), if_pos hturn]

/-- The steps that follow another one in the same turn. -/
theorem played_turn (s : Scenario.Step)
    (hnow : ∀ s' ∈ steps, milliseconds s'.atMs = sim.deployment.now)
    (hturn : sim.waits + steps.length ≤ turnLength) (h : sim.deployment.Matches r.readings r) :
    Played (s :: steps) r sim (steps.foldl step (sim.change s)) := by
  induction steps generalizing sim r s with
  | nil => exact played_change s h
  | cons next rest ih =>
      obtain ⟨hfirst, hrest⟩ := List.forall_mem_cons.mp hnow
      rw [List.length_cons] at hturn
      have hchange := played_change s h
      have hwaits := sim.waits_change s
      let waited : Simulation := { sim.change s with waits := (sim.change s).waits + 1 }
      have hnext : (sim.change s).step next = waited.change next := by
        rw [step, await_of_le (Nat.le_of_eq (hfirst.trans hchange.now.symm)) (by omega)]
      have hturn' : waited.waits + rest.length ≤ turnLength := by
        simp only [waited]
        omega
      have hlater : Played (next :: rest) _ waited (rest.foldl step (waited.change next)) :=
        ih next (fun s' hs' => (hrest s' hs').trans hchange.now.symm) hturn' hchange.deployed
      rw [List.foldl_cons, hnext]
      exact hchange.trans ⟨hlater.deployed, hlater.now, hlater.radio, hlater.tuned⟩

/-! ## From instant to instant -/

/-- A simulation agrees with a replay. -/
structure Follows (r : Replay) (sim : Simulation) : Prop where
  radio : sim.radio = r.radio
  tuned : sim.deployment.readings = sim.radio.readings
  deployed : sim.deployment.Matches r.readings r
  timely : r.Timely sim.deployment.now

/-- Taken to an instant, a simulation begins a turn there, and agrees with the replay that has come
there, whatever the radio will be. -/
structure Arrives (r : Replay) (target : Nat) (sim : Simulation) : Prop where
  now : (sim.await target).deployment.now = target
  deployed : ∀ readings, (sim.await target).deployment.Matches readings (r.fireUntil target)
  waits : (sim.await target).waits = 1

theorem Follows.readings (h : sim.Follows r) : sim.deployment.readings = r.readings :=
  h.tuned.trans ((congrArg Radio.readings h.radio).trans r.readings_radio)

theorem Follows.arrives (h : sim.Follows r) (hlt : sim.deployment.now < target) :
    sim.Arrives r target where
  now := by rw [now_await, Nat.max_eq_right (Nat.le_of_lt hlt)]
  deployed readings := by
    rw [await, if_pos hlt]
    exact h.deployed.sleepUntil h.readings h.timely hlt readings
  waits := by rw [await, if_pos hlt]

/-- **What a simulation does at an instant, the replay does.** -/
theorem follows_instant (hsome : steps ≠ []) (hsame : ∀ s ∈ steps, milliseconds s.atMs = target)
    (hturn : steps.length ≤ turnLength) (h : sim.Follows r) (harrives : sim.Arrives r target) :
    (steps.foldl step sim).Follows (r.instant steps)
      ∧ (steps.foldl step sim).deployment.now = target := by
  cases steps with
  | nil => exact absurd rfl hsome
  | cons s rest =>
      obtain ⟨hfirst, hrest⟩ := List.forall_mem_cons.mp hsame
      rw [List.length_cons] at hturn
      let arrived := (r.fireUntil target).tune (s :: rest)
      have hmatches := (harrives.deployed arrived.readings).tune (s :: rest)
      have hplayed := played_turn s (fun s' hs' => (hrest s' hs').trans harrives.now.symm)
        (by rw [harrives.waits]; omega) hmatches
      have hsteps : (s :: rest).foldl step sim
          = rest.foldl step ((sim.await target).change s) := by
        rw [List.foldl_cons, step, hfirst]
      have hinstant : r.instant (s :: rest) = arrived.told target (s :: rest) := by
        rw [Replay.instant, hfirst, Replay.told]
      obtain ⟨htimely, hradio, _⟩ := h.timely.fireUntil target
      have hdeployed := hplayed.deployed
      rw [harrives.now] at hdeployed
      rw [hsteps, hinstant]
      refine ⟨⟨?_, hplayed.tuned, hdeployed, ?_⟩, hplayed.now.trans harrives.now⟩
      · rw [hplayed.radio, radio_await, h.radio, Replay.radio_told, Replay.radio_tune, hradio]
      · rw [hplayed.now, harrives.now]
        exact (htimely.tune _).told _

theorem follows_instants {t : Nat} {groups : List (List Scenario.Step)} (hgroups : Apart t groups)
    (hturns : ∀ steps ∈ groups, steps.length ≤ turnLength) (h : sim.Follows r)
    (harrives : ∀ time, t ≤ time → sim.Arrives r (milliseconds time)) :
    (groups.flatten.foldl step sim).Follows (groups.foldl Replay.instant r) := by
  induction hgroups generalizing sim r with
  | nil t => exact h
  | cons hsome hsame hle rest ih =>
      rename_i t time steps later
      obtain ⟨hturn, hrest⟩ := List.forall_mem_cons.mp hturns
      obtain ⟨hfollows, hnow⟩ := follows_instant hsome
        (fun s hs => congrArg milliseconds (hsame s hs)) hturn h (harrives time hle)
      rw [List.flatten_cons, List.foldl_append, List.foldl_cons]
      refine ih hrest hfollows fun time' hlater => hfollows.arrives ?_
      rw [hnow]
      exact Nat.mul_lt_mul_of_pos_right hlater (by decide)

/-! ## From the start to the end -/

theorem timely_start (htimed : settings.Timed) (signal : UInt8) :
    (Replay.start settings signal).Timely 0 := by
  have hmachine : (Replay.start settings signal).machine = .start settings.toPolicy := by
    unfold Replay.start
    cases settings.toPolicy <;> rfl
  have hcoherent : Coherent (Replay.start settings signal).machine := by
    rw [hmachine]
    exact coherent_reachable (reachable_start _)
  refine ⟨hcoherent, fun p hp _ a _ => ?_, fun d _ => Nat.zero_le d⟩
  rw [hmachine] at hp
  cases hpolicy : settings.toPolicy with
  | error fault =>
      rw [hpolicy] at hp
      exact absurd hp nofun
  | ok q =>
      rw [hpolicy] at hp
      cases hp
      exact htimed p hpolicy a

/-- A new controller shows a replay that starts, once it has said what was refused. -/
theorem shows_new (settings : Settings) (signal : UInt8) (readings : Readings) :
    ((Controller.new settings.toPolicy 1 {}).workOff readings 0).Shows
      (.start settings signal) := by
  unfold Replay.start
  cases settings.toPolicy with
  | ok p => exact ⟨rfl, rfl, rfl, rfl, nofun, rfl, rfl, rfl⟩
  | error fault => exact ⟨rfl, rfl, rfl, rfl, nofun, rfl, rfl, rfl⟩

theorem matches_start (settings : Settings) (signal : UInt8) (readings : Readings) :
    (start settings signal).deployment.Matches readings (.start settings signal) := by
  refine ⟨⟨_, rfl, rfl, shows_new settings signal readings⟩, ⟨1, rfl⟩, ?_⟩
  unfold Replay.start
  cases settings.toPolicy <;> rfl

theorem follows_start (htimed : settings.Timed) (signal : UInt8) :
    (start settings signal).Follows (.start settings signal) := by
  refine ⟨?_, rfl, matches_start settings signal _, timely_start htimed signal⟩
  unfold Replay.start
  cases settings.toPolicy <;> rfl

theorem arrives_start (htimed : settings.Timed) (signal : UInt8) (target : Nat) :
    (start settings signal).Arrives (.start settings signal) target := by
  rcases Nat.eq_zero_or_pos target with rfl | hpos
  · have hwaited : (start settings signal).await 0 = { start settings signal with waits := 1 } :=
      await_of_le (Nat.zero_le _) (Nat.zero_lt_succ 127)
    refine ⟨by rw [hwaited]; rfl, fun readings => ?_, by rw [hwaited]⟩
    rw [hwaited, (timely_start htimed signal).fireUntil_self]
    exact matches_start settings signal readings
  · exact (follows_start htimed signal).arrives hpos

theorem follows_steps (htimed : settings.Timed) (haccepted : scenario.defect? = none)
    (hturns : ∀ steps ∈ scenario.instants, steps.length ≤ turnLength) :
    (scenario.steps.foldl step (start settings scenario.initialSignal)).Follows
      (scenario.instants.foldl Replay.instant (.start settings scenario.initialSignal)) := by
  have hplayed := follows_instants (apart_instants haccepted) hturns
    (follows_start htimed scenario.initialSignal)
    fun time _ => arrives_start htimed scenario.initialSignal (milliseconds time)
  rw [Scenario.instants, List.flatten_splitBy] at hplayed
  exact hplayed

/-- A turn of the controller that finds nothing due leaves it showing the same. -/
theorem matches_awaited (h : sim.Follows r) (hle : target ≤ sim.deployment.now)
    (hnot : r.machine.state.deadline ≠ some sim.deployment.now) :
    (sim.await target).deployment.Matches r.readings r := by
  obtain ⟨c, hc, halive, hshows⟩ := h.deployed.controller
  obtain ⟨hsettled, _⟩ := hshows.settle halive h.timely
  rw [(h.timely.later hnot).fireUntil_self] at hsettled
  rw [await, if_neg (Nat.not_lt_of_le hle)]
  split
  · exact h.deployed
  · refine ⟨⟨_, Deployment.controllers_settle hc, ?_⟩, h.deployed.registered,
      h.deployed.published⟩
    rw [h.readings]
    refine ⟨hsettled.alive, ?_⟩
    rw [hsettled.workOff]
    exact hsettled

/-- A simulation that has come to its end, before anything happens then, agrees with the replay. -/
theorem follows_atEnd (htimed : settings.Timed) (haccepted : scenario.defect? = none)
    (hturns : ∀ steps ∈ scenario.instants, steps.length ≤ turnLength)
    (hend : (scenario.replay settings).machine.state.deadline
      ≠ some (milliseconds scenario.endMs)) :
    (atEnd settings scenario).Matches (scenario.replay settings).readings
        (scenario.replay settings)
      ∧ (atEnd settings scenario).readings = (scenario.replay settings).readings
      ∧ (scenario.replay settings).Timely (milliseconds scenario.endMs) := by
  have h := follows_steps htimed haccepted hturns
  obtain ⟨htimely, hradio, _⟩ := h.timely.fireUntil (milliseconds scenario.endMs)
  have hreadings : (atEnd settings scenario).readings
      = (scenario.replay settings).readings := by
    rw [Scenario.replay, Replay.readings_eq hradio, ← h.readings, atEnd, arrived,
      readings_await]
  refine ⟨?_, hreadings, htimely⟩
  have hnow := now_atEnd settings haccepted
  rw [atEnd, arrived, now_await] at hnow
  rcases Nat.lt_or_ge (scenario.steps.foldl step
    (start settings scenario.initialSignal)).deployment.now (milliseconds scenario.endMs)
    with hlt | hge
  · rw [atEnd, arrived, Scenario.replay]
    exact (h.arrives hlt).deployed _
  · have heq := (Nat.max_eq_left hge).symm.trans hnow
    have hreplay : scenario.replay settings
        = scenario.instants.foldl Replay.instant (.start settings scenario.initialSignal) := by
      rw [Scenario.replay, ← heq]
      exact h.timely.fireUntil_self
    rw [hreplay, ← heq] at hend
    rw [hreplay, atEnd, arrived]
    exact matches_awaited h hge hend

/-- A controller that is asked for a snapshot where nothing is due shows the replay's state, and has
started and surfaced what the replay has noted. -/
theorem shows_asked {c c' : Controller} {now : Nat} (halive : c.isAlive = true)
    (h : (c.workOff r.readings now).Shows r) (hr : r.Timely now)
    (hnot : r.machine.state.deadline ≠ some now)
    (hc' : c' = (c.send .snapshot).settle r.readings now) :
    c'.journal.dispatched.toList = r.dispatches ∧ c'.journal.failures.toList = r.failures
      ∧ (report c').final = r.machine.snapshot := by
  have hlater := hr.later hnot
  have halive' : (c.send .snapshot).isAlive = true := by
    rw [Controller.send_of_open _ (Controller.isOpen_of_isAlive halive)]
    exact halive
  have hasked : ((c.workOff r.readings now).handle r.readings now .snapshot).Shows r :=
    ⟨h.alive, h.announced, h.drained, h.plain, h.momentary, h.machine, h.dispatches, h.failures⟩
  have hfired := (hasked.fireThrough hr).1
  rw [hlater.fireUntil_self] at hfired
  have hshown := (Controller.fireThrough_of_not_due r.readings now fun d hd =>
    hlater.ahead d (hasked.machine ▸ hd)).snapshots
  rw [Controller.settle, Controller.settleThrough_of_alive _ _ halive',
    Controller.workOff_send _ _ halive h.alive, if_pos hasked.alive] at hc'
  subst hc'
  refine ⟨hfired.dispatches, hfired.failures, ?_⟩
  rw [report, hshown]
  simp [Controller.handle, h.machine]

/--
**A simulation is a replay.**

Where waits take time, an accepted scenario whose steps of one time fit into a turn is reported as
its replay comes out: the actions with their instants, the failures and the state at the end. A
re-check may fall due at the time of a step; only at the very end of the run, where the state is
shown before that is looked at, none may.
-/
theorem run_eq_replay (htimed : settings.Timed) (haccepted : scenario.defect? = none)
    (hturns : ∀ steps ∈ scenario.instants, steps.length ≤ turnLength)
    (hend : (scenario.replay settings).machine.state.deadline
      ≠ some (milliseconds scenario.endMs)) :
    run settings scenario = (scenario.replay settings).toReport := by
  obtain ⟨hmatches, hreadings, htimely⟩ := follows_atEnd htimed haccepted hturns hend
  obtain ⟨c₀, hc₀, halive, hshows⟩ := hmatches.controller
  have hnow := now_atEnd settings haccepted
  obtain ⟨_, s, _, _, _, hperformed, _⟩ := exists_performed settings scenario
  obtain ⟨hc, _⟩ := Deployment.eq_of_scene? hperformed.met
  rw [follow_atEnd, Deployment.controllers_asked hc₀ halive, List.getElem?_cons_zero,
    Option.some.injEq, hreadings, hnow] at hc
  rw [hnow] at hshows
  obtain ⟨hdispatches, hfailures, hfinal⟩ := shows_asked halive hshows htimely hend hc.symm
  rw [Replay.toReport]
  refine report_eq (hperformed.dispatches.trans hdispatches) ?_ ?_
  · rw [hperformed.reported]
    exact hfailures
  · rw [hperformed.reported]
    exact hfinal

/-- The network stalls. After four minutes it is reported valid and then not valid again at the same
time, and a call begins. -/
def flapping : Scenario where
  initialSignal := 4
  runForMs := 600000
  steps := [⟨0, some false, none, none, none⟩, ⟨240000, some true, none, none, none⟩,
    ⟨240000, some false, none, some true, none⟩]

/-- The second stall finds the call that begins with it, so it is held until the end. -/
theorem run_eq_replay_flapping : Settings.standard.Timed ∧ flapping.defect? = none
    ∧ (∀ steps ∈ flapping.instants, steps.length ≤ turnLength)
    ∧ (flapping.replay .standard).machine.state.deadline = some (milliseconds 960000)
    ∧ run .standard flapping = (flapping.replay .standard).toReport
    ∧ (flapping.replay .standard).toReport.dispatches
      = [(0, .reestablishInternet), (milliseconds 180000, .radioPowerCycle)] := by
  have hturns : ∀ steps ∈ flapping.instants, steps.length ≤ turnLength := by decide +kernel
  have hlast : (flapping.replay .standard).machine.state.deadline
      = some (milliseconds 960000) := by decide +kernel
  have hend : (flapping.replay .standard).machine.state.deadline
      ≠ some (milliseconds flapping.endMs) := by
    rw [hlast]
    decide
  exact ⟨timed_standard, rfl, hturns, hlast, run_eq_replay timed_standard rfl hturns hend,
    by decide +kernel⟩

/-! ## More steps than fit into a turn -/

/-- In a replay of the scenario no re-check falls due at the time of a step or at the end. -/
def Untied (settings : Settings) (scenario : Scenario) : Prop :=
  (∀ before steps after, scenario.instants = before ++ steps :: after → ∀ s ∈ steps,
    ((before.foldl Replay.instant (.start settings scenario.initialSignal)).fireUntil
      (milliseconds s.atMs)).machine.state.deadline ≠ some (milliseconds s.atMs))
    ∧ (scenario.replay settings).machine.state.deadline ≠ some (milliseconds scenario.endMs)

/-- The network stalls and the signal is lost at the same time, but many steps that change nothing
lie between the two. -/
def crowded : Scenario where
  initialSignal := 4
  runForMs := 600000
  steps := ⟨1000, some false, none, none, none⟩
    :: (List.replicate 198 ⟨1000, none, some 4, none, none⟩ ++ [⟨1000, none, some 0, none, none⟩])

theorem instants_crowded : crowded.instants = [crowded.steps] := by decide +kernel

theorem untied_crowded : Untied .standard crowded := by
  refine ⟨fun before steps after hinstants s hs => ?_, by decide +kernel⟩
  rw [instants_crowded] at hinstants
  rcases List.append_eq_singleton_iff.mp hinstants.symm with ⟨rfl, hsteps⟩ | ⟨_, hsteps⟩
  · have htime : ∀ s ∈ crowded.steps, s.atMs = 1000 := by decide +kernel
    rw [htime s (List.head_eq_of_cons_eq hsteps ▸ hs)]
    decide +kernel
  · exact absurd hsteps (List.cons_ne_nil _ _)

/-- With very many steps at a time the controller has its turn before the last of them, and decides
what is not decided where all of them come first. -/
theorem not_every_run_is_its_replay :
    ¬ ∀ (settings : Settings) (scenario : Scenario), settings.Timed → scenario.defect? = none →
      Untied settings scenario → run settings scenario = (scenario.replay settings).toReport := by
  intro hsame
  have hrun := hsame .standard crowded timed_standard (by decide +kernel) untied_crowded
  have hstarted : (run .standard crowded).dispatches
      = [(milliseconds 1000, .reestablishInternet)] := by decide +kernel
  have hnothing : (crowded.replay .standard).toReport.dispatches = [] := by decide +kernel
  rw [hrun, hnothing] at hstarted
  exact absurd hstarted.symm (List.cons_ne_nil _ _)

end Simulation

end StallRecovery
