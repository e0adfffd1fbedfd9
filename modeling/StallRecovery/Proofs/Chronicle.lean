import StallRecovery.Proofs.Coherence

/-!
# The events of a run tell its state

What a machine reports is all that an observer learns of it. This module says that it is enough: the
log of a run, read from its beginning, gives back the step, the start of the episode and the instant
of the last dispatch, at every moment between two inputs.

`Standing` is what a reader knows at a point of a log, and `Standing.next` how one more entry
changes it. The reading agrees with the machine (`standing_log`), and every entry fits what was read
before it (`faithful_log`): episodes open and close in turn, holds and resets name the current step,
and a reset gives the length of the episode it ends.

Both are facts about single inputs, carried through the run by `throughout_log`. Later modules use
it with properties of their own, and then argue about logs alone.
-/

namespace StallRecovery

namespace Event

/-- Something that went wrong around recovery, rather than a part of an episode. -/
def isNote : Event → Bool
  | .dispatchFailed _ _ => true
  | .configRejected _ => true
  | _ => false

/-- Something that happens within an episode. -/
def isProgress : Event → Bool
  | .held _ _ => true
  | .actionDispatched _ => true
  | _ => false

/-- The action handed over, if the event is that. -/
def dispatched? : Event → Option Action
  | .actionDispatched a => some a
  | _ => none

end Event

/-- A reported event, with the instant of the input it answers and the policy in force then. -/
structure Entry where
  time : Nat
  policy : Option Policy
  event : Event
deriving DecidableEq

namespace Machine

/-- What the machine reports of an outcome. -/
def entries (m : Machine) (x : Stimulus) (out : Outcome) : List Entry :=
  out.events.map fun e => ⟨x.now, m.policy, e⟩

/-- Everything reported by a run, in order. -/
def log (m : Machine) : List Stimulus → List Entry
  | [] => []
  | x :: xs => m.entries x (m.step x).2 ++ (m.step x).1.log xs

theorem entries_events (m : Machine) (x : Stimulus) (out : Outcome) :
    (m.entries x out).map (·.event) = out.events := by
  unfold entries
  rw [List.map_map]
  exact List.map_id _

/-- A log is what the outcomes of the run report, one after the other. -/
theorem log_events (m : Machine) (xs : List Stimulus) :
    (m.log xs).map (·.event) = (m.run xs).2.flatMap (·.events) := by
  induction xs generalizing m with
  | nil => rfl
  | cons x xs ih => simp [log, run, entries_events, ih]

end Machine

/-! ## Reading a log -/

/-- What a reader of a log knows at some point of it. -/
structure Standing where
  /-- When the open episode began. -/
  began : Option Nat
  /-- The policy it began under. -/
  policy : Option Policy
  /-- The last action dispatched in it. -/
  action : Action
  /-- When that was. -/
  actedAt : Option Nat
deriving DecidableEq

namespace Standing

/-- No episode is open. -/
def closed : Standing := ⟨none, none, .baseline, none⟩

/-- What is known after one more entry. -/
def next (st : Standing) (e : Entry) : Standing :=
  match e.event with
  | .episodeStarted => ⟨some e.time, e.policy, .baseline, none⟩
  | .actionDispatched a => { st with action := a, actedAt := some e.time }
  | .reset _ _ _ _ => closed
  | .held _ _ => st
  | .dispatchFailed _ _ => st
  | .configRejected _ => st

/-- What is known after a log that is read from its beginning. -/
def of (log : List Entry) : Standing := log.foldl next closed

end Standing

/-- What a reader who has followed the machine knows of it. -/
def Machine.standing (m : Machine) : Standing where
  began := m.state.episodeStarted
  policy := m.state.episodeStarted.bind fun _ => m.policy
  action := m.state.action
  actedAt := m.state.lastActionAt

/-- A property of entries, each taken with what is known before it, along a whole log. -/
def Throughout (P : Standing → Entry → Prop) : Standing → List Entry → Prop
  | _, [] => True
  | st, e :: es => P st e ∧ Throughout P (st.next e) es

section Throughout

variable {P : Standing → Entry → Prop}

theorem throughout_append {st : Standing} {es fs : List Entry} :
    Throughout P st (es ++ fs)
      ↔ Throughout P st es ∧ Throughout P (es.foldl Standing.next st) fs := by
  induction es generalizing st with
  | nil => simp [Throughout]
  | cons e es ih => simp [Throughout, ih, and_assoc]

/-- The property holds of every entry, wherever the log is cut. -/
theorem Throughout.entry {st : Standing} {before after : List Entry} {e : Entry}
    (h : Throughout P st (before ++ e :: after)) : P (before.foldl Standing.next st) e :=
  (throughout_append.mp h).2.1

theorem throughout_of_forall {st : Standing} {es : List Entry}
    (h : ∀ st, ∀ e ∈ es, P st e) : Throughout P st es := by
  induction es generalizing st with
  | nil => trivial
  | cons e es ih =>
      exact ⟨h st e List.mem_cons_self, ih (fun st e' he' => h st e' (List.mem_cons_of_mem e he'))⟩

end Throughout

/-! ## The reader keeps up with the machine -/

section

variable {m m' : Machine} {x : Stimulus} {out : Outcome}

/-- What is known once the episode has been opened, if it was not open before. -/
theorem standing_opening (h : Coherent m) {s : State}
    (he : s.episodeStarted = m.state.episodeStarted) :
    (m.entries x { events := s.opening }).foldl Standing.next m.standing
      = ⟨some (s.episodeStarted.getD x.now), m.policy, m.state.action, m.state.lastActionAt⟩ := by
  unfold Machine.entries State.opening Machine.standing
  rw [he]
  cases hopen : m.state.episodeStarted with
  | some t => rfl
  | none =>
      -- the start of an episode forgets the last step, and there was none
      obtain ⟨ha, hl⟩ := h.untried hopen
      simp [Standing.next, ha, hl]

/-- What is known once the episode has been closed, if one was open. -/
theorem standing_closing (h : Coherent m) (reason : ResetReason) :
    (m.entries x { events := m.state.closing reason x.now }).foldl Standing.next m.standing
      = .closed := by
  unfold Machine.entries State.closing
  cases hi : m.state.isIdle with
  | false => rfl
  | true =>
      have hopen := h.isIdle_iff.mp hi
      obtain ⟨ha, hl⟩ := h.untried hopen
      simp [Machine.standing, Standing.closed, hopen, ha, hl]

theorem entries_append (es : List Event) (e : Event) (dispatch : Option Action)
    (asked : List Source) :
    m.entries x { dispatch, events := es ++ [e], asked }
      = m.entries x { events := es } ++ [⟨x.now, m.policy, e⟩] := by
  simp [Machine.entries]

/-- A machine that has left a decision is known from what was reported of it. -/
theorem standing_decision {p : Policy} {trigger : Trigger} {s s' : State} (h : Coherent m)
    (hask : Asks m x trigger s) (hp : m.policy = some p)
    (hdec : Decision p trigger x.now x.readings s s' out) :
    (m.entries x out).foldl Standing.next m.standing = Machine.standing ⟨some p, s'⟩ := by
  obtain ⟨haction, hepisode, hlast⟩ := hask.kept
  cases hdec with
  | quiet level hweak hidle =>
      obtain ⟨ha, he⟩ := State.isIdle_iff.mp hidle
      simp [Machine.entries, Machine.standing, he, haction, hlast, ← hepisode]
  | ended level hweak hbusy =>
      rw [entries_append, List.foldl_append]
      rfl
  | held reason hhold =>
      rw [entries_append, List.foldl_append, standing_opening h hepisode, hp, ← haction, ← hlast]
      rfl
  | waited hproceed hstep hreport hearly =>
      have hopening := standing_opening (x := x) h hepisode
      rw [hp, ← haction, ← hlast] at hopening
      exact hopening
  | escalated hproceed hdue =>
      rw [entries_append, List.foldl_append, standing_opening h hepisode, hp, ← haction, ← hlast]
      rfl

/-- **Whatever an input does, the reader who knew the machine before knows it afterwards.** -/
theorem standing_move (h : Coherent m) (hmove : Move m x m' out) :
    (m.entries x out).foldl Standing.next m.standing = m'.standing := by
  cases hmove with
  | refused f hin => rfl
  | failed a f hin => rfl
  | early hin hnot => rfl
  | inert trigger s hask hnone =>
      obtain ⟨haction, hepisode, hlast⟩ := hask.kept
      simp [Machine.entries, Machine.standing, haction, hepisode, hlast]
  | decided p trigger s s' out hask hp hactive hdec => exact standing_decision h hask hp hdec
  | recovered hin => exact standing_closing h .recovered
  | replaced p hin => exact standing_closing h .reconfigured

end

/-- **The log of a run gives back the standing of the machine it leads to.** -/
theorem standing_log {m : Machine} (h : Coherent m) (xs : List Stimulus) :
    (m.log xs).foldl Standing.next m.standing = (m.run xs).1.standing := by
  induction xs generalizing m with
  | nil => rfl
  | cons x xs ih =>
      have hmove := move_step h x
      simp only [Machine.log, Machine.run, List.foldl_append]
      rw [standing_move h hmove]
      exact ih (coherent_move h hmove)

theorem standing_start (initial : Except Fault Policy) :
    (Machine.start initial).standing = .closed := by
  cases initial with
  | ok p => rfl
  | error f => rfl

/-- What every input keeps to along its entries, a run keeps to along its log. -/
theorem throughout_log {P : Standing → Entry → Prop}
    (hstep : ∀ {m m' : Machine} {x : Stimulus} {out : Outcome}, m.Reachable → Move m x m' out →
      Throughout P m.standing (m.entries x out))
    (initial : Except Fault Policy) (xs : List Stimulus) :
    Throughout P .closed ((Machine.start initial).log xs) := by
  -- the machine varies along the run, and what is known before its next entry varies with it
  have hrun : ∀ m : Machine, m.Reachable → Throughout P m.standing (m.log xs) := by
    induction xs with
    | nil => exact fun _ _ => trivial
    | cons x xs ih =>
        intro m h
        have hmove := move_step (coherent_reachable h) x
        simp only [Machine.log]
        rw [throughout_append, standing_move (coherent_reachable h) hmove]
        exact ⟨hstep h hmove, ih _ (h.step x)⟩
  rw [← standing_start initial]
  exact hrun _ (reachable_start initial)

/-! ## Every entry fits what was reported before it -/

/-- An entry fits what is known before it: within an episode the policy stays; an episode begins
when none is open, under a policy that can act; holds, dispatches and resets belong to an open one;
a hold and a reset name the current step; and a reset gives the length of the episode, and a signal
exactly if the signal forced it. -/
def Faithful (st : Standing) (e : Entry) : Prop :=
  (st.began.isSome = true → e.policy = st.policy)
    ∧ match e.event with
      | .episodeStarted =>
          st.began = none ∧ ∃ p, e.policy = some p ∧ p.isActive = true
      | .held a _ => st.began.isSome = true ∧ a = st.action
      | .actionDispatched _ => st.began.isSome = true
      | .reset source reason episode signal =>
          source = st.action
            ∧ (∃ t, st.began = some t ∧ episode = some (e.time - t))
            ∧ (signal.isSome = true ↔ reason = .weakSignal)
      | .dispatchFailed _ _ => True
      | .configRejected _ => True

section

variable {m m' : Machine} {x : Stimulus} {out : Outcome}

/-- The policy of a machine is the one its open episode began under. -/
theorem policy_standing (m : Machine) (h : m.standing.began.isSome = true) :
    m.policy = m.standing.policy := by
  obtain ⟨t, ht⟩ := Option.isSome_iff_exists.mp h
  have hopen : m.state.episodeStarted = some t := ht
  simp [Machine.standing, hopen]

theorem faithful_opening {p : Policy} {s : State} (hp : m.policy = some p)
    (hactive : p.isActive = true) (he : s.episodeStarted = m.state.episodeStarted) :
    Throughout Faithful m.standing (m.entries x { events := s.opening }) := by
  unfold Machine.entries State.opening
  rw [he]
  cases hopen : m.state.episodeStarted with
  | some t => trivial
  | none => exact ⟨⟨policy_standing m, hopen, p, hp, hactive⟩, trivial⟩

theorem faithful_closing (h : Coherent m) {reason : ResetReason} (hreason : reason ≠ .weakSignal) :
    Throughout Faithful m.standing
      (m.entries x { events := m.state.closing reason x.now }) := by
  unfold Machine.entries State.closing
  cases hi : m.state.isIdle with
  | true => trivial
  | false =>
      obtain ⟨t, ht⟩ := h.open_of_busy hi
      refine ⟨⟨policy_standing m, rfl, ⟨t, ht, ?_⟩, ?_⟩, trivial⟩
      · simp [ht]
      · simp [hreason]

theorem faithful_decision {p : Policy} {trigger : Trigger} {s s' : State} (h : Coherent m)
    (hask : Asks m x trigger s) (hp : m.policy = some p) (hactive : p.isActive = true)
    (hdec : Decision p trigger x.now x.readings s s' out) :
    Throughout Faithful m.standing (m.entries x out) := by
  obtain ⟨haction, hepisode, hlast⟩ := hask.kept
  have hopening := faithful_opening (x := x) hp hactive hepisode
  cases hdec with
  | quiet level hweak hidle => trivial
  | ended level hweak hbusy =>
      -- only an open episode is ended, so nothing is opened first
      have hbusy' : m.state.isIdle = false := by
        rw [← hbusy]
        unfold State.isIdle
        rw [haction, hepisode]
      obtain ⟨t, ht⟩ := h.open_of_busy hbusy'
      rw [← hepisode] at ht
      rw [State.opening_of_open (by simp [ht]), ht]
      refine ⟨⟨policy_standing m, haction, ⟨t, hepisode.symm.trans ht, rfl⟩, by simp⟩, trivial⟩
  | held reason hhold =>
      rw [entries_append, throughout_append, standing_opening h hepisode]
      exact ⟨hopening, ⟨fun _ => rfl, rfl, haction⟩, trivial⟩
  | waited hproceed hstep hreport hearly => exact hopening
  | escalated hproceed hdue =>
      rw [entries_append, throughout_append, standing_opening h hepisode]
      exact ⟨hopening, ⟨fun _ => rfl, rfl⟩, trivial⟩

/-- **What an input makes the machine report fits.** -/
theorem faithful_move (h : Coherent m) (hmove : Move m x m' out) :
    Throughout Faithful m.standing (m.entries x out) := by
  cases hmove with
  | refused f hin => exact ⟨⟨policy_standing m, trivial⟩, trivial⟩
  | failed a f hin => exact ⟨⟨policy_standing m, trivial⟩, trivial⟩
  | early hin hnot => trivial
  | inert trigger s hask hnone => trivial
  | decided p trigger s s' out hask hp hactive hdec =>
      exact faithful_decision h hask hp hactive hdec
  | recovered hin => exact faithful_closing h (by decide)
  | replaced p hin => exact faithful_closing h (by decide)

end

/-- **Every entry of a log fits what was reported before it.** -/
theorem faithful_log (initial : Except Fault Policy) (xs : List Stimulus) :
    Throughout Faithful .closed ((Machine.start initial).log xs) :=
  throughout_log (fun hm hmove => faithful_move (coherent_reachable hm) hmove) initial xs

/-! ## Episodes come one after the other -/

/-- What is reported of a whole episode: its start, then holds and dispatches, then its reset. -/
def IsEpisode (w : List Event) : Prop :=
  ∃ body last, w = .episodeStarted :: (body ++ [last])
    ∧ (∀ e ∈ body, e.isProgress = true) ∧ last.resetReason?.isSome = true

/-- Whole episodes, one after the other. -/
def IsEpisodes (w : List Event) : Prop :=
  ∃ words : List (List Event), (∀ v ∈ words, IsEpisode v) ∧ w = words.flatten

/-- The rest of an open episode, and whole episodes after it. -/
def IsRest (w : List Event) : Prop :=
  ∃ body last w', w = body ++ last :: w'
    ∧ (∀ e ∈ body, e.isProgress = true) ∧ last.resetReason?.isSome = true ∧ IsEpisodes w'

theorem isEpisodes_nil : IsEpisodes [] := ⟨[], by simp, rfl⟩

theorem isEpisodes_start {w : List Event} (h : IsRest w) : IsEpisodes (.episodeStarted :: w) := by
  obtain ⟨body, last, w', rfl, hbody, hlast, words, hwords, rfl⟩ := h
  refine ⟨(.episodeStarted :: (body ++ [last])) :: words, ?_, by simp⟩
  intro v hv
  rcases List.mem_cons.mp hv with rfl | hv
  · exact ⟨body, last, rfl, hbody, hlast⟩
  · exact hwords v hv

theorem isRest_progress {e : Event} {w : List Event} (he : e.isProgress = true) (h : IsRest w) :
    IsRest (e :: w) := by
  obtain ⟨body, last, w', rfl, hbody, hlast, hw'⟩ := h
  refine ⟨e :: body, last, w', rfl, ?_, hlast, hw'⟩
  intro e' he'
  rcases List.mem_cons.mp he' with rfl | he'
  · exact he
  · exact hbody e' he'

theorem isRest_reset {e : Event} {w : List Event} (he : e.resetReason?.isSome = true)
    (h : IsEpisodes w) : IsRest (e :: w) :=
  ⟨[], e, w, rfl, by simp, he, h⟩

/-- The part of a stream that tells of episodes. -/
def episodic (es : List Event) : List Event := es.filter (!·.isNote)

/-- What can be reported from some point on: whole episodes, after the rest of the one that is
open. -/
def Completes (st : Standing) (w : List Event) : Prop :=
  if st.began.isSome then IsRest w else IsEpisodes w

theorem completes_open {st : Standing} (h : st.began.isSome = true) (w : List Event) :
    Completes st w ↔ IsRest w := by
  unfold Completes
  rw [if_pos h]

theorem completes_closed {st : Standing} (h : st.began = none) (w : List Event) :
    Completes st w ↔ IsEpisodes w := by
  unfold Completes
  rw [if_neg (by simp [h])]

/-- **A log that fits can be completed to whole episodes.** -/
theorem episodic_completes {st : Standing} {es : List Entry} (h : Throughout Faithful st es) :
    ∃ w, Completes st w ∧ episodic (es.map (·.event)) <+: w := by
  induction es generalizing st with
  | nil =>
      cases hst : st.began with
      | none => exact ⟨[], (completes_closed hst _).mpr isEpisodes_nil, List.nil_prefix⟩
      | some t =>
          -- an open episode can always be ended, for instance by a recovery
          refine ⟨[.reset .baseline .recovered none none], ?_, List.nil_prefix⟩
          exact (completes_open (by simp [hst]) _).mpr (isRest_reset rfl isEpisodes_nil)
  | cons e es ih =>
      obtain ⟨⟨_, hfits⟩, hrest⟩ := h
      obtain ⟨w, hw, hpre⟩ := ih hrest
      have hcons : e.event.isNote = false →
          episodic ((e :: es).map (·.event)) <+: e.event :: w := by
        intro hnote
        simpa [episodic, hnote] using hpre
      have hskip : e.event.isNote = true → episodic ((e :: es).map (·.event)) <+: w := by
        intro hnote
        simpa [episodic, hnote] using hpre
      -- each entry is put before the completion of what comes after it
      obtain ⟨time, policy, event⟩ := e
      cases event with
      | episodeStarted =>
          have hw' : IsRest w := (completes_open (by rfl) w).mp hw
          exact ⟨_, (completes_closed hfits.1 _).mpr (isEpisodes_start hw'), hcons rfl⟩
      | actionDispatched a =>
          have hw' : IsRest w := (completes_open (by exact hfits) w).mp hw
          exact ⟨_, (completes_open hfits _).mpr (isRest_progress rfl hw'), hcons rfl⟩
      | held a reason =>
          have hw' : IsRest w := (completes_open (by exact hfits.1) w).mp hw
          exact ⟨_, (completes_open hfits.1 _).mpr (isRest_progress rfl hw'), hcons rfl⟩
      | reset source reason episode signal =>
          have hw' : IsEpisodes w := (completes_closed (by rfl) w).mp hw
          obtain ⟨t, ht, _⟩ := hfits.2.1
          exact ⟨_, (completes_open (by simp [ht]) _).mpr (isRest_reset rfl hw'), hcons rfl⟩
      | dispatchFailed a reason => exact ⟨w, hw, hskip rfl⟩
      | configRejected message => exact ⟨w, hw, hskip rfl⟩

/-! ## The stream of events -/

/-- Every outcome of a run is what some input did to a reachable machine. -/
theorem move_of_mem_run {m : Machine} (h : m.Reachable) {xs : List Stimulus} {out : Outcome}
    (hout : out ∈ (m.run xs).2) : ∃ m₁ x m₂, m₁.Reachable ∧ Move m₁ x m₂ out := by
  induction xs generalizing m with
  | nil => exact absurd hout (by simp [Machine.run])
  | cons x xs ih =>
      rcases List.mem_cons.mp hout with rfl | hout
      · exact ⟨m, x, _, h, move_step (coherent_reachable h) x⟩
      · exact ih (h.step x) hout

theorem dispatched_opening (s : State) : s.opening.filterMap Event.dispatched? = [] := by
  unfold State.opening
  split <;> rfl

theorem dispatched_closing (s : State) (reason : ResetReason) (now : Nat) :
    (s.closing reason now).filterMap Event.dispatched? = [] := by
  unfold State.closing
  split <;> rfl

/-- The actions that an outcome reports as dispatched are the one it hands over, if it does. -/
theorem dispatched_move {m m' : Machine} {x : Stimulus} {out : Outcome}
    (hmove : Move m x m' out) :
    out.events.filterMap Event.dispatched? = out.dispatch.toList := by
  cases hmove with
  | refused f hin => rfl
  | failed a f hin => rfl
  | early hin hnot => rfl
  | inert trigger s hask hnone => rfl
  | recovered hin => exact dispatched_closing m.state .recovered x.now
  | replaced p hin => exact dispatched_closing m.state .reconfigured x.now
  | decided p trigger s s' out hask hp hactive hdec =>
      cases hdec with
      | quiet level hweak hidle => rfl
      | waited hproceed hstep hreport hearly => exact dispatched_opening s
      | ended level hweak hbusy => rw [List.filterMap_append, dispatched_opening]; rfl
      | held reason hhold => rw [List.filterMap_append, dispatched_opening]; rfl
      | escalated hproceed hdue => rw [List.filterMap_append, dispatched_opening]; rfl

/-- An action is reported as dispatched as often as it is read off the events. -/
theorem count_dispatched (es : List Event) (a : Action) :
    es.count (.actionDispatched a) = (es.filterMap Event.dispatched?).count a := by
  induction es with
  | nil => rfl
  | cons e es ih =>
      rw [List.count_cons, ih]
      cases e <;> simp [Event.dispatched?, List.filterMap_cons, List.count_cons]

/--
**The events of a run are well formed and tell its state.**

Notes aside, they begin a sequence of whole episodes. Read from the start, they give the step and
the start of the open episode as the machine has them; each event fits what was read before it; and
an action is handed over exactly when it is reported as dispatched, and then it is reported once.
-/
theorem events_tell_state (initial : Except Fault Policy) (xs : List Stimulus) :
    let m := Machine.start initial
    let log := m.log xs
    let state := (m.run xs).1.state
    (∃ words : List (List Event), (∀ w ∈ words, IsEpisode w)
        ∧ episodic ((m.run xs).2.flatMap (·.events)) <+: words.flatten)
      ∧ state.episodeStarted = (Standing.of log).began
      ∧ state.action = (Standing.of log).action
      ∧ (∀ before e after, log = before ++ e :: after → Faithful (Standing.of before) e)
      ∧ ∀ out ∈ (m.run xs).2, ∀ a,
          out.events.count (.actionDispatched a) = if out.dispatch = some a then 1 else 0 := by
  intro m log state
  have hr : m.Reachable := reachable_start initial
  have hread : Standing.of log = (m.run xs).1.standing := by
    rw [← standing_log (coherent_reachable hr) xs, standing_start initial]
    rfl
  have hfits : Throughout Faithful .closed log := faithful_log initial xs
  refine ⟨?_, by rw [hread]; rfl, by rw [hread]; rfl, ?_, ?_⟩
  · obtain ⟨w, hw, hpre⟩ := episodic_completes hfits
    obtain ⟨words, hwords, rfl⟩ := (completes_closed rfl w).mp hw
    rw [Machine.log_events] at hpre
    exact ⟨words, hwords, hpre⟩
  · intro before e after hlog
    rw [hlog] at hfits
    exact hfits.entry
  · intro out hout a
    obtain ⟨m₁, x, m₂, _, hmove⟩ := move_of_mem_run hr hout
    rw [count_dispatched, dispatched_move hmove]
    cases out.dispatch with
    | none => rfl
    | some b => simp [List.count_cons]

end StallRecovery
