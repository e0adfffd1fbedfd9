import Mathlib.Data.List.Chain
import Mathlib.Data.List.Nodup
import StallRecovery.Monitor.Run

/-!
# The monitor delivers exactly what it owes

What a registration is owed can be read off the steps alone: the changes among the statuses
published since it was entered, until it is struck or its sink closes. The monitor itself compares a
status only with the one published last, and looks at a registration only when it has something for
it. That this comes to the same for each of them, also where several share a sink, rests on two
facts about the book. No two entries have one identity, and an identity that was issued once is
never issued again.
-/

namespace StallRecovery

/-- The changes among statuses published one after the other, if `last` was published before. -/
def changes : Option Bool → List Bool → List Bool
  | _, [] => []
  | last, valid :: rest =>
    if last = some valid then changes last rest else valid :: changes (some valid) rest

theorem changes_cons (last : Option Bool) (valid : Bool) (rest : List Bool) :
    changes last (valid :: rest) = changes last [valid] ++ changes (some valid) rest := by
  by_cases hsame : last = some valid
  · subst hsame
    simp [changes]
  · simp [changes, hsame]

theorem isChain_changes (last : Option Bool) (statuses : List Bool) :
    (last.toList ++ changes last statuses).IsChain (· ≠ ·) := by
  induction statuses generalizing last with
  | nil => cases last <;> simp [changes]
  | cons valid rest ih =>
      by_cases hsame : last = some valid
      · simpa [changes, hsame] using ih (some valid)
      · have hrest := ih (some valid)
        rw [changes, if_neg hsame]
        cases last with
        | none => exact hrest
        | some before =>
            have hne : before ≠ valid := fun h => hsame (congrArg some h)
            exact .cons_cons hne hrest

namespace Monitor

/-- What is published in some steps, in order. -/
def statuses (steps : List Step) : List Bool := steps.filterMap Step.published?

/-- A registration ends when it is struck or its sink closes. -/
def Step.ends (r : Registration) : Step → Bool
  | .unregister id => id == r.id
  | .close sink => sink == r.sink
  | _ => false

/-- What a registration is owed over the steps that follow it, if `last` was published before: every
change for as long as it lasts. -/
def owed (r : Registration) (last : Option Bool) (steps : List Step) : List Bool :=
  changes last (statuses (steps.takeWhile (!·.ends r)))

end Monitor

/-- The identities issued in some answers, in order. -/
def issued (answers : List Monitor.Answer) : List Nat := answers.filterMap Monitor.Answer.id?

/-! ## One step -/

namespace Exchange

/-- What went through the registrations of one identity, in order. -/
def through (id : Nat) (x : Exchange) : List Delivery :=
  x.deliveries.filter (·.registration.id == id)

/-- What a status comes to that goes through some registrations. -/
def given (valid : Bool) (reached : List Registration) (x : Exchange) : Exchange :=
  { x with
    received := fun sink =>
      x.received sink ++ (reached.filter (·.sink == sink)).map fun _ => valid
    deliveries := x.deliveries ++ reached.map (⟨·, valid⟩) }

theorem foldl_give (valid : Bool) (reached : List Registration) (x : Exchange)
    (hopen : ∀ r ∈ reached, x.isOpen r.sink = true) :
    reached.foldl (give valid) x = x.given valid reached := by
  induction reached generalizing x with
  | nil => simp [given]
  | cons r rest ih =>
      obtain ⟨hfirst, hrest⟩ := List.forall_mem_cons.mp hopen
      have hgive : x.give valid r = x.given valid [r] := by
        unfold give given
        rw [if_pos hfirst]
        congr 1
        funext sink
        by_cases hsink : r.sink = sink <;> simp [hsink]
      rw [List.foldl_cons, hgive, ih (x.given valid [r]) hrest]
      simp only [given, List.append_assoc, List.map_cons, List.map_nil]
      congr 1
      funext sink
      by_cases hsink : r.sink = sink <;> simp [hsink]

/-- The registrations that a change reaches. -/
def reached (x : Exchange) : List Registration :=
  x.monitor.registrations.filter (x.isOpen ·.sink)

theorem step_publish_of_repeat {x : Exchange} {valid : Bool}
    (hsame : x.monitor.published = some valid) :
    x.step (.publish valid) = (x, .delivered 0) := by
  simp [step, Monitor.publish, hsame]

theorem step_publish_of_change {x : Exchange} {valid : Bool}
    (hchange : x.monitor.published ≠ some valid) :
    x.step (.publish valid) =
      (given valid x.reached
        { x with
          monitor := { x.monitor with registrations := x.reached, published := some valid } },
      .delivered x.reached.length) := by
  have hopen : ∀ r ∈ x.reached, x.isOpen r.sink = true := fun r hr => (List.mem_filter.mp hr).2
  simp only [step, Monitor.publish, if_neg hchange]
  exact congrArg (·, _) (foldl_give valid x.reached
    { x with monitor := { x.monitor with registrations := x.reached, published := some valid } }
    hopen)

theorem step_register_of_open {x : Exchange} {sink : Nat} (hopen : x.isOpen sink = true) :
    x.step (.register sink) =
      ({ x with monitor := (x.monitor.enter sink).1 }, .registered x.monitor.nextId) := by
  simp [step, Monitor.register, hopen, Monitor.enter]

theorem step_register_of_closed {x : Exchange} {sink : Nat} (hclosed : x.isOpen sink = false) :
    x.step (.register sink) = (x, .refused (.unregistered "sink already closed")) := by
  simp [step, Monitor.register, hclosed]

/-! ## The book is in order -/

/-- What an exchange has come to over some steps, and what they were answered. -/
structure Orderly (steps : List Monitor.Step) (x : Exchange) (answers : List Monitor.Answer) :
    Prop where
  published : x.monitor.published = (Monitor.statuses steps).getLast?
  isOpen : ∀ sink, x.isOpen sink = true ↔ .close sink ∉ steps
  distinct : (issued answers).Nodup
  fresh : ∀ id ∈ issued answers, id < x.monitor.nextId
  registered : ∀ r ∈ x.monitor.registrations, r.id ∈ issued answers
  unique : (x.monitor.registrations.map (·.id)).Nodup
  delivered : ∀ e ∈ x.deliveries, e.registration.id ∈ issued answers
  received : ∀ sink, x.received sink
    = (x.deliveries.filter (·.registration.sink == sink)).map (·.valid)

theorem orderly_empty : Orderly [] .empty [] where
  published := rfl
  isOpen := by simp [empty]
  distinct := .nil
  fresh := nofun
  registered := nofun
  unique := .nil
  delivered := nofun
  received _ := rfl

theorem mem_reached {x : Exchange} {r : Registration} :
    r ∈ x.reached ↔ r ∈ x.monitor.registrations ∧ x.isOpen r.sink = true := List.mem_filter

section

variable {steps : List Monitor.Step} {x x' : Exchange} {answers : List Monitor.Answer}

/-- Most steps issue no identity and enter nobody. -/
theorem Orderly.unissued (h : Orderly steps x answers) {s : Monitor.Step} {a : Monitor.Answer}
    (hpublished : x'.monitor.published = (Monitor.statuses (steps ++ [s])).getLast?)
    (hopen : ∀ sink, x'.isOpen sink = true ↔ .close sink ∉ steps ++ [s])
    (ha : a.id? = none) (hnext : x'.monitor.nextId = x.monitor.nextId)
    (hsub : x'.monitor.registrations.Sublist x.monitor.registrations)
    (hdelivered : ∀ e ∈ x'.deliveries, e.registration.id ∈ issued answers)
    (hreceived : ∀ sink, x'.received sink
      = (x'.deliveries.filter (·.registration.sink == sink)).map (·.valid)) :
    Orderly (steps ++ [s]) x' (answers ++ [a]) := by
  have hissued : issued (answers ++ [a]) = issued answers := by simp [issued, ha]
  refine ⟨hpublished, hopen, ?_, ?_, ?_, (hsub.map _).nodup h.unique, ?_, hreceived⟩
  · rw [hissued]
    exact h.distinct
  · rw [hissued, hnext]
    exact h.fresh
  · intro r hr
    rw [hissued]
    exact h.registered r (hsub.subset hr)
  · rw [hissued]
    exact hdelivered

theorem Orderly.entered (h : Orderly steps x answers) (sink : Nat) :
    Orderly (steps ++ [.register sink]) { x with monitor := (x.monitor.enter sink).1 }
      (answers ++ [.registered x.monitor.nextId]) := by
  have hissued : issued (answers ++ [.registered x.monitor.nextId])
      = issued answers ++ [x.monitor.nextId] := by simp [issued, Monitor.Answer.id?]
  -- the identity about to be issued is above all that were
  have hnew : x.monitor.nextId ∉ issued answers := fun hmem => Nat.lt_irrefl _ (h.fresh _ hmem)
  have hkept : ∀ id ∈ issued answers, id ∈ issued answers ++ [x.monitor.nextId] :=
    fun id => List.mem_append_left _
  refine ⟨?_, by simpa using h.isOpen, ?_, ?_, ?_, ?_, ?_, h.received⟩
  · have hstatuses : Monitor.statuses (steps ++ [.register sink]) = Monitor.statuses steps := by
      simp [Monitor.statuses, Monitor.Step.published?]
    rw [hstatuses]
    exact h.published
  · rw [hissued, ← List.concat_eq_append]
    exact h.distinct.concat hnew
  · intro id hid
    rw [hissued, List.mem_append, List.mem_singleton] at hid
    rcases hid with hid | rfl
    · exact Nat.lt_succ_of_lt (h.fresh id hid)
    · exact Nat.lt_succ_self _
  · intro r hr
    rw [hissued]
    rcases List.mem_append.mp hr with hr | hr
    · exact hkept _ (h.registered r hr)
    · rw [List.mem_singleton.mp hr]
      exact List.mem_append_right _ List.mem_cons_self
  · have hentered : (x.monitor.enter sink).1.registrations.map (·.id)
        = (x.monitor.registrations.map (·.id)).concat x.monitor.nextId := by
      simp [Monitor.enter]
    rw [hentered]
    refine h.unique.concat fun hmem => ?_
    obtain ⟨r, hr, hid⟩ := List.mem_map.mp hmem
    exact hnew (hid ▸ h.registered r hr)
  · intro e he
    rw [hissued]
    exact hkept _ (h.delivered e he)

/-- **A step leaves things in order.** -/
theorem Orderly.step (h : Orderly steps x answers) (s : Monitor.Step) :
    Orderly (steps ++ [s]) (x.step s).1 (answers ++ [(x.step s).2]) := by
  have hstatuses : Monitor.statuses (steps ++ [s])
      = Monitor.statuses steps ++ s.published?.toList := by
    cases hs : s.published? <;> simp [Monitor.statuses, hs]
  have hunchanged : s.published? = none →
      x.monitor.published = (Monitor.statuses (steps ++ [s])).getLast? := by
    intro hs
    rw [hstatuses, hs]
    simpa using h.published
  cases s with
  | register sink =>
      cases hsink : x.isOpen sink with
      | true =>
          rw [step_register_of_open hsink]
          exact h.entered sink
      | false =>
          rw [step_register_of_closed hsink]
          exact h.unissued (hunchanged rfl) (by simpa using h.isOpen) rfl rfl
            (List.Sublist.refl _) h.delivered h.received
  | unregister id =>
      exact h.unissued (hunchanged rfl) (by simpa [Exchange.step] using h.isOpen) rfl rfl
        List.filter_sublist h.delivered h.received
  | close sink =>
      refine h.unissued (hunchanged rfl) ?_ rfl rfl (List.Sublist.refl _) h.delivered h.received
      intro sink'
      have hbefore := h.isOpen sink'
      simp only [Exchange.step, Bool.and_eq_true, bne_iff_ne, ne_eq, hbefore, List.mem_append,
        List.mem_singleton, Monitor.Step.close.injEq, not_or]
      exact And.comm
  | publish valid =>
      by_cases hchange : x.monitor.published = some valid
      · rw [step_publish_of_repeat hchange]
        refine h.unissued ?_ (by simpa using h.isOpen) rfl rfl (List.Sublist.refl _) h.delivered
          h.received
        rw [hstatuses, hchange]
        simp [Monitor.Step.published?]
      · rw [step_publish_of_change hchange]
        refine h.unissued ?_ (by simpa [given] using h.isOpen) rfl rfl List.filter_sublist ?_ ?_
        · rw [hstatuses]
          simp [Monitor.Step.published?, given]
        · intro e he
          rcases List.mem_append.mp he with he | he
          · exact h.delivered e he
          · obtain ⟨r, hr, rfl⟩ := List.mem_map.mp he
            exact h.registered r (mem_reached.mp hr).1
        · intro sink
          have hbefore := h.received sink
          simp only [given, List.filter_append, List.map_append, hbefore, List.filter_map,
            List.map_map]
          rfl

/-- Whatever is done to an exchange, it stays in order. -/
theorem Orderly.run (h : Orderly steps x answers) (later : List Monitor.Step) :
    Orderly (steps ++ later) (x.run later).1 (answers ++ (x.run later).2) := by
  induction later generalizing steps x answers with
  | nil => simpa [Exchange.run] using h
  | cons s later ih =>
      have hrest := ih (h.step s)
      rw [List.append_assoc, List.append_assoc] at hrest
      exact hrest

end

/-! ## One registration -/

/-- A registration in the book of an open sink. -/
structure Lasts (r : Registration) (x : Exchange) : Prop where
  mem : r ∈ x.monitor.registrations
  isOpen : x.isOpen r.sink = true

/-- An identity was issued, and nothing more can go through what is left of it. -/
structure Over (id : Nat) (x : Exchange) : Prop where
  issued : id < x.monitor.nextId
  closed : ∀ r ∈ x.monitor.registrations, r.id = id → x.isOpen r.sink = false

section

variable {steps : List Monitor.Step} {x : Exchange} {answers : List Monitor.Answer}
  {r : Registration} {id : Nat}

theorem through_given (valid : Bool) (reached : List Registration) (x : Exchange) (id : Nat) :
    (x.given valid reached).through id
      = x.through id ++ (reached.filter (·.id == id)).map (⟨·, valid⟩) := by
  simp only [through, given, List.filter_append, List.filter_map]
  rfl

theorem published_step (x : Exchange) (s : Monitor.Step) :
    (x.step s).1.monitor.published = s.published?.or x.monitor.published := by
  cases s with
  | register sink =>
      cases hsink : x.isOpen sink with
      | true =>
          rw [step_register_of_open hsink]
          rfl
      | false =>
          rw [step_register_of_closed hsink]
          rfl
  | unregister id => rfl
  | close sink => rfl
  | publish valid =>
      by_cases hchange : x.monitor.published = some valid
      · rw [step_publish_of_repeat hchange, hchange]
        rfl
      · rw [step_publish_of_change hchange]
        rfl

/-- What is over stays over, and nothing goes through it. -/
theorem Over.step (h : Over id x) (s : Monitor.Step) :
    Over id (x.step s).1 ∧ (x.step s).1.through id = x.through id := by
  cases s with
  | register sink =>
      cases hsink : x.isOpen sink with
      | true =>
          rw [step_register_of_open hsink]
          refine ⟨⟨Nat.lt_succ_of_lt h.issued, fun r hr hid => ?_⟩, rfl⟩
          rcases List.mem_append.mp hr with hr | hr
          · exact h.closed r hr hid
          · rw [List.mem_singleton.mp hr] at hid
            exact absurd hid (Nat.ne_of_gt h.issued)
      | false =>
          rw [step_register_of_closed hsink]
          exact ⟨h, rfl⟩
  | unregister id' =>
      exact ⟨⟨h.issued, fun r hr hid => h.closed r (List.mem_filter.mp hr).1 hid⟩, rfl⟩
  | close sink =>
      refine ⟨⟨h.issued, fun r hr hid => ?_⟩, rfl⟩
      simp [Exchange.step, h.closed r hr hid]
  | publish valid =>
      by_cases hchange : x.monitor.published = some valid
      · rw [step_publish_of_repeat hchange]
        exact ⟨h, rfl⟩
      · rw [step_publish_of_change hchange]
        refine ⟨⟨h.issued, fun r hr hid => h.closed r (mem_reached.mp hr).1 hid⟩, ?_⟩
        have hnobody : x.reached.filter (·.id == id) = [] := by
          refine List.filter_eq_nil_iff.mpr fun r hr hid => ?_
          obtain ⟨hmem, hopen⟩ := mem_reached.mp hr
          rw [h.closed r hmem (by simpa using hid)] at hopen
          exact Bool.false_ne_true hopen
        rw [through_given, hnobody]
        exact List.append_nil _

theorem Over.run (h : Over id x) (later : List Monitor.Step) :
    (x.run later).1.through id = x.through id := by
  induction later generalizing x with
  | nil => rfl
  | cons s later ih =>
      obtain ⟨hstep, hthrough⟩ := h.step s
      exact (ih hstep).trans hthrough

/-- An identity stands for one registration. -/
theorem Orderly.eq_of_id (h : Orderly steps x answers) {q : Registration}
    (hr : r ∈ x.monitor.registrations) (hq : q ∈ x.monitor.registrations) (hid : q.id = r.id) :
    q = r := List.inj_on_of_nodup_map h.unique hq hr hid

theorem filter_id_of_mem {registrations : List Registration}
    (hunique : (registrations.map (·.id)).Nodup) (hr : r ∈ registrations) :
    registrations.filter (·.id == r.id) = [r] := by
  induction registrations with
  | nil => exact absurd hr List.not_mem_nil
  | cons q rest ih =>
      obtain ⟨hq, hrest⟩ := List.nodup_cons.mp hunique
      rcases List.mem_cons.mp hr with rfl | hmem
      · have hnone : rest.filter (·.id == r.id) = [] := by
          refine List.filter_eq_nil_iff.mpr fun p hp hid => hq ?_
          exact List.mem_map.mpr ⟨p, hp, by simpa using hid⟩
        rw [List.filter_cons_of_pos (by simp), hnone]
      · have hne : q.id ≠ r.id := fun hid => hq (List.mem_map.mpr ⟨r, hmem, hid.symm⟩)
        rw [List.filter_cons_of_neg (by simpa using hne)]
        exact ih hrest hmem

/-- A step that ends a registration delivers nothing through it. -/
theorem Lasts.ended (h : Lasts r x) (ho : Orderly steps x answers) {s : Monitor.Step}
    (hends : s.ends r = true) :
    Over r.id (x.step s).1 ∧ (x.step s).1.through r.id = x.through r.id := by
  have hissued : r.id < x.monitor.nextId := ho.fresh _ (ho.registered r h.mem)
  cases s with
  | register sink => exact absurd hends nofun
  | publish valid => exact absurd hends nofun
  | unregister id =>
      refine ⟨⟨hissued, fun q hq hid => ?_⟩, rfl⟩
      have hne := (List.mem_filter.mp hq).2
      simp only [Monitor.Step.ends, beq_iff_eq] at hends
      simp [hends, hid] at hne
  | close sink =>
      refine ⟨⟨hissued, fun q hq hid => ?_⟩, rfl⟩
      simp only [Monitor.Step.ends, beq_iff_eq] at hends
      rw [ho.eq_of_id h.mem hq hid]
      simp [Exchange.step, hends]

/-- A step that does not end a registration delivers a change through it, and nothing else. -/
theorem Lasts.step (h : Lasts r x) (ho : Orderly steps x answers) {s : Monitor.Step}
    (hlasts : s.ends r = false) :
    Lasts r (x.step s).1
      ∧ (x.step s).1.through r.id = x.through r.id
        ++ (changes x.monitor.published s.published?.toList).map (⟨r, ·⟩) := by
  cases s with
  | register sink =>
      cases hsink : x.isOpen sink with
      | true =>
          rw [step_register_of_open hsink]
          exact ⟨⟨List.mem_append_left _ h.mem, h.isOpen⟩, (List.append_nil _).symm⟩
      | false =>
          rw [step_register_of_closed hsink]
          exact ⟨h, (List.append_nil _).symm⟩
  | unregister id =>
      simp only [Monitor.Step.ends, beq_eq_false_iff_ne] at hlasts
      refine ⟨⟨List.mem_filter.mpr ⟨h.mem, ?_⟩, h.isOpen⟩, (List.append_nil _).symm⟩
      simpa using hlasts.symm
  | close sink =>
      simp only [Monitor.Step.ends, beq_eq_false_iff_ne] at hlasts
      refine ⟨⟨h.mem, ?_⟩, (List.append_nil _).symm⟩
      simpa [Exchange.step, h.isOpen] using hlasts.symm
  | publish valid =>
      by_cases hchange : x.monitor.published = some valid
      · rw [step_publish_of_repeat hchange]
        refine ⟨h, ?_⟩
        simp [Monitor.Step.published?, changes, hchange]
      · have hreached : r ∈ x.reached := mem_reached.mpr ⟨h.mem, h.isOpen⟩
        have hunique : (x.reached.map (·.id)).Nodup :=
          (List.filter_sublist.map _).nodup ho.unique
        rw [step_publish_of_change hchange]
        refine ⟨⟨hreached, h.isOpen⟩, ?_⟩
        rw [through_given, filter_id_of_mem hunique hreached]
        simp only [Monitor.Step.published?, Option.toList_some, changes, if_neg hchange]
        rfl

end

end Exchange

theorem Monitor.owed_cons (r : Registration) (last : Option Bool) (s : Monitor.Step)
    (steps : List Monitor.Step) :
    owed r last (s :: steps) = if s.ends r then []
      else changes last s.published?.toList ++ owed r (s.published?.or last) steps := by
  unfold owed
  cases hends : s.ends r with
  | true => simp [hends, statuses, changes]
  | false =>
      cases hs : s.published? with
      | none => simp [hends, statuses, hs, changes]
      | some valid =>
          simp only [List.takeWhile_cons, hends, Bool.not_false, if_true, statuses,
            List.filterMap_cons_some hs]
          exact changes_cons last valid _

namespace Exchange

/-- **A registration delivers what it is owed.** -/
theorem Lasts.run {steps : List Monitor.Step} {x : Exchange} {answers : List Monitor.Answer}
    {r : Registration} (h : Lasts r x) (ho : Orderly steps x answers)
    (later : List Monitor.Step) :
    (x.run later).1.through r.id = x.through r.id
      ++ (Monitor.owed r x.monitor.published later).map (⟨r, ·⟩) := by
  induction later generalizing steps x answers with
  | nil => exact (List.append_nil _).symm
  | cons s later ih =>
      rw [Monitor.owed_cons]
      cases hends : s.ends r with
      | true =>
          obtain ⟨hover, hthrough⟩ := h.ended ho hends
          rw [if_pos rfl]
          exact ((hover.run later).trans hthrough).trans (List.append_nil _).symm
      | false =>
          obtain ⟨hlasts, hthrough⟩ := h.step ho hends
          have hlater := ih hlasts (ho.step s)
          rw [hthrough, published_step, List.append_assoc, ← List.map_append] at hlater
          exact hlater

theorem run_append (x : Exchange) (steps later : List Monitor.Step) :
    (x.run (steps ++ later)).1 = ((x.run steps).1.run later).1 := by
  induction steps generalizing x with
  | nil => rfl
  | cons s steps ih => exact ih (x.step s).1

theorem isOpen_of_registered {x : Exchange} {sink id : Nat}
    (h : (x.step (.register sink)).2 = .registered id) :
    x.isOpen sink = true ∧ id = x.monitor.nextId := by
  cases hsink : x.isOpen sink with
  | true =>
      rw [step_register_of_open hsink] at h
      exact ⟨rfl, (Monitor.Answer.registered.inj h).symm⟩
  | false =>
      rw [step_register_of_closed hsink] at h
      exact absurd h nofun

/-- Identities are issued to registrations only. -/
theorem register_of_issued {x : Exchange} {steps : List Monitor.Step} {id : Nat}
    (h : id ∈ issued (x.run steps).2) :
    ∃ before sink after, steps = before ++ .register sink :: after
      ∧ ((x.run before).1.step (.register sink)).2 = .registered id := by
  induction steps generalizing x with
  | nil => exact absurd h List.not_mem_nil
  | cons s steps ih =>
      have hissued : issued (x.run (s :: steps)).2
          = (x.step s).2.id?.toList ++ issued ((x.step s).1.run steps).2 := by
        simp only [Exchange.run, issued]
        cases hid : (x.step s).2.id? <;> simp [hid]
      rw [hissued] at h
      rcases List.mem_append.mp h with hnow | hlater
      · refine ⟨[], ?_⟩
        cases s with
        | register sink =>
            refine ⟨sink, steps, rfl, ?_⟩
            simp only [Exchange.run]
            cases hanswer : (x.step (.register sink)).2 with
            | registered id' =>
                rw [hanswer] at hnow
                rw [List.mem_singleton.mp hnow]
            | _ =>
                rw [hanswer] at hnow
                exact absurd hnow List.not_mem_nil
        | _ => exact absurd hnow List.not_mem_nil
      · obtain ⟨before, sink, after, rfl, hanswer⟩ := ih hlater
        exact ⟨s :: before, sink, after, rfl, hanswer⟩

section

variable {steps : List Monitor.Step} {x : Exchange} {answers : List Monitor.Answer}

theorem Orderly.isOpen_eq_false (h : Orderly steps x answers) {sink : Nat} :
    x.isOpen sink = false ↔ .close sink ∈ steps := by
  rw [← Bool.not_eq_true, h.isOpen sink, not_not]

theorem Orderly.through_nextId (h : Orderly steps x answers) :
    x.through x.monitor.nextId = [] := by
  refine List.filter_eq_nil_iff.mpr fun e he hid => ?_
  have hfresh := h.fresh _ (h.delivered e he)
  rw [show e.registration.id = x.monitor.nextId by simpa using hid] at hfresh
  exact Nat.lt_irrefl _ hfresh

/-- From its first step on, a registration is owed something. -/
theorem Orderly.owed (h : Orderly steps x answers) {sink id : Nat}
    (hanswer : (x.step (.register sink)).2 = .registered id) (later : List Monitor.Step) :
    (x.run (.register sink :: later)).1.through id
      = (Monitor.owed ⟨id, sink⟩ (Monitor.statuses steps).getLast? later).map
        (⟨⟨id, sink⟩, ·⟩) := by
  obtain ⟨hopen, rfl⟩ := isOpen_of_registered hanswer
  have horderly := h.step (.register sink)
  have hlasts : Lasts ⟨x.monitor.nextId, sink⟩ (x.step (.register sink)).1 := by
    rw [step_register_of_open hopen]
    exact ⟨List.mem_append_right _ List.mem_cons_self, hopen⟩
  have hnothing : (x.step (.register sink)).1.through x.monitor.nextId = [] := by
    rw [step_register_of_open hopen]
    exact h.through_nextId
  have hrun := hlasts.run horderly later
  rw [hnothing, List.nil_append, published_step, h.published] at hrun
  exact hrun

end

end Exchange

/-- What some steps from the start on come to, and what the next one does. -/
structure Exact (steps : List Monitor.Step) (x : Exchange) (answers : List Monitor.Answer) :
    Prop where
  /-- No identity is issued twice. -/
  distinct : (issued answers).Nodup
  /-- A sink that has closed is refused, which issues nothing and changes nothing. -/
  refused : ∀ sink, .close sink ∈ steps →
    x.step (.register sink) = (x, .refused (.unregistered "sink already closed"))
  accepted : ∀ sink, .close sink ∉ steps → ∃ id, (x.step (.register sink)).2 = .registered id
  /-- What went through a registration is what it was owed since it was entered. -/
  owed : ∀ before sink after id, steps = before ++ .register sink :: after →
    ((Exchange.empty.run before).1.step (.register sink)).2 = .registered id →
    x.through id
      = (Monitor.owed ⟨id, sink⟩ (Monitor.statuses before).getLast? after).map (⟨⟨id, sink⟩, ·⟩)
  /-- What went to a sink went through registrations. -/
  received : ∀ sink, x.received sink
    = (x.deliveries.filter (·.registration.sink == sink)).map (·.valid)
  entered : ∀ e ∈ x.deliveries, e.registration.id ∈ issued answers
  /-- No registration delivers one status twice in a row. -/
  alternating : ∀ id, ((x.through id).map (·.valid)).IsChain (· ≠ ·)
  /-- The count that is answered is that of the registrations that deliver, each of them once. -/
  counted : ∀ valid, ∃ reached : List Registration, (reached.map (·.id)).Nodup
    ∧ (x.step (.publish valid)).1.deliveries = x.deliveries ++ reached.map (⟨·, valid⟩)
    ∧ (x.step (.publish valid)).2 = .delivered reached.length
  /-- An identity strikes its own registration and no other. -/
  struck : ∀ id r, r ∈ (x.step (.unregister id)).1.monitor.registrations
    ↔ r ∈ x.monitor.registrations ∧ r.id ≠ id
  unknown : ∀ id, (∀ r ∈ x.monitor.registrations, r.id ≠ id) →
    x.step (.unregister id) = (x, .done)
  /-- A change strikes those whose sinks have closed. -/
  pruned : ∀ valid, (Monitor.statuses steps).getLast? ≠ some valid →
    ∀ r, r ∈ (x.step (.publish valid)).1.monitor.registrations
      ↔ r ∈ x.monitor.registrations ∧ .close r.sink ∉ steps
  repeated : ∀ valid, (Monitor.statuses steps).getLast? = some valid →
    x.step (.publish valid) = (x, .delivered 0)

/--
**The monitor delivers exactly what it owes**, whoever registers, is struck and closes in whatever
order, and however often one sink is entered.
-/
theorem monitor_delivers_exactly (steps : List Monitor.Step) :
    Exact steps (Exchange.empty.run steps).1 (Exchange.empty.run steps).2 := by
  have horderly : ∀ before, Exchange.Orderly before (Exchange.empty.run before).1
      (Exchange.empty.run before).2 := fun before => Exchange.orderly_empty.run before
  have h := horderly steps
  have howed : ∀ before sink after id, steps = before ++ .register sink :: after →
      ((Exchange.empty.run before).1.step (.register sink)).2 = .registered id →
      (Exchange.empty.run steps).1.through id
        = (Monitor.owed ⟨id, sink⟩ (Monitor.statuses before).getLast? after).map
          (⟨⟨id, sink⟩, ·⟩) := by
    intro before sink after id hsteps hanswer
    rw [hsteps, Exchange.run_append]
    exact (horderly before).owed hanswer after
  refine ⟨h.distinct, ?_, ?_, howed, h.received, h.delivered, ?_, ?_, ?_, ?_, ?_, ?_⟩
  · intro sink hclosed
    exact Exchange.step_register_of_closed (h.isOpen_eq_false.mpr hclosed)
  · intro sink hopen
    rw [Exchange.step_register_of_open ((h.isOpen sink).mpr hopen)]
    exact ⟨_, rfl⟩
  · intro id
    by_cases hid : id ∈ issued (Exchange.empty.run steps).2
    · obtain ⟨before, sink, after, hsteps, hanswer⟩ := Exchange.register_of_issued hid
      have hchain := isChain_changes (Monitor.statuses before).getLast?
        (Monitor.statuses (after.takeWhile (!·.ends ⟨id, sink⟩)))
      rw [howed before sink after id hsteps hanswer, List.map_map]
      simpa [Monitor.owed, Function.comp_def] using (List.isChain_append.mp hchain).2.1
    · have hnothing : (Exchange.empty.run steps).1.through id = [] := by
        refine List.filter_eq_nil_iff.mpr fun e he heq => hid ?_
        rw [← show e.registration.id = id by simpa using heq]
        exact h.delivered e he
      rw [hnothing]
      exact .nil
  · intro valid
    by_cases hchange : (Exchange.empty.run steps).1.monitor.published = some valid
    · rw [Exchange.step_publish_of_repeat hchange]
      exact ⟨[], .nil, (List.append_nil _).symm, rfl⟩
    · rw [Exchange.step_publish_of_change hchange]
      exact ⟨_, (List.filter_sublist.map _).nodup h.unique, rfl, rfl⟩
  · intro id r
    simp [Exchange.step, Monitor.unregister]
  · intro id hnobody
    have hsame : (Exchange.empty.run steps).1.monitor.registrations.filter (·.id != id)
        = (Exchange.empty.run steps).1.monitor.registrations :=
      List.filter_eq_self.mpr fun r hr => by simpa using hnobody r hr
    simp only [Exchange.step, Monitor.unregister, hsame]
  · intro valid hchange r
    rw [← h.published] at hchange
    rw [Exchange.step_publish_of_change hchange, ← h.isOpen r.sink]
    exact Exchange.mem_reached
  · intro valid hsame
    rw [← h.published] at hsame
    exact Exchange.step_publish_of_repeat hsame

/-- A second registration of a sink hears nothing of what was published before it was entered. -/
example : ((Exchange.empty.run [.register 0, .publish true, .register 0, .publish true,
    .publish false, .unregister 1, .close 0, .publish true]).1.through 2).map (·.valid)
      = [false] := by
  decide

end StallRecovery
