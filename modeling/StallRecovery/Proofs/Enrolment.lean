import StallRecovery.Proofs.Refinement

/-!
# Who is in the monitor's book

Every controller is entered into the monitor's book when it is started, under an identity of its own
that it keeps for life, and it is struck when its owner lets go of it. Nobody else strikes it,
unless somebody asks the monitor to, and a change that the monitor publishes strikes only those
whose queue has closed. So the monitor knows every controller that still has an owner: `Enrolled`
says so, and `Book` lists what a moment can do to the book at all.
-/

namespace StallRecovery

/-! ## An identity for life -/

namespace Scene

variable {s s' : Scene} {o : Occurrence} {life : List Occurrence}

theorem Occurs.registration (ho : s.Occurs o s') :
    s'.controller.registration = s.controller.registration := by
  cases ho with
  | told command hopen => rw [Controller.send_of_open command hopen]
  | equipped collaborators => rfl
  | tuned readings' => rfl
  | moved hle => rfl
  | @abandoned now readings c =>
      unfold Controller.abandon
      split <;> rfl
  | waited hle hrests => rfl
  | returned halive hrunning hended => rfl
  | @refused now readings c fault halive hrefusal => rw [Controller.feed_eq readings now]
  | @handled now readings c command rest halive hrefusal hqueue =>
      by_cases hstop : command = .shutdown
      · subst hstop
        rfl
      · rw [Controller.handle_eq readings now hstop]
  | @rechecked now readings c d halive hrefusal hqueue hd hdue =>
      rw [Controller.feed_eq readings now]
  | closed hphase => rfl

theorem Lives.registration (h : s.Lives life s') :
    s'.controller.registration = s.controller.registration := by
  induction h with
  | nil s => rfl
  | cons ho rest ih => exact ih.trans ho.registration

end Scene

/-! ## What a moment does to the book -/

/-- The status that a moment publishes. -/
def Moment.published? : Moment → Option Bool
  | .act (.publish valid) => some valid
  | _ => none

/-- What is published at some moments, in order. -/
def published (moments : List Moment) : List Bool := moments.filterMap Moment.published?

namespace Deployment

/-- What a moment that starts nobody can do to the monitor's book. -/
inductive Book (d : Deployment) : Moment → Monitor → Prop where
  | kept (m : Moment) (hm : m.published? = none) : Book d m d.monitor
  | published (valid : Bool) :
      Book d (.act (.publish valid)) (d.monitor.publish d.isOpen valid).1
  | entered (j : Nat) : Book d (.act (.register j)) (d.monitor.enter j).1
  | struck (id : Nat) : Book d (.act (.unregister id)) (d.monitor.unregister id)
  | left (m : Moment) {j : Nat} {c : Controller}
      (hm : m = .act (.shutdown j) ∨ m = .act (.abandon j)) (hc : d.controllers[j]? = some c)
      (halive : c.isAlive = true) : Book d m (d.monitor.unregister c.registration)

/-- Nobody is started, and the book is changed as it may be. -/
structure Books (d : Deployment) (m : Moment) (d' : Deployment) : Prop where
  length : d'.controllers.length = d.controllers.length
  book : d.Book m d'.monitor

section

variable {d : Deployment} {i : Nat}

theorem whileAlive_elim {P : Deployment → Prop} {f : Controller → Deployment × Reply} (hsame : P d)
    (halive : ∀ c, d.controllers[i]? = some c → c.isAlive = true → P (f c).1) :
    P (d.whileAlive i f).1 := by
  unfold whileAlive
  split
  · exact hsame
  · rename_i c hc
    split
    · rename_i hc'
      exact halive c hc hc'
    · exact hsame

theorem whenKnown_elim {P : Deployment → Prop} {f : Controller → Deployment × Reply} (hsame : P d)
    (hknown : ∀ c, d.controllers[i]? = some c → P (f c).1) : P (d.whenKnown i f).1 := by
  unfold whenKnown
  split
  · exact hsame
  · rename_i c hc
    exact hknown c hc

theorem length_modify (f : Controller → Controller) :
    (d.modify i f).controllers.length = d.controllers.length := List.length_modify ..

theorem publish_books (valid : Bool) : d.Books (.act (.publish valid)) (d.publish valid).1 := by
  have hsent : ∀ (registrations : List Registration) (d' : Deployment),
      let sent := registrations.foldl
        (fun d r => d.modify r.sink (·.send (.validation valid))) d'
      sent.controllers.length = d'.controllers.length ∧ sent.monitor = d'.monitor := by
    intro registrations
    induction registrations with
    | nil => exact fun d' => ⟨rfl, rfl⟩
    | cons r rest ih =>
        intro d'
        obtain ⟨hlength, hmonitor⟩ := ih (d'.modify r.sink (·.send (.validation valid)))
        exact ⟨hlength.trans (length_modify _), hmonitor⟩
  obtain ⟨hlength, hmonitor⟩ := hsent (d.monitor.publish d.isOpen valid).2
    { d with monitor := (d.monitor.publish d.isOpen valid).1 }
  refine ⟨hlength, ?_⟩
  have hbook := Book.published (d := d) valid
  rw [← show _ = (d.monitor.publish d.isOpen valid).1 from hmonitor] at hbook
  exact hbook

/-- **A moment starts somebody or changes the book as listed.** -/
theorem meet_books (m : Moment) (hstart : ∀ launch, m ≠ .act (.start launch)) :
    d.Books m (d.meet m) := by
  have hsame : m.published? = none → d.Books m d := fun hm => ⟨rfl, .kept m hm⟩
  have hmodify : ∀ j (f : Controller → Controller), m.published? = none →
      d.Books m (d.modify j f) := fun j f hm => ⟨length_modify f, .kept m hm⟩
  have hknown : ∀ {j : Nat} {f : Controller → Deployment × Reply}, m.published? = none →
      (∀ c, d.Books m (f c).1) → d.Books m (d.whenKnown j f).1 :=
    fun hm hf => whenKnown_elim (hsame hm) fun c _ => hf c
  have halive : ∀ {j : Nat} {f : Controller → Deployment × Reply}, m.published? = none →
      (∀ c, d.Books m (f c).1) → d.Books m (d.whileAlive j f).1 :=
    fun hm hf => whileAlive_elim (hsame hm) fun c _ _ => hf c
  cases m with
  | ask j => exact halive rfl fun _ => hmodify j _ rfl
  | settle => exact ⟨List.length_map _, .kept _ rfl⟩
  | act op =>
      cases op with
      | start launch => exact absurd rfl (hstart launch)
      | publish valid => exact publish_books valid
      | report j valid => exact halive rfl fun _ => hmodify j _ rfl
      | deliver j valid =>
          refine hknown rfl fun c => ?_
          split
          · exact hmodify j _ rfl
          · exact hsame rfl
      | sinkClosed j => exact hknown rfl fun _ => hsame rfl
      | register j =>
          refine hknown rfl fun c => ?_
          unfold Monitor.register
          split
          · rename_i hok
            split at hok
            · cases hok
              exact ⟨rfl, .entered j⟩
            · exact absurd hok nofun
          · exact hsame rfl
      | unregister id => exact ⟨rfl, .struck id⟩
      | setSignal signal => exact ⟨rfl, .kept _ rfl⟩
      | setCall call => exact ⟨rfl, .kept _ rfl⟩
      | reload j settings =>
          refine halive rfl fun _ => ?_
          cases settings.toPolicy <;> exact hmodify j _ rfl
      | reloadChecked j settings =>
          refine halive rfl fun _ => ?_
          cases settings.toPolicy with
          | ok policy => exact hmodify j _ rfl
          | error fault => exact hsame rfl
      | rejectActions j rejection => exact hknown rfl fun _ => hmodify j _ rfl
      | setActionTime j duration => exact hknown rfl fun _ => hmodify j _ rfl
      | setRecorderBroken j broken => exact hknown rfl fun _ => hmodify j _ rfl
      | sleep duration =>
          simp only [meet, act, sleepUntil]
          split
          · exact ⟨by simp [settle], .kept _ rfl⟩
          · exact hsame rfl
      | jump duration => exact ⟨List.length_map _, .kept _ rfl⟩
      | shutdown j =>
          refine whileAlive_elim (hsame rfl) fun c hc hc' => ⟨?_, .left _ (.inl rfl) hc hc'⟩
          exact (List.length_map _).trans (List.length_modify ..)
      | abandon j =>
          exact whileAlive_elim (hsame rfl) fun c hc hc' =>
            ⟨length_modify _, .left _ (.inr rfl) hc hc'⟩

/-- A start fails and leaves nothing behind, or it enters a new controller. -/
theorem start_cases (d : Deployment) (launch : Launch) :
    (d.start launch).2 ≠ .done ∧ (d.start launch).1 = d
      ∨ ∃ initial, launch.policy.resolve = .ok initial ∧ (d.start launch).2 = .done
        ∧ (d.start launch).1 = { d with
            monitor := (d.monitor.enter d.controllers.length).1
            controllers := d.controllers
              ++ [.new initial d.monitor.nextId launch.collaborators] } := by
  unfold start
  split
  · exact .inl ⟨nofun, rfl⟩
  · rename_i initial hresolve
    split
    · exact .inl ⟨nofun, rfl⟩
    · split
      · exact .inl ⟨nofun, rfl⟩
      · exact .inr ⟨initial, hresolve, rfl, rfl⟩

theorem Book.published_eq {m : Moment} {monitor : Monitor} (h : d.Book m monitor) :
    monitor.published = m.published?.or d.monitor.published := by
  cases h with
  | kept m hm => rw [hm, Option.none_or]
  | published valid =>
      unfold Monitor.publish
      split
      · rename_i hsame
        exact hsame
      · rfl
  | entered j => rfl
  | struck id => rfl
  | left m hm hc halive => rcases hm with rfl | rfl <;> rfl

/-- The monitor remembers what was published last. -/
theorem published_meet (m : Moment) :
    (d.meet m).monitor.published = m.published?.or d.monitor.published := by
  by_cases hstart : ∃ launch, m = .act (.start launch)
  · obtain ⟨launch, rfl⟩ := hstart
    rcases d.start_cases launch with ⟨_, hsame⟩ | ⟨initial, _, _, hadded⟩
    · exact congrArg (·.monitor.published) hsame
    · exact congrArg (·.monitor.published) hadded
  · exact (meet_books (d := d) m fun launch h => hstart ⟨launch, h⟩).book.published_eq

theorem published_follow (moments : List Moment) :
    (d.follow moments).monitor.published
      = (published moments).getLast?.or d.monitor.published := by
  induction moments generalizing d with
  | nil => rfl
  | cons m moments ih =>
      have hrest := ih (d := d.meet m)
      rw [published_meet] at hrest
      cases hm : m.published? with
      | none =>
          rw [published, List.filterMap_cons_none hm]
          rw [hm] at hrest
          exact hrest
      | some valid =>
          have hcons : published (m :: moments) = valid :: published moments :=
            List.filterMap_cons_some hm
          rw [hm] at hrest
          refine hrest.trans ?_
          rw [hcons, List.getLast?_cons]
          cases (published moments).getLast? <;> rfl

/-! ## Everybody is in the book -/

/-- A controller that was there before a moment is there after it. -/
theorem earlier_of_meet {m : Moment} (hstart : ∀ launch, m ≠ .act (.start launch))
    {c' : Controller} (hc' : (d.meet m).controllers[i]? = some c') :
    ∃ c, d.controllers[i]? = some c ∧ c'.registration = c.registration
      ∧ (c'.isAlive = true → c.isAlive = true) := by
  have hlt : i < d.controllers.length := by
    rw [← (meet_books m hstart).length]
    exact (List.getElem?_eq_some_iff.mp hc').1
  have hc : d.controllers[i]? = some d.controllers[i] := List.getElem?_eq_getElem hlt
  obtain ⟨segment, hlives, _⟩ := lives_of_meet hc hc'
  exact ⟨_, hc, hlives.registration, fun halive => (hlives.tallies.alive.mp halive).1⟩

/-- Every controller has an identity of its own, and the book has every one with an owner. -/
structure Enrolled (d : Deployment) : Prop where
  issued : ∀ (i : Nat) (c : Controller), d.controllers[i]? = some c →
    c.registration < d.monitor.nextId
  distinct : ∀ (i j : Nat) (c c' : Controller), d.controllers[i]? = some c →
    d.controllers[j]? = some c' → c.registration = c'.registration → i = j
  entered : ∀ (i : Nat) (c : Controller), d.controllers[i]? = some c → c.isAlive = true →
    ⟨c.registration, i⟩ ∈ d.monitor.registrations

theorem enrolled_empty : Enrolled .empty where
  issued := by simp [empty]
  distinct := by simp [empty]
  entered := by simp [empty]

/-- Whoever is there once a controller is added was there before, or is that one. -/
theorem found_of_added {added c : Controller} (h : (d.controllers ++ [added])[i]? = some c) :
    d.controllers[i]? = some c ∨ i = d.controllers.length ∧ c = added := by
  rcases Nat.lt_trichotomy i d.controllers.length with hlt | rfl | hgt
  · rw [List.getElem?_append_left hlt] at h
    exact .inl h
  · rw [List.getElem?_concat_length] at h
    exact .inr ⟨rfl, (Option.some.inj h).symm⟩
  · rw [List.getElem?_append_right (Nat.le_of_lt hgt), List.getElem?_eq_none] at h
    · exact absurd h nofun
    · simp only [List.length_singleton]
      omega

theorem Enrolled.start (h : d.Enrolled) (launch : Launch) : (d.start launch).1.Enrolled := by
  rcases d.start_cases launch with ⟨_, hsame⟩ | ⟨initial, _, _, hadded⟩
  · rwa [hsame]
  rw [hadded]
  refine ⟨?_, ?_, ?_⟩
  · intro i c hc
    rcases found_of_added hc with hold | ⟨_, rfl⟩
    · exact Nat.lt_succ_of_lt (h.issued i c hold)
    · exact Nat.lt_succ_self _
  · intro i j c c' hc hc' heq
    rcases found_of_added hc with hold | ⟨hi, rfl⟩ <;>
      rcases found_of_added hc' with hold' | ⟨hj, rfl⟩
    · exact h.distinct i j c c' hold hold' heq
    · exact absurd heq (Nat.ne_of_lt (h.issued i c hold))
    · exact absurd heq (Nat.ne_of_gt (h.issued j c' hold'))
    · rw [hi, hj]
  · intro i c hc halive
    rcases found_of_added hc with hold | ⟨rfl, rfl⟩
    · exact List.mem_append_left _ (h.entered i c hold halive)
    · exact List.mem_append_right _ List.mem_cons_self

/-- Unless the monitor is asked to, it strikes nobody who has an owner. -/
theorem Enrolled.kept (h : d.Enrolled) {m : Moment} {monitor : Monitor} (hbook : d.Book m monitor)
    (hm : ∀ id, m ≠ .act (.unregister id)) {c : Controller} (hc : d.controllers[i]? = some c)
    (halive : c.isAlive = true) (hstays : m ≠ .act (.shutdown i) ∧ m ≠ .act (.abandon i)) :
    ⟨c.registration, i⟩ ∈ monitor.registrations := by
  have hentered := h.entered i c hc halive
  cases hbook with
  | kept m hm => exact hentered
  | published valid =>
      have hopen : d.isOpen i = true := by
        rw [isOpen, hc]
        exact Controller.isOpen_of_isAlive halive
      unfold Monitor.publish
      split
      · exact hentered
      · exact List.mem_filter.mpr ⟨hentered, hopen⟩
  | entered j => exact List.mem_append_left _ hentered
  | struck id => exact absurd rfl (hm id)
  | @left m j c' hleft hc' halive' =>
      -- it strikes the identity of another controller
      refine List.mem_filter.mpr ⟨hentered, ?_⟩
      have hne : c.registration ≠ c'.registration := by
        intro heq
        cases h.distinct i j c c' hc hc' heq
        rcases hleft with rfl | rfl
        · exact hstays.1 rfl
        · exact hstays.2 rfl
      simpa using hne

theorem Book.nextId_le {m : Moment} {monitor : Monitor} (h : d.Book m monitor) :
    d.monitor.nextId ≤ monitor.nextId := by
  cases h with
  | kept m hm => exact Nat.le_refl _
  | published valid =>
      unfold Monitor.publish
      split <;> exact Nat.le_refl _
  | entered j => exact Nat.le_succ _
  | struck id => exact Nat.le_refl _
  | left m hm hc halive => exact Nat.le_refl _

/-- Whose owner shuts it down or abandons it is not alive any more. -/
theorem not_alive_of_left {m : Moment} (hm : m = .act (.shutdown i) ∨ m = .act (.abandon i))
    {c c' : Controller} (hc : d.controllers[i]? = some c) (hbefore : c.isAlive = true)
    (hc' : (d.meet m).controllers[i]? = some c') : c'.isAlive = false := by
  obtain ⟨segment, hlives, hdone⟩ := lives_of_meet hc hc'
  rw [← Bool.not_eq_true, hlives.tallies.alive]
  rintro ⟨_, hleft, hstopped⟩
  rcases hm with rfl | rfl
  · have htold : Occurrence.told .shutdown ∈ segment :=
      (mem_done hdone rfl).mpr (by simp [doneTo, hbefore])
    -- who waits for the shutdown sees the queue worked off
    have hdrained : c'.isAlive = true → c'.queue = [] := by
      intro halive
      have hsettled : ∃ d' : Deployment, d.meet (.act (.shutdown i)) = d'.settle := by
        simp only [meet, act, whileAlive, hc, hbefore, if_true]
        exact ⟨_, rfl⟩
      obtain ⟨d', hd'⟩ := hsettled
      rw [hd'] at hc'
      exact (rests_of_settled hc' halive).drained
    have halive : c'.isAlive = true := hlives.tallies.alive.mpr ⟨hbefore, hleft, hstopped⟩
    have hfifo := hlives.fifo halive
    rw [hdrained halive, List.append_nil] at hfifo
    have hqueued : Command.shutdown ∈ queued segment := mem_queued.mpr (.inl htold)
    exact hstopped (hfifo ▸ List.mem_append_right _ hqueued)
  · exact hleft ((mem_done hdone rfl).mpr (by simp [doneTo, hbefore]))

theorem Enrolled.meet (h : d.Enrolled) {m : Moment} (hm : ∀ id, m ≠ .act (.unregister id)) :
    (d.meet m).Enrolled := by
  by_cases hstart : ∃ launch, m = .act (.start launch)
  · obtain ⟨launch, rfl⟩ := hstart
    exact h.start launch
  have hnobody : ∀ launch, m ≠ .act (.start launch) := fun launch hm => hstart ⟨launch, hm⟩
  have hbook := (meet_books (d := d) m hnobody).book
  refine ⟨?_, ?_, ?_⟩
  · intro i c' hc'
    obtain ⟨c, hc, hsame, _⟩ := earlier_of_meet hnobody hc'
    rw [hsame]
    exact Nat.lt_of_lt_of_le (h.issued i c hc) hbook.nextId_le
  · intro i j c₁' c₂' hc₁' hc₂' heq
    obtain ⟨c₁, hc₁, hsame₁, _⟩ := earlier_of_meet hnobody hc₁'
    obtain ⟨c₂, hc₂, hsame₂, _⟩ := earlier_of_meet hnobody hc₂'
    exact h.distinct i j c₁ c₂ hc₁ hc₂ (by rw [← hsame₁, ← hsame₂, heq])
  · intro i c' hc' halive'
    obtain ⟨c, hc, hsame, halive⟩ := earlier_of_meet hnobody hc'
    rw [hsame]
    refine h.kept hbook hm hc (halive halive') ⟨fun hleft => ?_, fun hleft => ?_⟩
    · rw [not_alive_of_left (.inl hleft) hc (halive halive') hc'] at halive'
      exact Bool.false_ne_true halive'
    · rw [not_alive_of_left (.inr hleft) hc (halive halive') hc'] at halive'
      exact Bool.false_ne_true halive'

theorem enrolled_follow {moments : List Moment} (h : d.Enrolled)
    (hm : ∀ m ∈ moments, ∀ id, m ≠ .act (.unregister id)) : (d.follow moments).Enrolled := by
  induction moments generalizing d with
  | nil => exact h
  | cons m moments ih =>
      obtain ⟨hfirst, hrest⟩ := List.forall_mem_cons.mp hm
      exact ih (h.meet hfirst) hrest

end

end Deployment

end StallRecovery
