import StallRecovery.Proofs.Clearance
import StallRecovery.Proofs.Forgetting
import StallRecovery.Proofs.Ghosts

/-!
# A weak signal ends recovery quietly

Two branches of a decision deal with a signal that is too weak, one before an episode is open and
one after, and a machine without a policy that can act takes neither. They leave the same state but
for one field: where the policy cannot act, a re-check may still be pending. Coherence supplies the
rest, since a policy that cannot act has no episode open.

`Subdued` is what they have in common, and it allows for that re-check: it is pending only under a
policy that will make nothing of it. Any input keeps a machine subdued that neither reports the
network as not valid nor brings a policy.
-/

namespace StallRecovery

/-- Nothing was tried, no episode is open, and no policy that can act has a re-check to come. -/
structure Machine.Subdued (m : Machine) : Prop where
  untried : m.state.action = .baseline
  closed : m.state.episodeStarted = none
  unwatched : ∀ p, m.policy = some p → p.isActive = true → m.state.deadline = none

/-- What a decision upon a signal of this level leaves: an episode that was open is reset. -/
structure Machine.Weakened (m : Machine) (now : Nat) (level : UInt8) (m' : Machine)
    (out : Outcome) : Prop where
  undispatched : out.dispatch = none
  untried : m'.state.action = .baseline
  closed : m'.state.episodeStarted = none
  unwatched : m'.state.deadline = none
  reported : out.events = match m.state.episodeStarted with
    | none => []
    | some t => [.reset m.state.action .weakSignal (some (now - t)) (some level)]

section

variable {m m' : Machine} {x : Stimulus} {out : Outcome} {p : Policy} {level : UInt8}

/-! ## Upon a weak signal -/

theorem Machine.Weakened.subdued {now : Nat} (h : m.Weakened now level m' out) : m'.Subdued :=
  ⟨h.untried, h.closed, fun _ _ _ => h.unwatched⟩

theorem weakened_of_decision {trigger : Trigger} {s s' : State} (h : Coherent m)
    (hask : Asks m x trigger s) (hsignal : x.readings.signal = .ok level)
    (hlevel : level < p.threshold) (hdec : Decision p trigger x.now x.readings s s' out) :
    m.Weakened x.now level ⟨some p, s'⟩ out := by
  have hconsult : s.consulted p x.readings = ⟨.weakSignal level, [.signal]⟩ :=
    consult_of_weak hsignal hlevel _
  obtain ⟨haction, hepisode, _⟩ := hask.kept
  have hidle : s.isIdle = m.state.isIdle := by rw [State.isIdle, haction, hepisode, State.isIdle]
  cases hdec with
  | quiet _ _ hq =>
      obtain ⟨hbase, hclosed⟩ := State.isIdle_iff.mp hq
      refine ⟨rfl, hbase, hclosed, rfl, ?_⟩
      rw [← hepisode, hclosed]
  | ended level' hweak hbusy =>
      obtain rfl : level = level' := by simpa [hconsult] using hweak
      rw [hidle] at hbusy
      obtain ⟨t, ht⟩ := h.open_of_busy hbusy
      have hopening : s.opening = [] := State.opening_of_open (by rw [hepisode, ht]; rfl)
      refine ⟨rfl, rfl, rfl, rfl, ?_⟩
      simp [hopening, haction, hepisode, ht]
  | held reason hhold => simp [hconsult, Verdict.hold?] at hhold
  | waited hproceed hstep hreport hearly => simp [hconsult] at hproceed
  | escalated hproceed hdue => simp [hconsult] at hproceed

/-- A policy that can act resets upon a weak signal whatever it was to decide. -/
theorem weakened_of_move (h : Coherent m) (hp : m.policy = some p) (hactive : p.isActive = true)
    (hcause : x.input = .validation false
      ∨ x.input = .recheck ∧ ∃ d, m.state.deadline = some d ∧ d ≤ x.now)
    (hsignal : x.readings.signal = .ok level) (hlevel : level < p.threshold)
    (hmove : Move m x m' out) : m.Weakened x.now level m' out := by
  obtain ⟨trigger, s, s', hask, rfl, hdec⟩ := hmove.decided_of_cause hp hactive hcause
  exact weakened_of_decision h hask hsignal hlevel hdec

/-- A policy that cannot act is subdued by a report, whatever the signal. -/
theorem subdued_of_inert (h : Coherent m) (hp : m.policy = some p) (hinert : p.isActive = false)
    (hin : x.input = .validation false) (hmove : Move m x m' out) :
    out.dispatch = none ∧ m'.Subdued := by
  cases hmove with
  | refused f hin' => cases hin.symm.trans hin'
  | failed a f hin' => cases hin.symm.trans hin'
  | recovered hin' => cases hin.symm.trans hin'
  | replaced q hin' => cases hin.symm.trans hin'
  | early hin' hnot => cases hin.symm.trans hin'
  | inert trigger s hask hnone =>
      obtain ⟨haction, hepisode, _⟩ := hask.kept
      have hclosed : m.state.episodeStarted = none := h.closed_of_inert hnone
      refine ⟨rfl, haction.trans (h.untried hclosed).1, hepisode.trans hclosed, ?_⟩
      intro q hq hcan
      rw [hnone q hq] at hcan
      exact absurd hcan (by simp)
  | decided q trigger s s' out hask hq hcan hdec =>
      cases hp.symm.trans hq
      rw [hinert] at hcan
      exact absurd hcan (by simp)

/-! ## Until the next report or policy -/

theorem subdued_move (hsub : m.Subdued) (hreport : x.input ≠ .validation false)
    (hreload : ∀ q, x.input ≠ .reload q) (hmove : Move m x m' out) : m'.Subdued ∧ out.Idle := by
  cases hmove with
  | refused f hin => exact ⟨hsub, rfl, rfl⟩
  | failed a f hin => exact ⟨hsub, rfl, rfl⟩
  | early hin hnot => exact ⟨hsub, rfl, rfl⟩
  | recovered hin => exact ⟨⟨rfl, rfl, fun _ _ _ => rfl⟩, rfl, rfl⟩
  | replaced q hin => exact absurd hin (hreload q)
  | inert trigger s hask hnone =>
      obtain ⟨haction, hepisode, _⟩ := hask.kept
      refine ⟨⟨haction.trans hsub.untried, hepisode.trans hsub.closed, ?_⟩, rfl, rfl⟩
      intro q hq hcan
      rw [hnone q hq] at hcan
      exact absurd hcan (by simp)
  | decided q trigger s s' out hask hq hcan hdec =>
      -- there is no re-check that a decision could come from
      cases hask with
      | report hin => exact absurd hin hreport
      | recheck hin hdue =>
          rw [hsub.unwatched q hq hcan] at hdue
          exact absurd hdue (by simp)

/-- **A subdued machine does nothing of its own.** -/
theorem subdued_run (h : Coherent m) (hsub : m.Subdued) {ys : List Stimulus}
    (hys : ∀ y ∈ ys, y.input ≠ .validation false ∧ ∀ q, y.input ≠ .reload q) :
    ∀ out ∈ (m.run ys).2, out.Idle := by
  induction ys generalizing m with
  | nil => exact nofun
  | cons y ys ih =>
      obtain ⟨hreport, hreload⟩ := hys y List.mem_cons_self
      have hmove := move_step h y
      obtain ⟨hsub', hidle⟩ := subdued_move hsub hreport hreload hmove
      have hidles := ih (coherent_move h hmove) hsub' fun z hz => hys z (List.mem_cons_of_mem y hz)
      exact List.forall_mem_cons.mpr ⟨hidle, hidles⟩

end

/--
**A weak signal ends recovery at the baseline, and quietly.**

Whatever a machine with a policy has been through, a report that the network is not valid at a
signal below the threshold dispatches nothing, and leaves nothing tried and no episode open. Under a
policy that can act so does a re-check that is due; no re-check is left then, and an episode is
reset with that level exactly if it was open. Afterwards nothing is dispatched and no source is
asked until the network is reported as not valid again or a policy is loaded.
-/
theorem weak_signal_ends_quietly (initial : Except Fault Policy) (xs : List Stimulus)
    (x : Stimulus) {p : Policy} {level : UInt8}
    (hp : ((Machine.start initial).run xs).1.policy = some p)
    (hsignal : x.readings.signal = .ok level) (hlevel : level < p.threshold) :
    let m := ((Machine.start initial).run xs).1
    let m' := (m.step x).1
    let out := (m.step x).2
    let acts := p.enabled = true ∧ ∃ a, a ≠ .baseline ∧ p.isSkipped a = false
    let due := x.input = .recheck ∧ ∃ d, m.state.deadline = some d ∧ d ≤ x.now
    (x.input = .validation false →
      out.dispatch = none ∧ m'.state.action = .baseline ∧ m'.state.episodeStarted = none)
      ∧ (acts → x.input = .validation false ∨ due → m.Weakened x.now level m' out)
      ∧ (x.input = .validation false ∨ acts ∧ due →
        ∀ ys : List Stimulus,
          (∀ y ∈ ys, y.input ≠ .validation false ∧ ∀ q, y.input ≠ .reload q) →
          ∀ out ∈ (m'.run ys).2, out.dispatch = none ∧ out.asked = []) := by
  intro m m' out acts due
  have h : Coherent m := coherent_reachable ((reachable_start initial).run xs)
  have hmove : Move m x m' out := move_step h x
  have hweakened : acts → x.input = .validation false ∨ due → m.Weakened x.now level m' out :=
    fun hacts hcause => weakened_of_move h hp (Policy.isActive_of_left hacts.1 hacts.2) hcause
      hsignal hlevel hmove
  have hreport : x.input = .validation false → out.dispatch = none ∧ m'.Subdued := by
    intro hin
    cases hactive : p.isActive with
    | true =>
        have hweak := weakened_of_move h hp hactive (.inl hin) hsignal hlevel hmove
        exact ⟨hweak.undispatched, hweak.subdued⟩
    | false => exact subdued_of_inert h hp hactive hin hmove
  refine ⟨?_, hweakened, ?_⟩
  · intro hin
    obtain ⟨hnone, hsub⟩ := hreport hin
    exact ⟨hnone, hsub.untried, hsub.closed⟩
  · intro hcause ys hys
    have hsub : m'.Subdued := by
      rcases hcause with hin | ⟨hacts, hdue⟩
      · exact (hreport hin).2
      · exact (hweakened hacts (.inr hdue)).subdued
    exact subdued_run (coherent_move h hmove) hsub hys

/-- A signal that fades after the first step resets the episode, and the re-check and the valid
report that follow find nothing to do. -/
theorem fading_signal_ends_quietly :
    let m := ((Machine.start (.ok .standard)).run [reportedAt 0 4]).1
    let faded : Readings := ⟨.ok 1, .ok .active⟩
    let x : Stimulus := ⟨.recheck, defaultDelay, faded⟩
    let m' := (m.step x).1
    m.policy = some .standard ∧ x.readings.signal = .ok 1 ∧ 1 < Policy.standard.threshold
      ∧ m.state.episodeStarted = some 0
      ∧ m.Weakened x.now 1 m' (m.step x).2
      ∧ ∀ out ∈ (m'.run [⟨.recheck, 2 * defaultDelay, faded⟩,
          ⟨.validation true, 3 * defaultDelay, faded⟩]).2,
          out.dispatch = none ∧ out.asked = [] := by
  intro m faded x m'
  have hp : m.policy = some .standard := by decide
  have hlevel : 1 < Policy.standard.threshold := by decide
  have hd : m.state.deadline = some defaultDelay := by decide
  have hacts : Policy.standard.enabled = true
      ∧ ∃ a, a ≠ .baseline ∧ Policy.standard.isSkipped a = false :=
    ⟨rfl, .modemReboot, by decide, rfl⟩
  have hdue : x.input = .recheck ∧ ∃ d, m.state.deadline = some d ∧ d ≤ x.now :=
    ⟨rfl, defaultDelay, hd, Nat.le_refl _⟩
  obtain ⟨_, hweakened, hidle⟩ :=
    weak_signal_ends_quietly (.ok .standard) [reportedAt 0 4] x hp rfl hlevel
  refine ⟨hp, rfl, hlevel, by decide, hweakened hacts (.inr hdue), hidle (.inr ⟨hacts, hdue⟩) _ ?_⟩
  intro y hy
  rcases List.mem_cons.mp hy with rfl | hlast
  · exact ⟨nofun, nofun⟩
  · obtain rfl := List.mem_singleton.mp hlast
    exact ⟨nofun, nofun⟩

end StallRecovery
