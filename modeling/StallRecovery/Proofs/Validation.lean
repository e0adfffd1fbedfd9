import Mathlib.Data.List.Basic
import StallRecovery.Policy.Settings
import StallRecovery.Proofs.Ladder

/-!
# What a policy keeps of its settings

Settings come with two tables of any length, and a policy has one rule for each step. Tables are
accepted if they have as many entries as there are steps, and then nothing of them is lost: the
entries stand with the steps of their places, and the settings can be told from what the policy
answers. Of the tables that are refused only the lengths matter, and the first of three objections
is raised.

Which step comes next is asked of the policy by a search. `Next` says which one that is without
searching.
-/

namespace StallRecovery

theorem Action.index_of_ofIndex? {i : Nat} {a : Action} (h : ofIndex? i = some a) :
    a.index = i := by
  rcases i with _ | _ | _ | _ | i
  iterate 4 cases h; rfl
  cases h

/-! ## Tables that are refused -/

/-- What is said of tables with so many delays and so many skip flags that do not fit the ladder:
the first of three objections that applies. -/
inductive Refused (delays skips : Nat) : String → Prop where
  | empty (hempty : delays = 0 ∨ skips = 0) : Refused delays skips "empty delay or skip table"
  | mismatch (hdelays : delays ≠ 0) (hskips : skips ≠ 0) (hmismatch : delays ≠ skips) :
      Refused delays skips ("delay table has " ++ toString delays ++ " entries but skip table has "
        ++ toString skips)
  | count (hdelays : delays ≠ 0) (hmatch : delays = skips) (hcount : delays ≠ Action.steps.length) :
      Refused delays skips ("expected " ++ toString Action.steps.length
        ++ " escalation steps, got " ++ toString delays)

namespace Refused

variable {delays skips : Nat} {text text' : String}

theorem unfit (h : Refused delays skips text) :
    ¬ (delays = Action.steps.length ∧ skips = Action.steps.length) := by
  rintro ⟨hdelays, hskips⟩
  have hsteps : Action.steps.length = 3 := rfl
  cases h with
  | empty hempty => omega
  | mismatch _ _ hmismatch => omega
  | count _ _ hcount => exact hcount hdelays

theorem unique (h : Refused delays skips text) (h' : Refused delays skips text') :
    text = text' := by
  cases h with
  | empty hempty =>
      cases h' with
      | empty => rfl
      | mismatch hdelays hskips => omega
      | count hdelays hmatch => omega
  | mismatch hdelays hskips hmismatch =>
      cases h' with
      | empty hempty => omega
      | mismatch => rfl
      | count _ hmatch => exact absurd hmatch hmismatch
  | count hdelays hmatch =>
      cases h' with
      | empty hempty => omega
      | mismatch _ _ hmismatch => exact absurd hmatch hmismatch
      | count => rfl

end Refused

/-! ## Tables that are accepted -/

/-- The entries of two tables side by side, counted from one, each with the action of its number. -/
def numbered (delays : List Nat) (skips : List Bool) : List (Action × StepRule) :=
  ((delays.zip skips).zipIdx 1).filterMap fun ((delay, skip), i) =>
    (Action.ofIndex? i).map fun a => (a, ⟨delay, skip⟩)

namespace Policy

variable {delays : List Nat} {skips : List Bool} {p : Policy} {a b : Action}

/-- Two tables become a policy with their entries, or are refused. -/
theorem ofTables_cases (delays : List Nat) (skips : List Bool) :
    (∃ p, ofTables delays skips = .ok p ∧ delays.length = Action.steps.length
        ∧ skips.length = Action.steps.length ∧ p.steps = numbered delays skips)
      ∨ ∃ d, ofTables delays skips = .error d
        ∧ Refused delays.length skips.length d.message := by
  unfold ofTables
  split
  · exact .inr ⟨_, rfl, .empty (.inl rfl)⟩
  · exact .inr ⟨_, rfl, .empty (.inr rfl)⟩
  · exact .inl ⟨_, rfl, rfl, rfl, rfl⟩
  · rename_i hdelays hskips hfit
    have hsome : delays.length ≠ 0 := fun h => hdelays (List.length_eq_zero_iff.mp h)
    have hsome' : skips.length ≠ 0 := fun h => hskips (List.length_eq_zero_iff.mp h)
    refine .inr ?_
    split
    · rename_i hmismatch
      exact ⟨_, rfl, .mismatch hsome hsome' hmismatch⟩
    · rename_i hmatch
      have hmatch := Decidable.not_not.mp hmatch
      refine ⟨_, rfl, .count hsome hmatch fun hcount => ?_⟩
      obtain ⟨d₁, d₂, d₃, rfl⟩ := List.length_eq_three.mp hcount
      obtain ⟨s₁, s₂, s₃, rfl⟩ := List.length_eq_three.mp (hmatch.symm.trans hcount)
      exact hfit d₁ d₂ d₃ s₁ s₂ s₃ rfl rfl

theorem steps_of_ofTables (h : ofTables delays skips = .ok p) :
    p.steps = numbered delays skips := by
  rcases ofTables_cases delays skips with ⟨p', hp', _, _, hsteps⟩ | ⟨d, hd, _⟩
  · cases hp'.symm.trans h
    exact hsteps
  · cases hd.symm.trans h

theorem ofTables_ok_iff : (∃ p, ofTables delays skips = .ok p)
    ↔ delays.length = Action.steps.length ∧ skips.length = Action.steps.length := by
  rcases ofTables_cases delays skips with ⟨p, hp, hdelays, hskips, _⟩ | ⟨d, hd, hrefused⟩
  · exact ⟨fun _ => ⟨hdelays, hskips⟩, fun _ => ⟨p, hp⟩⟩
  · rw [hd]
    exact ⟨nofun, fun hfit => absurd hfit hrefused.unfit⟩

theorem ofTables_error_iff {fault : Fault} :
    (ofTables delays skips).mapError Settings.Defect.fault = .error fault
      ↔ ∃ text, fault = .misconfigured text ∧ Refused delays.length skips.length text := by
  rcases ofTables_cases delays skips with ⟨p, hp, hdelays, hskips, _⟩ | ⟨d, hd, hrefused⟩
  · rw [hp]
    constructor
    · exact nofun
    · rintro ⟨text, _, hrefused⟩
      exact absurd ⟨hdelays, hskips⟩ hrefused.unfit
  · rw [hd]
    constructor
    · rintro ⟨⟩
      exact ⟨d.message, rfl, hrefused⟩
    · rintro ⟨text, rfl, htext⟩
      rw [htext.unique hrefused]
      rfl

/-! ## Which step comes next -/

/-- The least step above `a` that is not left out. -/
structure Next (p : Policy) (a b : Action) : Prop where
  above : a < b
  kept : p.isSkipped b = false
  least : ∀ c, a < c → p.isSkipped c = false → ¬ c < b

theorem Next.unique {b' : Action} (h : p.Next a b) (h' : p.Next a b') : b = b' := by
  have hle : ¬ b.index < b'.index := h'.least b h.above h.kept
  have hge : ¬ b'.index < b.index := h.least b' h'.above h'.kept
  have hindex : b.index = b'.index := by omega
  have hsome := Action.ofIndex?_index b
  rw [hindex, Action.ofIndex?_index] at hsome
  exact (Option.some.inj hsome).symm

/-- What lies above something is no baseline, so it is in the list unless it is left out. -/
theorem mem_eligible_of_above (h : a < b) (hkept : p.isSkipped b = false) : b ∈ p.eligible := by
  refine mem_eligible.mpr ⟨?_, hkept⟩
  rintro rfl
  exact Action.not_lt_baseline a h

theorem next_of_nextEligibleAfter? (h : p.nextEligibleAfter? a = some b) : p.Next a b := by
  obtain ⟨habove, below, above, hsplit, hpassed⟩ := List.find?_eq_some_iff_append.mp h
  have hmem : b ∈ p.eligible := List.mem_of_find?_eq_some h
  have hsorted := p.eligible_sorted
  rw [hsplit] at hsorted
  refine ⟨by simpa using habove, (mem_eligible.mp hmem).2, fun c hc hkept hlt => ?_⟩
  -- what the search has passed is not above `a`, and what comes after `b` is not below it
  have hmem' := mem_eligible_of_above hc hkept
  rw [hsplit] at hmem'
  rcases List.mem_append.mp hmem' with hbelow | hrest
  · have hnot := hpassed c hbelow
    simp [hc] at hnot
  · rcases List.mem_cons.mp hrest with rfl | hlater
    · exact Action.lt_irrefl c hlt
    · have hcons := (List.pairwise_append.mp hsorted).2.1
      exact Action.lt_asymm hlt ((List.pairwise_cons.mp hcons).1 c hlater)

theorem nextEligibleAfter?_eq_none_iff :
    p.nextEligibleAfter? a = none ↔ ∀ b, a < b → p.isSkipped b = true := by
  rw [nextEligibleAfter?, List.find?_eq_none]
  constructor
  · intro hnone b hb
    by_contra hkept
    have hmem := mem_eligible_of_above hb (Bool.eq_false_iff.mpr hkept)
    exact hnone b hmem (by simpa using hb)
  · intro hskipped b hmem hb
    have hkept := (mem_eligible.mp hmem).2
    rw [hskipped b (by simpa using hb)] at hkept
    cases hkept

theorem nextEligibleAfter?_eq_some_iff : p.nextEligibleAfter? a = some b ↔ p.Next a b := by
  refine ⟨next_of_nextEligibleAfter?, fun h => ?_⟩
  cases hnext : p.nextEligibleAfter? a with
  | none =>
      have hskipped := nextEligibleAfter?_eq_none_iff.mp hnext b h.above
      cases h.kept.symm.trans hskipped
  | some b' => rw [(next_of_nextEligibleAfter? hnext).unique h]

/-! ## What can be told from a policy -/

/-- The settings that a policy answers with. -/
def toSettings (p : Policy) : Settings where
  delays := Action.steps.map fun a => inMilliseconds (p.delayFor a)
  skips := Action.steps.map p.isSkipped
  threshold := p.threshold
  callGuard := p.callGuard
  enabled := p.enabled

/-- A step's rule is looked up at its place, and so is the first step's for the baseline. A wait for
want of any rule would never be used. -/
theorem delayFor_eq (p : Policy) (a : Action) (fallback : Nat) :
    ((p.rule? a).or (p.steps.head?.map (·.2))).elim fallback (·.delay) = p.delayFor a := by
  cases a <;> rfl

end Policy

namespace Settings

variable {s : Settings} {p : Policy}

/-- A policy that has everything from its settings and everything of them. -/
structure Kept (s : Settings) (p : Policy) : Prop where
  /-- It has the steps of the ladder, in order. -/
  steps : p.steps.map (·.1) = Action.steps
  /-- They have the entries of their places. -/
  numbered : p.steps = numbered (s.delays.map milliseconds) s.skips
  rules : ∀ i a, Action.ofIndex? (i + 1) = some a → p.rule? a = p.steps[i]?.map (·.2)
  delays : ∀ i a, Action.ofIndex? (i + 1) = some a →
    s.delays[i]?.map milliseconds = some (p.delayFor a)
  skips : ∀ i a, Action.ofIndex? (i + 1) = some a → s.skips[i]? = some (p.isSkipped a)
  /-- A wait for want of a rule is never used. -/
  covered : ∀ a fallback,
    ((p.rule? a).or (p.steps.head?.map (·.2))).elim fallback (·.delay) = p.delayFor a
  /-- The baseline waits as the first step does, left out or not. -/
  baseline : s.delays.head?.map milliseconds = some (p.delayFor .baseline)
  next : ∀ a b, p.nextEligibleAfter? a = some b ↔ p.Next a b
  last : ∀ a, p.nextEligibleAfter? a = none ↔ ∀ b, a < b → p.isSkipped b = true
  rebuilt : p.toSettings = s

/-- A policy is built from the two tables, and the rest of the settings is put into it. -/
theorem built_of_validate (h : s.validate = .ok p) :
    ∃ built, Policy.ofTables (s.delays.map milliseconds) s.skips = .ok built
      ∧ p = { built with
          threshold := s.threshold, callGuard := s.callGuard, enabled := s.enabled } := by
  rw [validate] at h
  cases htables : Policy.ofTables (s.delays.map milliseconds) s.skips with
  | error d => rw [htables] at h; cases h
  | ok built => rw [htables] at h; cases h; exact ⟨built, rfl, rfl⟩

/-- Settings that describe a policy have an entry for each step. -/
theorem entries_of_validate (h : s.validate = .ok p) : ∃ d₁ d₂ d₃ s₁ s₂ s₃,
    s.delays = [d₁, d₂, d₃] ∧ s.skips = [s₁, s₂, s₃]
      ∧ p = ⟨⟨milliseconds d₁, s₁⟩, ⟨milliseconds d₂, s₂⟩, ⟨milliseconds d₃, s₃⟩, s.threshold,
        s.callGuard, s.enabled⟩ := by
  obtain ⟨built, htables, rfl⟩ := built_of_validate h
  obtain ⟨hdelays, hskips⟩ := Policy.ofTables_ok_iff.mp ⟨built, htables⟩
  rw [List.length_map] at hdelays
  obtain ⟨d₁, d₂, d₃, hd⟩ := List.length_eq_three.mp hdelays
  obtain ⟨s₁, s₂, s₃, hs⟩ := List.length_eq_three.mp hskips
  rw [hd, hs] at htables
  cases htables
  exact ⟨d₁, d₂, d₃, s₁, s₂, s₃, hd, hs, rfl⟩

theorem rebuilt_of_validate (h : s.validate = .ok p) : p.toSettings = s := by
  obtain ⟨d₁, d₂, d₃, s₁, s₂, s₃, hdelays, hskips, rfl⟩ := entries_of_validate h
  cases s
  cases hdelays
  cases hskips
  simp [Policy.toSettings, Action.steps, Policy.delayFor, Policy.isSkipped, Policy.rule?,
    inMilliseconds_milliseconds]

theorem numbered_of_validate (h : s.validate = .ok p) :
    p.steps = numbered (s.delays.map milliseconds) s.skips := by
  obtain ⟨built, htables, rfl⟩ := built_of_validate h
  have hsteps : built.steps = numbered (s.delays.map milliseconds) s.skips :=
    Policy.steps_of_ofTables htables
  exact hsteps

theorem kept_of_validate (h : s.validate = .ok p) : Kept s p := by
  have hnumbered := numbered_of_validate h
  have hrebuilt := rebuilt_of_validate h
  obtain ⟨d₁, d₂, d₃, s₁, s₂, s₃, hdelays, hskips, hp⟩ := entries_of_validate h
  have hplaces : ∀ i a, Action.ofIndex? (i + 1) = some a →
      p.rule? a = p.steps[i]?.map (·.2)
        ∧ s.delays[i]?.map milliseconds = some (p.delayFor a)
        ∧ s.skips[i]? = some (p.isSkipped a) := by
    intro i a hi
    have hindex := Action.index_of_ofIndex? hi
    rw [hdelays, hskips, hp]
    cases a with
    | baseline => cases hindex
    | reestablishInternet => cases hindex; exact ⟨rfl, rfl, rfl⟩
    | radioPowerCycle => cases hindex; exact ⟨rfl, rfl, rfl⟩
    | modemReboot => cases hindex; exact ⟨rfl, rfl, rfl⟩
  exact {
    steps := rfl
    numbered := hnumbered
    rules := fun i a hi => (hplaces i a hi).1
    delays := fun i a hi => (hplaces i a hi).2.1
    skips := fun i a hi => (hplaces i a hi).2.2
    covered := p.delayFor_eq
    baseline := by rw [hdelays, hp]; rfl
    next := fun a b => Policy.nextEligibleAfter?_eq_some_iff
    last := fun a => Policy.nextEligibleAfter?_eq_none_iff
    rebuilt := hrebuilt }

/--
**Validation is exact and loses nothing.**

Tables are accepted exactly if each has as many entries as there are steps, and what is said of
others tells the first thing wrong with their lengths. The policy that settings describe keeps all
they say and has nothing from elsewhere, so no two settings describe the same one.
-/
theorem validation_exact_and_lossless :
    (∀ delays skips, (∃ p, Policy.ofTables delays skips = .ok p)
        ↔ delays.length = Action.steps.length ∧ skips.length = Action.steps.length)
      ∧ (∀ delays skips fault, (Policy.ofTables delays skips).mapError Defect.fault = .error fault
        ↔ ∃ text, fault = .misconfigured text ∧ Refused delays.length skips.length text)
      ∧ ∀ s p, s.validate = .ok p → Kept s p ∧ ∀ s' : Settings, s'.validate = .ok p → s' = s := by
  refine ⟨fun _ _ => Policy.ofTables_ok_iff, fun _ _ _ => Policy.ofTables_error_iff,
    fun s p h => ?_⟩
  have hkept := kept_of_validate h
  refine ⟨hkept, fun s' h' => ?_⟩
  rw [← rebuilt_of_validate h', hkept.rebuilt]

/-- Settings that leave the first step out and the last, and let the first run during a call. -/
def patchy : Settings where
  delays := [1000, 2000, 3000]
  skips := [true, false, true]
  threshold := 3
  callGuard := .beyondFirstStep
  enabled := true

theorem validation_exact_and_lossless_patchy : ∃ p, patchy.validate = .ok p ∧ Kept patchy p
    ∧ p.delayFor .baseline = milliseconds 1000
    ∧ p.nextEligibleAfter? .baseline = some .radioPowerCycle
    ∧ p.nextEligibleAfter? .radioPowerCycle = none :=
  ⟨_, rfl, (validation_exact_and_lossless.2.2 patchy _ rfl).1, rfl, rfl, rfl⟩

end Settings

end StallRecovery
