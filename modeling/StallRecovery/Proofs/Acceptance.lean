import StallRecovery.Scenario

/-!
# Which scenarios are accepted

The steps of a scenario are checked in one pass that remembers nothing but the time of the step
before. `Faulty` says what is wrong with a step wherever it stands, and looks at its neighbour
alone. That neighbours in order put all the steps in order, and that the pass stops at the first
step that is faulty, are the two facts of this module.

The pass starts with a time of zero, as if a step had come before the first one. No time is earlier
than that, so the first step is never out of order.
-/

namespace StallRecovery.Scenario

/-- The step says something about the network, the signal or a call. -/
def Step.Changes (s : Step) : Prop :=
  s.validation ≠ none ∨ s.signal ≠ none ∨ s.inCall ≠ none ∨ s.signalUnavailable ≠ none

instance (s : Step) : Decidable s.Changes :=
  inferInstanceAs (Decidable (s.validation ≠ none ∨ s.signal ≠ none ∨ s.inCall ≠ none
    ∨ s.signalUnavailable ≠ none))

/-- Step `i` is earlier than the step before it. -/
def Misplaced (steps : List Step) (i : Nat) : Prop :=
  ∃ j before s, i = j + 1 ∧ steps[j]? = some before ∧ steps[i]? = some s ∧ s.atMs < before.atMs

/-- Step `i` changes nothing, or is out of order. -/
def Faulty (steps : List Step) (i : Nat) : Prop :=
  (∃ s, steps[i]? = some s ∧ ¬ s.Changes) ∨ Misplaced steps i

/-- What is reported of a faulty step at a place. To change nothing counts first. -/
inductive Reported (i : Nat) (s : Step) : Defect → Prop where
  | emptyStep (hempty : ¬ s.Changes) : Reported i s (.emptyStep i s.atMs)
  | outOfOrder (hchanges : s.Changes) : Reported i s (.outOfOrder i s.atMs)

theorem Step.isEmpty_iff {s : Step} : s.isEmpty = true ↔ ¬ s.Changes := by
  simp [Step.isEmpty, Step.Changes, and_assoc]

/-! ## The pass over the steps -/

/-- Step `i` is faulty where a step at `last` comes before the first one. -/
def FaultyAfter (last : Nat) : List Step → Nat → Prop
  | [], _ => False
  | s :: _, 0 => ¬ s.Changes ∨ s.atMs < last
  | s :: rest, i + 1 => FaultyAfter s.atMs rest i

theorem faultyAfter_succ {last : Nat} {steps : List Step} {i : Nat} :
    FaultyAfter last steps (i + 1) ↔ Faulty steps (i + 1) := by
  induction steps generalizing last i with
  | nil => simp [FaultyAfter, Faulty, Misplaced]
  | cons s rest ih =>
      rw [FaultyAfter]
      cases i with
      | zero =>
          cases rest with
          | nil => simp [FaultyAfter, Faulty, Misplaced]
          | cons s' rest => simp [FaultyAfter, Faulty, Misplaced]
      | succ i =>
          rw [ih]
          simp [Faulty, Misplaced]

/-- No step is earlier than zero. -/
theorem faultyAfter_zero {steps : List Step} {i : Nat} :
    FaultyAfter 0 steps i ↔ Faulty steps i := by
  cases i with
  | succ i => exact faultyAfter_succ
  | zero =>
      cases steps with
      | nil => simp [FaultyAfter, Faulty, Misplaced]
      | cons s rest => simp [FaultyAfter, Faulty, Misplaced]

theorem Reported.unique {i : Nat} {s : Step} {d d' : Defect} (h : Reported i s d)
    (h' : Reported i s d') : d = d' := by
  cases h with
  | emptyStep hempty =>
      cases h' with
      | emptyStep hempty' => rfl
      | outOfOrder hchanges => exact absurd hchanges hempty
  | outOfOrder hchanges =>
      cases h' with
      | emptyStep hempty => exact absurd hchanges hempty
      | outOfOrder hchanges' => rfl

theorem firstDefect_of_faulty {s : Step} {last : Nat} (h : ¬ s.Changes ∨ s.atMs < last)
    (index : Nat) (rest : List Step) :
    ∃ d, firstDefect? index last (s :: rest) = some d ∧ Reported index s d := by
  rw [firstDefect?]
  split
  · rename_i hempty
    exact ⟨_, rfl, .emptyStep (Step.isEmpty_iff.mp hempty)⟩
  · rename_i hnot
    have hchanges : s.Changes := Decidable.not_not.mp fun h => hnot (Step.isEmpty_iff.mpr h)
    have hearly : s.atMs < last := h.resolve_left (not_not_intro hchanges)
    rw [if_pos hearly]
    exact ⟨_, rfl, .outOfOrder hchanges⟩

theorem firstDefect_of_sound {s : Step} {last : Nat} (h : ¬ (¬ s.Changes ∨ s.atMs < last))
    (index : Nat) (rest : List Step) :
    firstDefect? index last (s :: rest) = firstDefect? (index + 1) s.atMs rest := by
  obtain ⟨hchanges, hlast⟩ := not_or.mp h
  rw [firstDefect?, if_neg fun hempty => hchanges (Step.isEmpty_iff.mp hempty), if_neg hlast]

/-- The pass stops at the first faulty step and reports that. -/
theorem firstDefect_eq_some_iff {steps : List Step} {index last : Nat} {d : Defect} :
    firstDefect? index last steps = some d
      ↔ ∃ i s, steps[i]? = some s ∧ FaultyAfter last steps i
        ∧ (∀ j < i, ¬ FaultyAfter last steps j) ∧ Reported (index + i) s d := by
  induction steps generalizing index last with
  | nil => simp [firstDefect?]
  | cons s rest ih =>
      by_cases hfirst : ¬ s.Changes ∨ s.atMs < last
      · obtain ⟨d', hd', hreported⟩ := firstDefect_of_faulty hfirst index rest
        rw [hd', Option.some.injEq]
        constructor
        · rintro rfl
          exact ⟨0, s, rfl, hfirst, nofun, hreported⟩
        · rintro ⟨i, s', hs', _, hleast, hreported'⟩
          -- the first step is faulty already, so none before it could be the least
          cases i with
          | zero =>
              cases hs'
              exact hreported.unique hreported'
          | succ i => exact absurd hfirst (hleast 0 (Nat.succ_pos i))
      · rw [firstDefect_of_sound hfirst, ih]
        constructor
        · rintro ⟨i, s', hs', hfaulty, hleast, hreported⟩
          refine ⟨i + 1, s', hs', hfaulty, ?_, ?_⟩
          · intro j hj
            cases j with
            | zero => exact hfirst
            | succ j => exact hleast j (Nat.lt_of_succ_lt_succ hj)
          · rwa [Nat.add_right_comm] at hreported
        · rintro ⟨i, s', hs', hfaulty, hleast, hreported⟩
          cases i with
          | zero => exact absurd hfaulty hfirst
          | succ i =>
              refine ⟨i, s', hs', hfaulty, fun j hj => hleast (j + 1) (Nat.succ_lt_succ hj), ?_⟩
              rwa [Nat.add_right_comm]

/-- The pass comes to the end if every step changes something and none is earlier than the one
before it, which puts all of them in order. -/
theorem firstDefect_eq_none_iff {steps : List Step} {index last : Nat} :
    firstDefect? index last steps = none
      ↔ (∀ s ∈ steps, s.Changes) ∧ (∀ s ∈ steps, last ≤ s.atMs)
        ∧ steps.Pairwise (·.atMs ≤ ·.atMs) := by
  induction steps generalizing index last with
  | nil => simp [firstDefect?]
  | cons s rest ih =>
      rw [List.forall_mem_cons, List.forall_mem_cons, List.pairwise_cons]
      by_cases hfirst : ¬ s.Changes ∨ s.atMs < last
      · obtain ⟨d, hd, _⟩ := firstDefect_of_faulty hfirst index rest
        rw [hd]
        constructor
        · exact nofun
        · rintro ⟨⟨hchanges, _⟩, ⟨hlast, _⟩, _⟩
          exact absurd hfirst (not_or.mpr ⟨not_not_intro hchanges, Nat.not_lt_of_le hlast⟩)
      · rw [firstDefect_of_sound hfirst, ih]
        obtain ⟨hchanges, hlast⟩ := not_or.mp hfirst
        have hle : last ≤ s.atMs := Nat.le_of_not_lt hlast
        constructor
        · rintro ⟨hrest, hlater, hsorted⟩
          exact ⟨⟨Decidable.not_not.mp hchanges, hrest⟩,
            ⟨hle, fun s' hs' => Nat.le_trans hle (hlater s' hs')⟩, hlater, hsorted⟩
        · rintro ⟨⟨_, hrest⟩, _, hlater, hsorted⟩
          exact ⟨hrest, hlater, hsorted⟩

/-- The steps of an accepted scenario are in the order of their times. -/
theorem sorted_of_accepted {scenario : Scenario} (h : scenario.defect? = none) :
    scenario.steps.Pairwise (·.atMs ≤ ·.atMs) := (firstDefect_eq_none_iff.mp h).2.2

/--
**A scenario is accepted exactly if all its steps are in order and change something.**

Otherwise the defect is that of the first faulty step there is, at its place and with its time: that
it changes nothing, if that is so, and else that it is earlier than the step before it. The first
step is never out of order.
-/
theorem defect_exact (scenario : Scenario) :
    (scenario.defect? = none
        ↔ (∀ s ∈ scenario.steps, s.Changes) ∧ scenario.steps.Pairwise (·.atMs ≤ ·.atMs))
      ∧ (∀ d, scenario.defect? = some d
        ↔ ∃ i s, scenario.steps[i]? = some s ∧ Faulty scenario.steps i
          ∧ (∀ j < i, ¬ Faulty scenario.steps j) ∧ Reported i s d)
      ∧ ∀ t, scenario.defect? ≠ some (.outOfOrder 0 t) := by
  have hfirst : ∀ d, scenario.defect? = some d
      ↔ ∃ i s, scenario.steps[i]? = some s ∧ Faulty scenario.steps i
        ∧ (∀ j < i, ¬ Faulty scenario.steps j) ∧ Reported i s d := by
    intro d
    rw [defect?, firstDefect_eq_some_iff]
    simp only [faultyAfter_zero, Nat.zero_add]
  refine ⟨?_, hfirst, ?_⟩
  · rw [defect?, firstDefect_eq_none_iff]
    simp
  · intro t ht
    obtain ⟨i, s, hs, hfaulty, _, hreported⟩ := (hfirst _).mp ht
    cases hreported with
    | outOfOrder hchanges =>
        rcases hfaulty with ⟨s', hs', hempty⟩ | ⟨j, before, s', hj, _⟩
        · cases hs.symm.trans hs'
          exact hempty hchanges
        · exact absurd hj (Nat.zero_ne_add_one j)

end StallRecovery.Scenario
