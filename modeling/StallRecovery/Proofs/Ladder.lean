import StallRecovery.Policy

/-!
# Climbing the ladder

A policy leaves some steps in and others out. `nextEligibleAfter?` searches the ones left in, upward
from the current rung, and this module says what the search finds.

The steps left in are strictly increasing, so the search from one of them stops at the very next
one, and from the last of them it finds nothing. That is all there is to the order of an episode:
after `k` dispatches it stands on `rung k`, and `target` takes it from there to `rung (k + 1)`.
-/

namespace StallRecovery

namespace Action

theorem baseline_lt {a : Action} : baseline < a ↔ a ≠ baseline := by cases a <;> decide

theorem lt_irrefl (a : Action) : ¬ a < a := Nat.lt_irrefl a.index

theorem lt_asymm {a b : Action} (h : a < b) : ¬ b < a := Nat.lt_asymm h

theorem not_lt_baseline (a : Action) : ¬ a < baseline := Nat.not_lt_zero a.index

theorem not_final_lt (a : Action) : ¬ final < a := by cases a <;> decide

end Action

namespace Policy

theorem mem_eligible {p : Policy} {a : Action} :
    a ∈ p.eligible ↔ a ≠ .baseline ∧ p.isSkipped a = false := by
  simp [eligible, Action.mem_steps]

/-- The steps left in come in the order of the ladder. -/
theorem eligible_sorted (p : Policy) : p.eligible.Pairwise (· < ·) := by
  have hsteps : Action.steps.Pairwise (· < ·) := by decide
  exact hsteps.filter _

theorem nextEligibleAfter?_baseline (p : Policy) :
    p.nextEligibleAfter? .baseline = p.eligible.head? := by
  unfold nextEligibleAfter?
  cases he : p.eligible with
  | nil => rfl
  | cons a as =>
      have ha : a ∈ p.eligible := by rw [he]; exact List.mem_cons_self
      have hlt : Action.baseline < a := Action.baseline_lt.mpr (mem_eligible.mp ha).1
      simp [hlt]

/-- A policy can act when it is enabled and leaves some step in. -/
theorem isActive_iff {p : Policy} : p.isActive = true ↔ p.enabled = true ∧ p.eligible ≠ [] := by
  simp [isActive, nextEligibleAfter?_baseline]

theorem isActive_of_left {p : Policy} (henabled : p.enabled = true)
    (hleft : ∃ a, a ≠ .baseline ∧ p.isSkipped a = false) : p.isActive = true := by
  obtain ⟨a, ha⟩ := hleft
  have hmem : a ∈ p.eligible := mem_eligible.mpr ha
  exact isActive_iff.mpr ⟨henabled, List.ne_nil_of_mem hmem⟩

/-- A policy that can act always has a step to perform, from anywhere it can be. -/
theorem target_mem {p : Policy} (hne : p.eligible ≠ []) {a : Action}
    (ha : a ≠ .baseline → a ∈ p.eligible) : p.target a ∈ p.eligible := by
  unfold target
  cases hnext : p.nextEligibleAfter? a with
  | some b => exact List.mem_of_find?_eq_some hnext
  | none =>
      -- the step stays, and it is not the baseline, out of which something would be found
      refine ha ?_
      rintro rfl
      rw [nextEligibleAfter?_baseline, List.head?_eq_none_iff] at hnext
      exact hne hnext

/-! ## The rungs of an episode -/

/-- Where an episode stands after `k` dispatches: on the baseline before the first, then on each
step left in, in order, and on the last of them for ever. -/
def rung (p : Policy) (k : Nat) : Action :=
  (.baseline :: p.eligible).get
    ⟨min k p.eligible.length, Nat.lt_succ_of_le (Nat.min_le_right k p.eligible.length)⟩

@[simp]
theorem rung_zero (p : Policy) : p.rung 0 = .baseline := by simp [rung]

/-- Every dispatch of an episode performs a step that is left in. -/
theorem rung_mem {p : Policy} (hne : p.eligible ≠ []) (k : Nat) : p.rung (k + 1) ∈ p.eligible := by
  have hpos : 0 < p.eligible.length := List.length_pos_iff.mpr hne
  obtain ⟨j, hj⟩ : ∃ j, min (k + 1) p.eligible.length = j + 1 :=
    ⟨min (k + 1) p.eligible.length - 1, by omega⟩
  have hlt : j < p.eligible.length := by omega
  have hget : p.rung (k + 1) = p.eligible[j] := by simp [rung, hj]
  rw [hget]
  exact List.getElem_mem hlt

/-- In a sorted list of rungs, the search upward from one of them finds the next one. -/
theorem find?_above {l : List Action} (hs : l.Pairwise (· < ·)) {k : Nat} (hk : k < l.length) :
    l.find? (l[k] < ·) = l[k + 1]? := by
  induction l generalizing k with
  | nil => exact absurd hk (by simp)
  | cons a as ih =>
      obtain ⟨ha, has⟩ := List.pairwise_cons.mp hs
      cases k with
      | zero =>
          cases as with
          | nil => simp [Action.lt_irrefl]
          | cons b bs =>
              have hab : a < b := ha b List.mem_cons_self
              simp [Action.lt_irrefl, hab]
      | succ k =>
          -- the head lies below the rung searched from, so the search passes it by
          have hk' : k < as.length := Nat.lt_of_succ_lt_succ hk
          have hlt : a < as[k] := ha _ (List.getElem_mem hk')
          simp only [List.getElem_cons_succ, List.getElem?_cons_succ]
          rw [List.find?_cons_of_neg (by simpa using Action.lt_asymm hlt)]
          exact ih has hk'

/-- The step to perform from the `j`-th rung, if there is a rung above it. -/
theorem nextEligibleAfter?_get (p : Policy) {j : Nat}
    (hj : j < (Action.baseline :: p.eligible).length) :
    p.nextEligibleAfter? (Action.baseline :: p.eligible)[j] = p.eligible[j]? := by
  have hsorted : (Action.baseline :: p.eligible).Pairwise (· < ·) :=
    List.pairwise_cons.mpr
      ⟨fun a ha => Action.baseline_lt.mpr (mem_eligible.mp ha).1, p.eligible_sorted⟩
  have hfind := find?_above hsorted hj
  -- the baseline lies above no rung, so the search may as well begin with it
  rwa [List.find?_cons_of_neg (by simp [Action.not_lt_baseline]), List.getElem?_cons_succ] at hfind

/-- **An episode climbs rung by rung**: the step to perform after `k` dispatches is the one that
takes it to `rung (k + 1)`, so none is jumped and the last is repeated. -/
theorem target_rung (p : Policy) (k : Nat) : p.target (p.rung k) = p.rung (k + 1) := by
  unfold target
  rcases Nat.lt_or_ge k p.eligible.length with hk | hk
  · have hlen : k < (Action.baseline :: p.eligible).length := Nat.lt_succ_of_lt hk
    have hrung : p.rung k = (Action.baseline :: p.eligible)[k] := by
      simp [rung, Nat.min_eq_left (Nat.le_of_lt hk)]
    have hnext : p.rung (k + 1) = p.eligible[k] := by
      simp [rung, Nat.min_eq_left (Nat.succ_le_of_lt hk)]
    rw [hrung, nextEligibleAfter?_get, List.getElem?_eq_getElem hk, hnext]
    rfl
  · -- nothing lies above the last rung, so it is performed again
    have hrung : ∀ i, p.eligible.length ≤ i →
        p.rung i = (Action.baseline :: p.eligible)[p.eligible.length] := by
      intro i hi
      simp [rung, Nat.min_eq_right hi]
    rw [hrung k hk, hrung (k + 1) (Nat.le_succ_of_le hk), nextEligibleAfter?_get,
      List.getElem?_eq_none (Nat.le_refl _)]
    rfl

/-- The rungs above the baseline are the steps left in, and then the last of them for ever. -/
theorem rungs_prefix {p : Policy} (hne : p.eligible ≠ []) (n : Nat) :
    (List.range n).map (fun i => p.rung (i + 1))
      <+: p.eligible ++ List.replicate n (p.eligible.getLast hne) := by
  rw [List.prefix_iff_getElem?]
  intro i hi
  have hin : i < n := by simpa using hi
  simp only [List.getElem_map, List.getElem_range]
  rcases Nat.lt_or_ge i p.eligible.length with h | h
  · rw [List.getElem?_append_left h, List.getElem?_eq_getElem h]
    simp [rung, Nat.min_eq_left (Nat.succ_le_of_lt h)]
  · rw [List.getElem?_append_right h, List.getElem?_replicate, if_pos (by omega),
      List.getLast_eq_getElem]
    have hpos : 0 < p.eligible.length := List.length_pos_iff.mpr hne
    obtain ⟨j, hj⟩ : ∃ j, p.eligible.length = j + 1 := ⟨p.eligible.length - 1, by omega⟩
    simp [rung, hj, Nat.min_eq_right (show j ≤ i by omega)]

end Policy

end StallRecovery
