import Mathlib
import StallRecovery.Proofs.Causality
import StallRecovery.Scenario.File
import StallRecovery.Simulation.Report

/-!
# How far a scenario reaches

An integer of a scenario file is a signed word, so every time in it takes at most half of an
unsigned one. A run ends some time after its last step, and these are two such times: their sum is
still an unsigned word. The check of the steps puts them in order, so the last of them is the
latest, and nothing that a simulation does comes after the end.

The times of this library are natural numbers. That unsigned words would have told the same is what
this module shows: the end of the run is the sum of two words, and the time at which an action is
started, cut to a word of milliseconds, is that time.
-/

namespace StallRecovery

/-! ## Times in a file -/

namespace Toml.Value

/-- Whatever is in a list was read from one of the items. -/
theorem mem_of_list? {α : Type} {read : Value → Option α} {v : Value} {xs : List α}
    (h : v.list? read = some xs) : ∀ x ∈ xs, ∃ item, read item = some x := by
  cases v with
  | list items =>
      rw [list?] at h
      induction items generalizing xs with
      | nil =>
          cases h
          exact List.forall_mem_nil _
      | cons item rest ih =>
          rw [List.mapM_cons] at h
          obtain ⟨first, hfirst, h⟩ := Option.bind_eq_some_iff.mp h
          obtain ⟨later, hlater, h⟩ := Option.bind_eq_some_iff.mp h
          cases h
          exact List.forall_mem_cons.mpr ⟨⟨item, hfirst⟩, ih hlater⟩
  | _ => cases h

end Toml.Value

namespace Scenario

variable {scenario : Scenario} {text : String}

/-- The times that are written in a scenario take at most half of a word. -/
structure Written (scenario : Scenario) : Prop where
  runFor : scenario.runForMs < UInt64.size / 2
  steps : ∀ s ∈ scenario.steps, s.atMs < UInt64.size / 2

theorem atMs_of_fields {fields : List (Option Toml.Value)} {s : Step}
    (h : stepOfFields? fields = some s) : s.atMs < UInt64.size / 2 := by
  unfold stepOfFields? at h
  split at h
  · obtain ⟨t, ht, h⟩ := Option.bind_eq_some_iff.mp h
    obtain ⟨atMs, hatMs, h⟩ := Option.bind_eq_some_iff.mp h
    obtain ⟨validation, _, h⟩ := Option.bind_eq_some_iff.mp h
    obtain ⟨signal, _, h⟩ := Option.bind_eq_some_iff.mp h
    obtain ⟨inCall, _, h⟩ := Option.bind_eq_some_iff.mp h
    obtain ⟨signalUnavailable, _, h⟩ := Option.bind_eq_some_iff.mp h
    cases h
    exact Toml.Value.nat?_lt hatMs
  · cases h

theorem atMs_of_value {v : Toml.Value} {s : Step} (h : stepOfValue? v = some s) :
    s.atMs < UInt64.size / 2 := by
  cases v with
  | list items =>
      rw [stepOfValue?] at h
      exact atMs_of_fields h
  | table entries =>
      rw [stepOfValue?] at h
      exact atMs_of_fields h
  | _ => cases h

/-- What was read of a field that may be absent, if it is there. -/
theorem given?_cases {α : Type} {read : Toml.Value → Option α} {field : Option Toml.Value}
    {given : Option α} (h : given? read field = some given) :
    given = none ∨ ∃ v x, read v = some x ∧ given = some x := by
  cases field with
  | none => cases h; exact .inl rfl
  | some v =>
      obtain ⟨x, hx, rfl⟩ := Option.map_eq_some_iff.mp h
      exact .inr ⟨v, x, hx, rfl⟩

theorem written_of_table {entries : List (String × Toml.Value)}
    (h : ofTable? entries = some scenario) : scenario.Written := by
  obtain ⟨signal, _, h⟩ := Option.bind_eq_some_iff.mp h
  obtain ⟨runFor, hrunFor, h⟩ := Option.bind_eq_some_iff.mp h
  obtain ⟨steps, hsteps, h⟩ := Option.bind_eq_some_iff.mp h
  cases h
  constructor
  · rcases given?_cases hrunFor with rfl | ⟨v, ms, hms, rfl⟩
    · show 0 < UInt64.size / 2
      decide
    · exact Toml.Value.nat?_lt hms
  · rcases given?_cases hsteps with rfl | ⟨v, list, hlist, rfl⟩
    · exact List.forall_mem_nil _
    · intro s hs
      obtain ⟨item, hitem⟩ := Toml.Value.mem_of_list? hlist s hs
      exact atMs_of_value hitem

/-- What is loaded was written in a file and has been accepted. -/
theorem accepted_of_load (h : load text = .ok scenario) :
    scenario.Written ∧ scenario.defect? = none := by
  unfold load at h
  split at h
  · cases h
  · split at h
    · cases h
    · rename_i hread
      split at h
      · cases h
      · rename_i haccepted
        cases h
        exact ⟨written_of_table hread, haccepted⟩

/-! ## The end of a run -/

/-- The time of the last step, or zero if there is none. -/
def lastMs (s : Scenario) : Nat := (s.steps.getLast?.map (·.atMs)).getD 0

/-- The end of the run as unsigned words add up to it. -/
def endWord (s : Scenario) : UInt64 := UInt64.ofNat s.lastMs + UInt64.ofNat s.runForMs

theorem Written.lastMs_lt (h : scenario.Written) : scenario.lastMs < UInt64.size / 2 := by
  rw [lastMs]
  cases hlast : scenario.steps.getLast? with
  | none =>
      show 0 < UInt64.size / 2
      decide
  | some s => exact h.steps s (List.mem_of_getLast? hlast)

/-- Two halves of a word are no more than a word. -/
theorem Written.endMs_lt (h : scenario.Written) : scenario.endMs < UInt64.size := by
  have hlast := h.lastMs_lt
  have hrun := h.runFor
  have hend : scenario.endMs = scenario.lastMs + scenario.runForMs := rfl
  omega

theorem endWord_eq (h : scenario.endMs < UInt64.size) :
    scenario.endWord.toNat = scenario.endMs := by
  rw [endWord, ← UInt64.ofNat_add]
  exact UInt64.toNat_ofNat_of_lt' h

end Scenario

/-! ## What is printed of a run -/

/-- A time in whole milliseconds, as an unsigned word holds it. -/
def inWord (t : Nat) : UInt64 := UInt64.ofNat (inMilliseconds t)

/-- A report whose times are what unsigned words hold of them. -/
def Report.inWords (r : Report) : Report :=
  { r with dispatches := r.dispatches.map fun (t, a) => (milliseconds (inWord t).toNat, a) }

theorem inMilliseconds_le {t bound : Nat} (h : t ≤ milliseconds bound) :
    inMilliseconds t ≤ bound := by
  have hle : inMilliseconds t ≤ inMilliseconds (milliseconds bound) := Nat.div_le_div_right h
  rwa [inMilliseconds_milliseconds] at hle

theorem Report.toJson_inWords {r : Report}
    (h : ∀ x ∈ r.dispatches, (inWord x.1).toNat = inMilliseconds x.1) :
    r.inWords.toJson = r.toJson := by
  have hrows : ∀ row : Nat → Action → Json,
      r.inWords.dispatches.map (fun x => row (inMilliseconds x.1) x.2)
        = r.dispatches.map (fun x => row (inMilliseconds x.1) x.2) := by
    intro row
    rw [inWords, List.map_map]
    refine List.map_congr_left fun x hx => ?_
    rw [Function.comp_apply, inMilliseconds_milliseconds, h x hx]
  rw [toJson, hrows fun ms a => .obj [("action", a.toJson), ("at_ms", .int ms)]]
  rfl

namespace Simulation

variable {settings : Settings} {scenario : Scenario}

/-- All times of a scenario and of its simulations are unsigned words, and so are the sums of them
that are made. -/
structure FitsWords (scenario : Scenario) : Prop where
  written : scenario.Written
  /-- The sum that is the end of the run does not pass the range of a word. -/
  sum : scenario.lastMs + scenario.runForMs < UInt64.size ∧ scenario.endWord.toNat = scenario.endMs
  covers : ∀ s ∈ scenario.steps, s.atMs ≤ scenario.endMs
  /-- No step is waited for after its time has passed. -/
  onward : ∀ settings played s rest, scenario.steps = played ++ s :: rest →
    (played.foldl step (start settings scenario.initialSignal)).deployment.now
      ≤ milliseconds s.atMs
  /-- Nor is the end. -/
  ends : ∀ settings,
    (scenario.steps.foldl step (start settings scenario.initialSignal)).deployment.now
      ≤ milliseconds scenario.endMs
  /-- The time at which an action is started is told by a word of milliseconds. -/
  offsets : ∀ settings, ∀ x ∈ (run settings scenario).dispatches,
    inMilliseconds x.1 < UInt64.size ∧ (inWord x.1).toNat = inMilliseconds x.1
  /-- What is printed is the same. -/
  printed : ∀ settings, (run settings scenario).inWords.toJson = (run settings scenario).toJson

/-- A simulation starts before every instant. -/
theorem now_start_le (settings : Settings) (signal : UInt8) (t : Nat) :
    (start settings signal).deployment.now ≤ t :=
  Nat.le_trans (Nat.le_of_eq (now_start settings signal)) (Nat.zero_le t)

theorem now_played (settings : Settings) (haccepted : scenario.defect? = none)
    {played rest : List Scenario.Step} {s : Scenario.Step}
    (h : scenario.steps = played ++ s :: rest) :
    (played.foldl step (start settings scenario.initialSignal)).deployment.now
      ≤ milliseconds s.atMs := by
  have hsorted := Scenario.sorted_of_accepted haccepted
  rw [h] at hsorted
  have hbefore : ∀ s' ∈ played, milliseconds s'.atMs ≤ milliseconds s.atMs := fun s' hs' =>
    Nat.mul_le_mul_right _ ((List.pairwise_append.mp hsorted).2.2 s' hs' s List.mem_cons_self)
  exact now_steps hbefore (now_start_le ..)

/--
**The times of a loaded scenario never leave the unsigned words.**

The end of the run is the sum of two words and is a word, and no step is later. So a simulation
never waits for an instant that has passed, whatever its settings, and starts nothing at a time that
a word of milliseconds would not tell.
-/
theorem loaded_fits_words {text : String} (h : Scenario.load text = .ok scenario) :
    FitsWords scenario := by
  obtain ⟨hwritten, haccepted⟩ := Scenario.accepted_of_load h
  have hend := hwritten.endMs_lt
  have hcovers : ∀ s ∈ scenario.steps, s.atMs ≤ scenario.endMs :=
    fun s hs => Scenario.atMs_le_endMs haccepted hs
  have hoffsets : ∀ settings, ∀ x ∈ (run settings scenario).dispatches,
      inMilliseconds x.1 < UInt64.size ∧ (inWord x.1).toNat = inMilliseconds x.1 := by
    intro settings x hx
    obtain ⟨started, hdispatches, _, hbounded⟩ := dispatches_sorted settings haccepted
    rw [hdispatches] at hx
    have hlt : inMilliseconds x.1 < UInt64.size :=
      Nat.lt_of_le_of_lt (inMilliseconds_le (hbounded x hx)) hend
    exact ⟨hlt, UInt64.toNat_ofNat_of_lt' hlt⟩
  exact {
    written := hwritten
    sum := ⟨hend, Scenario.endWord_eq hend⟩
    covers := hcovers
    onward := fun settings played s rest hsteps => now_played settings haccepted hsteps
    ends := fun settings => now_steps (fun s hs => Nat.mul_le_mul_right _ (hcovers s hs))
      (now_start_le ..)
    offsets := hoffsets
    printed := fun settings => Report.toJson_inWords fun x hx => (hoffsets settings x hx).2 }

/-- One step, as late as a file can have it, and a run as long after it. -/
def latest : Scenario where
  initialSignal := 4
  runForMs := 9223372036854775807
  steps := [⟨9223372036854775807, some false, none, none, none⟩]

theorem load_latest : Scenario.load ("run_for_ms = 9223372036854775807\n"
    ++ "[[step]]\nat_ms = 9223372036854775807\nvalidation = false\n") = .ok latest := by
  cbv

theorem loaded_fits_words_latest : (∃ text, Scenario.load text = .ok latest) ∧ FitsWords latest
    ∧ latest.endMs = UInt64.size - 2 :=
  ⟨⟨_, load_latest⟩, loaded_fits_words load_latest, rfl⟩

end Simulation

end StallRecovery
