import StallRecovery.Policy.Table
import StallRecovery.Proofs.Validation

/-!
# The policy table can be read

The table is printed for people, and padding is all that aligns it: a delay that is too long for its
column moves the rest of its row. A reader who goes by columns would be lost then. One who goes by
words is not, because no field has a blank in it and some blank always stands between two fields,
however long they are. `Spaced` says so of one line and `Lined` of a text.

The reader of this module takes the words of each line and makes a policy of them. It finds in a
table the policy that was printed, so no two policies have the same table.
-/

namespace StallRecovery.Table

/-! ## Words and lines -/

/-- What stands between the blanks of a line. -/
def words (line : List Char) : List (List Char) := (line.splitOn ' ').filter (!·.isEmpty)

/-- The words of each line of a text. -/
def wordsOfLines (text : String) : List (List (List Char)) := (text.toList.splitOn '\n').map words

/-- A text without a gap. -/
structure IsWord (w : List Char) : Prop where
  nonempty : w ≠ []
  unbroken : ∀ c ∈ w, c ≠ ' ' ∧ c ≠ '\n'

theorem isWord_iff {w : List Char} :
    (!w.isEmpty && w.all fun c => c != ' ' && c != '\n') = true ↔ IsWord w := by
  constructor
  · intro h
    obtain ⟨hne, hall⟩ : w ≠ [] ∧ ∀ c ∈ w, c ≠ ' ' ∧ c ≠ '\n' := by simpa using h
    exact ⟨hne, hall⟩
  · intro h
    simpa using And.intro h.nonempty h.unbroken

-- through a check of the list, not of every character there is
instance (w : List Char) : Decidable (IsWord w) := decidable_of_iff _ isWord_iff

/-- A line of these words, with blanks before and between them. -/
inductive Spaced : List (List Char) → List Char → Prop where
  | blank {ws : List (List Char)} {line : List Char} (h : Spaced ws line) : Spaced ws (' ' :: line)
  | word {w : List Char} {ws : List (List Char)} {line : List Char} (hw : IsWord w)
      (h : Spaced ws line) : Spaced (w :: ws) (w ++ ' ' :: line)
  | last {w : List Char} (hw : IsWord w) : Spaced [w] w

/-- A text of lines with these words, each with its end. -/
inductive Lined : List (List (List Char)) → List Char → Prop where
  | nil : Lined [] []
  | line {ws : List (List Char)} {line : List Char} {lines : List (List (List Char))}
      {rest : List Char} (h : Spaced ws line) (hrest : Lined lines rest) :
      Lined (ws :: lines) (line ++ '\n' :: rest)

variable {w : List Char} {ws : List (List Char)} {line rest : List Char}
  {lines : List (List (List Char))} {text : String}

theorem IsWord.no_blank (h : IsWord w) : ' ' ∉ w := fun hmem => (h.unbroken _ hmem).1 rfl

theorem words_blank : words (' ' :: line) = words line := by
  rw [words, words, ← List.nil_append (' ' :: line),
    List.splitOn_append_cons_self_of_not_mem List.not_mem_nil]
  rfl

theorem words_word (h : IsWord w) : words (w ++ ' ' :: line) = w :: words line := by
  rw [words, List.splitOn_append_cons_self_of_not_mem h.no_blank, List.filter_cons_of_pos]
  · rfl
  · simpa using h.nonempty

theorem words_last (h : IsWord w) : words w = [w] := by
  rw [words, List.splitOn_eq_singleton h.no_blank, List.filter_cons_of_pos]
  · rfl
  · simpa using h.nonempty

theorem Spaced.words_eq (h : Spaced ws line) : words line = ws := by
  induction h with
  | blank _ ih => rw [words_blank, ih]
  | word hw _ ih => rw [words_word hw, ih]
  | last hw => exact words_last hw

theorem Spaced.unbroken (h : Spaced ws line) : '\n' ∉ line := by
  induction h with
  | blank _ ih => simpa using ih
  | word hw _ ih =>
      intro hmem
      rcases List.mem_append.mp hmem with hmem | hmem
      · exact (hw.unbroken _ hmem).2 rfl
      · exact ih (by simpa using hmem)
  | last hw => exact fun hmem => (hw.unbroken _ hmem).2 rfl

/-- The words of each line are found, and after the last line there are none. -/
theorem Lined.words_eq (h : Lined lines rest) : (rest.splitOn '\n').map words = lines ++ [[]] := by
  induction h with
  | nil => rfl
  | line h hrest ih =>
      rw [List.splitOn_append_cons_self_of_not_mem h.unbroken, List.map_cons, h.words_eq, ih]
      rfl

/-! ## Padding -/

theorem Spaced.blanks (h : Spaced ws line) (n : Nat) :
    Spaced ws (List.replicate n ' ' ++ line) := by
  induction n with
  | zero => exact h
  | succ n ih => exact .blank ih

/-- A word that is shorter than its column has a blank after it. -/
theorem Spaced.padRight {width : Nat} (hw : IsWord text.toList) (hwidth : text.length < width)
    (h : Spaced ws rest) : Spaced (text.toList :: ws) ((padRight width text).toList ++ rest) := by
  obtain ⟨n, hn⟩ : ∃ n, width - text.length = n + 1 := ⟨width - text.length - 1, by omega⟩
  rw [StallRecovery.padRight, hn, String.toList_append, String.toList_ofList, List.append_assoc]
  exact .word hw (h.blanks n)

/-- On the left a word has as many blanks as there is room for, if any. -/
theorem Spaced.padLeft {width : Nat} (h : Spaced ws (text.toList ++ rest)) :
    Spaced ws ((padLeft width text).toList ++ rest) := by
  rw [StallRecovery.padLeft, String.toList_append, String.toList_ofList, List.append_assoc]
  exact h.blanks _

/-- The words of a row are its fields. The delay is as long as it may be. -/
theorem Lined.row {position action delay skip : String}
    (hposition : IsWord position.toList) (hposition' : position.length < 6)
    (haction : IsWord action.toList) (haction' : action.length < 24)
    (hdelay : IsWord delay.toList) (hskip : IsWord skip.toList) (hrest : Lined lines rest) :
    Lined ([position.toList, action.toList, delay.toList, skip.toList] :: lines)
      ((Policy.tableRow position action delay skip).toList ++ rest) := by
  have hfields : Spaced [position.toList, action.toList, delay.toList, skip.toList]
      ((padRight 6 position).toList ++ ((padRight 24 action).toList
        ++ ((padLeft 12 delay).toList ++ (' ' :: ' ' :: skip.toList)))) :=
    .padRight hposition hposition' (.padRight haction haction' (.padLeft
      (.word hdelay (.blank (.last hskip)))))
  have hline := Lined.line hfields hrest
  simpa [Policy.tableRow] using hline

/-! ## What is written in words -/

/-- The option that is written as this word. -/
def choice? {α : Type} (options : List α) (write : α → String) (w : List Char) : Option α :=
  options.find? fun a => (write a).toList == w

/-- The number that a word is. -/
def number? (w : List Char) : Option Nat :=
  if w.all Char.isDigit then some (Nat.ofDigitChars 10 w 0) else none

/-- The delay that a word of milliseconds is. -/
def delay? (w : List Char) : Option Nat :=
  if w.drop (w.length - 2) = ['m', 's'] then (number? (w.take (w.length - 2))).map milliseconds
  else none

theorem choice?_write {α : Type} {options : List α} {write : α → String} {a : α}
    (hdistinct : ∀ b ∈ options, write b = write a → b = a) (ha : a ∈ options) :
    choice? options write (write a).toList = some a := by
  rw [choice?]
  cases hfound : options.find? fun b => (write b).toList == (write a).toList with
  | none =>
      have hnot := List.find?_eq_none.mp hfound a ha
      simp at hnot
  | some b =>
      have hwritten := List.find?_some hfound
      have hsame : write b = write a := String.toList_inj.mp (by simpa using hwritten)
      rw [hdistinct b (List.mem_of_find?_eq_some hfound) hsame]

theorem toList_toString (n : Nat) : (toString n).toList = Nat.toDigits 10 n := Nat.toList_repr

theorem isDigit_toString {n : Nat} {c : Char} (h : c ∈ (toString n).toList) : c.isDigit = true := by
  rw [toList_toString] at h
  exact Nat.isDigit_of_mem_toDigits (by decide) (by decide) h

theorem number?_toString (n : Nat) : number? (toString n).toList = some n := by
  have hdigits : (toString n).toList.all Char.isDigit = true :=
    List.all_eq_true.mpr fun c hc => isDigit_toString hc
  rw [number?, if_pos hdigits, toList_toString, Nat.ofDigitChars_ten_toDigits]

theorem delay?_toString (n : Nat) : delay? (toString n ++ "ms").toList = some (milliseconds n) := by
  have hms : (toString n ++ "ms").toList = (toString n).toList ++ ['m', 's'] :=
    String.toList_append
  have hlength : ((toString n).toList ++ ['m', 's']).length - 2 = (toString n).toList.length := by
    simp
  rw [hms, delay?, hlength, List.drop_left, if_pos rfl, List.take_left, number?_toString]
  rfl

theorem isWord_toString (n : Nat) : IsWord (toString n).toList where
  nonempty := by
    rw [toList_toString]
    exact Nat.toDigits_ne_nil
  unbroken c hc := by
    have hdigit := isDigit_toString hc
    constructor
    · rintro rfl
      exact absurd hdigit (by decide)
    · rintro rfl
      exact absurd hdigit (by decide)

theorem isWord_delay (n : Nat) : IsWord (toString n ++ "ms").toList where
  nonempty := by simp
  unbroken c hc := by
    have hms : IsWord "ms".toList := by decide
    rw [String.toList_append] at hc
    rcases List.mem_append.mp hc with hc | hc
    · exact (isWord_toString n).unbroken c hc
    · exact hms.unbroken c hc

/-! ## The reader -/

/-- How a row says whether its step is left out. -/
def yesNo (b : Bool) : String := if b then "yes" else "no"

/-- The words of a step's row. -/
def wordsOfStep (step : Action × StepRule) : List (List Char) :=
  [(toString step.1.index).toList, step.1.name.toList,
    (toString (inMilliseconds step.2.delay) ++ "ms").toList, (yesNo step.2.skip).toList]

/-- The step that the words of a row tell of. -/
def stepOfWords? : List (List Char) → Option (Action × StepRule)
  | [_, action, delay, skip] => do
    some (← choice? Action.all Action.name action,
      ⟨← delay? delay, ← choice? [true, false] yesNo skip⟩)
  | _ => none

/-- The policy with these rules, if they are for the steps of the ladder in order. -/
def policyOfSteps? (steps : List (Action × StepRule)) (threshold : UInt8) (callGuard : CallGuard)
    (enabled : Bool) : Option Policy :=
  match steps with
  | [(.reestablishInternet, reestablish), (.radioPowerCycle, powerCycle), (.modemReboot, reboot)] =>
    some { reestablish, powerCycle, reboot, threshold, callGuard, enabled }
  | _ => none

/-- The policy that is printed in a text. The words of a heading are passed over, and the last line
is what follows the last line end. -/
def read? (text : String) : Option Policy :=
  match wordsOfLines text with
  | [_, enabled] :: [_, _, _, threshold] :: [_, _, callGuard] :: _ :: rows => do
    let steps ← rows.dropLast.mapM stepOfWords?
    policyOfSteps? steps (UInt8.ofNat (← number? threshold))
      (← choice? [.allSteps, .beyondFirstStep] CallGuard.label callGuard)
      (← choice? [true, false] truth enabled)
  | _ => none

/-- All the words of a table. -/
def wordsOfPolicy (p : Policy) : List (List (List Char)) :=
  ["enabled:".toList, (truth p.enabled).toList]
    :: ["poor".toList, "signal".toList, "threshold:".toList, (toString p.threshold.toNat).toList]
    :: ["call".toList, "guard:".toList, p.callGuard.label.toList]
    :: ["step".toList, "action".toList, "delay".toList, "skip".toList]
    :: p.steps.map wordsOfStep

theorem lined_steps (steps : List (Action × StepRule)) : Lined (steps.map wordsOfStep)
    (String.join (steps.map fun s => Policy.stepRow s.1 s.2)).toList := by
  rw [String.toList_join]
  induction steps with
  | nil => exact .nil
  | cons s rest ih =>
      obtain ⟨a, r⟩ := s
      have hindex : (toString a.index).length < 6 := by cases a <;> decide
      have hname : IsWord a.name.toList := by cases a <;> decide
      have hname' : a.name.length < 24 := by cases a <;> decide
      have hskip : IsWord (yesNo r.skip).toList := by cases r.skip <;> decide
      exact .row (isWord_toString a.index) hindex hname hname'
        (isWord_delay (inMilliseconds r.delay)) hskip ih

/-- A line that is followed by other text. -/
theorem Spaced.before {after : String} (h : Spaced ws text.toList)
    (hrest : Lined lines after.toList) : Lined (ws :: lines) (text ++ ("\n" ++ after)).toList := by
  rw [String.toList_append, String.toList_append]
  exact .line h hrest

theorem table_eq (p : Policy) : p.table = "enabled: " ++ truth p.enabled ++ ("\n"
    ++ ("poor signal threshold: " ++ toString p.threshold.toNat ++ ("\n"
    ++ ("call guard: " ++ p.callGuard.label ++ ("\n"
    ++ (Policy.tableRow "step" "action" "delay" "skip"
    ++ String.join (p.steps.map fun s => Policy.stepRow s.1 s.2))))))) := by
  -- only the order of the texts counts, so it is shown of any
  have hassoc : ∀ end_ a a' b b' c c' d e : String,
      a ++ a' ++ end_ ++ b ++ b' ++ end_ ++ c ++ c' ++ end_ ++ d ++ e
        = a ++ a' ++ (end_ ++ (b ++ b' ++ (end_ ++ (c ++ c' ++ (end_ ++ (d ++ e)))))) := by
    intro end_ a a' b b' c c' d e
    simp only [String.append_assoc]
  exact hassoc "\n" "enabled: " (truth p.enabled) "poor signal threshold: " _ "call guard: " _ _ _

theorem lined_table (p : Policy) : Lined (wordsOfPolicy p) p.table.toList := by
  have henabled : IsWord (truth p.enabled).toList := by cases p.enabled <;> decide
  have hguard : IsWord p.callGuard.label.toList := by cases p.callGuard <;> decide
  have hfirst : Spaced ["enabled:".toList, (truth p.enabled).toList]
      ("enabled: " ++ truth p.enabled).toList := by
    rw [String.toList_append]
    exact .word (w := "enabled:".toList) (by decide) (.last henabled)
  have hsecond : Spaced ["poor".toList, "signal".toList, "threshold:".toList,
      (toString p.threshold.toNat).toList]
      ("poor signal threshold: " ++ toString p.threshold.toNat).toList := by
    rw [String.toList_append]
    exact .word (w := "poor".toList) (by decide) (.word (w := "signal".toList) (by decide)
      (.word (w := "threshold:".toList) (by decide) (.last (isWord_toString _))))
  have hthird : Spaced ["call".toList, "guard:".toList, p.callGuard.label.toList]
      ("call guard: " ++ p.callGuard.label).toList := by
    rw [String.toList_append]
    exact .word (w := "call".toList) (by decide) (.word (w := "guard:".toList) (by decide)
      (.last hguard))
  have hrows : Lined (["step".toList, "action".toList, "delay".toList, "skip".toList]
        :: p.steps.map wordsOfStep)
      ((Policy.tableRow "step" "action" "delay" "skip").toList
        ++ (String.join (p.steps.map fun s => Policy.stepRow s.1 s.2)).toList) :=
    .row (by decide) (by decide) (by decide) (by decide) (by decide) (by decide)
      (lined_steps p.steps)
  rw [← String.toList_append] at hrows
  have hlined := hfirst.before (hsecond.before (hthird.before hrows))
  rw [table_eq]
  exact hlined

theorem wordsOfLines_table (p : Policy) : wordsOfLines p.table = wordsOfPolicy p ++ [[]] :=
  (lined_table p).words_eq

/-- A step is told by its row if it waits for whole milliseconds. -/
theorem stepOfWords?_wordsOfStep {step : Action × StepRule}
    (h : milliseconds (inMilliseconds step.2.delay) = step.2.delay) :
    stepOfWords? (wordsOfStep step) = some step := by
  obtain ⟨a, delay, skip⟩ := step
  have haction : choice? Action.all Action.name a.name.toList = some a :=
    choice?_write (by cases a <;> decide) (Action.mem_all a)
  have hdelay : delay? (toString (inMilliseconds delay) ++ "ms").toList = some delay :=
    (delay?_toString _).trans (congrArg some h)
  have hskip : choice? [true, false] yesNo (yesNo skip).toList = some skip :=
    choice?_write (by cases skip <;> decide) (by cases skip <;> decide)
  simp only [wordsOfStep, stepOfWords?, haction, hdelay, hskip]
  rfl

theorem mapM_wordsOfStep {steps : List (Action × StepRule)}
    (h : ∀ s ∈ steps, milliseconds (inMilliseconds s.2.delay) = s.2.delay) :
    (steps.map wordsOfStep).mapM stepOfWords? = some steps := by
  induction steps with
  | nil => rfl
  | cons s rest ih =>
      obtain ⟨hfirst, hrest⟩ := List.forall_mem_cons.mp h
      rw [List.map_cons, List.mapM_cons, stepOfWords?_wordsOfStep hfirst, ih hrest]
      rfl

theorem policyOfSteps?_steps (p : Policy) :
    policyOfSteps? p.steps p.threshold p.callGuard p.enabled = some p := rfl

/-- In a table the policy is found that was printed, if it waits for whole milliseconds. -/
theorem read?_table {p : Policy}
    (h : ∀ s ∈ p.steps, milliseconds (inMilliseconds s.2.delay) = s.2.delay) :
    read? p.table = some p := by
  have hguard : choice? [.allSteps, .beyondFirstStep] CallGuard.label p.callGuard.label.toList
      = some p.callGuard :=
    choice?_write (by cases p.callGuard <;> decide) (by cases p.callGuard <;> decide)
  have henabled : choice? [true, false] truth (truth p.enabled).toList = some p.enabled :=
    choice?_write (by cases p.enabled <;> decide) (by cases p.enabled <;> decide)
  rw [read?, wordsOfLines_table, wordsOfPolicy]
  simp only [List.cons_append, List.dropLast_concat, mapM_wordsOfStep h, number?_toString, hguard,
    henabled, Option.bind_eq_bind, Option.bind_some, UInt8.ofNat_toNat, policyOfSteps?_steps]

/-- Settings are written in milliseconds, so their policy waits for whole ones. -/
theorem whole_of_validate {s : Settings} {p : Policy} (h : s.validate = .ok p) :
    ∀ step ∈ p.steps, milliseconds (inMilliseconds step.2.delay) = step.2.delay := by
  obtain ⟨d₁, d₂, d₃, s₁, s₂, s₃, _, _, rfl⟩ := Settings.entries_of_validate h
  simp [Policy.steps, inMilliseconds_milliseconds]

/--
**The table tells the policy.**

From the table of a policy that settings describe the policy is read back: whether it is enabled,
its threshold and call guard, and of each step the action, the delay and whether it is left out. So
the tables of two such policies are alike only if the policies are.
-/
theorem table_tells_policy {s : Settings} {p : Policy} (h : s.validate = .ok p) :
    read? p.table = some p
      ∧ ∀ s' p', Settings.validate s' = .ok p' → p'.table = p.table → p' = p := by
  have hread : read? p.table = some p := read?_table (whole_of_validate h)
  refine ⟨hread, fun s' p' h' htable => ?_⟩
  have hread' : read? p'.table = some p' := read?_table (whole_of_validate h')
  rw [htable, hread] at hread'
  exact (Option.some.inj hread').symm

/-- Settings with a delay that is far too long for its column. -/
def endless : Settings where
  delays := [180000, 18446744073709551615, 0]
  skips := [false, true, false]
  threshold := 3
  callGuard := .beyondFirstStep
  enabled := false

theorem table_tells_policy_endless : ∃ p, endless.validate = .ok p ∧ read? p.table = some p
    ∧ Policy.standard.table ≠ p.table
    ∧ Policy.stepRow .radioPowerCycle p.powerCycle
      = "2     radio-power-cycle       18446744073709551615ms  yes\n" := by
  have htold := table_tells_policy (s := endless) rfl
  refine ⟨_, rfl, htold.1, fun hsame => ?_, by decide⟩
  exact absurd (htold.2 .standard .standard rfl hsame) (by decide)

end StallRecovery.Table
