import StallRecovery.Event.Codec

/-!
# Events survive being written

There is one way to write an event and there are many to read one: options may be absent, fields
that nobody asked for are passed over, nanoseconds carry over into seconds. Whatever is read can be
written again, and what is written reads back as the event it was written from. So once a value has
been read and written it has its final form.

The only events that cannot be written are those that lasted too long for their seconds to fit a
word, and no reading gives such an event.
-/

namespace StallRecovery.Event

/-- The seconds of an event's duration, if it has one, fit a word. -/
def Writable : Event → Prop
  | .reset _ _ (some duration) _ => duration / nanosPerSecond < wordBound
  | _ => True

/-- A value read as an event and written again. -/
def normal? (j : Json) : Option Json := (ofJson? j).map toJson

variable {j j' : Json} {e : Event} {duration : Nat} {fields fields' : List (String × Json)}

/-! ## What is written is read -/

theorem actionOfJson?_toJson (a : Action) : actionOfJson? a.toJson = some a := Action.ofName?_name a

theorem holdOfJson?_holdToJson (r : HoldReason) : holdOfJson? (holdToJson r) = some r := by
  cases r with
  | inCall state => cases state <;> rfl
  | guardUnavailable => rfl

theorem resetOfName?_resetName (r : ResetReason) : resetOfName? (resetName r) = some r := by
  cases r <;> rfl

theorem byte?_toNat (level : UInt8) : Json.byte? (.int level.toNat) = some level := by
  have hlt : level.toNat < 256 := level.toNat_lt
  have hread : Json.natBelow? 256 (.int level.toNat) = some level.toNat := if_pos hlt
  rw [Json.byte?, hread]
  exact congrArg some UInt8.ofNat_toNat

/-- Seconds and nanoseconds make a duration if the nanoseconds, carried over, leave the seconds in
the range of a word. -/
theorem durationOfJson?_pair (secs nanos : Nat) :
    durationOfJson? (.obj [("secs", .int secs), ("nanos", .int nanos)])
      = if nanos < UInt32.size ∧ secs + nanos / nanosPerSecond < wordBound then
          some (secs * nanosPerSecond + nanos)
        else none := by
  have hread : durationOfJson? (.obj [("secs", .int secs), ("nanos", .int nanos)])
      = ((if secs < wordBound then some secs else none).bind fun secs =>
          (if nanos < UInt32.size then some nanos else none).bind fun nanos =>
            if secs + nanos / nanosPerSecond < wordBound then
              some (secs * nanosPerSecond + nanos)
            else none) := rfl
  rw [hread]
  by_cases hsecs : secs < wordBound
  · by_cases hnanos : nanos < UInt32.size
    · simp [hsecs, hnanos]
    · simp [hsecs, hnanos]
  · have hover : ¬ secs + nanos / nanosPerSecond < wordBound :=
      fun hsum => hsecs (Nat.lt_of_le_of_lt (Nat.le_add_right _ _) hsum)
    simp [hsecs, hover]

theorem durationOfJson?_durationToJson (h : duration / nanosPerSecond < wordBound) :
    durationOfJson? (durationToJson duration) = some duration := by
  have hpos : 0 < nanosPerSecond := by decide
  have hnanos : duration % nanosPerSecond < nanosPerSecond := Nat.mod_lt _ hpos
  have hword : duration % nanosPerSecond < UInt32.size := Nat.lt_trans hnanos (by decide)
  have hcarry : duration % nanosPerSecond / nanosPerSecond = 0 := Nat.div_eq_of_lt hnanos
  have hsum : duration / nanosPerSecond * nanosPerSecond + duration % nanosPerSecond = duration :=
    Nat.div_add_mod' duration nanosPerSecond
  rw [durationToJson, durationOfJson?_pair, hcarry, Nat.add_zero, if_pos ⟨hword, h⟩, hsum]

/-- What may be absent is written as `null`, so what is there must not be taken for that. -/
theorem optional?_optionToJson {α : Type} {write : α → Json} {read : Json → Option α} {o : Option α}
    (hnull : read .null = none) (h : ∀ a, o = some a → read (write a) = some a) :
    Json.optional? read (some (optionToJson write o)) = some o := by
  cases o with
  | none => rfl
  | some a =>
      have hread := h a rfl
      rw [optionToJson, Json.optional?]
      cases hwritten : write a with
      | null =>
          rw [hwritten, hnull] at hread
          cases hread
      | _ =>
          rw [hwritten] at hread
          rw [Json.nullable?, hread]
          · rfl
          · exact nofun

theorem ofJson?_toJson (h : e.Writable) : ofJson? e.toJson = some e := by
  cases e with
  | episodeStarted => rfl
  | actionDispatched a =>
      have hread : ofJson? (Event.actionDispatched a).toJson
          = (actionOfJson? a.toJson).bind fun a => some (.actionDispatched a) := rfl
      rw [hread, actionOfJson?_toJson]
      rfl
  | held a r =>
      have hread : ofJson? (Event.held a r).toJson
          = (actionOfJson? a.toJson).bind fun a =>
            (holdOfJson? (holdToJson r)).bind fun r => some (.held a r) := rfl
      rw [hread, actionOfJson?_toJson, holdOfJson?_holdToJson]
      rfl
  | reset a r episode signal =>
      have hread : ofJson? (Event.reset a r episode signal).toJson
          = (actionOfJson? a.toJson).bind fun a =>
            (resetOfName? (resetName r)).bind fun r =>
            (Json.optional? durationOfJson? (some (optionToJson durationToJson episode))).bind
              fun episode =>
            (Json.optional? Json.byte?
              (some (optionToJson (fun level => .int level.toNat) signal))).bind fun signal =>
            some (.reset a r episode signal) := rfl
      have hepisode : ∀ duration, episode = some duration →
          durationOfJson? (durationToJson duration) = some duration := by
        rintro duration rfl
        exact durationOfJson?_durationToJson h
      rw [hread, actionOfJson?_toJson, resetOfName?_resetName, optional?_optionToJson rfl hepisode,
        optional?_optionToJson rfl fun level _ => byte?_toNat level]
      rfl
  | dispatchFailed a text =>
      have hread : ofJson? (Event.dispatchFailed a text).toJson
          = (actionOfJson? a.toJson).bind fun a => some (.dispatchFailed a text) := rfl
      rw [hread, actionOfJson?_toJson]
      rfl
  | configRejected text => rfl

/-! ## What is read can be written -/

theorem writable_of_duration (h : durationOfJson? j = some duration) :
    duration / nanosPerSecond < wordBound := by
  rw [durationOfJson?] at h
  obtain ⟨fields, _, h⟩ := Option.bind_eq_some_iff.mp h
  split at h
  · obtain ⟨secsJson, _, h⟩ := Option.bind_eq_some_iff.mp h
    obtain ⟨secs, _, h⟩ := Option.bind_eq_some_iff.mp h
    obtain ⟨nanosJson, _, h⟩ := Option.bind_eq_some_iff.mp h
    obtain ⟨nanos, _, h⟩ := Option.bind_eq_some_iff.mp h
    split at h
    · rename_i hfits
      cases h
      rwa [Nat.mul_comm, Nat.mul_add_div (by decide)]
    · cases h
  · cases h

theorem read_of_optional? {α : Type} {read : Json → Option α} {field : Option Json} {a : α}
    (h : Json.optional? read field = some (some a)) : ∃ j, read j = some a := by
  cases field with
  | none => cases h
  | some j =>
      rw [Json.optional?] at h
      unfold Json.nullable? at h
      split at h
      · cases h
      · obtain ⟨a', ha', hsome⟩ := Option.map_eq_some_iff.mp h
        cases hsome
        exact ⟨_, ha'⟩

/-- The names that cases go by. -/
def caseNames : List String :=
  ["episode-started", "action-dispatched", "held", "reset", "dispatch-failed", "config-rejected"]

theorem ofCase?_of_unknown {case : String} (h : case ∉ caseNames) (content : Json) :
    ofCase? case content = none := by
  simp only [caseNames, List.mem_cons, List.not_mem_nil, or_false, not_or] at h
  obtain ⟨hstarted, hdispatched, hheld, hreset, hfailed, hrejected⟩ := h
  simp only [ofCase?]

section

variable {content : Json}

theorem started_of_ofCase? (h : ofCase? "episode-started" content = some e) :
    e = .episodeStarted := by
  obtain ⟨_, _, h⟩ := Option.bind_eq_some_iff.mp h
  exact (Option.some.inj h).symm

theorem dispatched_of_ofCase? (h : ofCase? "action-dispatched" content = some e) :
    ∃ a, e = .actionDispatched a := by
  obtain ⟨_, _, h⟩ := Option.bind_eq_some_iff.mp h
  split at h
  · simp only [Option.bind_eq_bind, Option.bind_eq_some_iff] at h
    obtain ⟨_, _, a, _, h⟩ := h
    exact ⟨a, (Option.some.inj h).symm⟩
  · cases h

theorem held_of_ofCase? (h : ofCase? "held" content = some e) :
    ∃ a r, e = .held a r := by
  obtain ⟨_, _, h⟩ := Option.bind_eq_some_iff.mp h
  split at h
  · simp only [Option.bind_eq_bind, Option.bind_eq_some_iff] at h
    obtain ⟨_, _, a, _, _, _, r, _, h⟩ := h
    exact ⟨a, r, (Option.some.inj h).symm⟩
  · cases h

/-- A reset says how long its episode was, if there was one. -/
theorem reset_of_ofCase? (h : ofCase? "reset" content = some e) :
    ∃ a r episode signal, e = .reset a r episode signal
      ∧ ∃ field, Json.optional? durationOfJson? field = some episode := by
  obtain ⟨_, _, h⟩ := Option.bind_eq_some_iff.mp h
  split at h
  · simp only [Option.bind_eq_bind, Option.bind_eq_some_iff] at h
    obtain ⟨_, _, a, _, _, _, r, _, episode, hepisode, signal, _, h⟩ := h
    exact ⟨a, r, episode, signal, (Option.some.inj h).symm, _, hepisode⟩
  · cases h

theorem failed_of_ofCase? (h : ofCase? "dispatch-failed" content = some e) :
    ∃ a text, e = .dispatchFailed a text := by
  obtain ⟨_, _, h⟩ := Option.bind_eq_some_iff.mp h
  split at h
  · simp only [Option.bind_eq_bind, Option.bind_eq_some_iff] at h
    obtain ⟨_, _, a, _, _, _, text, _, h⟩ := h
    exact ⟨a, text, (Option.some.inj h).symm⟩
  · cases h

theorem rejected_of_ofCase? (h : ofCase? "config-rejected" content = some e) :
    ∃ text, e = .configRejected text := by
  obtain ⟨_, _, h⟩ := Option.bind_eq_some_iff.mp h
  split at h
  · simp only [Option.bind_eq_bind, Option.bind_eq_some_iff] at h
    obtain ⟨_, _, text, _, h⟩ := h
    exact ⟨text, (Option.some.inj h).symm⟩
  · cases h

/-- Only one case says how long an episode was. -/
theorem episode_of_ofCase? {case : String} {a : Action} {r : ResetReason}
    {episode : Option Nat} {signal : Option UInt8}
    (h : ofCase? case content = some (.reset a r episode signal)) :
    ∃ field, Json.optional? durationOfJson? field = some episode := by
  have hknown : case ∈ caseNames := by
    refine Decidable.byContradiction fun hunknown => ?_
    cases (ofCase?_of_unknown hunknown content).symm.trans h
  simp only [caseNames, List.mem_cons, List.not_mem_nil, or_false] at hknown
  rcases hknown with rfl | rfl | rfl | rfl | rfl | rfl
  · cases started_of_ofCase? h
  · obtain ⟨_, hdispatched⟩ := dispatched_of_ofCase? h
    cases hdispatched
  · obtain ⟨_, _, hheld⟩ := held_of_ofCase? h
    cases hheld
  · obtain ⟨_, _, _, _, hreset, hepisode⟩ := reset_of_ofCase? h
    cases hreset
    exact hepisode
  · obtain ⟨_, _, hfailed⟩ := failed_of_ofCase? h
    cases hfailed
  · obtain ⟨_, hrejected⟩ := rejected_of_ofCase? h
    cases hrejected

end

theorem case_of_ofJson? (h : ofJson? j = some e) :
    ∃ case content, ofCase? case content = some e := by
  unfold ofJson? at h
  split at h
  · obtain ⟨_, _, h⟩ := Option.bind_eq_some_iff.mp h
    obtain ⟨case, _, h⟩ := Option.bind_eq_some_iff.mp h
    exact ⟨case, _, h⟩
  · obtain ⟨case, _, h⟩ := Option.bind_eq_some_iff.mp h
    exact ⟨case, _, h⟩
  · cases h

theorem writable_of_ofJson? (h : ofJson? j = some e) : e.Writable := by
  obtain ⟨case, content, hcase⟩ := case_of_ofJson? h
  cases e with
  | reset a r episode signal =>
      cases episode with
      | none => trivial
      | some duration =>
          obtain ⟨field, hfield⟩ := episode_of_ofCase? hcase
          obtain ⟨_, hread⟩ := read_of_optional? hfield
          exact writable_of_duration hread
  | _ => trivial

/-! ## What is passed over -/

/-- The fields that an event is told by. -/
def fieldNames : List String :=
  ["type", "action", "reason", "from", "message", "episode", "signal"]

/-- Two lists of fields that say the same of what stands beside the case. -/
structure SayAlike (fields fields' : List (String × Json)) : Prop where
  required : ∀ name ∈ ["action", "reason", "from", "message"],
    Json.field? name fields = Json.field? name fields'
  optional : ∀ name ∈ ["episode", "signal"], ∀ {α : Type} (read : Json → Option α),
    Json.optional? read (Json.field? name fields) = Json.optional? read (Json.field? name fields')

theorem ofCase?_alike (h : SayAlike fields fields') (case : String) :
    ofCase? case (.obj fields) = ofCase? case (.obj fields') := by
  have haction := h.required "action" (by decide)
  have hreason := h.required "reason" (by decide)
  have hfrom := h.required "from" (by decide)
  have hmessage := h.required "message" (by decide)
  have hepisode := h.optional "episode" (by decide) durationOfJson?
  have hsignal := h.optional "signal" (by decide) Json.byte?
  unfold ofCase?
  split <;> simp [Json.record?, haction, hreason, hfrom, hmessage, hepisode, hsignal]

theorem field?_filter {name : String} (hne : name ≠ "type") (fields : List (String × Json)) :
    Json.field? name (fields.filter (·.1 != "type")) = Json.field? name fields := by
  have hsame : (fun a : String × Json => decide ((a.1 != "type") = true ∧ (a.1 == name) = true))
      = fun a => a.1 == name := by
    funext a
    by_cases ha : a.1 = name
    · simp [ha, hne]
    · simp [ha]
  rw [Json.field?, Json.field?, List.find?_filter, hsame]

theorem ne_type_of_mem {name : String}
    (h : name ∈ ["action", "reason", "from", "message", "episode", "signal"]) : name ≠ "type" := by
  rintro rfl
  exact absurd h (by decide)

/-- The case is put aside before the other fields are read. -/
theorem SayAlike.beside (h : SayAlike fields fields') :
    SayAlike (fields.filter (·.1 != "type")) (fields'.filter (·.1 != "type")) where
  required name hname := by
    have hne : name ≠ "type" := ne_type_of_mem (List.mem_append_left ["episode", "signal"] hname)
    rw [field?_filter hne, field?_filter hne, h.required name hname]
  optional name hname _ read := by
    have hne : name ≠ "type" :=
      ne_type_of_mem (List.mem_append_right ["action", "reason", "from", "message"] hname)
    rw [field?_filter hne, field?_filter hne, h.optional name hname read]

theorem ofJson?_alike (htype : Json.field? "type" fields = Json.field? "type" fields')
    (h : SayAlike fields fields') : ofJson? (.obj fields) = ofJson? (.obj fields') := by
  simp only [ofJson?, htype, ofCase?_alike h.beside]

theorem field?_insert {name other : String} (hne : name ≠ other)
    (before after : List (String × Json)) (j : Json) :
    Json.field? other (before ++ (name, j) :: after) = Json.field? other (before ++ after) := by
  rw [Json.field?, Json.field?, List.find?_append, List.find?_append,
    List.find?_cons_of_neg (by simpa using hne)]

/-- A field that nobody asks for is passed over, wherever it stands. -/
theorem ofJson?_insert {name : String} (hname : name ∉ fieldNames)
    (before after : List (String × Json)) (j : Json) :
    ofJson? (.obj (before ++ (name, j) :: after)) = ofJson? (.obj (before ++ after)) := by
  have hother : ∀ other ∈ fieldNames, Json.field? other (before ++ (name, j) :: after)
      = Json.field? other (before ++ after) := by
    intro other hmem
    refine field?_insert ?_ before after j
    rintro rfl
    exact hname hmem
  refine ofJson?_alike (hother "type" (by decide))
    ⟨fun other hmem => ?_, fun other hmem _ read => ?_⟩
  · exact hother other (by revert other; decide)
  · rw [hother other (by revert other; decide)]

/-- An option that is `null` is as good as absent. -/
theorem ofJson?_null {name : String} (hname : name ∈ ["episode", "signal"])
    (fields : List (String × Json)) :
    ofJson? (.obj (fields ++ [(name, .null)])) = ofJson? (.obj fields) := by
  have hdistinct : ∀ n ∈ ["episode", "signal"],
      ∀ other ∈ ["type", "action", "reason", "from", "message"], n ≠ other := by decide
  have hother : ∀ other, name ≠ other → Json.field? other (fields ++ [(name, .null)])
      = Json.field? other fields := by
    intro other hne
    rw [field?_insert hne, List.append_nil]
  have hsame : ∀ {α : Type} (read : Json → Option α),
      Json.optional? read (Json.field? name (fields ++ [(name, .null)]))
        = Json.optional? read (Json.field? name fields) := by
    intro α read
    rw [Json.field?, Json.field?, List.find?_append]
    cases fields.find? (·.1 == name) with
    | some field => rfl
    | none => simp [Json.optional?, Json.nullable?]
  refine ofJson?_alike (hother "type" (hdistinct name hname "type" (by decide)))
    ⟨fun other hmem => ?_, fun other hmem _ read => ?_⟩
  · exact hother other (hdistinct name hname other (List.mem_cons_of_mem _ hmem))
  · by_cases hne : name = other
    · subst hne
      exact hsame read
    · rw [hother other hne]

/-- Nanoseconds beyond a second are seconds. -/
theorem durationOfJson?_carry {nanos : Nat} (h : nanos < UInt32.size) (secs : Nat) :
    durationOfJson? (.obj [("secs", .int (secs + nanos / nanosPerSecond : Nat)),
        ("nanos", .int (nanos % nanosPerSecond : Nat))])
      = durationOfJson? (.obj [("secs", .int secs), ("nanos", .int nanos)]) := by
  have hmod : nanos % nanosPerSecond < UInt32.size := Nat.lt_of_le_of_lt (Nat.mod_le _ _) h
  have hcarry : nanos % nanosPerSecond / nanosPerSecond = 0 :=
    Nat.div_eq_of_lt (Nat.mod_lt _ (by decide))
  have hsum : (secs + nanos / nanosPerSecond) * nanosPerSecond + nanos % nanosPerSecond
      = secs * nanosPerSecond + nanos := by
    rw [Nat.add_mul, Nat.add_assoc, Nat.div_add_mod']
  simp only [durationOfJson?_pair, hcarry, Nat.add_zero, hsum, h, hmod, true_and]

/-- Differences between values that reading does not see. -/
structure ReadsAlike : Prop where
  /-- An option is absent or `null`. -/
  absent : ∀ name ∈ ["episode", "signal"], ∀ fields,
    ofJson? (.obj (fields ++ [(name, .null)])) = ofJson? (.obj fields)
  /-- There are fields that no event has. -/
  unknown : ∀ name ∉ fieldNames, ∀ before after j,
    ofJson? (.obj (before ++ (name, j) :: after)) = ofJson? (.obj (before ++ after))
  /-- Seconds are written as nanoseconds. -/
  carried : ∀ secs nanos, nanos < UInt32.size →
    durationOfJson? (.obj [("secs", .int (secs + nanos / nanosPerSecond : Nat)),
        ("nanos", .int (nanos % nanosPerSecond : Nat))])
      = durationOfJson? (.obj [("secs", .int secs), ("nanos", .int nanos)])

/--
**Events survive being written.**

An event reads back from what is written of it, unless its duration is too long to be written, and
no event that was read is. So a value that is read as an event and written again is in its final
form, which reads as the same event and is not changed by doing so once more, whatever reading has
passed over.
-/
theorem events_survive_writing :
    (∀ e : Event, ofJson? e.toJson = some e ↔ e.Writable)
      ∧ (∀ j e, ofJson? j = some e → e.Writable)
      ∧ (∀ j j', normal? j = some j' → ofJson? j' = ofJson? j ∧ normal? j' = some j')
      ∧ ReadsAlike := by
  refine ⟨fun e => ⟨writable_of_ofJson?, ofJson?_toJson⟩,
    fun j e h => writable_of_ofJson? h, ?_, ?_⟩
  · intro j j' h
    obtain ⟨e, hread, rfl⟩ := Option.map_eq_some_iff.mp h
    have hagain : ofJson? e.toJson = some e := ofJson?_toJson (writable_of_ofJson? hread)
    refine ⟨hagain.trans hread.symm, ?_⟩
    rw [normal?, hagain]
    rfl
  · exact ⟨fun name hname fields => ofJson?_null hname fields,
      fun name hname before after j => ofJson?_insert hname before after j,
      fun secs nanos h => durationOfJson?_carry h secs⟩

/-- An event as it need not be written: no level, a remark, a case as an object, and a duration as a
list with more nanoseconds than a second has. -/
def untidy : Json :=
  .obj [("remark", .real "1e3"), ("type", .str "reset"), ("from", .str "modem-reboot"),
    ("reason", .obj [("recovered", .obj [])]), ("episode", .arr [.int 5, .int 2500000000])]

/-- The same event as it is written. -/
def tidy : Json :=
  .obj [("type", .str "reset"), ("from", .str "modem-reboot"), ("reason", .str "recovered"),
    ("episode", .obj [("secs", .int 7), ("nanos", .int 500000000)]), ("signal", .null)]

theorem events_survive_writing_tidied : normal? untidy = some tidy
    ∧ ofJson? tidy = some (.reset .modemReboot .recovered (some 7500000000) none)
    ∧ normal? tidy = some tidy := by
  have hnormal : normal? untidy = some tidy := rfl
  exact ⟨hnormal, (events_survive_writing.2.2.1 untidy tidy hnormal).1,
    (events_survive_writing.2.2.1 untidy tidy hnormal).2⟩

end StallRecovery.Event
