import Mathlib.Data.List.Basic
import StallRecovery.Proofs.Accounts
import StallRecovery.Proofs.Refinement

/-!
# Where faults come from

From outside a controller hears of the network, of new settings, and that it should show its state
or stop; results come only from the actions it started. So the fault of a turn tells where it came
from: settings that describe no policy are a misconfiguration, and an action that fails was not
carried out. And nobody changes who hears of faults, or whether there is a recorder, once a
controller is started.
-/

namespace StallRecovery

/-- Whether a policy was refused. -/
def Fault.isMisconfigured : Fault → Bool
  | .misconfigured _ => true
  | _ => false

/-- Whether an action failed. -/
def Fault.isUndispatched : Fault → Bool
  | .undispatched _ _ => true
  | _ => false

/-- Something that a controller is told from outside. -/
inductive Command.External : Command → Prop where
  | validation (valid : Bool) : External (.validation valid)
  | reload (settings : Settings) : External (.reload settings.toPolicy)
  | snapshot : External .snapshot
  | shutdown : External .shutdown

/-- Why an action failed, if the command is that one did. -/
def Command.error? : Command → Option Fault
  | .finished _ (.error fault) => some fault
  | _ => none

/-- Why a policy was refused, if the work is to say so. -/
def Work.refused? : Work → Option Fault
  | .refusal fault => some fault
  | .command (.reload (.error fault)) => some fault
  | _ => none

/-- The fault of some work tells where it came from. -/
structure Work.Traced (w : Work) : Prop where
  failed : w.fault?.filter Fault.isUndispatched = w.command?.bind Command.error?
  refused : w.fault?.filter Fault.isMisconfigured = w.refused?

theorem Settings.isMisconfigured_of_error {settings : Settings} {fault : Fault}
    (h : settings.toPolicy = .error fault) : fault.isMisconfigured = true := by
  unfold Settings.toPolicy at h
  cases hvalidate : settings.validate with
  | ok policy =>
      rw [hvalidate] at h
      exact absurd h nofun
  | error defect =>
      rw [hvalidate] at h
      cases h
      rfl

theorem PolicySource.isMisconfigured_of_error {source : PolicySource}
    {initial : Except Fault Policy} (h : source.resolve = .ok initial) (fault : Fault)
    (hinitial : initial = .error fault) : fault.isMisconfigured = true := by
  subst hinitial
  cases source with
  | standard => exact absurd h nofun
  | checked settings =>
      simp only [resolve] at h
      cases hpolicy : settings.toPolicy with
      | ok policy =>
          rw [hpolicy] at h
          exact absurd h nofun
      | error fault' =>
          rw [hpolicy] at h
          exact absurd h nofun
  | given settings => exact Settings.isMisconfigured_of_error (Except.ok.inj h)

theorem Command.External.traced {command : Command} (h : command.External) :
    (Work.command command).Traced := by
  cases h with
  | validation valid => exact ⟨rfl, rfl⟩
  | snapshot => exact ⟨rfl, rfl⟩
  | shutdown => exact ⟨rfl, rfl⟩
  | reload settings =>
      cases hpolicy : settings.toPolicy with
      | ok policy => exact ⟨rfl, rfl⟩
      | error fault =>
          have hmis := Settings.isMisconfigured_of_error hpolicy
          cases fault with
          | misconfigured reason => exact ⟨rfl, rfl⟩
          | _ => exact absurd hmis nofun

theorem Running.traced_result (r : Running) (k : Collaborators) :
    (Work.command (r.result k)).Traced := by
  unfold Running.result
  cases r.action.request? with
  | none => exact ⟨rfl, rfl⟩
  | some request =>
      cases k.rejection with
      | none => exact ⟨rfl, rfl⟩
      | some reason => exact ⟨rfl, rfl⟩

/-! ## What is done to a controller -/

/-- Who hears of faults and whether there is a recorder are settled when a controller is started. -/
structure Collaborators.Keeps (k k' : Collaborators) : Prop where
  hears : k'.hearsFailures = k.hearsFailures
  recorder : k'.recordsEvents = k.recordsEvents

/-- What a moment can do to controller `i`, which works with `k`. -/
inductive Deed (i : Nat) (k : Collaborators) : Moment → Occurrence → Prop where
  | published (valid : Bool) : Deed i k (.act (.publish valid)) (.told (.validation valid))
  | reported (valid : Bool) : Deed i k (.act (.report i valid)) (.told (.validation valid))
  | delivered (valid : Bool) : Deed i k (.act (.deliver i valid)) (.told (.validation valid))
  | reloaded (settings : Settings) :
      Deed i k (.act (.reload i settings)) (.told (.reload settings.toPolicy))
  | replaced (settings : Settings) (policy : Policy) (hpolicy : settings.toPolicy = .ok policy) :
      Deed i k (.act (.reloadChecked i settings)) (.told (.reload (.ok policy)))
  | asked : Deed i k (.ask i) (.told .snapshot)
  | stopped : Deed i k (.act (.shutdown i)) (.told .shutdown)
  | abandoned : Deed i k (.act (.abandon i)) .abandoned
  | equipped (m : Moment) (k' : Collaborators) (hkeeps : k.Keeps k') : Deed i k m (.equipped k')
  | tuned (m : Moment) (readings : Readings) : Deed i k m (.tuned readings)
  | moved (m : Moment) (now : Nat) : Deed i k m (.moved now)

namespace Deployment

variable {i : Nat} {d : Deployment} {c : Controller} {m : Moment}

theorem mem_gate {p : Prop} [Decidable p] {o o' : Occurrence} (h : o ∈ if p then [o'] else []) :
    o = o' ∧ p := by
  split at h
  · rename_i hp
    exact ⟨List.mem_singleton.mp h, hp⟩
  · exact absurd h List.not_mem_nil

/-- Nothing else is done to a controller. -/
theorem deed_of_doneTo {o : Occurrence} (h : o ∈ d.doneTo i c m) :
    Deed i c.collaborators m o := by
  cases m with
  | settle => exact absurd h List.not_mem_nil
  | ask j =>
      obtain ⟨rfl, rfl, _⟩ := mem_gate h
      exact .asked
  | act op =>
      cases op with
      | publish valid =>
          obtain ⟨r, _, rfl⟩ := List.mem_map.mp h
          exact .published valid
      | report j valid =>
          obtain ⟨rfl, rfl, _⟩ := mem_gate h
          exact .reported valid
      | deliver j valid =>
          obtain ⟨rfl, rfl, _⟩ := mem_gate h
          exact .delivered valid
      | reload j settings =>
          obtain ⟨rfl, rfl, _⟩ := mem_gate h
          exact .reloaded settings
      | reloadChecked j settings =>
          simp only [doneTo] at h
          cases hpolicy : settings.toPolicy with
          | error fault => simp [hpolicy] at h
          | ok policy =>
              rw [hpolicy] at h
              obtain ⟨rfl, rfl, _⟩ := mem_gate h
              exact .replaced settings policy hpolicy
      | shutdown j =>
          obtain ⟨rfl, rfl, _⟩ := mem_gate h
          exact .stopped
      | abandon j =>
          obtain ⟨rfl, rfl, _⟩ := mem_gate h
          exact .abandoned
      | setSignal | setCall =>
          cases List.mem_singleton.mp h
          exact .tuned _ _
      | jump duration =>
          cases List.mem_singleton.mp h
          exact .moved _ _
      | rejectActions | setActionTime | setRecorderBroken =>
          obtain ⟨rfl, _⟩ := mem_gate h
          exact .equipped _ _ ⟨rfl, rfl⟩
      | start | sinkClosed | register | unregister | sleep => exact absurd h List.not_mem_nil

end Deployment

namespace Scene

variable {s s' : Scene} {life : List Occurrence}

/-- What comes back is the result of an action. -/
theorem Lives.returned (h : s.Lives life s') {r : Running} {result : Command}
    (hmem : .returned r result ∈ life) : ∃ k, result = r.result k := by
  obtain ⟨before, after, rfl⟩ := List.append_of_mem hmem
  obtain ⟨s₁, s₂, _, ho, _⟩ := h.pick
  cases ho with
  | returned halive hrunning hended => exact ⟨_, rfl⟩

/-- The command to stop comes from outside. -/
theorem Lives.told_shutdown (h : s.Lives life s') (hmem : .shutdown ∈ queued life) :
    .told .shutdown ∈ life := by
  rcases mem_queued.mp hmem with htold | ⟨r, hreturned⟩
  · exact htold
  · obtain ⟨k, hresult⟩ := h.returned hreturned
    exact absurd hresult nofun

theorem Lives.keeps {k : Collaborators} (h : s.Lives life s')
    (hs : k.Keeps s.controller.collaborators) (hequipped : ∀ k', .equipped k' ∈ life → k.Keeps k') :
    (∀ t ∈ turns life, k.Keeps t.setting.collaborators)
      ∧ k.Keeps s'.controller.collaborators := by
  induction h with
  | nil s => exact ⟨fun t ht => absurd ht List.not_mem_nil, hs⟩
  | @cons s₁ s₂ s₃ o life ho rest ih =>
      have hkept : k.Keeps s₂.controller.collaborators := by
        have hsetting : s₂.controller.collaborators = (s₁.setting.after o).collaborators :=
          congrArg Setting.collaborators ho.tallies.setting
        rw [hsetting]
        cases o with
        | equipped k' => exact hequipped k' List.mem_cons_self
        | _ => exact hs
      obtain ⟨hturns, hend⟩ := ih hkept fun k' hmem => hequipped k' (List.mem_cons_of_mem _ hmem)
      refine ⟨fun t ht => ?_, hend⟩
      cases hturn : o.turn? with
      | none =>
          rw [turns, List.filterMap_cons_none hturn] at ht
          exact hturns t ht
      | some t' =>
          rw [turns, List.filterMap_cons_some hturn] at ht
          rcases List.mem_cons.mp ht with rfl | hlater
          · have hturned := Occurrence.eq_turned hturn
            subst hturned
            rw [ho.setting_of_turned.1]
            exact hs
          · exact hturns t hlater

end Scene

/-! ## Over a run -/

namespace Deployment

variable {i : Nat} {d : Deployment} {ms : List Moment} {life : List Occurrence}
  {initial : Except Fault Policy} {registration now : Nat} {k : Collaborators}
  {readings : Readings} {s : Scene}

/-- Whatever is done to a controller is done at some moment. -/
theorem Lived.deed (h : Lived i d ms life) {o : Occurrence} (ho : o ∈ life)
    (hdone : o.isDone = true) : ∃ m ∈ ms, ∃ k, Deed i k m o := by
  induction h with
  | nil d => exact absurd ho List.not_mem_nil
  | @cons d m ms s s' segment life hs hs' hlives hsegment rest ih =>
      rcases List.mem_append.mp ho with hnow | hlater
      · exact ⟨m, List.mem_cons_self, _, deed_of_doneTo ((mem_done hsegment hdone).mp hnow)⟩
      · obtain ⟨m', hm', hdeed⟩ := ih hlater
        exact ⟨m', List.mem_cons_of_mem _ hm', hdeed⟩

theorem Lived.told (h : Lived i d ms life) {command : Command} (hmem : .told command ∈ life) :
    command.External := by
  obtain ⟨m, _, k, hdeed⟩ := h.deed hmem rfl
  cases hdeed with
  | published valid => exact .validation valid
  | reported valid => exact .validation valid
  | delivered valid => exact .validation valid
  | reloaded settings => exact .reload settings
  | replaced settings policy hpolicy =>
      rw [← hpolicy]
      exact .reload settings
  | asked => exact .snapshot
  | stopped => exact .shutdown

theorem Lived.keeps (h : Lived i d ms life) (hs : d.scene? i = some s)
    (hk : k.Keeps s.controller.collaborators) :
    ∀ t ∈ turns life, k.Keeps t.setting.collaborators := by
  induction h generalizing s with
  | nil d => exact fun t ht => absurd ht List.not_mem_nil
  | @cons d m ms s₁ s₂ segment life hs₁ hs₂ hlives hdone rest ih =>
      cases hs.symm.trans hs₁
      have hequipped : ∀ k', .equipped k' ∈ segment → k.Keeps k' := by
        intro k' hmem
        cases deed_of_doneTo ((mem_done hdone rfl).mp hmem) with
        | equipped m k' hkept =>
            exact ⟨hkept.hears.trans hk.hears, hkept.recorder.trans hk.recorder⟩
      obtain ⟨hturns, hk'⟩ := hlives.keeps hk hequipped
      intro t ht
      rw [turns_append] at ht
      rcases List.mem_append.mp ht with hnow | hlater
      · exact hturns t hnow
      · exact ih hs₂ hk' t hlater

/-- Every turn of a life from the start on is about something told, or about an action that came
back, or about the settings the controller was started with. -/
theorem Lived.traced (h : Lived i d ms life)
    (hlives : Scene.Lives ⟨now, readings, .new initial registration k⟩ life s)
    (hinitial : ∀ fault, initial = .error fault → fault.isMisconfigured = true) :
    ∀ t ∈ turns life, t.work.Traced := by
  intro t ht
  obtain ⟨before, after, rfl⟩ := List.append_of_mem (mem_turns.mp ht)
  obtain ⟨s₁, s₂, hbefore, hat, _⟩ := hlives.pick
  have hdue := (due_of_turned hbefore hat).1
  generalize t.work = w at hdue
  cases hdue with
  | refusal fault hwork hfirst =>
      have hmis := hinitial fault hwork
      cases fault with
      | misconfigured reason => exact ⟨rfl, rfl⟩
      | _ => exact absurd hmis nofun
  | recheck deadline hannounced hdrained hd hdue => exact ⟨rfl, rfl⟩
  | command command rest hannounced hnext =>
      have hqueued : command ∈ queued before := by
        rw [hnext]
        exact List.mem_append_right _ List.mem_cons_self
      rcases mem_queued.mp hqueued with htold | ⟨r, hreturned⟩
      · exact (h.told (List.mem_append_left _ htold)).traced
      · obtain ⟨k', rfl⟩ := hbefore.returned hreturned
        exact r.traced_result k'

/-- Every fault is surfaced, once, to whoever hears of faults. -/
theorem Lived.failures (h : Lived i d ms life)
    (hscene : d.scene? i = some ⟨now, readings, .new initial registration k⟩)
    (hlives : Scene.Lives ⟨now, readings, .new initial registration k⟩ life s) :
    s.controller.journal.failures.toList
      = if k.hearsFailures then (turns life).filterMap (·.work.fault?) else [] := by
  have hcoherent : Coherent (Machine.start initial) := coherent_reachable (reachable_start initial)
  have hkeeps : ∀ t ∈ turns life, k.Keeps t.setting.collaborators := h.keeps hscene ⟨rfl, rfl⟩
  have hjournal : s.controller.journal = ((Machine.start initial).replay {} (turns life)).2 :=
    congrArg Prod.snd hlives.tallies.replayed
  rw [hjournal, failures_eq _ _ hcoherent]
  cases hheard : k.hearsFailures with
  | true =>
      have hall : (turns life).filter (·.setting.collaborators.hearsFailures) = turns life :=
        List.filter_eq_self.mpr fun t ht => (hkeeps t ht).hears.trans hheard
      rw [hall]
      rfl
  | false =>
      have hnone : (turns life).filter (·.setting.collaborators.hearsFailures) = [] := by
        refine List.filter_eq_nil_iff.mpr fun t ht hheard' => ?_
        rw [(hkeeps t ht).hears, hheard] at hheard'
        exact Bool.false_ne_true hheard'
      rw [hnone]
      rfl

theorem filter_faults {ts : List Turn} (h : ∀ t ∈ ts, t.work.Traced) :
    (ts.filterMap (·.work.fault?)).filter Fault.isUndispatched
        = (ts.filterMap (·.work.command?)).filterMap Command.error?
      ∧ (ts.filterMap (·.work.fault?)).filter Fault.isMisconfigured
        = ts.filterMap (·.work.refused?) := by
  rw [List.filterMap_filterMap, List.filter_filterMap, List.filter_filterMap]
  exact ⟨List.filterMap_congr fun t ht => (h t ht).failed,
    List.filterMap_congr fun t ht => (h t ht).refused⟩

end Deployment

end StallRecovery
