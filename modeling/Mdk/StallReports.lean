/-
Reports of stalled groups, and what keeps them honest.

* `Inserted` — one run of calls, and another with more reorgs;
* `reorgs_silence_no_report` — more reorgs change no arm, and hide no report of a wedged group.
-/
import Mdk.EpochStall

namespace Mdk

namespace EpochStall

open List

/-! ### Reorgs -/

section Reorgs

variable {policy : Policy} {s t : GroupStall} {nowMs : ℕ}

/-- The stall with fewer reorgs, and with more. -/
structure Reorged (s t : GroupStall) : Prop where
  epoch : t.epoch = s.epoch
  undecryptable : t.undecryptable = s.undecryptable
  fired : t.firedAtEpoch = s.firedAtEpoch
  armed : t.armedAtEpoch = s.armedAtEpoch
  last : t.lastArmAtMs = s.lastArmAtMs
  completions : t.fruitlessCompletions = s.fruitlessCompletions
  arms : t.arms ≤ s.arms
  escalated : t.escalated = true → s.escalated = true
  reported : s.fruitlessReported = true → t.fruitlessReported = true

theorem Reorged.refl (s : GroupStall) : Reorged s s :=
  ⟨rfl, rfl, rfl, rfl, rfl, rfl, le_rfl, fun h => h, fun h => h⟩

theorem Reorged.endRun (h : Reorged s t) : Reorged s.endRun t.endRun :=
  ⟨h.epoch, h.undecryptable, h.fired, h.armed, rfl, rfl, le_rfl, nofun, nofun⟩

theorem Reorged.observeEpoch (h : Reorged s t) (epoch : ℕ) :
    Reorged (s.observeEpoch epoch) (t.observeEpoch epoch) := by
  unfold GroupStall.observeEpoch
  rw [h.epoch, h.armed]
  split
  · exact h
  · dsimp only
    split
    · exact ⟨rfl, rfl, rfl, h.armed, rfl, rfl, le_rfl, nofun, nofun⟩
    · exact ⟨rfl, rfl, rfl, h.armed, h.last, rfl, h.arms, h.escalated, nofun⟩

theorem Reorged.expireRunIfStale (h : Reorged s t) (nowMs : ℕ) :
    Reorged (s.expireRunIfStale nowMs) (t.expireRunIfStale nowMs) := by
  unfold GroupStall.expireRunIfStale GroupStall.isStale
  rw [h.last]
  split
  · exact h.endRun
  · exact h

theorem saturatingSucc_mono {m n : ℕ} (h : m ≤ n) : saturatingSucc m ≤ saturatingSucc n := by
  unfold saturatingSucc
  omega

theorem Reorged.noteArm (h : Reorged s t) (nowMs : ℕ) :
    Reorged (s.noteArm nowMs) (t.noteArm nowMs) :=
  ⟨h.epoch, h.undecryptable, congrArg some h.epoch, h.armed, rfl, h.completions, h.arms,
    h.escalated, h.reported⟩

theorem Reorged.arm (h : Reorged s t) (nowMs threshold : ℕ) :
    Reorged (s.arm nowMs threshold).1 (t.arm nowMs threshold).1 ∧
      (t.arm nowMs threshold).2.armsBackfill = (s.arm nowMs threshold).2.armsBackfill := by
  have hexpired := h.expireRunIfStale nowMs
  have harms := saturatingSucc_mono hexpired.arms
  have harmed : Reorged
      { s.expireRunIfStale nowMs with
        armedAtEpoch := some (s.expireRunIfStale nowMs).epoch
        arms := saturatingSucc (s.expireRunIfStale nowMs).arms }
      { t.expireRunIfStale nowMs with
        armedAtEpoch := some (t.expireRunIfStale nowMs).epoch
        arms := saturatingSucc (t.expireRunIfStale nowMs).arms } :=
    { hexpired with armed := congrArg some hexpired.epoch, arms := harms }
  have hnoted := harmed.noteArm nowMs
  unfold GroupStall.arm
  dsimp only
  split
  · split
    · exact ⟨{ hnoted with escalated := fun _ => rfl }, rfl⟩
    · exact ⟨{ hnoted with escalated := fun _ => rfl }, rfl⟩
  · split
    · rename_i hnot hescalates
      -- The run with more reorgs has counted no more arms.
      refine ⟨{ hnoted with escalated := fun _ => ?_ }, rfl⟩
      by_contra hescalated
      exact hnot ⟨hescalates.1.trans harms, Bool.eq_false_iff.mpr hescalated⟩
    · exact ⟨hnoted, rfl⟩

/-- Both arm, or neither does. -/
theorem Reorged.signal (h : Reorged s t) (policy : Policy) (nowMs : ℕ) :
    Reorged (s.signal policy nowMs).1 (t.signal policy nowMs).1 ∧
      (t.signal policy nowMs).2.armsBackfill = (s.signal policy nowMs).2.armsBackfill := by
  unfold GroupStall.signal GroupStall.mayRearmWedged
  rw [h.epoch, h.fired, h.armed, h.last]
  split
  · exact h.arm nowMs _
  · split
    · exact ⟨(h.expireRunIfStale nowMs).noteArm nowMs, rfl⟩
    · exact ⟨h, rfl⟩

theorem Reorged.observeUndecryptable (h : Reorged s t) (policy : Policy) (message : String)
    (nowMs : ℕ) :
    Reorged (s.observeUndecryptable policy message nowMs).1
        (t.observeUndecryptable policy message nowMs).1 ∧
      (t.observeUndecryptable policy message nowMs).2.armsBackfill =
        (s.observeUndecryptable policy message nowMs).2.armsBackfill := by
  have hcounted : Reorged (s.count policy.threshold message)
      (t.count policy.threshold message) := by
    unfold GroupStall.count
    rw [h.undecryptable]
    split
    · exact { h with undecryptable := rfl }
    · exact h
  unfold GroupStall.observeUndecryptable
  dsimp only
  rw [hcounted.undecryptable]
  split
  · exact ⟨hcounted, rfl⟩
  · exact hcounted.signal policy nowMs

/-- Where the run with fewer reorgs reports, the other one does or has. -/
theorem Reorged.observeFruitlessCompletion (h : Reorged s t) (threshold : ℕ) :
    Reorged (s.observeFruitlessCompletion threshold).1 (t.observeFruitlessCompletion threshold).1 ∧
      ((s.observeFruitlessCompletion threshold).2.isSome = true →
        (t.observeFruitlessCompletion threshold).2.isSome = true ∨
          t.fruitlessReported = true ∧ s.fruitlessReported = false) := by
  unfold GroupStall.observeFruitlessCompletion
  rw [h.epoch, h.armed, h.completions]
  split
  · exact ⟨h, nofun⟩
  · dsimp only
    split
    · rename_i hreports
      have hescalated : t.escalated = false := Bool.eq_false_iff.mpr fun htrue => by
        rw [h.escalated htrue] at hreports
        exact absurd hreports.2.1 (by decide)
      split
      · exact ⟨⟨rfl, h.undecryptable, h.fired, rfl, h.last, rfl, h.arms, fun _ => rfl,
          fun _ => rfl⟩, fun _ => .inl rfl⟩
      · rename_i hnot
        have hreported : t.fruitlessReported = true := by
          by_contra hne
          exact hnot ⟨hreports.1, hescalated, Bool.eq_false_iff.mpr hne⟩
        exact ⟨⟨rfl, h.undecryptable, h.fired, rfl, h.last, rfl, h.arms, fun _ => rfl,
          fun _ => hreported⟩, fun _ => .inr ⟨hreported, hreports.2.2⟩⟩
    · rename_i hnot
      split
      · rename_i hreports
        -- Only an escalation keeps the run with fewer reorgs from reporting.
        refine ⟨⟨rfl, h.undecryptable, h.fired, rfl, h.last, rfl, h.arms, fun _ => ?_,
          fun _ => rfl⟩, nofun⟩
        by_contra hescalated
        refine hnot ⟨hreports.1, Bool.eq_false_iff.mpr hescalated,
          Bool.eq_false_iff.mpr fun htrue => ?_⟩
        rw [h.reported htrue] at hreports
        exact absurd hreports.2.2 (by decide)
      · exact ⟨⟨rfl, h.undecryptable, h.fired, rfl, h.last, rfl, h.arms, h.escalated,
          h.reported⟩, nofun⟩

theorem Reorged.observeEpochPassage (h : Reorged s t) (start stop : ℕ) :
    Reorged (s.observeEpochPassage start stop) (t.observeEpochPassage start stop) := by
  unfold GroupStall.observeEpochPassage
  rw [h.epoch]
  split
  · exact h
  · split
    · exact (h.observeEpoch _).observeEpoch _
    · exact h.observeEpoch _

end Reorgs

def Reply.reports : Reply → Bool
  | completed escalation => escalation.isSome
  | done | decided _ => false

/-- What a call both runs make does to the two stalls of a group. -/
structure Agree (policy : Policy) (s t : Option GroupStall) (event : Event) : Prop where
  stalls : Option.Rel Reorged (observe policy s event).1 (observe policy t event).1
  arms : (observe policy t event).2.arms = (observe policy s event).2.arms
  reports : (observe policy s event).2.reports = true →
    (observe policy t event).2.reports = true ∨
      t.any (·.fruitlessReported) = true ∧ s.any (·.fruitlessReported) = false

theorem agree_of_reorged {policy : Policy} {s t : Option GroupStall} (h : Option.Rel Reorged s t)
    (event : Event) : Agree policy s t event := by
  have hgetD : ∀ epoch, Reorged (s.getD (.new epoch)) (t.getD (.new epoch)) := by
    intro epoch
    cases h with
    | some h => exact h
    | none => exact .refl _
  have hmap : ∀ {f : GroupStall → GroupStall}, (∀ {s t}, Reorged s t → Reorged (f s) (f t)) →
      Option.Rel Reorged (s.map f) (t.map f) := by
    intro f hf
    cases h with
    | some h => exact .some (hf h)
    | none => exact .none
  cases event with
  | undecryptable message epoch nowMs =>
    obtain ⟨hstalls, harms⟩ :=
      ((hgetD epoch).observeEpoch epoch).observeUndecryptable policy message nowMs
    exact ⟨.some hstalls, harms, nofun⟩
  | resourceRefusal epoch nowMs =>
    obtain ⟨hstalls, harms⟩ := ((hgetD epoch).observeEpoch epoch).signal policy nowMs
    exact ⟨.some hstalls, harms, nofun⟩
  | groupEpoch epoch => exact ⟨hmap fun h => h.observeEpoch epoch, rfl, nofun⟩
  | epochPassage start stop => exact ⟨hmap fun h => h.observeEpochPassage start stop, rfl, nofun⟩
  | convergenceReorg =>
    exact ⟨hmap fun h => { h with arms := le_rfl, escalated := nofun }, rfl, nofun⟩
  | fruitlessCompletion =>
    cases h with
    | none => exact ⟨.none, rfl, nofun⟩
    | some h =>
      obtain ⟨hstalls, hreports⟩ := h.observeFruitlessCompletion policy.fruitlessCompletionThreshold
      exact ⟨.some hstalls, rfl, hreports⟩
  | replayed => exact ⟨hmap fun h => { h with fired := congrArg some h.epoch }, rfl, nofun⟩
  | refused => exact ⟨hmap fun h => { h with fired := rfl }, rfl, nofun⟩
  | recovered => exact ⟨.none, rfl, nofun⟩
  | restored evidence =>
    exact ⟨.some ⟨rfl, (hgetD _).undecryptable, rfl, rfl, rfl, rfl, (hgetD _).arms,
      (hgetD _).escalated, fun h => h⟩, rfl, nofun⟩

/-! ### Starting over -/

section StartsOver

variable {policy : Policy} {stall : Option GroupStall} {event : Event}

def Event.nowMs? : Event → Option ℕ
  | undecryptable _ _ nowMs | resourceRefusal _ nowMs => some nowMs
  | groupEpoch _ | epochPassage _ _ | convergenceReorg | fruitlessCompletion | replayed | refused
  | recovered | restored _ => none

/-- The group changes its epoch or is dropped, or an arm finds its run too old to go on. -/
def StartsOver (policy : Policy) (stall : Option GroupStall) (event : Event) : Prop :=
  (observe policy stall event).1.map (·.epoch) ≠ stall.map (·.epoch) ∨
    (observe policy stall event).2.arms = true ∧
      ∃ nowMs, event.nowMs? = some nowMs ∧ stall.any (·.isStale nowMs) = true

theorem startsOver_of_reorged {s t : Option GroupStall} (h : Option.Rel Reorged s t) :
    StartsOver policy t event ↔ StartsOver policy s event := by
  have hepoch : ∀ {s t : Option GroupStall}, Option.Rel Reorged s t →
      t.map (·.epoch) = s.map (·.epoch) := by
    intro s t h
    cases h with
    | none => rfl
    | some h => exact congrArg some h.epoch
  have hstale : ∀ nowMs, t.any (·.isStale nowMs) = s.any (·.isStale nowMs) := by
    intro nowMs
    cases h with
    | none => rfl
    | some h => rw [Option.any_some, Option.any_some, GroupStall.isStale, h.last]; rfl
  have hagree : Agree policy s t event := agree_of_reorged h event
  unfold StartsOver
  rw [hepoch hagree.stalls, hepoch h, hagree.arms]
  simp only [hstale]

@[simp] theorem signal_epoch (s : GroupStall) (policy : Policy) (nowMs : ℕ) :
    (s.signal policy nowMs).1.epoch = s.epoch := by
  unfold GroupStall.signal GroupStall.arm GroupStall.rearmWedged GroupStall.expireRunIfStale
  grind [GroupStall.noteArm, GroupStall.endRun]

theorem signal_reported (s : GroupStall) (policy : Policy) (nowMs : ℕ) :
    (s.signal policy nowMs).1.fruitlessReported =
      (s.fruitlessReported && !((s.signal policy nowMs).2.armsBackfill && s.isStale nowMs)) := by
  unfold GroupStall.signal GroupStall.arm GroupStall.rearmWedged GroupStall.expireRunIfStale
  grind [GroupStall.noteArm, GroupStall.endRun, BackfillDecision.armsBackfill]

theorem observeUndecryptable_epoch (s : GroupStall) (policy : Policy) (message : String)
    (nowMs : ℕ) :
    (s.observeUndecryptable policy message nowMs).1.epoch = s.epoch := by
  unfold GroupStall.observeUndecryptable GroupStall.count
  grind [signal_epoch]

theorem observeUndecryptable_reported (s : GroupStall) (policy : Policy) (message : String)
    (nowMs : ℕ) :
    (s.observeUndecryptable policy message nowMs).1.fruitlessReported = (s.fruitlessReported &&
      !((s.observeUndecryptable policy message nowMs).2.armsBackfill && s.isStale nowMs)) := by
  unfold GroupStall.observeUndecryptable GroupStall.count
  grind [signal_reported, GroupStall.isStale, BackfillDecision.armsBackfill]

theorem observeEpoch_epoch (s : GroupStall) (epoch : ℕ) : (s.observeEpoch epoch).epoch = epoch := by
  grind [GroupStall.observeEpoch]

theorem observeEpoch_reported {s : GroupStall} {epoch : ℕ} (h : s.epoch ≠ epoch) :
    (s.observeEpoch epoch).fruitlessReported = false := by
  grind [GroupStall.observeEpoch]

theorem observeEpochPassage_moved {s : GroupStall} {start stop : ℕ}
    (h : ¬ (stop ≤ start ∨ stop ≤ s.epoch)) :
    (s.observeEpochPassage start stop).epoch = stop ∧
      (s.observeEpochPassage start stop).fruitlessReported = false := by
  grind [GroupStall.observeEpochPassage, GroupStall.observeEpoch]

theorem observeFruitlessCompletion_kept (s : GroupStall) (threshold : ℕ) :
    (s.observeFruitlessCompletion threshold).1.epoch = s.epoch ∧
      (s.observeFruitlessCompletion threshold).1.fruitlessReported =
        (s.fruitlessReported || (s.observeFruitlessCompletion threshold).2.isSome) := by
  grind [GroupStall.observeFruitlessCompletion]

/-- What the two kinds of traffic have in common. -/
theorem traffic_reported_iff {f : GroupStall → GroupStall × BackfillDecision} {epoch nowMs : ℕ}
    (hepoch : ∀ s, (f s).1.epoch = s.epoch)
    (hreported : ∀ s, (f s).1.fruitlessReported =
      (s.fruitlessReported && !((f s).2.armsBackfill && s.isStale nowMs)))
    {s : GroupStall} (hs : s = (stall.getD (.new epoch)).observeEpoch epoch) :
    (f s).1.fruitlessReported = true ↔ ¬ (some (f s).1.epoch ≠ stall.map (·.epoch) ∨
      (f s).2.armsBackfill = true ∧ stall.any (·.isStale nowMs) = true) ∧
        stall.any (·.fruitlessReported) = true := by
  rw [hreported, hepoch]
  cases stall with
  | none => simp [hs, GroupStall.observeEpoch, GroupStall.new]
  | some old =>
    rw [Option.getD_some] at hs
    by_cases hold : old.epoch = epoch
    · have hsame : s = old := hs.trans (if_pos hold)
      rw [hsame]
      cases (f old).2.armsBackfill <;> simp [and_comm]
    · have hmoved : s.fruitlessReported = false := hs ▸ observeEpoch_reported hold
      have hnew : s.epoch = epoch := hs ▸ observeEpoch_epoch old epoch
      simp [hmoved, hnew, Ne.symm hold]

/-- A group remembers its report until it starts over, unless it is restored. -/
theorem reported_iff (h : ∀ evidence, event ≠ .restored evidence) :
    (observe policy stall event).1.any (·.fruitlessReported) = true ↔
      ¬ StartsOver policy stall event ∧ (stall.any (·.fruitlessReported) = true ∨
        (observe policy stall event).2.reports = true) := by
  unfold StartsOver
  cases event with
  | undecryptable message epoch nowMs =>
    simpa [observe, Event.nowMs?, Reply.arms, Reply.reports] using
      traffic_reported_iff (fun s => observeUndecryptable_epoch s policy message nowMs)
        (fun s => observeUndecryptable_reported s policy message nowMs) rfl
  | resourceRefusal epoch nowMs =>
    simpa [observe, Event.nowMs?, Reply.arms, Reply.reports] using
      traffic_reported_iff (fun s => signal_epoch s policy nowMs)
        (fun s => signal_reported s policy nowMs) rfl
  | groupEpoch epoch =>
    cases stall with
    | none => simp [observe, Reply.reports]
    | some s =>
      by_cases hs : s.epoch = epoch
      · simp [observe, Reply.reports, Event.nowMs?, GroupStall.observeEpoch, hs]
      · simp [observe, Reply.reports, observeEpoch_reported hs, observeEpoch_epoch, Ne.symm hs]
  | epochPassage start stop =>
    cases stall with
    | none => simp [observe, Reply.reports]
    | some s =>
      by_cases hs : stop ≤ start ∨ stop ≤ s.epoch
      · simp [observe, Reply.reports, Event.nowMs?, GroupStall.observeEpochPassage, hs]
      · have hmoved := observeEpochPassage_moved hs
        have hstop : stop ≠ s.epoch := by omega
        simp [observe, Reply.reports, hmoved, hstop]
  | convergenceReorg =>
    cases stall with
    | none => simp [observe, Reply.reports]
    | some s => simp [observe, Reply.reports, Event.nowMs?, GroupStall.observeConvergenceReorg]
  | fruitlessCompletion =>
    cases stall with
    | none => simp [observe, Reply.reports]
    | some s =>
      have hkept := observeFruitlessCompletion_kept s policy.fruitlessCompletionThreshold
      simp [observe, Reply.reports, Event.nowMs?, hkept]
  | replayed => cases stall <;> simp [observe, Reply.reports, Event.nowMs?]
  | refused => cases stall <;> simp [observe, Reply.reports, Event.nowMs?]
  | recovered => cases stall <;> simp [observe, Reply.reports]
  | restored evidence => exact absurd rfl (h evidence)

end StartsOver

/-! ### Two runs -/

/-- A call both runs make, or a reorg that only one of them has. -/
inductive Step where
  | common (call : Call)
  | reorg (group : GroupId)
deriving DecidableEq, Repr

def Step.common? : Step → Option Call
  | common call => some call
  | reorg _ => none

def Step.call : Step → Call
  | common call => call
  | reorg group => .on group .convergenceReorg

/-- What a call answers about a group, if it is about it. -/
def Detector.answer (policy : Policy) (detector : Detector) (group : GroupId) (call : Call) :
    Option Reply :=
  (call.event? group).map (detector.reply policy group)

/-- The run without the reorgs that were put in. -/
def withoutReorgs (policy : Policy) (steps : List Step) : Detector :=
  .run policy (steps.filterMap Step.common?)

def withReorgs (policy : Policy) (steps : List Step) : Detector := .run policy (steps.map Step.call)

/-- The run with the reorgs has reported the group at a common call, and the group has not started
over since. -/
inductive Told (policy : Policy) (group : GroupId) : List Step → Prop
  | now {steps : List Step} {call : Call}
      (h : ((withReorgs policy steps).answer policy group call).any Reply.reports = true) :
      Told policy group (steps ++ [.common call])
  | later {steps : List Step} {step : Step} (h : Told policy group steps)
      (hkept : ∀ event, step.call.event? group = some event →
        ¬ StartsOver policy (withReorgs policy steps group) event) :
      Told policy group (steps ++ [step])

section TwoRuns

variable {policy : Policy} {group : GroupId} {steps : List Step} {call : Call} {event : Event}

theorem Detector.step_other (detector : Detector) (h : call.event? group = none) :
    detector.step policy call group = detector group := by
  rw [Detector.step, h]

theorem Detector.step_event (detector : Detector) (h : call.event? group = some event) :
    detector.step policy call group = (observe policy (detector group) event).1 := by
  rw [Detector.step, h]

theorem withReorgs_concat (policy : Policy) (steps : List Step) (step : Step) :
    withReorgs policy (steps ++ [step]) = (withReorgs policy steps).step policy step.call := by
  rw [withReorgs, map_append, Detector.run]
  exact foldl_concat ..

theorem withoutReorgs_common (policy : Policy) (steps : List Step) (call : Call) :
    withoutReorgs policy (steps ++ [.common call]) =
      (withoutReorgs policy steps).step policy call := by
  rw [withoutReorgs, filterMap_append, Detector.run]
  exact foldl_concat ..

theorem withoutReorgs_reorg (policy : Policy) (steps : List Step) (group : GroupId) :
    withoutReorgs policy (steps ++ [.reorg group]) = withoutReorgs policy steps := by
  rw [withoutReorgs, filterMap_append]
  exact congrArg _ (append_nil _)

theorem reorg_event {other : GroupId}
    (h : (Call.on other .convergenceReorg).event? group = some event) :
    event = .convergenceReorg := by
  rw [Call.event?] at h
  split at h
  · cases h
    rfl
  · cases h

theorem not_startsOver_reorg (stall : Option GroupStall) :
    ¬ StartsOver policy stall .convergenceReorg := by
  rintro (hmoved | ⟨harms, -⟩)
  · cases stall <;> exact hmoved rfl
  · cases harms

theorem reorged_reorg {s t : Option GroupStall} (h : Option.Rel Reorged s t) :
    Option.Rel Reorged s (observe policy t .convergenceReorg).1 := by
  cases h with
  | none => exact .none
  | some h => exact .some { h with arms := Nat.zero_le _, escalated := nofun }

theorem reorged_runs (policy : Policy) (group : GroupId) (steps : List Step) :
    Option.Rel Reorged (withoutReorgs policy steps group) (withReorgs policy steps group) := by
  induction steps using reverseRecOn with
  | nil => exact .none
  | append_singleton steps step ih =>
    rw [withReorgs_concat]
    cases step with
    | common call =>
      rw [withoutReorgs_common]
      cases hevent : call.event? group with
      | none =>
        rw [Detector.step_other _ hevent, Step.call, Detector.step_other _ hevent]
        exact ih
      | some event =>
        rw [Detector.step_event _ hevent, Step.call, Detector.step_event _ hevent]
        exact (agree_of_reorged ih event).stalls
    | reorg other =>
      rw [withoutReorgs_reorg, Step.call]
      cases hevent : (Call.on other .convergenceReorg).event? group with
      | none =>
        rw [Detector.step_other _ hevent]
        exact ih
      | some event =>
        rw [Detector.step_event _ hevent, reorg_event hevent]
        exact reorged_reorg ih

/-- A report that only the run with the reorgs remembers was made since the group started over. -/
theorem told_of_reported
    (h : (withReorgs policy steps group).any (·.fruitlessReported) = true) :
    (withoutReorgs policy steps group).any (·.fruitlessReported) = true ∨
      Told policy group steps := by
  induction steps using reverseRecOn with
  | nil => cases h
  | append_singleton steps step ih =>
    rw [withReorgs_concat] at h
    cases step with
    | common call =>
      rw [withoutReorgs_common]
      rw [Step.call] at h
      cases hevent : call.event? group with
      | none =>
        rw [Detector.step_other _ hevent] at h ⊢
        exact (ih h).imp_right fun htold => htold.later fun event hsome => by
          rw [Step.call, hevent] at hsome
          cases hsome
      | some event =>
        rw [Detector.step_event _ hevent] at h ⊢
        by_cases hrestored : ∃ evidence, event = .restored evidence
        · obtain ⟨evidence, rfl⟩ := hrestored
          exact .inl h
        · have hne : ∀ evidence, event ≠ .restored evidence := fun evidence heq =>
            hrestored ⟨evidence, heq⟩
          obtain ⟨hkept, hold | hreports⟩ := (reported_iff hne).mp h
          · refine (ih hold).imp (fun hbefore => ?_) fun htold => htold.later fun event' hsome => ?_
            · exact (reported_iff hne).mpr
                ⟨fun hstarts => hkept ((startsOver_of_reorged (reorged_runs policy group steps)).mpr
                  hstarts), .inl hbefore⟩
            · rw [Step.call, hevent] at hsome
              cases hsome
              exact hkept
          · refine .inr (.now ?_)
            rw [Detector.answer, hevent]
            exact hreports
    | reorg other =>
      rw [withoutReorgs_reorg]
      rw [Step.call] at h
      have hbefore : (withReorgs policy steps group).any (·.fruitlessReported) = true := by
        cases hevent : (Call.on other .convergenceReorg).event? group with
        | none => rwa [Detector.step_other _ hevent] at h
        | some event =>
          rw [Detector.step_event _ hevent, reorg_event hevent] at h
          cases hstall : withReorgs policy steps group with
          | none =>
            rw [hstall] at h
            cases h
          | some stall =>
            rw [hstall] at h
            exact h
      refine (ih hbefore).imp_right fun htold => htold.later fun event hsome => ?_
      rw [reorg_event hsome]
      exact not_startsOver_reorg _

/-- **Reorgs silence no report.**  Reorgs put into a run change no arm, and a group that is reported
without them is reported with them, at the same call or at an earlier one since it started over. -/
theorem reorgs_silence_no_report (policy : Policy) (group : GroupId) (steps : List Step)
    (call : Call) :
    ((withReorgs policy steps).answer policy group call).map Reply.arms =
        ((withoutReorgs policy steps).answer policy group call).map Reply.arms ∧
      (((withoutReorgs policy steps).answer policy group call).any Reply.reports = true →
        ((withReorgs policy steps).answer policy group call).any Reply.reports = true ∨
          Told policy group steps) := by
  have hreorged := reorged_runs policy group steps
  rw [Detector.answer, Detector.answer]
  cases call.event? group with
  | none => exact ⟨rfl, nofun⟩
  | some event =>
    have hagree : Agree policy _ _ event := agree_of_reorged hreorged event
    refine ⟨congrArg some hagree.arms, fun hreports => ?_⟩
    obtain htells | ⟨htold, hsilent⟩ := hagree.reports hreports
    · exact .inl htells
    · refine .inr ((told_of_reported htold).resolve_left ?_)
      rw [hsilent]
      exact nofun

end TwoRuns

end EpochStall

end Mdk
