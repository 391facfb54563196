/-
Fanouts and their histories.

`RowInv history fanout` says how a fanout that is still worked on agrees with what has
happened to it: an accepted target was answered so in a stored round, an exposure that a
stored round answered is still on record, and a rollback was asked for only once every
target had failed.  `Sound history` is what is left to say once the row is gone.

Every event the driver adds keeps both.
-/
import Mdk.FanoutResolution

namespace Mdk

open List FanoutTargetStatus OutboundFanout

/-! ### Targets of a round -/

/-- A target once its attempt is answered. -/
def FanoutTarget.answered (target : FanoutTarget) : Option TransportEndpointFailure → FanoutTarget
  | none => { target with status := .accepted }
  | some failure => target.afterFailure failure

/-- A target whose attempt is started. -/
def FanoutTarget.started (target : FanoutTarget) (nowMs : UInt64) : FanoutTarget :=
  { target with
    status := .attempting
    attemptCount :=
      if target.attemptCount + 1 = 0 then target.attemptCount else target.attemptCount + 1
    lastAttemptAtMs := some nowMs
    failure := none }

namespace FanoutTarget

theorem afterFailure_status_ne_accepted (target : FanoutTarget)
    (failure : TransportEndpointFailure) : (target.afterFailure failure).status ≠ .accepted := by
  simp only [afterFailure]
  split
  · simp
  · cases failure.kind <;> simp

variable {answer : Option TransportEndpointFailure} {target : FanoutTarget}

/-- Only an accepted attempt makes a target accepted. -/
theorem answered_accepted (h : (target.answered answer).status = .accepted) : answer = none := by
  cases answer with
  | none => rfl
  | some failure => exact absurd h (afterFailure_status_ne_accepted target failure)

/-- An exposing answer, or an earlier one, leaves the target accepted or flagged. -/
theorem answered_reached (h : target.possibleExposure = true ∨ answerExposes answer = true) :
    (target.answered answer).status = .accepted ∨
      (target.answered answer).possibleExposure = true := by
  cases answer with
  | none => exact .inl rfl
  | some failure =>
    right
    simpa [answered, afterFailure, answerExposes] using h

/-- A flagged target does not count as failed. -/
theorem answered_not_failed (h : (target.answered answer).possibleExposure = true) :
    (target.answered answer).status ≠ .failed := by
  cases answer with
  | none => simp [answered]
  | some failure =>
    have hexposed : (target.possibleExposure || decide (failure.kind = .possiblyExposed)) = true :=
      h
    simp [answered, afterFailure, hexposed]

end FanoutTarget

/-- The targets at `due` are changed, by `g`, and nothing else but the published id. -/
structure Updated (due : List ℕ) (g : ℕ → FanoutTarget → FanoutTarget)
    (fanout fanout' : OutboundFanout) : Prop where
  frame : ∃ publishedMessageId targets h, fanout' = { fanout with
    publishedMessageId := publishedMessageId, targets := targets, targets_length := h }
  targets : ∀ i, fanout'.targets[i]? =
    if i ∈ due then fanout.targets[i]?.map (g i) else fanout.targets[i]?

/-- The target is there and has no outcome yet. -/
def OutboundFanout.OutstandingAt (fanout : OutboundFanout) (i : ℕ) : Prop :=
  ∃ target, fanout.targets[i]? = some target ∧ target.status.isOutstanding = true

section Rounds

variable {due : List ℕ} {g : ℕ → FanoutTarget → FanoutTarget} {fanout fanout' : OutboundFanout}

/-- A loop over distinct outstanding targets, of which each step changes one. -/
theorem updated_of_foldlM
    {step : OutboundFanout → ℕ → Except TransportAdapterError OutboundFanout}
    (hstep : ∀ f i target f', f.request = fanout.request → f.targets[i]? = some target →
      target.status.isOutstanding = true → step f i = .ok f' →
      ∃ publishedMessageId, f' = { f.setTarget i (g i target) with
        publishedMessageId := publishedMessageId })
    (hnodup : due.Nodup) (hdue : ∀ i ∈ due, fanout.OutstandingAt i)
    (h : due.foldlM step fanout = .ok fanout') : Updated due g fanout fanout' := by
  induction due generalizing fanout with
  | nil =>
    cases h
    exact ⟨⟨_, _, _, rfl⟩, fun i => by simp⟩
  | cons i due ih =>
    obtain ⟨target, htarget, hout⟩ := hdue i (.head _)
    rw [foldlM_cons] at h
    cases hfirst : step fanout i with
    | error e =>
      rw [hfirst] at h
      cases h
    | ok f =>
      rw [hfirst] at h
      obtain ⟨publishedMessageId, rfl⟩ := hstep fanout i target f rfl htarget hout hfirst
      have hi : i ∉ due := (nodup_cons.mp hnodup).1
      have hother : ∀ j, j ≠ i → (fanout.targets.set i (g i target))[j]? = fanout.targets[j]? :=
        fun j hj => by rw [getElem?_set_ne fun heq => hj heq.symm]
      -- The targets that are still to come are as they were.
      have hdue' : ∀ j ∈ due, ({ fanout.setTarget i (g i target) with
          publishedMessageId := publishedMessageId } : OutboundFanout).OutstandingAt j := by
        intro j hj
        obtain ⟨other, hget, hout'⟩ := hdue j (.tail _ hj)
        refine ⟨other, ?_, hout'⟩
        rw [← hget]
        exact hother j fun heq => hi (heq ▸ hj)
      have hrest : Updated due g { fanout.setTarget i (g i target) with
          publishedMessageId := publishedMessageId } fanout' :=
        ih hstep (nodup_cons.mp hnodup).2 hdue' h
      obtain ⟨publishedMessageId', targets, hlength, rfl⟩ := hrest.frame
      refine ⟨⟨publishedMessageId', targets, hlength, rfl⟩, fun j => ?_⟩
      rw [hrest.targets j]
      by_cases hj : j = i
      · subst hj
        have hlt : j < fanout.targets.length := (List.getElem?_eq_some_iff.mp htarget).1
        rw [if_neg hi, if_pos (.head _), htarget]
        exact getElem?_set_self hlt
      · simp only [mem_cons, hj, false_or]
        have hset : ({ fanout.setTarget i (g i target) with
            publishedMessageId := publishedMessageId } : OutboundFanout).targets[j]? =
              fanout.targets[j]? := hother j hj
        rw [hset]

theorem markAttemptsStarted_updated {nowMs : UInt64} (hnodup : due.Nodup)
    (hdue : ∀ i ∈ due, fanout.OutstandingAt i)
    (h : markAttemptsStarted nowMs due fanout = .ok fanout') :
    Updated due (fun _ target => target.started nowMs) fanout fanout' := by
  refine updated_of_foldlM (fun f i target f' _ htarget hout hstep => ?_) hnodup hdue h
  simp only [markAttemptStartedAt, htarget, hout, if_true, Except.map,
    Except.ok.injEq] at hstep
  exact ⟨f.publishedMessageId, hstep.symm⟩

theorem recordAttempts_updated {answers : ℕ → AdapterResult} (hnodup : due.Nodup)
    (hdue : ∀ i ∈ due, fanout.OutstandingAt i)
    (h : recordAttempts answers due fanout = .ok fanout') :
    Updated due (fun i target => target.answered (attemptAnswer fanout i (answers i))) fanout
      fanout' := by
  refine updated_of_foldlM (fun f i target f' hrequest htarget hout hstep => ?_) hnodup hdue h
  have hrecorded : ∀ messageId r, (f.recordPublishedMessageId messageId).map Prod.fst = .ok r →
      ∃ publishedMessageId, r = { f with publishedMessageId := publishedMessageId } := by
    intro messageId r hr
    unfold recordPublishedMessageId at hr
    split at hr
    · exact ⟨_, (Except.ok.inj hr).symm⟩
    · split at hr <;> cases hr
      exact ⟨_, rfl⟩
  -- Whatever id is recorded first, the target is answered by the frozen endpoint.
  have hanswered : ∀ publishedMessageId,
      (match attemptAnswer { f with publishedMessageId := publishedMessageId } i (answers i) with
        | none => (({ f with publishedMessageId := publishedMessageId } :
            OutboundFanout).markTargetAccepted i).map Prod.fst
        | some failure => (({ f with publishedMessageId := publishedMessageId } :
            OutboundFanout).recordTargetFailure i failure).map Prod.fst) = .ok f' →
      f' = { f.setTarget i (target.answered (attemptAnswer fanout i (answers i))) with
        publishedMessageId := publishedMessageId } := by
    intro publishedMessageId hf
    have hanswer : attemptAnswer { f with publishedMessageId := publishedMessageId } i (answers i) =
        attemptAnswer fanout i (answers i) := by
      simp only [attemptAnswer, hrequest]
    rw [hanswer] at hf
    cases hcase : attemptAnswer fanout i (answers i) with
    | none =>
      simp only [hcase, markTargetAccepted, markTargetTerminal,
        htarget, isTerminal, hout, Except.map] at hf
      exact (Except.ok.inj hf).symm
    | some failure =>
      simp only [hcase, recordTargetFailure] at hf
      split at hf
      · cases hf
      · simp only [htarget, isTerminal, hout, Except.map] at hf
        exact (Except.ok.inj hf).symm
  simp only [recordAttempt] at hstep
  cases hid : attemptMessageId (answers i) with
  | none =>
    rw [hid] at hstep
    exact ⟨f.publishedMessageId, hanswered f.publishedMessageId hstep⟩
  | some messageId =>
    rw [hid] at hstep
    cases hpublished : (f.recordPublishedMessageId messageId).map Prod.fst with
    | error e =>
      simp only [hpublished] at hstep
      cases hstep
    | ok r =>
      simp only [hpublished] at hstep
      obtain ⟨publishedMessageId, rfl⟩ := hrecorded messageId r hpublished
      exact ⟨publishedMessageId, hanswered publishedMessageId hstep⟩

/-- A target of the new row is an old one, or one that was changed. -/
theorem Updated.mem {target' : FanoutTarget} (h : Updated due g fanout fanout')
    (hdue : ∀ i ∈ due, fanout.OutstandingAt i) (hmem : target' ∈ fanout'.targets) :
    target' ∈ fanout.targets ∨ ∃ i ∈ due, ∃ target ∈ fanout.targets,
      target.status.isOutstanding = true ∧ target' = g i target := by
  obtain ⟨i, hi⟩ := mem_iff_getElem?.mp hmem
  rw [h.targets i] at hi
  split at hi
  · rename_i hin
    obtain ⟨target, htarget, hout⟩ := hdue i hin
    rw [htarget] at hi
    exact .inr ⟨i, hin, target, mem_of_getElem? htarget, hout, (Option.some.inj hi).symm⟩
  · exact .inl (mem_of_getElem? hi)

/-- A target of the old row is kept, or changed if it was outstanding. -/
theorem Updated.kept {target : FanoutTarget} (h : Updated due g fanout fanout')
    (hdue : ∀ i ∈ due, fanout.OutstandingAt i) (hmem : target ∈ fanout.targets) :
    target ∈ fanout'.targets ∨ ∃ i ∈ due, target.status.isOutstanding = true ∧
      g i target ∈ fanout'.targets := by
  obtain ⟨i, hi⟩ := mem_iff_getElem?.mp hmem
  have hget := h.targets i
  rw [hi] at hget
  by_cases hin : i ∈ due
  · obtain ⟨target', htarget, hout⟩ := hdue i hin
    obtain rfl := Option.some.inj (hi.symm.trans htarget)
    rw [if_pos hin] at hget
    exact .inr ⟨i, hin, hout, mem_of_getElem? hget⟩
  · rw [if_neg hin] at hget
    exact .inl (mem_of_getElem? hget)

theorem Updated.changed {i : ℕ} (h : Updated due g fanout fanout')
    (hdue : ∀ i ∈ due, fanout.OutstandingAt i) (hi : i ∈ due) :
    ∃ target ∈ fanout.targets, target.status.isOutstanding = true ∧
      g i target ∈ fanout'.targets := by
  obtain ⟨target, htarget, hout⟩ := hdue i hi
  have hget := h.targets i
  rw [if_pos hi, htarget] at hget
  exact ⟨target, mem_of_getElem? htarget, hout, mem_of_getElem? hget⟩

theorem Updated.messageId (h : Updated due g fanout fanout') :
    fanout'.messageId = fanout.messageId := by
  obtain ⟨_, _, _, rfl⟩ := h.frame
  rfl

end Rounds

theorem dueTargets_outstanding {fanout : OutboundFanout} {nowMs : UInt64} {i : ℕ}
    (h : i ∈ dueTargets fanout nowMs) : fanout.OutstandingAt i := by
  have hout := (mem_filter.mp (mem_filter.mp h).1).2
  obtain ⟨target, htarget, hstatus⟩ := (Option.any_eq_true _ _).mp hout
  exact ⟨target, htarget, hstatus⟩

/-! ### What a history says -/

variable (history : List FanoutEvent)

def ConfirmCalled : Prop :=
  ∃ pending, .confirmCalled pending ∈ history

def RollbackCalled : Prop :=
  ∃ pending, .rollbackCalled pending ∈ history

/-- Some endpoint accepted, and that was stored. -/
def AcceptedAnswer : Prop :=
  ∃ attempts answers, .round attempts (.stored answers) ∈ history ∧ none ∈ answers

/-- A stored round has an answer that may have exposed the message. -/
def StoredExposure : Prop :=
  ∃ attempts answers, .round attempts (.stored answers) ∈ history ∧
    answers.any answerExposes = true

/-- No attempt that may have exposed the message was cut off, or had its answer dropped. -/
def NoLostExposure : Prop :=
  ∀ event ∈ history, event.lost = true → event.exposes = false

/-- The last attempt at a target was cut off, or had its answer dropped. -/
def LastAttemptLost : List FanoutEvent → ℕ → Prop
  | [], _ => False
  | .round attempts (.stored _) :: older, i => i ∉ attempts ∧ LastAttemptLost older i
  | .round attempts .cutOff :: older, i | .round attempts (.dropped _) :: older, i =>
    i ∈ attempts ∨ LastAttemptLost older i
  | .confirmCalled _ :: older, i | .rollbackCalled _ :: older, i
  | .welcomesHanded _ :: older, i | .retired _ _ _ :: older, i => LastAttemptLost older i

def WelcomeHanded (welcome : TransportMessage) : Prop :=
  ∃ welcomes, .welcomesHanded welcomes ∈ history ∧ welcome ∈ welcomes

/-- What is left of the work of a row when it is deleted.  The resuming account deletes
rows with accepted targets whose Welcomes were never handed over, and reports them as
failed. -/
structure RetiredOk (older : List FanoutEvent) (row : OutboundFanout) (site : RetireSite)
    (failureReported : Bool) : Prop where
  complete : ∀ target ∈ row.targets, target.status = .accepted ∨ target.status = .failed
  resolved : row.mlsState.isPending = false
  welcomes : row.mlsState = .confirmed → ¬(site = .resume ∧ 0 < row.acceptedTargets) →
    ∀ welcome ∈ row.postConfirmationWelcomes, WelcomeHanded older welcome
  failure : failureReported = true → ¬(site = .resume ∧ 0 < row.acceptedTargets) →
    ¬(0 < row.acceptedTargets ∧ row.acceptedTargets < row.request.requiredAcks) →
    row.acceptedTargets = 0

/-- Every deletion in the history was of such a row. -/
def RetiredSound : List FanoutEvent → Prop
  | [] => True
  | .retired row site failureReported :: older =>
    RetiredOk older row site failureReported ∧ RetiredSound older
  | .round _ _ :: older | .confirmCalled _ :: older | .rollbackCalled _ :: older
  | .welcomesHanded _ :: older => RetiredSound older

theorem RetiredSound.retiredOk {newer older : List FanoutEvent} {row : OutboundFanout}
    {site : RetireSite} {failureReported : Bool}
    (h : RetiredSound (newer ++ .retired row site failureReported :: older)) :
    RetiredOk older row site failureReported := by
  induction newer with
  | nil => exact h.1
  | cons event newer ih =>
    cases event with
    | retired => exact ih h.2
    | round => exact ih h
    | confirmCalled => exact ih h
    | rollbackCalled => exact ih h
    | welcomesHanded => exact ih h

/-- What holds of a history, whether or not the row is still there. -/
structure Sound (history : List FanoutEvent) : Prop where
  confirmed : ConfirmCalled history → AcceptedAnswer history
  exclusive : ¬(ConfirmCalled history ∧ RollbackCalled history)
  unexposed : RollbackCalled history → ¬StoredExposure history
  answered : RollbackCalled history → ∀ i, ¬LastAttemptLost history i
  retired : RetiredSound history

/-- What is not lost is stored. -/
theorem exposes_eq_false {history : List FanoutEvent} (hstored : ¬StoredExposure history)
    (hlost : NoLostExposure history) : ∀ event ∈ history, event.exposes = false := by
  intro event hmem
  cases event with
  | round attempts fate =>
    cases fate with
    | stored answers =>
      by_contra hexposes
      exact hstored ⟨attempts, answers, hmem, by simpa [FanoutEvent.exposes] using hexposes⟩
    | cutOff => exact hlost _ hmem rfl
    | dropped answers => exact hlost _ hmem rfl
  | confirmCalled => rfl
  | rollbackCalled => rfl
  | welcomesHanded => rfl
  | retired => rfl

/-- How a fanout that is worked on agrees with its history. -/
structure RowInv (history : List FanoutEvent) (fanout : OutboundFanout) : Prop where
  accepted : 0 < fanout.acceptedTargets → AcceptedAnswer history
  exposed : StoredExposure history →
    ∃ target ∈ fanout.targets, target.status = .accepted ∨ target.possibleExposure = true
  flagged : ∀ target ∈ fanout.targets, target.possibleExposure = true → target.status ≠ .failed
  unanswered : ∀ i, LastAttemptLost history i → fanout.OutstandingAt i
  confirmCalled : ConfirmCalled history → 0 < fanout.acceptedTargets
  rollbackCalled : RollbackCalled history → ∀ target ∈ fanout.targets, target.status = .failed
  confirmed : fanout.mlsState = .confirmed → 0 < fanout.acceptedTargets
  application : fanout.applicationMessage.isSome = true → fanout.mlsState = .notApplicable
  welcomes : fanout.postConfirmationWelcomesPending = false →
    ∀ welcome ∈ fanout.postConfirmationWelcomes, WelcomeHanded history welcome

theorem sound_nil : Sound [] where
  confirmed h := by simp [ConfirmCalled] at h
  exclusive h := by simp [ConfirmCalled] at h
  unexposed h := by simp [RollbackCalled] at h
  answered _ _ := id
  retired := trivial

section Events

variable {history history' : List FanoutEvent} {fanout fanout' : OutboundFanout} {due : List ℕ}

/-- Events that say nothing about acceptance, exposure and the calls. -/
theorem RowInv.change (h : RowInv history fanout)
    (haccepted : AcceptedAnswer history → AcceptedAnswer history')
    (hexposed : StoredExposure history' → StoredExposure history)
    (hunanswered : ∀ i, LastAttemptLost history' i →
      fanout.OutstandingAt i ∨ LastAttemptLost history i)
    (hconfirm : ConfirmCalled history' → ConfirmCalled history)
    (hrollback : RollbackCalled history' → RollbackCalled history)
    (hwelcomes : ∀ welcome, WelcomeHanded history welcome → WelcomeHanded history' welcome) :
    RowInv history' fanout where
  accepted hpos := haccepted (h.accepted hpos)
  exposed hexp := h.exposed (hexposed hexp)
  flagged := h.flagged
  unanswered i hlost := (hunanswered i hlost).elim id (h.unanswered i)
  confirmCalled hcalled := h.confirmCalled (hconfirm hcalled)
  rollbackCalled hcalled := h.rollbackCalled (hrollback hcalled)
  confirmed := h.confirmed
  application := h.application
  welcomes hpending welcome hmem := hwelcomes welcome (h.welcomes hpending welcome hmem)

theorem AcceptedAnswer.cons (event : FanoutEvent) (h : AcceptedAnswer history) :
    AcceptedAnswer (event :: history) := by
  obtain ⟨attempts, answers, hmem, hnone⟩ := h
  exact ⟨attempts, answers, .tail _ hmem, hnone⟩

theorem WelcomeHanded.cons (event : FanoutEvent) {welcome : TransportMessage}
    (h : WelcomeHanded history welcome) : WelcomeHanded (event :: history) welcome := by
  obtain ⟨welcomes, hmem, hwelcome⟩ := h
  exact ⟨welcomes, .tail _ hmem, hwelcome⟩

/-- While a target is outstanding, no rollback was asked for. -/
theorem RowInv.not_rollbackCalled (h : RowInv history fanout) {i : ℕ}
    (hout : fanout.OutstandingAt i) : ¬RollbackCalled history := by
  intro hcalled
  obtain ⟨target, htarget, hstatus⟩ := hout
  rw [h.rollbackCalled hcalled target (mem_of_getElem? htarget)] at hstatus
  cases hstatus

/-! #### A round -/

theorem Sound.round (h : Sound history) (hrow : RowInv history fanout) {i : ℕ}
    (hout : fanout.OutstandingAt i) (due : List ℕ) (fate : RoundFate) :
    Sound (.round due fate :: history) where
  confirmed hcalled := (h.confirmed (by simpa [ConfirmCalled] using hcalled)).cons _
  exclusive hcalled := hrow.not_rollbackCalled hout (by simpa [RollbackCalled] using hcalled.2)
  unexposed hcalled := absurd (by simpa [RollbackCalled] using hcalled)
    (hrow.not_rollbackCalled hout)
  answered hcalled := absurd (by simpa [RollbackCalled] using hcalled)
    (hrow.not_rollbackCalled hout)
  retired := h.retired

/-- A round whose answers are not stored. -/
theorem RowInv.lostRound (h : RowInv history fanout) (hdue : ∀ i ∈ due, fanout.OutstandingAt i)
    {fate : RoundFate} (hfate : ∀ answers, fate ≠ .stored answers) :
    RowInv (.round due fate :: history) fanout := by
  refine h.change (AcceptedAnswer.cons _) ?_ ?_ ?_ ?_ fun _ => WelcomeHanded.cons _
  · rintro ⟨attempts, answers, hmem, hexposes⟩
    cases hmem with
    | head => exact absurd rfl (hfate answers)
    | tail _ hmem => exact ⟨attempts, answers, hmem, hexposes⟩
  · intro i hlost
    cases fate with
    | stored answers => exact absurd rfl (hfate answers)
    | cutOff => exact hlost.imp_left (hdue i)
    | dropped answers => exact hlost.imp_left (hdue i)
  · intro hcalled
    simpa [ConfirmCalled] using hcalled
  · intro hcalled
    simpa [RollbackCalled] using hcalled

variable {g : ℕ → FanoutTarget → FanoutTarget}

theorem Updated.acceptedTargets_pos (h : Updated due g fanout fanout')
    (hdue : ∀ i ∈ due, fanout.OutstandingAt i) (hpos : 0 < fanout.acceptedTargets) :
    0 < fanout'.acceptedTargets := by
  rw [acceptedTargets_pos_iff] at hpos ⊢
  obtain ⟨target, hmem, haccepted⟩ := hpos
  obtain hkept | ⟨_, _, hout, _⟩ := h.kept hdue hmem
  · exact ⟨target, hkept, haccepted⟩
  · rw [haccepted] at hout
    cases hout

/-- A row in which no target is outstanding has nothing due. -/
theorem Updated.all_failed (h : Updated due g fanout fanout')
    (hdue : ∀ i ∈ due, fanout.OutstandingAt i)
    (hfailed : ∀ target ∈ fanout.targets, target.status = .failed) :
    ∀ target ∈ fanout'.targets, target.status = .failed := by
  intro target' hmem
  obtain hold | ⟨_, _, target, htarget, hout, _⟩ := h.mem hdue hmem
  · exact hfailed target' hold
  · rw [hfailed target htarget] at hout
    cases hout

/-- A rewrite of the targets: what it does to acceptance and exposure is to be said, the
rest follows. -/
theorem RowInv.updated (h : RowInv history fanout) (hdue : ∀ i ∈ due, fanout.OutstandingAt i)
    (hupdated : Updated due g fanout fanout')
    (haccepted : 0 < fanout'.acceptedTargets → AcceptedAnswer history')
    (hexposed : StoredExposure history' →
      ∃ target ∈ fanout'.targets, target.status = .accepted ∨ target.possibleExposure = true)
    (hflags : ∀ i target, (g i target).possibleExposure = true → (g i target).status ≠ .failed)
    (hunanswered : ∀ i, LastAttemptLost history' i → LastAttemptLost history i ∧
      (i ∈ due → ∀ target, (g i target).status.isOutstanding = true))
    (hconfirm : ConfirmCalled history' → ConfirmCalled history)
    (hrollback : RollbackCalled history' → RollbackCalled history)
    (hwelcomes : ∀ welcome, WelcomeHanded history welcome → WelcomeHanded history' welcome) :
    RowInv history' fanout' where
  accepted := haccepted
  exposed := hexposed
  flagged target' hmem hflag := by
    obtain hold | ⟨i, _, target, _, _, rfl⟩ := hupdated.mem hdue hmem
    · exact h.flagged target' hold hflag
    · exact hflags i target hflag
  unanswered i hlost := by
    obtain ⟨hlost, houtstanding⟩ := hunanswered i hlost
    obtain ⟨target, htarget, hout⟩ := h.unanswered i hlost
    have hget := hupdated.targets i
    rw [htarget] at hget
    split at hget
    · rename_i hi
      exact ⟨_, hget, houtstanding hi target⟩
    · exact ⟨target, hget, hout⟩
  confirmCalled hcalled := hupdated.acceptedTargets_pos hdue (h.confirmCalled (hconfirm hcalled))
  rollbackCalled hcalled := hupdated.all_failed hdue (h.rollbackCalled (hrollback hcalled))
  confirmed hmls := by
    refine hupdated.acceptedTargets_pos hdue (h.confirmed ?_)
    obtain ⟨_, _, _, rfl⟩ := hupdated.frame
    exact hmls
  application happ := by
    obtain ⟨_, _, _, rfl⟩ := hupdated.frame
    exact h.application happ
  welcomes hpending welcome hmem := by
    obtain ⟨_, _, _, rfl⟩ := hupdated.frame
    exact hwelcomes welcome (h.welcomes hpending welcome hmem)

/-- The exposures on record outlast a rewrite that keeps the flags of outstanding targets. -/
theorem Updated.exposed (h : Updated due g fanout fanout')
    (hdue : ∀ i ∈ due, fanout.OutstandingAt i)
    (hg : ∀ i target, target.possibleExposure = true →
      (g i target).status = .accepted ∨ (g i target).possibleExposure = true)
    (hexposed : ∃ target ∈ fanout.targets,
      target.status = .accepted ∨ target.possibleExposure = true) :
    ∃ target ∈ fanout'.targets, target.status = .accepted ∨ target.possibleExposure = true := by
  obtain ⟨target, hmem, hreached⟩ := hexposed
  obtain hkept | ⟨i, _, hout, hchanged⟩ := h.kept hdue hmem
  · exact ⟨target, hkept, hreached⟩
  · obtain haccepted | hflag := hreached
    · rw [haccepted] at hout
      cases hout
    · exact ⟨_, hchanged, hg i target hflag⟩

/-- Marking attempts as started changes nothing that counts. -/
theorem RowInv.started {nowMs : UInt64} (h : RowInv history fanout)
    (hdue : ∀ i ∈ due, fanout.OutstandingAt i)
    (hupdated : Updated due (fun _ target => target.started nowMs) fanout fanout') :
    RowInv history fanout' := by
  refine h.updated hdue hupdated ?_ ?_ (fun _ _ _ => by simp [FanoutTarget.started])
    (fun _ hlost => ⟨hlost, fun _ _ => rfl⟩) id id fun _ => id
  · intro hpos
    obtain ⟨target', hmem, haccepted⟩ := (acceptedTargets_pos_iff _).mp hpos
    obtain hold | ⟨_, _, target, _, _, rfl⟩ := hupdated.mem hdue hmem
    · exact h.accepted ((acceptedTargets_pos_iff _).mpr ⟨target', hold, haccepted⟩)
    · cases haccepted
  · exact fun hexp => hupdated.exposed hdue (fun _ _ hflag => .inr hflag) (h.exposed hexp)

/-- Recording the answers of a round, which are stored with the row. -/
theorem RowInv.recorded {answer : ℕ → Option TransportEndpointFailure} (h : RowInv history fanout)
    (hdue : ∀ i ∈ due, fanout.OutstandingAt i)
    (hupdated : Updated due (fun i target => target.answered (answer i)) fanout fanout') :
    RowInv (.round due (.stored (due.map answer)) :: history) fanout' := by
  refine h.updated hdue hupdated ?_ ?_ (fun _ _ => FanoutTarget.answered_not_failed)
    (fun i hlost => ⟨hlost.2, fun hi => absurd hi hlost.1⟩) ?_ ?_ fun _ => WelcomeHanded.cons _
  · intro hpos
    obtain ⟨target', hmem, haccepted⟩ := (acceptedTargets_pos_iff _).mp hpos
    obtain hold | ⟨i, hi, target, _, _, rfl⟩ := hupdated.mem hdue hmem
    · exact (h.accepted
        ((acceptedTargets_pos_iff _).mpr ⟨target', hold, haccepted⟩)).cons _
    · have hnone := FanoutTarget.answered_accepted haccepted
      exact ⟨due, due.map answer, .head _, mem_map.mpr ⟨i, hi, hnone⟩⟩
  · rintro ⟨attempts, answers, hmem, hexposes⟩
    cases hmem with
    | head =>
      -- The round itself exposed the message, at one of its targets.
      obtain ⟨_, hanswer, hexposes⟩ := any_eq_true.mp hexposes
      obtain ⟨i, hi, rfl⟩ := mem_map.mp hanswer
      obtain ⟨target, _, _, hchanged⟩ := hupdated.changed hdue hi
      exact ⟨_, hchanged, FanoutTarget.answered_reached (.inr hexposes)⟩
    | tail _ hmem =>
      exact hupdated.exposed hdue (fun _ _ hflag => FanoutTarget.answered_reached (.inl hflag))
        (h.exposed ⟨attempts, answers, hmem, hexposes⟩)
  · intro hcalled
    simpa [ConfirmCalled] using hcalled
  · intro hcalled
    simpa [RollbackCalled] using hcalled

/-! #### The MLS half -/

theorem Sound.confirmCalled (h : Sound history) (hrow : RowInv history fanout)
    (hpos : 0 < fanout.acceptedTargets) (pending : PendingStateRef) :
    Sound (.confirmCalled pending :: history) where
  confirmed _ := (hrow.accepted hpos).cons _
  exclusive hcalled := by
    -- A rollback is only asked for when every target failed.
    have hrollback : RollbackCalled history := by simpa [RollbackCalled] using hcalled.2
    obtain ⟨target, hmem, haccepted⟩ := (acceptedTargets_pos_iff _).mp hpos
    rw [hrow.rollbackCalled hrollback target hmem] at haccepted
    cases haccepted
  unexposed hcalled hexp :=
    h.unexposed (by simpa [RollbackCalled] using hcalled) (by simpa [StoredExposure] using hexp)
  answered hcalled := h.answered (by simpa [RollbackCalled] using hcalled)
  retired := h.retired

theorem RowInv.confirmEvent (h : RowInv history fanout) (hpos : 0 < fanout.acceptedTargets)
    (pending : PendingStateRef) : RowInv (.confirmCalled pending :: history) fanout where
  accepted hpos := (h.accepted hpos).cons _
  exposed hexp := h.exposed (by simpa [StoredExposure] using hexp)
  flagged := h.flagged
  unanswered := h.unanswered
  confirmCalled _ := hpos
  rollbackCalled hcalled := h.rollbackCalled (by simpa [RollbackCalled] using hcalled)
  confirmed := h.confirmed
  application := h.application
  welcomes hpending welcome hmem := (h.welcomes hpending welcome hmem).cons _

/-- Every target failed, and none may have been exposed. -/
structure AllFailed (fanout : OutboundFanout) : Prop where
  failed : ∀ target ∈ fanout.targets, target.status = .failed
  unexposed : ∀ target ∈ fanout.targets, target.possibleExposure = false

theorem allFailed_of_checks (hcomplete : fanout.outcome.fanoutComplete = true)
    (hnone : fanout.outcome.acceptedTargets = 0) (hexposure : fanout.possibleExposure = false) :
    AllFailed fanout := by
  have hterminal := (outcome_complete_iff fanout).mp hcomplete
  have hflags : ∀ target ∈ fanout.targets,
      target.possibleExposure = false ∧ target.status ≠ .possiblyExposed := by
    simpa [possibleExposure] using hexposure
  refine ⟨fun target hmem => ?_, fun target hmem => (hflags target hmem).1⟩
  have haccepted : target.status ≠ .accepted := by
    intro heq
    have hpos := (acceptedTargets_pos_iff fanout).mpr ⟨target, hmem, heq⟩
    have hzero : fanout.acceptedTargets = 0 := hnone
    omega
  have hstatus := hterminal target hmem
  revert haccepted hstatus
  cases target.status <;> simp [isTerminal, isOutstanding]

theorem Sound.rollbackCalled (h : Sound history) (hrow : RowInv history fanout)
    (hfailed : AllFailed fanout) (pending : PendingStateRef) :
    Sound (.rollbackCalled pending :: history) where
  confirmed hcalled := (h.confirmed (by simpa [ConfirmCalled] using hcalled)).cons _
  exclusive hcalled := by
    have hpos := hrow.confirmCalled (by simpa [ConfirmCalled] using hcalled.1)
    obtain ⟨target, hmem, haccepted⟩ := (acceptedTargets_pos_iff _).mp hpos
    rw [hfailed.failed target hmem] at haccepted
    cases haccepted
  unexposed _ hexp := by
    -- What was stored is on record in the row.
    obtain ⟨target, hmem, haccepted | hflag⟩ := hrow.exposed (by simpa [StoredExposure] using hexp)
    · rw [hfailed.failed target hmem] at haccepted
      cases haccepted
    · rw [hfailed.unexposed target hmem] at hflag
      cases hflag
  answered _ i hlost := by
    obtain ⟨target, htarget, hout⟩ := hrow.unanswered i hlost
    rw [hfailed.failed target (mem_of_getElem? htarget)] at hout
    cases hout
  retired := h.retired

theorem RowInv.rollbackEvent (h : RowInv history fanout) (hfailed : AllFailed fanout)
    (pending : PendingStateRef) : RowInv (.rollbackCalled pending :: history) fanout where
  accepted hpos := (h.accepted hpos).cons _
  exposed hexp := h.exposed (by simpa [StoredExposure] using hexp)
  flagged := h.flagged
  unanswered := h.unanswered
  confirmCalled hcalled := h.confirmCalled (by simpa [ConfirmCalled] using hcalled)
  rollbackCalled _ := hfailed.failed
  confirmed := h.confirmed
  application := h.application
  welcomes hpending welcome hmem := (h.welcomes hpending welcome hmem).cons _

/-- A pending fanout may be resolved as its targets say. -/
theorem RowInv.setMlsState (h : RowInv history fanout) {mlsState : FanoutMlsState}
    {pending : PendingStateRef} (hpending : fanout.pendingRef = some pending)
    (hpos : mlsState = .confirmed → 0 < fanout.acceptedTargets) :
    RowInv history (fanout.setMlsState mlsState) where
  accepted := h.accepted
  exposed := h.exposed
  flagged := h.flagged
  unanswered := h.unanswered
  confirmCalled := h.confirmCalled
  rollbackCalled := h.rollbackCalled
  confirmed := hpos
  application happ := by
    have hmls := h.application happ
    rw [pendingRef_eq_some hpending] at hmls
    cases hmls
  welcomes := h.welcomes

/-! #### Welcomes and deletions -/

/-- An event that is neither an attempt nor a call. -/
theorem Sound.quiet (h : Sound history) {event : FanoutEvent}
    (hconfirm : ∀ pending, event ≠ .confirmCalled pending)
    (hrollback : ∀ pending, event ≠ .rollbackCalled pending)
    (hround : ∀ attempts fate, event ≠ .round attempts fate)
    (hanswered : ∀ i, LastAttemptLost (event :: history) i → LastAttemptLost history i)
    (hretired : RetiredSound (event :: history)) : Sound (event :: history) := by
  have hconfirm' : ConfirmCalled (event :: history) → ConfirmCalled history := by
    rintro ⟨pending, hmem⟩
    exact ⟨pending, (mem_cons.mp hmem).resolve_left fun heq => hconfirm pending heq.symm⟩
  have hrollback' : RollbackCalled (event :: history) → RollbackCalled history := by
    rintro ⟨pending, hmem⟩
    exact ⟨pending, (mem_cons.mp hmem).resolve_left fun heq => hrollback pending heq.symm⟩
  refine ⟨fun hcalled => (h.confirmed (hconfirm' hcalled)).cons _,
    fun hcalled => h.exclusive ⟨hconfirm' hcalled.1, hrollback' hcalled.2⟩,
    fun hcalled hexp => h.unexposed (hrollback' hcalled) ?_,
    fun hcalled i hlost => h.answered (hrollback' hcalled) i (hanswered i hlost), hretired⟩
  obtain ⟨attempts, answers, hmem, hexposes⟩ := hexp
  refine ⟨attempts, answers, (mem_cons.mp hmem).resolve_left fun heq => ?_, hexposes⟩
  exact hround _ _ heq.symm

theorem Sound.welcomesHanded (h : Sound history) (welcomes : List TransportMessage) :
    Sound (.welcomesHanded welcomes :: history) :=
  h.quiet (by simp) (by simp) (by simp) (fun _ => id) h.retired

theorem Sound.retire (h : Sound history) {row : OutboundFanout} {site : RetireSite}
    {failureReported : Bool} (hok : RetiredOk history row site failureReported) :
    Sound (.retired row site failureReported :: history) :=
  h.quiet (by simp) (by simp) (by simp) (fun _ => id) ⟨hok, h.retired⟩

theorem RowInv.welcomesEvent (h : RowInv history fanout) (welcomes : List TransportMessage) :
    RowInv (.welcomesHanded welcomes :: history) fanout := by
  refine h.change (AcceptedAnswer.cons _) ?_ (fun _ => .inr) ?_ ?_ fun _ => WelcomeHanded.cons _
  · intro hexp
    simpa [StoredExposure] using hexp
  · intro hcalled
    simpa [ConfirmCalled] using hcalled
  · intro hcalled
    simpa [RollbackCalled] using hcalled

/-- The Welcomes that waited are released once they were handed over. -/
theorem RowInv.released (h : RowInv history fanout)
    (hhanded : ∀ welcome ∈ fanout.postConfirmationWelcomes, WelcomeHanded history welcome) :
    RowInv history { fanout with postConfirmationWelcomesPending := false } where
  accepted := h.accepted
  exposed := h.exposed
  flagged := h.flagged
  unanswered := h.unanswered
  confirmCalled := h.confirmCalled
  rollbackCalled := h.rollbackCalled
  confirmed := h.confirmed
  application := h.application
  welcomes _ := hhanded

/-! #### Staging -/

/-- A row nothing was done with. -/
theorem rowInv_nil (htargets : ∀ target ∈ fanout.targets, target = {})
    (hmls : fanout.mlsState ≠ .confirmed)
    (happ : fanout.applicationMessage.isSome = true → fanout.mlsState = .notApplicable)
    (hwelcomes : fanout.postConfirmationWelcomesPending =
      !fanout.postConfirmationWelcomes.isEmpty) :
    RowInv [] fanout where
  accepted hpos := by
    obtain ⟨target, hmem, haccepted⟩ := (acceptedTargets_pos_iff _).mp hpos
    rw [htargets target hmem] at haccepted
    cases haccepted
  exposed hexp := by simp [StoredExposure] at hexp
  flagged target hmem hflag := by
    rw [htargets target hmem] at hflag
    cases hflag
  unanswered _ := False.elim
  confirmCalled hcalled := by simp [ConfirmCalled] at hcalled
  rollbackCalled hcalled := by simp [RollbackCalled] at hcalled
  confirmed heq := absurd heq hmls
  application := happ
  welcomes hpending welcome hmem := by
    rw [hwelcomes, Bool.not_eq_false', List.isEmpty_iff] at hpending
    rw [hpending] at hmem
    cases hmem

/-- A fanout that is frozen has no history yet. -/
theorem rowInv_freeze {G C : Type} {env : FanoutEnv G C} {message : TransportMessage}
    {target : TransportPublishTarget} {nowMs : UInt64}
    {continuation : Option PendingFanoutContinuation}
    {applicationMessage : Option OutboundApplicationMessage} {groupId : Option GroupId}
    {originMessageId : Option String} (happ : continuation = none ∨ applicationMessage = none)
    (h : freeze env message target nowMs continuation applicationMessage groupId originMessageId =
      .ok fanout) : fanout.messageId = message.id ∧ RowInv [] fanout := by
  obtain ⟨staged, hstaged, h⟩ := Checks.bind_eq_ok.mp h
  obtain rfl := stage_eq_ok hstaged
  have htargets : ∀ t ∈ replicate target.endpoints.length ({} : FanoutTarget), t = {} :=
    fun t hmem => eq_of_mem_replicate hmem
  have hmls : ∀ pending : Option PendingStateRef,
      pending.elim FanoutMlsState.notApplicable .pending ≠ .confirmed := by
    intro pending
    cases pending <;> simp
  cases applicationMessage with
  | none =>
    obtain rfl := Except.ok.inj h
    exact ⟨rfl, rowInv_nil htargets (hmls _) (by simp) rfl⟩
  | some application =>
    obtain rfl := setApplicationMessage_eq_ok rfl h
    obtain rfl | hnone := happ
    · exact ⟨rfl, rowInv_nil htargets (hmls none) (fun _ => rfl) rfl⟩
    · cases hnone

end Events

end Mdk
