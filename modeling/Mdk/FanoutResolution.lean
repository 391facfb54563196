/-
What the engine's calls do to the stored fanouts.

Confirming and failing a publication store the fanout they are given with its MLS half
resolved, in their transaction, and no other fanout; what they run before and after the
transaction stores none.  So a call that does not return has left the old row, the
resolved one or none, and a call that returns the resolved one or none.

* `confirmPublishedFanout_moves`, `publishFailedFanout_moves` — however the call stops;
* `confirmPublishedFanout_returns`, `publishFailedFanout_returns` — where it returns.
-/
import Mdk.ConfirmRetry
import Mdk.FanoutDriver

namespace Mdk

open StoreProgram StoreProgram.Program Engine EngineStorage OutboundFanout

variable {G C : Type}

/-! ### Rows -/

/-- Under the id of the fanout nothing else is stored. -/
def Backed (fanout : OutboundFanout) (engine : Engine G) : Prop :=
  ∀ row, engine.storage.fanouts.get? fanout.messageId = some row → row = fanout

variable {fanout : OutboundFanout}

theorem Backed.frame {engine engine' : Engine G} (h : Backed fanout engine)
    (hframe : FanoutFrame none engine engine') : Backed fanout engine' := by
  intro row hrow
  obtain hold | hnew := hframe _ row hrow
  · exact h row hold
  · cases hnew

/-- A fanout with its MLS half resolved. -/
def OutboundFanout.setMlsState (fanout : OutboundFanout) (mlsState : FanoutMlsState) :
    OutboundFanout :=
  { fanout with mlsState := mlsState }

theorem FanoutFrame.of_none {fanout : Option OutboundFanout} {engine engine' : Engine G}
    (h : FanoutFrame none engine engine') : FanoutFrame fanout engine engine' := by
  intro id row hrow
  obtain hold | hnew := h id row hrow
  · exact .inl hold
  · cases hnew

variable {ε α : Type} {p : EngineProgram G ε α}

theorem moves_of_none (fanout : Option OutboundFanout) (h : Moves (FanoutFrame none) p) :
    Moves (FanoutFrame fanout) p :=
  h.mono fun _ _ hframe => hframe.of_none

/-- What stores no fanout leaves the row as it is, or deletes it. -/
theorem backed_returns (fanout : OutboundFanout) (h : Moves (FanoutFrame none) p) :
    Returns (Backed fanout) p fun _ => Backed fanout :=
  (h.keeps fun _ _ hframe hbacked => hbacked.frame hframe).post (fun _ _ hbacked => hbacked)
    (fun _ _ _ => trivial) fun _ _ => trivial

/-- Storage calls, seen as changes of the fanouts. -/
theorem StorageCalls.fanouts {fanout : Option OutboundFanout} (h : StorageCalls fanout p) :
    Moves (FanoutFrame fanout) p :=
  h.moves.mono fun _ _ hframe => hframe.fanouts

theorem internal_fanouts {f : Engine G → α × Engine G}
    (h : ∀ engine, (f engine).2.storage = engine.storage) :
    Moves (FanoutFrame none) (internal f : EngineProgram G ε α) := by
  refine Moves.internal fun engine id row hrow => .inl ?_
  rw [h engine] at hrow
  exact hrow

theorem readEngine_fanouts {ε : Type} :
    Moves (FanoutFrame none) (readEngine : EngineProgram G ε (Engine G)) :=
  internal_fanouts fun _ => rfl

/-! ### Around the transaction -/

theorem retain_fanouts (env : PublishEnv G C) (groupId : GroupId) :
    Moves (FanoutFrame none) (retainCurrentEpochSnapshotForGroup env groupId) :=
  retain_moves (fun _ _ _ _ _ hrow => .inl hrow) env

theorem loadMlsGroup_fanouts (groupId : GroupId) :
    Moves (FanoutFrame none) (loadMlsGroup groupId : EngineProgram G PublishError G) := by
  refine (StorageCalls.query _).fanouts.mapError.bind fun mlsGroup? => ?_
  cases mlsGroup? with
  | some mlsGroup => exact Moves.pure _
  | none => exact Moves.raise _

theorem moveEpochManager_fanouts {α : Type}
    (f : EpochManager → EpochManager × Except EngineError α) :
    Moves (FanoutFrame none) (moveEpochManager f : EngineProgram G PublishError α) :=
  (internal_fanouts fun _ => rfl).bind fun _ => Moves.ofExcept _

theorem scheduleDrain_fanouts {ε : Type} (groupId : GroupId) :
    Moves (FanoutFrame none)
      (scheduleDrainForRetainedOutboundIntents groupId : EngineProgram G ε Unit) := by
  refine (StorageCalls.query _).fanouts.attempt.bind fun r => ?_
  split
  · exact Moves.pure _
  · exact internal_fanouts fun _ => rfl

theorem afterConfirm_fanouts (env : FanoutEnv G C) (pending : PendingStateRef) (c : Confirmation)
    (groupId : GroupId) (newEpoch : EpochId) :
    Moves (FanoutFrame none) (afterConfirm env.publish pending c groupId newEpoch) := by
  refine (internal_fanouts fun _ => rfl).bind fun _ => (scheduleDrain_fanouts groupId).bind
    fun _ => ?_
  cases c.kind with
  | createGroup => exact (env.replay_fanouts groupId).bind fun _ => Moves.pure _
  | groupEvolution => exact (env.replay_fanouts groupId).bind fun _ => Moves.pure _
  | disband => exact (internal_fanouts fun _ => rfl).bind fun _ => Moves.pure _

theorem afterFailed_fanouts (env : FanoutEnv G C) (pending : PendingStateRef) (kind : PendingKind)
    (groupId : GroupId) (priorEpoch : EpochId) :
    Moves (FanoutFrame none) (afterFailed env.publish pending kind groupId priorEpoch) := by
  have hrest : Moves (FanoutFrame none) (do
      internal fun engine : Engine G => ((), { engine with
        queuedIntentByPending := engine.queuedIntentByPending.erase pending
        pendingOriginCommits := engine.pendingOriginCommits.erase pending })
      scheduleDrainForRetainedOutboundIntents groupId
      env.publish.restoreSelfRemoveAutoCommitSchedules groupId priorEpoch
      env.publish.replayBufferedMessages groupId) :=
    (internal_fanouts fun _ => rfl).bind fun _ => (scheduleDrain_fanouts groupId).bind fun _ =>
      (env.restore_fanouts groupId priorEpoch).bind fun _ => env.replay_fanouts groupId
  unfold afterFailed
  refine Moves.when (internal_fanouts fun _ => rfl) (readEngine_fanouts.bind fun engine => ?_)
  split
  · exact hrest
  · exact (internal_fanouts fun _ => rfl).bind fun _ => hrest

/-! ### Confirming -/

theorem settleFanout_returns {P : Engine G → Prop} (fanout : OutboundFanout) :
    Returns P (settleFanout (some fanout)) fun _ => Backed fanout := by
  refine Spec.mapError (write_returns fun engine storage _ hstorage row hrow => ?_)
  have hput : storage = { engine.storage with
      fanouts := engine.storage.fanouts.upsert fanout } := by
    split at hstorage
    · exact (Except.ok.inj hstorage).symm
    · split at hstorage <;> cases hstorage
      rfl
  rw [hput] at hrow
  exact Option.some.inj (hrow.symm.trans (KeyedTable.get?_upsert_self _ _))

/-- The fanout is written last. -/
theorem confirmWrites_backed [DecidableEq G] {P : Engine G → Prop} (env : PublishEnv G C)
    {c : Confirmation} (h : c.confirmedFanout = some fanout) (mlsGroup : G) :
    Returns P (confirmWrites env c mlsGroup) fun _ => Backed fanout := by
  have hsettle : ∀ (P : Engine G → Prop) mlsGroup stamp,
      Returns P (settleConfirmation env c mlsGroup stamp) fun _ => Backed fanout := by
    intro P mlsGroup stamp
    refine (Returns.any _).bind fun _ => (Returns.any _).bind fun _ => (Returns.any _).bind
      fun _ => (Returns.any _).bind fun _ => (Returns.any _).bind fun _ => ?_
    rw [h]
    exact settleFanout_returns fanout
  unfold confirmWrites
  split
  · exact (Returns.any _).bind fun _ => hsettle _ _ _
  · exact hsettle _ _ _

variable {pending : PendingStateRef}

/-- A fanout whose pending reference matches is pending. -/
theorem OutboundFanout.pendingRef_eq_some (h : fanout.pendingRef = some pending) :
    fanout.mlsState = .pending pending := by
  unfold pendingRef at h
  split at h
  · rename_i hmls
    rw [hmls, Option.some.inj h]
  all_goals cases h

theorem confirmedFanout_eq_ok {confirmed : Option OutboundFanout}
    (h : confirmedFanout pending (some fanout) = .ok confirmed) :
    confirmed = some (fanout.setMlsState .confirmed) := by
  simp only [confirmedFanout] at h
  split at h
  · cases h
  · rename_i hchecks
    have hpending : fanout.pendingRef = some pending := by
      by_contra hne
      exact hchecks (.inl hne)
    simp only [markMlsConfirmed, pendingRef_eq_some hpending] at h
    exact (Except.ok.inj h).symm

theorem readConfirmation_fanout {fanout : Option OutboundFanout} {engine : Engine G}
    {c : Confirmation} (h : readConfirmation pending fanout engine = .ok c) :
    confirmedFanout pending fanout = .ok c.confirmedFanout := by
  simp only [readConfirmation] at h
  cases hconfirmed : confirmedFanout pending fanout with
  | error e =>
    rw [hconfirmed] at h
    cases h
  | ok confirmed =>
    rw [hconfirmed] at h
    cases hentry : engine.epochManager.pending[pending]? with
    | none =>
      simp only [bind, Except.bind, hentry] at h
      cases h
    | some entry =>
      simp only [bind, Except.bind, hentry] at h
      cases h
      rfl

section Confirm

variable [DecidableEq G] (env : FanoutEnv G C) (pending : PendingStateRef) (fanout : OutboundFanout)

theorem confirmTransition_moves :
    Moves (FanoutFrame (some (fanout.setMlsState .confirmed)))
      (confirmTransition env.publish pending (some fanout)) := by
  rw [confirmTransition_eq]
  refine (moves_of_none _ readEngine_fanouts).bind fun engine => Moves.ofExcept_bind fun c hc =>
    (moves_of_none _ (loadMlsGroup_fanouts _)).bind fun mlsGroup => ?_
  have hfanout := confirmedFanout_eq_ok (readConfirmation_fanout hc)
  refine Moves.bind (moves_of_none _ ?_) fun _ => Moves.bind (Moves.transaction ?_) fun _ =>
    (moves_of_none _ (retain_fanouts _ _)).bind fun _ =>
      (moves_of_none _ (moveEpochManager_fanouts _)).bind fun _ => Moves.pure _
  · unfold anchorStaged
    split
    · exact retain_fanouts _ _
    · exact Moves.pure _
  · rw [← hfanout]
    exact (confirmWrites_calls _ _ c).fanouts

theorem doConfirm_moves :
    Moves (FanoutFrame (some (fanout.setMlsState .confirmed)))
      (doConfirmPublishedWithFanout env.publish pending (some fanout)) := by
  exact (confirmTransition_moves env pending fanout).bind fun r =>
    (moves_of_none _ (afterConfirm_fanouts env _ _ _ _)).bind fun _ => Moves.pure _

theorem confirmTransition_returns :
    Returns (fun _ => True) (confirmTransition env.publish pending (some fanout)) fun r engine =>
      r.1.confirmedFanout = some (fanout.setMlsState .confirmed) ∧
        Backed (fanout.setMlsState .confirmed) engine := by
  rw [confirmTransition_eq]
  refine (Returns.any _).bind fun engine => Spec.bind
    (R := fun c _ => c.confirmedFanout = some (fanout.setMlsState .confirmed))
    (Spec.ofExcept (fun c _ hc _ => confirmedFanout_eq_ok (readConfirmation_fanout hc))
      fun _ _ _ _ => trivial) fun c => Spec.at fun engine hfanout => ?_
  refine (Returns.any _).bind fun mlsGroup => (Returns.any _).bind fun _ =>
    Spec.bind (R := fun _ => Backed (fanout.setMlsState .confirmed))
      (Spec.transaction (fun _ _ => confirmWrites_backed _ hfanout mlsGroup)
        (fun _ _ _ _ => trivial) fun _ _ _ => trivial) fun _ => ?_
  exact (backed_returns _ (retain_fanouts _ _)).bind fun _ =>
    (backed_returns _ (moveEpochManager_fanouts _)).bind fun resolved =>
      Spec.pure _ fun _ hbacked => ⟨hfanout, hbacked⟩

theorem doConfirm_returns :
    Returns (fun _ => True) (doConfirmPublishedWithFanout env.publish pending (some fanout))
      fun r engine => r.2 = some (fanout.setMlsState .confirmed) ∧
        Backed (fanout.setMlsState .confirmed) engine := by
  refine (confirmTransition_returns env pending fanout).bind fun r => Spec.at fun engine h => ?_
  refine ((backed_returns _ (afterConfirm_fanouts env _ _ _ _)).pre ?_).bind fun event =>
    Spec.pure _ fun _ hbacked => ⟨h.1, hbacked⟩
  rintro _ rfl
  exact h.2

end Confirm

/-! ### Failing -/

theorem rolledBackFanout_eq_ok {rolledBack : Option OutboundFanout}
    (h : rolledBackFanout pending (some fanout) = .ok rolledBack) :
    rolledBack = some (fanout.setMlsState .rolledBack) := by
  simp only [rolledBackFanout] at h
  split at h
  · cases h
  · rename_i hchecks
    have hpending : fanout.pendingRef = some pending := by
      by_contra hne
      exact hchecks (.inl hne)
    simp only [markMlsRolledBack, pendingRef_eq_some hpending] at h
    exact (Except.ok.inj h).symm

section Fail

variable (env : PublishEnv G C) (groupId : GroupId) (mlsGroup : G) {fanout : Option OutboundFanout}
  (kind : PendingKind) (originCommitId : Option String)

theorem clearStagedCommit_calls (staged : C) :
    StorageCalls fanout (clearStagedCommit env groupId kind originCommitId mlsGroup staged) := by
  have hclear : StorageCalls fanout (do
      let cleared ← changeMlsGroup "clear_pending: " groupId (env.clearPendingCommit mlsGroup)
      if env.selfRemoveOnly staged then
        changeMlsGroup "clear_pending_proposals: " groupId (env.clearPendingProposals cleared)
      else pure cleared) :=
    (changeMlsGroup_calls _ _ _).bind fun _ =>
      StorageCalls.ite (changeMlsGroup_calls _ _ _) (StorageCalls.pure _)
  exact StorageCalls.ite
    ((transitionStagedInviteWelcomes_calls env _ _ _).bind fun _ => hclear) hclear

theorem discardGroupEvolution_calls (messageId : String) :
    StorageCalls fanout (discardGroupEvolution env groupId messageId) := by
  refine StorageCalls.ite ((StorageCalls.query _).mapError.bind fun evolutions => ?_)
    (StorageCalls.pure _)
  split
  · exact StorageCalls.pure _
  · exact (StorageCalls.deleteGroupEvolution _).mapError

/-- The last part of the transaction of a failure: a request to disband is open again. -/
def reopenDisband (groupId : GroupId) (kind : PendingKind) (cleared : G) :
    EngineProgram G PublishError G :=
  if kind = .disband then do
    fromStorage (EngineStorage.clearDisbandCandidates groupId)
    match ← fromStorage (EngineStorage.disbandRequest groupId) with
    | none => pure cleared
    | some _ => do
      fromStorage (EngineStorage.putDisbandRequest groupId none)
      pure cleared
  else pure cleared

/-- What follows the fanout in the transaction of a failure. -/
def discardOrigin (env : PublishEnv G C) (groupId : GroupId) (kind : PendingKind)
    (originCommitId : Option String) (cleared : G) : EngineProgram G PublishError G :=
  match originCommitId with
  | none => reopenDisband groupId kind cleared
  | some id => do
    discardGroupEvolution env groupId id
    reopenDisband groupId kind cleared

/-- What follows the staged commit in the transaction of a failure. -/
def settleFailure (env : PublishEnv G C) (groupId : GroupId) (kind : PendingKind)
    (originCommitId : Option String) (rolledBack : Option OutboundFanout) (cleared : G) :
    EngineProgram G PublishError G := do
  rewriteRecord env false groupId cleared
  settleFanout rolledBack
  discardOrigin env groupId kind originCommitId cleared

theorem failWrites_eq :
    failWrites env groupId kind originCommitId fanout mlsGroup = (do
      match originCommitId with
      | none => pure ()
      | some id => fromStorage (deleteOwnCommitIntent id)
      match env.pendingCommit mlsGroup with
      | none => settleFailure env groupId kind originCommitId fanout mlsGroup
      | some staged => do
        let cleared ← clearStagedCommit env groupId kind originCommitId mlsGroup staged
        settleFailure env groupId kind originCommitId fanout cleared) := by
  unfold failWrites
  cases originCommitId <;> cases env.pendingCommit mlsGroup <;> rfl

theorem discardOrigin_calls :
    StorageCalls fanout (discardOrigin env groupId kind originCommitId mlsGroup) := by
  have hreopen : StorageCalls fanout (reopenDisband groupId kind mlsGroup) := by
    refine StorageCalls.ite ((StorageCalls.clearDisbandCandidates _).mapError.bind fun _ =>
      (StorageCalls.query _).mapError.bind fun request => ?_) (StorageCalls.pure _)
    split
    · exact StorageCalls.pure _
    · exact (StorageCalls.putDisbandRequest _ _).mapError.bind fun _ => StorageCalls.pure _
  unfold discardOrigin
  split
  · exact hreopen
  · exact (discardGroupEvolution_calls env groupId _).bind fun _ => hreopen

theorem settleFailure_calls :
    StorageCalls fanout (settleFailure env groupId kind originCommitId fanout mlsGroup) :=
  (rewriteRecord_calls env groupId mlsGroup false).bind fun _ => settleFanout_calls.bind
    fun _ => discardOrigin_calls env groupId mlsGroup kind originCommitId

theorem failWrites_calls :
    StorageCalls fanout (failWrites env groupId kind originCommitId fanout mlsGroup) := by
  rw [failWrites_eq]
  have hclear : StorageCalls fanout (match env.pendingCommit mlsGroup with
      | none => settleFailure env groupId kind originCommitId fanout mlsGroup
      | some staged => do
        let cleared ← clearStagedCommit env groupId kind originCommitId mlsGroup staged
        settleFailure env groupId kind originCommitId fanout cleared) := by
    split
    · exact settleFailure_calls env groupId mlsGroup kind originCommitId
    · exact (clearStagedCommit_calls env groupId mlsGroup kind originCommitId _).bind fun cleared =>
        settleFailure_calls env groupId cleared kind originCommitId
  cases originCommitId with
  | none => exact hclear
  | some id => exact (StorageCalls.deleteOwnCommitIntent id).mapError.bind fun _ => hclear

/-- The fanout is written once, and nothing after it writes one. -/
theorem failWrites_backed {P : Engine G → Prop} (kind : PendingKind)
    (originCommitId : Option String) (fanout : OutboundFanout) :
    Returns P (failWrites env groupId kind originCommitId (some fanout) mlsGroup)
      fun _ => Backed fanout := by
  rw [failWrites_eq]
  have hsettle : ∀ (P : Engine G → Prop) cleared, Returns P
      (settleFailure env groupId kind originCommitId (some fanout) cleared)
      fun _ => Backed fanout := fun P cleared =>
    (Returns.any _).bind fun _ => (settleFanout_returns fanout).bind fun _ =>
      backed_returns fanout (discardOrigin_calls env groupId cleared kind originCommitId).fanouts
  have hclear : ∀ P : Engine G → Prop, Returns P (match env.pendingCommit mlsGroup with
      | none => settleFailure env groupId kind originCommitId (some fanout) mlsGroup
      | some staged => do
        let cleared ← clearStagedCommit env groupId kind originCommitId mlsGroup staged
        settleFailure env groupId kind originCommitId (some fanout) cleared)
      fun _ => Backed fanout := by
    intro P
    split
    · exact hsettle _ _
    · exact (Returns.any _).bind fun _ => hsettle _ _
  cases originCommitId with
  | none => exact hclear _
  | some id => exact (Returns.any _).bind fun _ => hclear _

end Fail

section FailCalls

variable (env : FanoutEnv G C) (pending : PendingStateRef)

theorem doPublishFailed_moves {fanout rolledBack : Option OutboundFanout}
    (h : ∀ row, rolledBackFanout pending fanout = .ok row → row = rolledBack) :
    Moves (FanoutFrame rolledBack) (doPublishFailedWithFanout env.publish pending fanout) := by
  refine (moves_of_none _ readEngine_fanouts).bind fun engine => ?_
  split
  · exact Moves.raise _
  · rename_i entry _
    refine (moves_of_none _ (loadMlsGroup_fanouts _)).bind fun mlsGroup =>
      Moves.ofExcept_bind fun row hrow => Moves.bind (Moves.transaction ?_) fun _ =>
        (moves_of_none _ (moveEpochManager_fanouts _)).bind fun _ =>
          (moves_of_none _ (afterFailed_fanouts env _ _ _ _)).bind fun _ => Moves.pure _
    rw [h row hrow]
    exact (failWrites_calls env.publish _ mlsGroup _ _).fanouts

theorem doPublishFailed_returns (fanout : OutboundFanout) :
    Returns (fun _ => True) (doPublishFailedWithFanout env.publish pending (some fanout))
      fun r engine => r = some (fanout.setMlsState .rolledBack) ∧
        Backed (fanout.setMlsState .rolledBack) engine := by
  refine (Returns.any _).bind fun engine => ?_
  split
  · exact Spec.raise _ fun _ _ => trivial
  · refine (Returns.any _).bind fun mlsGroup => Spec.bind
      (R := fun row _ => row = some (fanout.setMlsState .rolledBack))
      (Spec.ofExcept (fun row _ hrow _ => rolledBackFanout_eq_ok hrow) fun _ _ _ _ => trivial)
      fun row => Spec.at fun engine hrow => ?_
    subst hrow
    refine Spec.bind (R := fun _ => Backed (fanout.setMlsState .rolledBack))
      (Spec.transaction (fun _ _ => failWrites_backed _ _ _ _ _ _) (fun _ _ _ _ => trivial)
        fun _ _ _ => trivial) fun _ => ?_
    exact (backed_returns _ (moveEpochManager_fanouts _)).bind fun _ =>
      (backed_returns _ (afterFailed_fanouts env _ _ _ _)).bind fun _ =>
        Spec.pure _ fun _ hbacked => ⟨rfl, hbacked⟩

end FailCalls

/-! ### The engine's calls -/

section Calls

variable (env : FanoutEnv G C)

theorem ensureLive_fanouts (groupId : Option GroupId) :
    Moves (FanoutFrame none) (ensureLive groupId : EngineProgram G PublishError Unit) :=
  readEngine_fanouts.bind fun _ => Moves.ofExcept _

theorem pendingGroupId_fanouts (pending : PendingStateRef) :
    Moves (FanoutFrame none) (pendingGroupId pending : EngineProgram G _ _) := by
  refine readEngine_fanouts.bind fun engine => ?_
  split
  · exact Moves.raise _
  · exact (ensureLive_fanouts _).bind fun _ => Moves.pure _

theorem pendingOriginMessageId_fanouts (pending : PendingStateRef) :
    Moves (FanoutFrame none) (pendingOriginMessageId pending : EngineProgram G _ _) := by
  refine (pendingGroupId_fanouts pending).bind fun _ => readEngine_fanouts.bind fun engine => ?_
  split
  · exact Moves.raise _
  · exact Moves.pure _

theorem putOutboundFanout_moves (fanout : OutboundFanout) :
    Moves (FanoutFrame (some fanout)) (Engine.putOutboundFanout fanout : EngineProgram G _ _) :=
  (moves_of_none _ (ensureLive_fanouts _)).bind fun _ =>
    (StorageCalls.putOutboundFanout fanout).fanouts.mapError

/-- A row that is not stored leaves what was. -/
theorem putOutboundFanout_spec (fanout : OutboundFanout) (engine : Engine G) :
    Spec (fun _ => True) (· = engine) (Engine.putOutboundFanout fanout : EngineProgram G _ _)
      (fun _ engine' => FanoutFrame (some fanout) engine engine' ∧ Backed fanout engine')
      (fun _ engine' => engine' = engine) (· = engine) := by
  have hput : Spec (fun _ => True) (· = engine)
      (fromStorage (EngineStorage.putOutboundFanout fanout) : EngineProgram G _ _)
      (fun _ _ => True) (fun _ engine' => engine' = engine) (· = engine) :=
    Spec.mapError (EngineStorage.write_ends fun _ _ _ _ => trivial)
  have hlive : Spec (fun _ => True) (· = engine)
      (Engine.ensureLive fanout.groupId : EngineProgram G PublishError Unit)
      (fun _ engine' => engine' = engine) (fun _ engine' => engine' = engine) (· = engine) :=
    Spec.bind (R := fun _ engine' => engine' = engine) (Spec.internal fun _ heq => heq) fun _ =>
      Spec.ofExcept (fun _ _ _ heq => heq) fun _ _ _ heq => heq
  have hreturns : Returns (· = engine) (Engine.putOutboundFanout fanout : EngineProgram G _ _)
      fun _ => Backed fanout := (Returns.any _).bind fun _ => settleFanout_returns fanout
  refine (((putOutboundFanout_moves fanout).spec engine).and
    (hreturns.and (hlive.bind fun _ => hput))).post ?_ ?_ ?_
  · exact fun _ _ h => ⟨h.1, h.2.1⟩
  · exact fun _ _ h => h.2.2
  · exact fun _ h => h.2.2

theorem confirmPublishedFanout_moves [DecidableEq G] (pending : PendingStateRef)
    (fanout : OutboundFanout) :
    Moves (FanoutFrame (some (fanout.setMlsState .confirmed)))
      (confirmPublishedFanout env.publish pending fanout) :=
  (moves_of_none _ (ensureLive_fanouts _)).bind fun _ =>
    (moves_of_none _ (pendingGroupId_fanouts _)).bind fun _ =>
      (doConfirm_moves env pending fanout).bind fun _ => Moves.pure _

theorem confirmPublishedFanout_returns [DecidableEq G] (pending : PendingStateRef)
    (fanout : OutboundFanout) :
    Returns (fun _ => True) (confirmPublishedFanout env.publish pending fanout)
      fun r engine => r = some (fanout.setMlsState .confirmed) ∧
        Backed (fanout.setMlsState .confirmed) engine :=
  (Returns.any _).bind fun _ => (Returns.any _).bind fun _ =>
    (doConfirm_returns env pending fanout).bind fun _ => Spec.pure _ fun _ h => h

theorem publishFailedFanout_moves (pending : PendingStateRef) (fanout : OutboundFanout) :
    Moves (FanoutFrame (some (fanout.setMlsState .rolledBack)))
      (publishFailedFanout env.publish pending fanout) :=
  (moves_of_none _ (ensureLive_fanouts _)).bind fun _ =>
    (moves_of_none _ (pendingGroupId_fanouts _)).bind fun _ =>
      doPublishFailed_moves env pending fun _ hrow => rolledBackFanout_eq_ok hrow

theorem publishFailedFanout_returns (pending : PendingStateRef) (fanout : OutboundFanout) :
    Returns (fun _ => True) (publishFailedFanout env.publish pending fanout)
      fun r engine => r = some (fanout.setMlsState .rolledBack) ∧
        Backed (fanout.setMlsState .rolledBack) engine :=
  (Returns.any _).bind fun _ => (Returns.any _).bind fun _ =>
    doPublishFailed_returns env pending fanout

theorem deleteOutboundFanout_moves (messageId : String) :
    Moves (FanoutFrame none) (Engine.deleteOutboundFanout messageId : EngineProgram G _ _) :=
  (StorageCalls.query _).fanouts.mapError.bind fun _ => (ensureLive_fanouts _).bind fun _ =>
    (StorageCalls.deleteOutboundFanout messageId).fanouts.mapError.bind fun _ => Moves.pure _

/-- The row that is returned is the one that was stored, and it is gone. -/
theorem deleteOutboundFanout_returns (messageId : String) (engine : Engine G) :
    Returns (· = engine) (Engine.deleteOutboundFanout messageId) fun row engine' =>
      row = engine.storage.fanouts.get? messageId ∧
        engine'.storage.fanouts.get? messageId = none := by
  refine Spec.bind (R := fun row _ => row = engine.storage.fanouts.get? messageId)
    (Spec.mapError (EngineStorage.query_returns fun _ row heq hrow => ?_)) fun row =>
      Spec.at fun _ hrow => (Returns.any _).bind fun _ => Spec.bind
        (R := fun _ engine' => engine'.storage.fanouts.get? messageId = none)
        (Spec.mapError (EngineStorage.write_returns fun _ storage _ hstorage => ?_)) fun _ =>
          Spec.pure _ fun _ hnone => ⟨hrow, hnone⟩
  · rw [← heq, ← Except.ok.inj hrow]
  · rw [← Except.ok.inj hstorage, KeyedTable.get?_erase, if_pos rfl]

/-- The fanouts that are listed are stored ones, each of them once. -/
theorem outboundFanouts_spec (engine : Engine G) :
    Spec (fun _ => True) (· = engine) (outboundFanouts : EngineProgram G _ _)
      (fun fanouts engine' => engine' = engine ∧ fanouts.Sublist engine.storage.fanouts.rows)
      (fun _ engine' => engine' = engine) (· = engine) := by
  refine Spec.bind (R := fun _ engine' => engine' = engine) (Spec.internal fun _ h => h) fun _ =>
    Spec.bind (R := fun fanouts engine' => engine' = engine ∧
      fanouts = engine.storage.fanouts.rows) (Spec.mapError (query_ends ?_))
      fun fanouts => Spec.pure _ ?_
  · rintro _ fanouts rfl hfanouts
    exact ⟨rfl, (Except.ok.inj hfanouts).symm⟩
  · rintro _ ⟨rfl, rfl⟩
    exact ⟨rfl, List.filter_sublist⟩

theorem outboundFanoutsForGroup_spec (groupId : GroupId) (engine : Engine G) :
    Spec (fun _ => True) (· = engine) (outboundFanoutsForGroup groupId : EngineProgram G _ _)
      (fun fanouts engine' => engine' = engine ∧ fanouts.Sublist engine.storage.fanouts.rows)
      (fun _ engine' => engine' = engine) (· = engine) := by
  refine Spec.bind (R := fun _ engine' => engine' = engine) (Spec.internal fun _ h => h)
    fun engine₁ => ?_
  split
  · exact Spec.pure _ fun _ heq => ⟨heq, List.nil_sublist _⟩
  · refine Spec.mapError (query_ends ?_)
    rintro _ fanouts rfl hfanouts
    rw [← Except.ok.inj hfanouts]
    exact ⟨rfl, List.filter_sublist⟩

end Calls

end Mdk
