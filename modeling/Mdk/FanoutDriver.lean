/-
Driving frozen fanouts, `crates/marmot-account/src/runtime.rs`.

A publication is frozen before its first endpoint is tried.  The driver resolves the MLS
half if it can, marks the targets that are due as attempting, stores that, tries them,
stores what came of it, resolves the MLS half again and deletes the row once nothing is
left to do.  After a restart every row that is still stored is resumed.

The programs run over an `AccountDeviceRuntime`: the engine, the effects that are returned to the
app, and the history of every fanout, which the source does not have.  A round of
attempts counts in the history as cut off until what became of it is known, so that it
stays so where the process dies.

* `driveOutboundFanout`, `resumeOutboundFanoutsForGroup`, `acknowledgePublishedAppMessages` —
  the three places that delete a row.
-/
import Mdk.PublishResolution

namespace Mdk

open StoreProgram StoreProgram.Program Engine

/-! ### Adapter answers -/

/-- What the adapter reports of an attempt, or the driver of a fanout. -/
structure TransportPublishReport where
  messageId : String
  accepted : List TransportEndpoint
  failed : List TransportEndpointFailure
  requiredAcks : ℕ
deriving DecidableEq, Repr

def TransportPublishReport.metRequiredAcks (report : TransportPublishReport) : Bool :=
  max report.requiredAcks 1 ≤ report.accepted.length

/-- What an adapter error says of the attempt. -/
structure AdapterPublishError where
  publishMessageId : Option String
  publishEndpointFailures : List TransportEndpointFailure
deriving DecidableEq, Repr

abbrev AdapterResult := Except AdapterPublishError TransportPublishReport

def ambiguousEndpointFailure (endpoint : TransportEndpoint) : TransportEndpointFailure :=
  ⟨endpoint, "publish acknowledgement unknown", .possiblyExposed⟩

/-- How the attempt at an endpoint is classified: accepted, or failed in some way. -/
def attemptFailure (endpoint : TransportEndpoint) : AdapterResult → Option TransportEndpointFailure
  | .ok report =>
    if endpoint ∈ report.accepted then none
    else some ((report.failed.find? (·.endpoint = endpoint)).getD
      (ambiguousEndpointFailure endpoint))
  | .error e =>
    some ((e.publishEndpointFailures.find? (·.endpoint = endpoint)).getD
      (ambiguousEndpointFailure endpoint))

def attemptMessageId : AdapterResult → Option String
  | .ok report => some report.messageId
  | .error e => e.publishMessageId

/-! ### Effects -/

structure PublishFailure where
  messageId : String
  reason : String
deriving DecidableEq, Repr

inductive UnresolvedPublishReason where
  | acknowledgementUnknown
  | retryableUnavailable
deriving DecidableEq, Repr

structure UnresolvedPublish where
  messageId : String
  reason : UnresolvedPublishReason
deriving DecidableEq, Repr

structure PublishedApplicationMessage where
  groupId : GroupId
  appEventId : String
  messageId : String
  sourceEpoch : EpochId
deriving DecidableEq, Repr

structure FailedApplicationMessage where
  groupId : GroupId
  appEventId : String
  messageId : String
  reason : String
deriving DecidableEq, Repr

structure UnresolvedApplicationMessage where
  groupId : GroupId
  appEventId : String
  messageId : String
  reason : UnresolvedPublishReason
deriving DecidableEq, Repr

structure WelcomeDeliveryFailure where
  messageId : String
  recipient : MemberId
  groupId : Option GroupId
  reason : String
deriving DecidableEq, Repr

inductive PendingResolution where
  | confirmed (pending : PendingStateRef)
  | rolledBack (pending : PendingStateRef)
deriving DecidableEq, Repr

structure AccountDeviceEffects where
  pending : List PendingResolution := []
  pendingConvergence : List GroupId := []
  reports : List TransportPublishReport := []
  failures : List PublishFailure := []
  unresolvedPublishes : List UnresolvedPublish := []
  publishedAppMessages : List PublishedApplicationMessage := []
  failedAppMessages : List FailedApplicationMessage := []
  unresolvedAppMessages : List UnresolvedApplicationMessage := []
  welcomeFailures : List WelcomeDeliveryFailure := []
  fanout : List OutboundFanoutOutcome := []
deriving DecidableEq, Repr

structure PublishStatus where
  metRequiredAcks : Bool := false
  acceptedByAnyEndpoint : Bool := false
  possibleAmbiguousExposure : Bool := false
  retryDeferred : Bool := false
  terminalFailure : Bool := false
deriving DecidableEq, Repr

/-! ### Histories -/

/-- What became of a round of attempts, with the classification of each. -/
inductive RoundFate where
  | cutOff
  | dropped (answers : List (Option TransportEndpointFailure))
  | stored (answers : List (Option TransportEndpointFailure))
deriving DecidableEq, Repr

/-- Which of the three deletions retired a row. -/
inductive RetireSite where
  | driver
  | resume
  | acknowledgement
deriving DecidableEq, Repr

/-- What happens to one fanout. -/
inductive FanoutEvent where
  | round (attempts : List ℕ) (fate : RoundFate)
  | confirmCalled (pending : PendingStateRef)
  | rollbackCalled (pending : PendingStateRef)
  | welcomesHanded (welcomes : List TransportMessage)
  | retired (row : OutboundFanout) (site : RetireSite) (failureReported : Bool)
deriving DecidableEq

/-- An attempt may have exposed the event if it was accepted or so classified. -/
def answerExposes : Option TransportEndpointFailure → Bool
  | none => true
  | some failure => failure.kind = .possiblyExposed

/-- Whether some attempt of the event may have exposed the message; an attempt that was
cut off may. -/
def FanoutEvent.exposes : FanoutEvent → Bool
  | round attempts .cutOff => !attempts.isEmpty
  | round _ (.dropped answers) | round _ (.stored answers) => answers.any answerExposes
  | confirmCalled _ | rollbackCalled _ | welcomesHanded _ | retired _ _ _ => false

/-- A round whose results were not stored. -/
def FanoutEvent.lost : FanoutEvent → Bool
  | round _ .cutOff | round _ (.dropped _) => true
  | round _ (.stored _) | confirmCalled _ | rollbackCalled _ | welcomesHanded _
  | retired _ _ _ => false

/-- What becomes of the round that is going on. -/
def settleRound (fate : RoundFate) : List FanoutEvent → List FanoutEvent
  | .round attempts _ :: older => .round attempts fate :: older
  | history => history

/-! ### Programs over an account -/

inductive AccountError where
  | publish (e : PublishError)
  | transport (e : TransportAdapterError)
deriving DecidableEq, Repr

/-- The engine, the effects of the running call, and the history of every fanout, with
the latest event first. -/
structure AccountDeviceRuntime (G : Type) where
  engine : Engine G
  output : AccountDeviceEffects
  history : String → List FanoutEvent

abbrev AccountProgram (G α : Type) := Program StorageError (AccountDeviceRuntime G) AccountError α

variable {G C : Type}

/-- A call of the session. -/
def onSession {α : Type} (p : EngineProgram G PublishError α) : AccountProgram G α :=
  mapError .publish
    (zoom AccountDeviceRuntime.engine (fun engine account => { account with engine }) p)

def emit (f : AccountDeviceEffects → AccountDeviceEffects) : AccountProgram G Unit :=
  internal fun account => ((), { account with output := f account.output })

variable (messageId : String)

def changeHistory (f : List FanoutEvent → List FanoutEvent) : AccountProgram G Unit :=
  internal fun account => ((), { account with
    history := Function.update account.history messageId (f (account.history messageId)) })

def note (event : FanoutEvent) : AccountProgram G Unit :=
  changeHistory messageId fun history => event :: history

/-! ### What the driver is given -/

/-- The rest of the account: routing, the classification of storage errors, and the
publication of Welcomes and of messages that are not frozen.  The other parts of the
engine may delete the fanouts of a group that is disbanded; they store none. -/
structure FanoutEnv (G C : Type) where
  publish : PublishEnv G C
  publishTarget : TransportMessage → Except String TransportPublishTarget
  requiredAcks : TransportPublishTarget → ℕ
  isTransient : StorageError → Bool
  publishWelcomeFanout : List TransportMessage → Option GroupId →
    EngineProgram G PublishError Unit
  publishLegacyOne : TransportMessage → EngineProgram G PublishError PublishStatus
  replay_fanouts : ∀ groupId, Moves (FanoutFrame none) (publish.replayBufferedMessages groupId)
  restore_fanouts : ∀ groupId epoch,
    Moves (FanoutFrame none) (publish.restoreSelfRemoveAutoCommitSchedules groupId epoch)
  welcome_fanouts : ∀ welcomes groupId,
    Moves (FanoutFrame none) (publishWelcomeFanout welcomes groupId)
  legacy_fanouts : ∀ message, Moves (FanoutFrame none) (publishLegacyOne message)

/-! ### The engine's calls -/

namespace Engine

/-- A group that is named has to be live. -/
def ensureLive (groupId : Option GroupId) : EngineProgram G PublishError Unit := do
  let engine ← readEngine
  ofExcept (groupId.elim (.ok ()) (ensureGroupLive engine))

def putOutboundFanout (fanout : OutboundFanout) : EngineProgram G PublishError Unit := do
  ensureLive fanout.groupId
  fromStorage (EngineStorage.putOutboundFanout fanout)

/-- The fanouts of live groups, in staging order. -/
def outboundFanouts : EngineProgram G PublishError (List OutboundFanout) := do
  let engine ← readEngine
  let fanouts ← fromStorage EngineStorage.listOutboundFanouts
  pure (fanouts.filter fun fanout => fanout.groupId.all fun groupId =>
    groupId ∉ engine.quarantinedGroups && groupId ∉ engine.unhydratedGroups)

def outboundFanoutsForGroup (groupId : GroupId) :
    EngineProgram G PublishError (List OutboundFanout) := do
  let engine ← readEngine
  match ensureGroupLive engine groupId with
  | .error _ => pure []
  | .ok _ => fromStorage (EngineStorage.listOutboundFanoutsForGroup groupId)

/-- The row that is deleted is read first, for the group it belongs to. -/
def deleteOutboundFanout (messageId : String) :
    EngineProgram G PublishError (Option OutboundFanout) := do
  let row ← fromStorage (EngineStorage.outboundFanout messageId)
  ensureLive (row.bind fun fanout => fanout.groupId)
  fromStorage (EngineStorage.deleteOutboundFanout messageId)
  pure row

def pendingGroupId (pending : PendingStateRef) : EngineProgram G PublishError GroupId := do
  let engine ← readEngine
  match engine.epochManager.pending[pending]? with
  | none => raise (.engine .unknownPending)
  | some entry => do
    ensureLive (some entry.groupId)
    pure entry.groupId

def pendingOriginMessageId (pending : PendingStateRef) : EngineProgram G PublishError String := do
  let _ ← pendingGroupId pending
  let engine ← readEngine
  match engine.pendingOriginCommits[pending]? with
  | none => raise (.engine .unknownPending)
  | some messageId => pure messageId

/-- The fanout as the caller has it afterwards. -/
def confirmPublishedFanout [DecidableEq G] (env : PublishEnv G C) (pending : PendingStateRef)
    (fanout : OutboundFanout) : EngineProgram G PublishError (Option OutboundFanout) := do
  ensureLive fanout.groupId
  let _ ← pendingGroupId pending
  let result ← doConfirmPublishedWithFanout env pending (some fanout)
  pure result.2

def publishFailedFanout (env : PublishEnv G C) (pending : PendingStateRef)
    (fanout : OutboundFanout) : EngineProgram G PublishError (Option OutboundFanout) := do
  ensureLive fanout.groupId
  let _ ← pendingGroupId pending
  doPublishFailedWithFanout env pending (some fanout)

end Engine

/-! ### Resolving the MLS half -/

def AccountError.isTransient (env : FanoutEnv G C) : AccountError → Bool
  | publish (.storage e) => env.isTransient e
  | _ => false

/-- One call, and up to `retries` more of them while the error is transient. -/
def confirmPublishedFanoutRetrying [DecidableEq G] (env : FanoutEnv G C)
    (pending : PendingStateRef) (fanout : OutboundFanout) :
    ℕ → AccountProgram G (Option OutboundFanout)
  | 0 => do
    note fanout.messageId (.confirmCalled pending)
    onSession (confirmPublishedFanout env.publish pending fanout)
  | retries + 1 => do
    note fanout.messageId (.confirmCalled pending)
    match ← attempt (onSession (confirmPublishedFanout env.publish pending fanout)) with
    | .ok confirmed => pure confirmed
    | .error e =>
      if e.isTransient env then confirmPublishedFanoutRetrying env pending fanout retries
      else raise e

/-- The MLS half is confirmed at the first acceptance, and rolled back once every target
failed and none may have been exposed. -/
def settleOutboundFanoutMls [DecidableEq G] (env : FanoutEnv G C) (fanout : OutboundFanout) :
    AccountProgram G OutboundFanout :=
  match fanout.pendingRef with
  | none => pure fanout
  | some pending =>
    if fanout.outcome.mlsConfirmationRequired then do
      -- Four attempts in all.
      let confirmed ← confirmPublishedFanoutRetrying env pending fanout 3
      emit fun output => { output with pending := output.pending ++ [.confirmed pending] }
      pure (confirmed.getD fanout)
    else if fanout.outcome.fanoutComplete ∧ fanout.outcome.acceptedTargets = 0 ∧
        fanout.possibleExposure = false then do
      note fanout.messageId (.rollbackCalled pending)
      let rolledBack ← onSession (publishFailedFanout env.publish pending fanout)
      emit fun output => { output with pending := output.pending ++ [.rolledBack pending] }
      pure (rolledBack.getD fanout)
    else pure fanout

/-- The Welcomes that waited for the confirmation go out once, and are then released. -/
def releaseWelcomes (env : FanoutEnv G C) (fanout : OutboundFanout) :
    AccountProgram G OutboundFanout :=
  if fanout.mlsState = .confirmed ∧ fanout.pendingPostConfirmationWelcomes ≠ [] then do
    note fanout.messageId (.welcomesHanded fanout.pendingPostConfirmationWelcomes)
    onSession (env.publishWelcomeFanout fanout.pendingPostConfirmationWelcomes fanout.groupId)
    let released := fanout.markPostConfirmationWelcomesReleased
    if released.2 then do
      onSession (putOutboundFanout released.1)
      pure released.1
    else pure released.1
  else pure fanout

def resolveOutboundFanoutMls [DecidableEq G] (env : FanoutEnv G C) (fanout : OutboundFanout) :
    AccountProgram G OutboundFanout := do
  let fanout ← settleOutboundFanoutMls env fanout
  releaseWelcomes env fanout

/-! ### Attempts -/

def frozenFanoutAmbiguousRetryBaseMs : ℕ := 30 * 1000

def frozenFanoutAmbiguousRetryMaxMs : ℕ := 60 * 60 * 1000

def frozenFanoutUnavailableRetryDelayMs : UInt64 := 5 * 1000

variable (fanout : OutboundFanout)

/-- How long a target has to wait; `none` for one that has its outcome. -/
def frozenFanoutTargetRetryDelayMs (index : ℕ) (nowMs : UInt64) : Option UInt64 :=
  match fanout.targets[index]? with
  | none => none
  | some target =>
    let wait (delayMs : UInt64) : UInt64 :=
      target.lastAttemptAtMs.elim 0 fun last => (last.saturatingAdd delayMs).saturatingSub nowMs
    match target.status with
    | .notAttempted | .attempting => some 0
    | .possiblyExposed =>
      -- The shift is at most 7, so the product stays far below 2 ^ 64.
      let shift := min (target.attemptCount.toNat - 1) 7
      some (wait (UInt64.ofNat
        (min (frozenFanoutAmbiguousRetryBaseMs * 2 ^ shift) frozenFanoutAmbiguousRetryMaxMs)))
    | .retryableUnavailable => some (wait frozenFanoutUnavailableRetryDelayMs)
    | .accepted | .failed => none

def frozenFanoutTargetRetryDue (index : ℕ) (nowMs : UInt64) : Bool :=
  frozenFanoutTargetRetryDelayMs fanout index nowMs = some 0

/-- The outstanding targets whose time has come. -/
def dueTargets (nowMs : UInt64) : List ℕ :=
  fanout.outstandingTargetIndexes.filter fun index => frozenFanoutTargetRetryDue fanout index nowMs

theorem dueTargets_nodup (nowMs : UInt64) : (dueTargets fanout nowMs).Nodup :=
  (List.nodup_range.filter _).filter _

def markAttemptsStarted (nowMs : UInt64) (due : List ℕ) (fanout : OutboundFanout) :
    Except TransportAdapterError OutboundFanout :=
  due.foldlM (fun fanout index => (fanout.markAttemptStartedAt index nowMs).map Prod.fst) fanout

/-- The classification of the attempt at one target. -/
def attemptAnswer (index : ℕ) (result : AdapterResult) : Option TransportEndpointFailure :=
  attemptFailure (fanout.request.target.endpoints.getD index "") result

variable (answers : ℕ → AdapterResult)

/-- Record the result of one attempt. -/
def recordAttempt (fanout : OutboundFanout) (index : ℕ) :
    Except TransportAdapterError OutboundFanout := do
  let fanout ← match attemptMessageId (answers index) with
    | none => .ok fanout
    | some messageId => (fanout.recordPublishedMessageId messageId).map Prod.fst
  match attemptAnswer fanout index (answers index) with
  | none => (fanout.markTargetAccepted index).map Prod.fst
  | some failure => (fanout.recordTargetFailure index failure).map Prod.fst

def recordAttempts (due : List ℕ) (fanout : OutboundFanout) :
    Except TransportAdapterError OutboundFanout :=
  due.foldlM (recordAttempt answers) fanout

/-- Try the targets that are due, all at once, and store what comes of it.  An error
between the two leaves only the marks that the attempts were started. -/
def publishRound (due : List ℕ) (fanout : OutboundFanout) :
    AccountProgram G OutboundFanout := do
  let classified := due.map fun index => attemptAnswer fanout index (answers index)
  note fanout.messageId (.round due .cutOff)
  match recordAttempts answers due fanout with
  | .error e => do
    changeHistory fanout.messageId (settleRound (.dropped classified))
    raise (.transport e)
  | .ok recorded => do
    match ← attempt (onSession (G := G) (putOutboundFanout recorded)) with
    | .error e => do
      changeHistory fanout.messageId (settleRound (.dropped classified))
      raise e
    | .ok _ => do
      changeHistory fanout.messageId (settleRound (.stored classified))
      pure recorded

/-! ### Reports -/

def frozenFanoutReport : TransportPublishReport where
  messageId := fanout.visibleMessageId
  accepted := (fanout.request.target.endpoints.zip fanout.targets).filterMap fun entry =>
    if entry.2.status = .accepted then some entry.1 else none
  failed := (fanout.request.target.endpoints.zip fanout.targets).filterMap fun entry =>
    match entry.2.status with
    | .failed => some (entry.2.failure.getD
        ⟨entry.1, "publish attempt failed before exposure", .notExposed⟩)
    | .possiblyExposed | .retryableUnavailable => entry.2.failure
    | .notAttempted | .attempting | .accepted => none
  requiredAcks := fanout.request.requiredAcks

def insufficientAcknowledgements : String := "insufficient publish acknowledgements"

def unresolvedReason : UnresolvedPublishReason :=
  if fanout.possibleExposure then .acknowledgementUnknown else .retryableUnavailable

variable (output : AccountDeviceEffects)

def recordPublishedApplicationFanout : AccountDeviceEffects :=
  if fanout.outcome.acceptedTargets = 0 then output
  else match fanout.applicationMessage with
    | none => output
    | some application =>
      { output with
        publishedAppMessages := output.publishedAppMessages ++
          [⟨application.groupId, application.appEventId, fanout.visibleMessageId,
            application.sourceEpoch⟩] }

def recordFailedApplicationFanout (reason : String) (output : AccountDeviceEffects) :
    AccountDeviceEffects :=
  match fanout.applicationMessage with
  | none => output
  | some application =>
    { output with
      failedAppMessages := output.failedAppMessages ++
        [⟨application.groupId, application.appEventId, fanout.visibleMessageId, reason⟩] }

def publishStatus : PublishStatus where
  metRequiredAcks := (frozenFanoutReport fanout).metRequiredAcks
  acceptedByAnyEndpoint := 0 < (frozenFanoutReport fanout).accepted.length
  possibleAmbiguousExposure := fanout.possibleExposure
  retryDeferred := 0 < fanout.outcome.outstandingTargets
  terminalFailure := (frozenFanoutReport fanout).accepted.length = 0 &&
    fanout.outcome.outstandingTargets = 0

/-- The reason of the failure a fanout without outstanding targets is reported with. -/
def publishFailureReason : Option String :=
  if (publishStatus fanout).retryDeferred || (publishStatus fanout).metRequiredAcks then none
  else some insufficientAcknowledgements

def reportPublish : AccountDeviceEffects :=
  match publishFailureReason fanout with
  | some reason =>
    { output with failures := output.failures ++ [⟨fanout.visibleMessageId, reason⟩] }
  | none =>
    if (publishStatus fanout).metRequiredAcks then output
    else { output with
      unresolvedPublishes := output.unresolvedPublishes ++
        [⟨fanout.visibleMessageId, unresolvedReason fanout⟩] }

def welcomeRecipient (message : TransportMessage) : Option MemberId :=
  match message.envelope with
  | .welcome recipient => some recipient
  | .groupMessage _ => none

/-- A Welcome that was tried and is not delivered, once its group is confirmed. -/
def reportWelcome (attemptedAny : Bool) (output : AccountDeviceEffects) : AccountDeviceEffects :=
  if (publishStatus fanout).metRequiredAcks then output
  else match welcomeRecipient fanout.request.message with
    | none => output
    | some recipient =>
      if attemptedAny ∧ fanout.mlsState = .confirmed then
        { output with
          welcomeFailures := output.welcomeFailures ++
            [⟨fanout.messageId, recipient, fanout.groupId,
              (publishFailureReason fanout).getD "welcome publish failed"⟩] }
      else output

def reportApplication : AccountDeviceEffects :=
  if (publishStatus fanout).acceptedByAnyEndpoint then
    recordPublishedApplicationFanout fanout output
  else match publishFailureReason fanout with
    | some reason => recordFailedApplicationFanout fanout reason output
    | none => match fanout.applicationMessage with
      | some application =>
        if (publishStatus fanout).retryDeferred then
          { output with
            unresolvedAppMessages := output.unresolvedAppMessages ++
              [⟨application.groupId, application.appEventId, fanout.visibleMessageId,
                unresolvedReason fanout⟩] }
        else output
      | none => output

/-- A group with outstanding targets is looked at again. -/
def reportPendingConvergence : AccountDeviceEffects :=
  match fanout.groupId with
  | some groupId =>
    if (publishStatus fanout).retryDeferred ∧ groupId ∉ output.pendingConvergence then
      { output with pendingConvergence := output.pendingConvergence ++ [groupId] }
    else output
  | none => output

/-! ### Retiring a row -/

/-- Delete the row, and say in its history by whom and with which report. -/
def retire (site : RetireSite) (failureReported : Bool) :
    AccountProgram G Unit := do
  match ← onSession (deleteOutboundFanout messageId) with
  | none => pure ()
  | some row => note messageId (.retired row site failureReported)

/-- The driver retires what is complete, unless the app has yet to store it. -/
def retireWhenDone : AccountProgram G Unit :=
  if fanout.outcome.fanoutComplete ∧ fanout.mlsState.isPending = false ∧
      ¬(0 < fanout.outcome.acceptedTargets ∧ fanout.applicationMessage.isSome) then
    retire fanout.messageId .driver (publishFailureReason fanout).isSome
  else pure ()

/-- The driver's last step. -/
def finishDrive (attemptedAny : Bool) (fanout : OutboundFanout) :
    AccountProgram G PublishStatus := do
  emit fun output =>
    let output := reportPublish fanout output
    let output := reportWelcome fanout attemptedAny output
    let output := reportApplication fanout output
    let output := reportPendingConvergence fanout output
    { output with fanout := output.fanout ++ [fanout.outcome] }
  retireWhenDone fanout
  pure (publishStatus fanout)

/-! ### The driver -/

/-- Try what is due, and resolve the MLS half by what came of it. -/
def attemptDue [DecidableEq G] (env : FanoutEnv G C) (nowMs : UInt64)
    (answers : ℕ → AdapterResult) (due : List ℕ) (fanout : OutboundFanout) :
    AccountProgram G OutboundFanout := do
  let started ← ofExcept ((markAttemptsStarted nowMs due fanout).mapError .transport)
  onSession (putOutboundFanout started)
  let recorded ← publishRound answers due started
  emit fun output => { output with reports := output.reports ++ [frozenFanoutReport recorded] }
  resolveOutboundFanoutMls env recorded

def driveOutboundFanout [DecidableEq G] (env : FanoutEnv G C) (nowMs : UInt64)
    (answers : ℕ → AdapterResult) (fanout : OutboundFanout) : AccountProgram G PublishStatus := do
  let fanout ← resolveOutboundFanoutMls env fanout
  let due := dueTargets fanout nowMs
  if due.isEmpty then finishDrive false fanout
  else do
    let fanout ← attemptDue env nowMs answers due fanout
    finishDrive true fanout

/-! ### Staging -/

/-- The pending MLS state a publication resolves. -/
structure PendingFanoutContinuation where
  pending : PendingStateRef
  kind : FanoutPendingKind
  postConfirmationWelcomes : List TransportMessage
deriving DecidableEq, Repr

/-- A publication that could not be frozen is a failed one. -/
def rollbackUnstagedPending (env : FanoutEnv G C) (pending : Option PendingStateRef) :
    AccountProgram G Unit :=
  match pending with
  | none => pure ()
  | some pending => do
    let _ ← onSession (doPublishFailedWithFanout env.publish pending none)
    emit fun output => { output with pending := output.pending ++ [.rolledBack pending] }

/-- A step of staging: where it fails, the pending state is rolled back. -/
def orRollback {α : Type} (env : FanoutEnv G C) (pending : Option PendingStateRef)
    (p : AccountProgram G α) : AccountProgram G α := do
  match ← attempt p with
  | .ok a => pure a
  | .error e => do
    rollbackUnstagedPending env pending
    raise e

variable (continuation : Option PendingFanoutContinuation)

/-- The group of the pending state. -/
def continuationGroupId : EngineProgram G PublishError (Option GroupId) :=
  match continuation with
  | none => pure none
  | some continuation => do
    let groupId ← pendingGroupId continuation.pending
    pure (some groupId)

/-- The commit of the pending state; the creation of a group has none. -/
def continuationOrigin : EngineProgram G PublishError (Option String) :=
  match continuation with
  | none => pure none
  | some continuation =>
    if continuation.kind = .createGroup then pure none
    else do
      let messageId ← pendingOriginMessageId continuation.pending
      pure (some messageId)

/-- The frozen record, with the application message it publishes if there is one. -/
def freeze (env : FanoutEnv G C) (message : TransportMessage) (target : TransportPublishTarget)
    (nowMs : UInt64) (continuation : Option PendingFanoutContinuation)
    (applicationMessage : Option OutboundApplicationMessage) (groupId : Option GroupId)
    (originMessageId : Option String) : Except TransportAdapterError OutboundFanout := do
  let fanout ← OutboundFanout.stageWithPostConfirmationWelcomes
    ⟨env.publish.selfId, message, target, env.requiredAcks target⟩
    (continuation.map fun continuation => continuation.pending) groupId nowMs originMessageId
    (continuation.map fun continuation => continuation.kind)
    (continuation.elim [] fun continuation => continuation.postConfirmationWelcomes)
  match applicationMessage with
  | none => .ok fanout
  | some applicationMessage => fanout.setApplicationMessage applicationMessage

/-- Read what a fanout is frozen with, and freeze it. -/
def stageFanout (env : FanoutEnv G C) (message : TransportMessage)
    (target : TransportPublishTarget) (nowMs : UInt64)
    (continuation : Option PendingFanoutContinuation)
    (applicationMessage : Option OutboundApplicationMessage) : AccountProgram G OutboundFanout := do
  let pending := continuation.map fun continuation => continuation.pending
  let groupId ← orRollback env pending (onSession (continuationGroupId continuation))
  let originMessageId ← orRollback env pending (onSession (continuationOrigin continuation))
  let fanout ← orRollback env pending (ofExcept
    ((freeze env message target nowMs continuation applicationMessage groupId
      originMessageId).mapError .transport))
  orRollback env pending (onSession (putOutboundFanout fanout))
  pure fanout

def publishOneWithPostConfirmationWelcomes [DecidableEq G] (env : FanoutEnv G C) (nowMs : UInt64)
    (answers : ℕ → AdapterResult) (message : TransportMessage)
    (continuation : Option PendingFanoutContinuation)
    (applicationMessage : Option OutboundApplicationMessage) : AccountProgram G PublishStatus :=
  if message.envelope.isWelcome = false ∨ continuation.isSome then
    match env.publishTarget message with
    | .error reason => do
      emit fun output => { output with failures := output.failures ++ [⟨message.id, reason⟩] }
      rollbackUnstagedPending env (continuation.map (·.pending))
      pure {}
    | .ok target => do
      let fanout ← stageFanout env message target nowMs continuation applicationMessage
      driveOutboundFanout env nowMs answers fanout
  else onSession (env.publishLegacyOne message)

/-! ### Resuming and acknowledging -/

/-- One stored fanout of a resumed account; the groups whose older fanouts still wait. -/
def resumeOutboundFanout [DecidableEq G] (env : FanoutEnv G C) (nowMs : UInt64)
    (answers : ℕ → AdapterResult) (blocked : List GroupId) (fanout : OutboundFanout) :
    AccountProgram G (List GroupId) :=
  if fanout.groupId.any (· ∈ blocked) then pure blocked
  else if 0 < fanout.outcome.outstandingTargets ∨ fanout.mlsState.isPending then do
    let status ← driveOutboundFanout env nowMs answers fanout
    pure (if status.retryDeferred then blocked ++ fanout.groupId.toList else blocked)
  else if 0 < fanout.outcome.acceptedTargets ∧ fanout.applicationMessage.isSome then do
    emit fun output =>
      let output := recordPublishedApplicationFanout fanout output
      { output with fanout := output.fanout ++ [fanout.outcome] }
    pure blocked
  else do
    emit fun output =>
      let output := { output with
        failures := output.failures ++ [⟨fanout.visibleMessageId, insufficientAcknowledgements⟩] }
      let output := recordFailedApplicationFanout fanout insufficientAcknowledgements output
      { output with fanout := output.fanout ++ [fanout.outcome] }
    retire fanout.messageId .resume true
    pure blocked

/-- Resume every stored fanout, of one group or of all, in staging order.  What the
adapter answers is given per message. -/
def resumeOutboundFanoutsForGroup [DecidableEq G] (env : FanoutEnv G C) (nowMs : UInt64)
    (answers : String → ℕ → AdapterResult) (groupId : Option GroupId) :
    AccountProgram G (List GroupId) := do
  let fanouts ← onSession (match groupId with
    | some groupId => outboundFanoutsForGroup groupId
    | none => outboundFanouts)
  emit fun _ => {}
  fanouts.foldlM (fun blocked fanout =>
    resumeOutboundFanout env nowMs (answers fanout.messageId) blocked fanout) []

/-- One published application message that the app has stored. -/
def acknowledgePublishedAppMessage (published : PublishedApplicationMessage) :
    AccountProgram G Unit := do
  let fanouts ← onSession (outboundFanoutsForGroup published.groupId)
  fanouts.forM fun fanout =>
    if (fanout.applicationMessage.any fun application =>
          application.appEventId = published.appEventId &&
            fanout.outcome.messageId = published.messageId) ∧
        0 < fanout.outcome.acceptedTargets ∧ fanout.outcome.fanoutComplete ∧
        fanout.mlsState.isPending = false then
      retire fanout.messageId .acknowledgement false
    else pure ()

def acknowledgePublishedAppMessages (publishedMessages : List PublishedApplicationMessage) :
    AccountProgram G Unit :=
  publishedMessages.forM acknowledgePublishedAppMessage

end Mdk
