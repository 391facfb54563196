/-
The durable fanout of one publication, `crates/traits/src/transport_adapter.rs`.

A fanout freezes a signed transport message with the endpoints it goes to, before
the first of them is tried.  What is known of every endpoint, the MLS half of the
publication and the Welcomes that may go out only after its confirmation are kept in
the same record.

The source keeps the status, the last failure, the attempt count, the attempt time and
the exposure flag of the endpoints in five vectors; here they are one list of
`FanoutTarget`s.  A record written before a vector existed reads as its defaults.

* `validateSuccessorOf_self` — a record may always be written over itself;
* `outcome_complete_iff`, `acceptedTargets_pos_iff` — what the counts of an outcome say
  about the targets.
-/
import Mdk.EngineState
import Mdk.CandidateSearch
import Mdk.Checks

namespace Mdk

open Checks

/-! ### Requests -/

/-- `TransportEndpoint(String)`. -/
abbrev TransportEndpoint := String

inductive TransportPublishTarget where
  | group (groupId : GroupId) (transportGroupId : List UInt8) (endpoints : List TransportEndpoint)
  | inbox (recipient : List UInt8) (endpoints : List TransportEndpoint)
deriving DecidableEq, Repr

namespace TransportPublishTarget

def endpoints : TransportPublishTarget → List TransportEndpoint
  | group _ _ endpoints | inbox _ endpoints => endpoints

def kindLabel : TransportPublishTarget → String
  | group _ _ _ => "group"
  | inbox _ _ => "inbox"

def groupId? : TransportPublishTarget → Option GroupId
  | group groupId _ _ => some groupId
  | inbox _ _ => none

end TransportPublishTarget

inductive TransportAdapterError where
  | publishTargetMismatch (envelope target : String)
  | other (text : String)
deriving DecidableEq, Repr

def TransportEnvelope.label : TransportEnvelope → String
  | .groupMessage _ => "group"
  | .welcome _ => "welcome"

def TransportEnvelope.isWelcome : TransportEnvelope → Bool
  | .groupMessage _ => false
  | .welcome _ => true

structure TransportPublishRequest where
  accountId : List UInt8
  message : TransportMessage
  target : TransportPublishTarget
  requiredAcks : ℕ
deriving DecidableEq, Repr

def TransportPublishRequest.validateEnvelopeMatchesTarget (request : TransportPublishRequest) :
    Except TransportAdapterError Unit :=
  let mismatch := TransportAdapterError.publishTargetMismatch request.message.envelope.label
    request.target.kindLabel
  match request.message.envelope, request.target with
  | .groupMessage messageGroupId, .group _ targetGroupId _ =>
    require (messageGroupId = targetGroupId) mismatch
  | .welcome messageRecipient, .inbox targetRecipient _ =>
    require (messageRecipient = targetRecipient) mismatch
  | _, _ => .error mismatch

/-! ### Targets -/

inductive FanoutTargetStatus where
  | notAttempted
  | attempting
  | accepted
  | failed
  | possiblyExposed
  | retryableUnavailable
deriving DecidableEq, Repr

namespace FanoutTargetStatus

def isOutstanding : FanoutTargetStatus → Bool
  | notAttempted | attempting | possiblyExposed | retryableUnavailable => true
  | accepted | failed => false

def isTerminal (status : FanoutTargetStatus) : Bool := !status.isOutstanding

/-- The changes of one target's status that may be written over the stored one. -/
def advances (prior next : FanoutTargetStatus) : Bool :=
  prior = next ||
    match prior, next with
    | notAttempted, attempting => true
    | attempting, accepted | attempting, failed | attempting, possiblyExposed
    | attempting, retryableUnavailable => true
    | possiblyExposed, attempting | retryableUnavailable, attempting => true
    | _, _ => false

end FanoutTargetStatus

inductive TransportEndpointFailureKind where
  | terminalRejected
  | notExposed
  | possiblyExposed
  | retryableUnavailable
deriving DecidableEq, Repr

structure TransportEndpointFailure where
  endpoint : TransportEndpoint
  reason : String
  kind : TransportEndpointFailureKind
deriving DecidableEq, Repr

/-- What is kept of one endpoint of a fanout. -/
structure FanoutTarget where
  status : FanoutTargetStatus := .notAttempted
  failure : Option TransportEndpointFailure := none
  attemptCount : UInt32 := 0
  lastAttemptAtMs : Option UInt64 := none
  possibleExposure : Bool := false
deriving DecidableEq, Repr

/-- The target after a failed attempt: once it may have been exposed it stays so. -/
def FanoutTarget.afterFailure (target : FanoutTarget) (failure : TransportEndpointFailure) :
    FanoutTarget :=
  let exposed := target.possibleExposure || failure.kind = .possiblyExposed
  { target with
    possibleExposure := exposed
    failure := some failure
    status :=
      if exposed then .possiblyExposed
      else match failure.kind with
        | .terminalRejected | .notExposed => .failed
        | .possiblyExposed => .possiblyExposed
        | .retryableUnavailable => .retryableUnavailable }

/-! ### Fanouts -/

/-- The MLS half of a publication. -/
inductive FanoutMlsState where
  | notApplicable
  | pending (pending : PendingStateRef)
  | confirmed
  | rolledBack
deriving DecidableEq, Repr

namespace FanoutMlsState

def isPending : FanoutMlsState → Bool
  | pending _ => true
  | notApplicable | confirmed | rolledBack => false

def advances (prior next : FanoutMlsState) : Bool :=
  prior = next ||
    match prior, next with
    | pending _, confirmed | pending _, rolledBack => true
    | _, _ => false

end FanoutMlsState

inductive FanoutPendingKind where
  | groupEvolution
  | createGroup
  | disband
deriving DecidableEq, Repr

structure OutboundApplicationMessage where
  groupId : GroupId
  appEventId : String
  sourceEpoch : EpochId
deriving DecidableEq, Repr

structure OutboundFanout where
  request : TransportPublishRequest
  groupId : Option GroupId
  applicationMessage : Option OutboundApplicationMessage
  pendingOriginMessageId : Option String
  pendingKind : Option FanoutPendingKind
  publishedMessageId : Option String
  targets : List FanoutTarget
  postConfirmationWelcomes : List TransportMessage
  postConfirmationWelcomesPending : Bool
  mlsState : FanoutMlsState
  createdAtMs : UInt64
  targets_length : targets.length = request.target.endpoints.length
deriving DecidableEq

structure OutboundFanoutOutcome where
  messageId : String
  mlsConfirmationRequired : Bool
  mlsConfirmed : Bool
  fanoutComplete : Bool
  acceptedTargets : ℕ
  failedTargets : ℕ
  outstandingTargets : ℕ
deriving DecidableEq, Repr

namespace OutboundFanout

/-- The checks of staging: a pending state comes with its kind, an evolution with its
origin commit, and only a pending state has Welcomes that wait for it. -/
def validateStaging (pending : Option PendingStateRef) (pendingOriginMessageId : Option String)
    (pendingKind : Option FanoutPendingKind) (postConfirmationWelcomes : List TransportMessage) :
    Except TransportAdapterError Unit := do
  require (¬(pending.isNone ∧ ¬postConfirmationWelcomes.isEmpty))
    (.other "post-confirmation Welcomes require pending MLS state")
  require (pending.isSome = pendingKind.isSome)
    (.other "pending MLS state and pending kind must be staged together")
  match pendingKind, pendingOriginMessageId with
  | some .groupEvolution, none | some .disband, none =>
    throw (.other "group evolution fanout requires its stored origin commit")
  | some .createGroup, some _ =>
    throw (.other "legacy group creation has no published origin commit")
  | none, some _ => throw (.other "origin commit requires pending MLS state")
  | _, _ => pure ()
  require (postConfirmationWelcomes.all fun message => message.envelope.isWelcome)
    (.other "post-confirmation fanout continuation must contain only Welcomes")

def stageWithPostConfirmationWelcomes (request : TransportPublishRequest)
    (pending : Option PendingStateRef) (pendingGroupId : Option GroupId) (createdAtMs : UInt64)
    (pendingOriginMessageId : Option String) (pendingKind : Option FanoutPendingKind)
    (postConfirmationWelcomes : List TransportMessage) :
    Except TransportAdapterError OutboundFanout := do
  request.validateEnvelopeMatchesTarget
  validateStaging pending pendingOriginMessageId pendingKind postConfirmationWelcomes
  match request.target.groupId?, pendingGroupId with
  | some targetGroupId, some pendingGroupId =>
    require (targetGroupId = pendingGroupId) (.publishTargetMismatch "pending_group" "group")
  | _, _ => pure ()
  pure {
    request := request
    groupId := request.target.groupId?.or pendingGroupId
    applicationMessage := none
    pendingOriginMessageId := pendingOriginMessageId
    pendingKind := pendingKind
    publishedMessageId := none
    targets := List.replicate request.target.endpoints.length {}
    postConfirmationWelcomes := postConfirmationWelcomes
    postConfirmationWelcomesPending := !postConfirmationWelcomes.isEmpty
    mlsState := pending.elim .notApplicable .pending
    createdAtMs := createdAtMs
    targets_length := List.length_replicate }

variable (fanout : OutboundFanout)

def messageId : String := fanout.request.message.id

/-- The id under which the publication is reported. -/
def visibleMessageId : String := fanout.publishedMessageId.getD fanout.messageId

def setApplicationMessage (applicationMessage : OutboundApplicationMessage) :
    Except TransportAdapterError OutboundFanout := do
  require (fanout.groupId = some applicationMessage.groupId)
    (.other "application-message fanout group does not match publish target")
  match fanout.applicationMessage with
  | none => pure { fanout with applicationMessage := some applicationMessage }
  | some previous =>
    require (previous = applicationMessage) (.other "application-message fanout context changed")
    pure fanout

def possibleExposure : Bool :=
  fanout.targets.any fun target => target.possibleExposure || target.status = .possiblyExposed

def pendingPostConfirmationWelcomes : List TransportMessage :=
  if fanout.postConfirmationWelcomesPending then fanout.postConfirmationWelcomes else []

def markPostConfirmationWelcomesReleased : OutboundFanout × Bool :=
  if fanout.postConfirmationWelcomesPending then
    ({ fanout with postConfirmationWelcomesPending := false }, true)
  else (fanout, false)

def pendingRef : Option PendingStateRef :=
  match fanout.mlsState with
  | .pending pending => some pending
  | .notApplicable | .confirmed | .rolledBack => none

def outstandingTargetIndexes : List ℕ :=
  (List.range fanout.targets.length).filter fun index =>
    fanout.targets[index]?.any fun target => target.status.isOutstanding

/-! ### Transitions -/

variable (index : ℕ)

/-- The fanout with one target replaced. -/
def setTarget (target : FanoutTarget) : OutboundFanout :=
  { fanout with
    targets := fanout.targets.set index target
    targets_length := by rw [List.length_set, fanout.targets_length] }

def targetOutOfBounds : TransportAdapterError := .other "fanout target index is out of bounds"

/-- The send-before-side-effect edge: `true` where an outstanding target begins or
resumes an attempt. -/
def markAttemptStartedAt (attemptedAtMs : UInt64) :
    Except TransportAdapterError (OutboundFanout × Bool) :=
  match fanout.targets[index]? with
  | none => .error targetOutOfBounds
  | some target =>
    if target.status.isOutstanding then
      .ok (fanout.setTarget index
        { target with
          status := .attempting
          attemptCount :=
            if target.attemptCount + 1 = 0 then target.attemptCount else target.attemptCount + 1
          lastAttemptAtMs := some attemptedAtMs
          failure := none }, true)
    else .ok (fanout, false)

def markTargetTerminal (terminal : FanoutTargetStatus) :
    Except TransportAdapterError (OutboundFanout × Bool) :=
  match fanout.targets[index]? with
  | none => .error targetOutOfBounds
  | some target =>
    if target.status.isTerminal then .ok (fanout, false)
    else .ok (fanout.setTarget index { target with status := terminal }, true)

def markTargetAccepted : Except TransportAdapterError (OutboundFanout × Bool) :=
  fanout.markTargetTerminal index .accepted

def recordTargetFailure (failure : TransportEndpointFailure) :
    Except TransportAdapterError (OutboundFanout × Bool) :=
  if fanout.request.target.endpoints[index]? ≠ some failure.endpoint then
    .error (.other "endpoint failure does not match frozen fanout target")
  else
    match fanout.targets[index]? with
    | none => .error targetOutOfBounds
    | some target =>
      if target.status.isTerminal then .ok (fanout, false)
      else .ok (fanout.setTarget index (target.afterFailure failure), true)

def recordPublishedMessageId (messageId : String) :
    Except TransportAdapterError (OutboundFanout × Bool) :=
  match fanout.publishedMessageId with
  | none => .ok ({ fanout with publishedMessageId := some messageId }, true)
  | some previous =>
    if previous = messageId then .ok (fanout, false)
    else .error (.other "adapter changed the transport-visible id for a frozen fanout")

def markMlsConfirmed : Except TransportAdapterError (OutboundFanout × Bool) :=
  match fanout.mlsState with
  | .pending _ => .ok ({ fanout with mlsState := .confirmed }, true)
  | .confirmed => .ok (fanout, false)
  | .notApplicable | .rolledBack =>
    .error (.other "fanout has no confirmable pending MLS state")

def markMlsRolledBack : Except TransportAdapterError (OutboundFanout × Bool) :=
  match fanout.mlsState with
  | .pending _ => .ok ({ fanout with mlsState := .rolledBack }, true)
  | .rolledBack => .ok (fanout, false)
  | .notApplicable | .confirmed =>
    .error (.other "fanout has no rollbackable pending MLS state")

/-! ### Outcomes -/

/-- The number of targets whose status is of a kind. -/
def countTargets (p : FanoutTargetStatus → Bool) : ℕ :=
  fanout.targets.countP fun target => p target.status

def acceptedTargets : ℕ := fanout.countTargets (· = .accepted)

def outcome : OutboundFanoutOutcome where
  messageId := fanout.visibleMessageId
  mlsConfirmationRequired := 0 < fanout.acceptedTargets && fanout.mlsState.isPending
  mlsConfirmed := fanout.mlsState = .confirmed
  fanoutComplete := fanout.countTargets FanoutTargetStatus.isOutstanding = 0
  acceptedTargets := fanout.acceptedTargets
  failedTargets := fanout.countTargets (· = .failed)
  outstandingTargets := fanout.countTargets FanoutTargetStatus.isOutstanding

/-- Whether the record may be written over `previous`: nothing frozen changes, and
statuses, exposure, the MLS half and the waiting Welcomes only move on. -/
def validateSuccessorOf (previous : OutboundFanout) : Except TransportAdapterError Unit :=
  let immutableMatches :=
    fanout.request = previous.request && fanout.groupId = previous.groupId &&
      fanout.applicationMessage = previous.applicationMessage &&
      fanout.pendingOriginMessageId = previous.pendingOriginMessageId &&
      fanout.pendingKind = previous.pendingKind && fanout.createdAtMs = previous.createdAtMs &&
      fanout.postConfirmationWelcomes = previous.postConfirmationWelcomes &&
      fanout.targets.length = previous.targets.length
  let publishedIdAdvances :=
    match previous.publishedMessageId, fanout.publishedMessageId with
    | none, _ => true
    | some previous, some next => previous = next
    | some _, none => false
  let targetsAdvance :=
    (fanout.targets.zip previous.targets).all fun pair => pair.2.status.advances pair.1.status
  let exposureAdvances :=
    (fanout.targets.zip previous.targets).all fun pair =>
      !pair.2.possibleExposure || pair.1.possibleExposure
  let continuationAdvances :=
    previous.postConfirmationWelcomesPending || !fanout.postConfirmationWelcomesPending
  require (immutableMatches && publishedIdAdvances && targetsAdvance && exposureAdvances &&
      previous.mlsState.advances fanout.mlsState && continuationAdvances)
    (.other "outbound fanout update is not monotonic")

/-! ### What outcomes and updates say -/

theorem outcome_complete_iff :
    fanout.outcome.fanoutComplete = true ↔ ∀ target ∈ fanout.targets, target.status.isTerminal := by
  simp [outcome, countTargets, List.countP_eq_zero, FanoutTargetStatus.isTerminal]

theorem acceptedTargets_pos_iff :
    0 < fanout.acceptedTargets ↔ ∃ target ∈ fanout.targets, target.status = .accepted := by
  simp [acceptedTargets, countTargets, List.countP_pos_iff]

theorem validateSuccessorOf_self : fanout.validateSuccessorOf fanout = .ok () := by
  have hzip : ∀ (p : FanoutTarget × FanoutTarget → Bool), (∀ target, p (target, target) = true) →
      (fanout.targets.zip fanout.targets).all p = true := by
    intro p hp
    rw [List.all_eq_true]
    rintro ⟨a, b⟩ hab
    have heq : a = b := by
      obtain ⟨i, hi⟩ := List.mem_iff_getElem?.mp hab
      rw [List.getElem?_zip_eq_some] at hi
      exact Option.some.inj (hi.1.symm.trans hi.2)
    rw [heq]
    exact hp b
  unfold validateSuccessorOf
  rw [require_eq_ok]
  have hid : (match fanout.publishedMessageId, fanout.publishedMessageId with
      | none, _ => true
      | some previous, some next => decide (previous = next)
      | some _, none => false) = true := by
    cases fanout.publishedMessageId <;> simp
  simp [hid, hzip, FanoutTargetStatus.advances, FanoutMlsState.advances]

end OutboundFanout

/-! ### Staging -/

theorem stage_eq_ok {fanout : OutboundFanout} {request : TransportPublishRequest}
    {pending : Option PendingStateRef} {pendingGroupId : Option GroupId} {createdAtMs : UInt64}
    {pendingOriginMessageId : Option String} {pendingKind : Option FanoutPendingKind}
    {welcomes : List TransportMessage}
    (h : OutboundFanout.stageWithPostConfirmationWelcomes request pending pendingGroupId createdAtMs
      pendingOriginMessageId pendingKind welcomes = .ok fanout) :
    fanout = {
      request := request
      groupId := request.target.groupId?.or pendingGroupId
      applicationMessage := none
      pendingOriginMessageId := pendingOriginMessageId
      pendingKind := pendingKind
      publishedMessageId := none
      targets := List.replicate request.target.endpoints.length {}
      postConfirmationWelcomes := welcomes
      postConfirmationWelcomesPending := !welcomes.isEmpty
      mlsState := pending.elim .notApplicable .pending
      createdAtMs := createdAtMs
      targets_length := List.length_replicate } := by
  simp only [OutboundFanout.stageWithPostConfirmationWelcomes, bind_eq_ok] at h
  obtain ⟨_, _, _, _, h⟩ := h
  split at h
  · obtain ⟨_, _, h⟩ := bind_eq_ok.mp h
    exact (Except.ok.inj h).symm
  · exact (Except.ok.inj h).symm

theorem setApplicationMessage_eq_ok {fanout fanout' : OutboundFanout}
    {applicationMessage : OutboundApplicationMessage}
    (hnone : fanout.applicationMessage = none)
    (h : fanout.setApplicationMessage applicationMessage = .ok fanout') :
    fanout' = { fanout with applicationMessage := some applicationMessage } := by
  simp only [OutboundFanout.setApplicationMessage, hnone, bind_eq_ok] at h
  obtain ⟨_, _, h⟩ := h
  exact (Except.ok.inj h).symm

end Mdk
