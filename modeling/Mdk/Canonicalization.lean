/-
Canonicalization of a batch of peeled messages,
`crates/cgka-engine/src/canonicalization.rs`.

One call deduplicates the batch, builds the graph of candidate branches from
its commits, counts the application messages of each branch as witnesses,
selects a branch, and gives every message a disposition.  The definitions
follow the source function by function; the mutable result is passed along.

The graph loop is `Progress.loop`, with one round more than there are commits
as its bound: a round that makes progress materializes one of them.
-/
import Mdk.Convergence
import Mdk.Progress

open Std (ExtTreeMap ExtTreeSet TransCmp LawfulEqCmp)
open Comparison

namespace Mdk

/-! ### Policy and state -/

def v1AppMessagePastEpochLimit : UInt64 := 5
def v1SettlementQuiescenceMs : UInt64 := 1000
def v1MaxConvergencePassMs : UInt64 := 5000

structure CanonicalizationPolicy where
  convergence : ConvergencePolicy := {}
  appMessagePastEpochLimit : UInt64 := v1AppMessagePastEpochLimit
  settlementQuiescenceMs : UInt64 := v1SettlementQuiescenceMs
  maxConvergencePassMs : UInt64 := v1MaxConvergencePassMs
deriving DecidableEq, Repr

structure CanonicalizationState where
  currentTipEpoch : UInt64
  retainedAnchorEpoch : UInt64
  lastConvergenceRelevantInputMs : UInt64
  seenMessageIds : ExtTreeSet String

inductive ConvergenceStatus where
  | syncing
  | resolving
  | settled
  | blocked
deriving DecidableEq, Repr

/-! ### Messages -/

/-- The fields of `PeeledMessageKind::Commit`. -/
structure CommitEdge where
  branchId : String
  parentBranchId : Option String
  forkEpoch : UInt64
  resultingEpoch : UInt64
  tipPriority : CommitOrderingPriority
  tipDigest : Digest
  consumedProposalIds : List String
deriving DecidableEq, Repr

/-- The fields of `PeeledMessageKind::AppMessage`. -/
structure AppPayload where
  epoch : UInt64
  decryptsOnBranches : List String
  decryptedPayloadRef : Option String
  alreadyDelivered : Bool
deriving DecidableEq, Repr

inductive PeeledMessageKind where
  | commit (edge : CommitEdge)
  | proposal (branchId : String)
  | appMessage (app : AppPayload)
deriving DecidableEq, Repr

inductive MessageKind where
  | commit
  | proposal
  | appMessage
deriving DecidableEq, Repr

structure PeeledMessage where
  messageId : String
  groupId : String
  sender : List UInt8
  sourceEpoch : UInt64
  kind : PeeledMessageKind
deriving DecidableEq, Repr

variable (message : PeeledMessage)

def PeeledMessage.kindName : MessageKind :=
  match message.kind with
  | .commit _ => .commit
  | .proposal _ => .proposal
  | .appMessage _ => .appMessage

/-- The commit a message carries, if it is one. -/
def PeeledMessage.commit? : Option CommitEdge :=
  match message.kind with
  | .commit edge => some edge
  | _ => none

/-- The application payload a message carries, if it is one. -/
def PeeledMessage.app? : Option AppPayload :=
  match message.kind with
  | .appMessage app => some app
  | _ => none

inductive OutboundIntent where
  | sendAppMessage (payload : String)
  | createCommit (change : String)
  | publishProposal (proposal : String)
deriving DecidableEq, Repr

structure CanonicalizationInput where
  state : CanonicalizationState
  pendingMessages : List PeeledMessage
  outboundIntents : List OutboundIntent
  candidateBranches : List BranchCandidate
  policy : CanonicalizationPolicy
  nowMs : UInt64

structure MaterializedCandidate where
  branch : BranchCandidate
  commitMessageIds : List String
  consumedProposalIds : List String
deriving DecidableEq, Repr

/-! ### Dispositions -/

inductive InvalidatedAppMessageReason where
  | losingBranch
  | beyondAnchor
  | beyondAppRetention
  | undecryptableInCanonicalState
deriving DecidableEq, Repr

inductive DroppedMessageReason where
  | beyondRollbackHorizon
  | beyondAnchor
  | beyondAppRetention
  | invalidAgainstCandidateState
  | unsupportedPolicy
  | malformed
deriving DecidableEq, Repr

inductive DeferredMessageReason where
  | missingCandidateParent
  | nonSelectedEligibleBranch
  | awaitingCanonicalCommit
  | futureEpoch
deriving DecidableEq, Repr

inductive ProposalRejectionCategory where
  | authorizationFailed
  | unsupportedProposal
  | invalidEncoding
  | invalidSignature
  | invalidSelfRemove
deriving DecidableEq, Repr

inductive CanonicalizationError where
  | unsupportedPolicy
  | missingRetainedAnchor
  | missingOwnCommitCheckpoint
  | candidateStateUnavailable
  | mlsValidationFailed
  | outboundIntentStale
  | storageUnavailable
deriving DecidableEq, Repr

structure InvalidatedAppMessage where
  messageId : String
  epoch : UInt64
  reason : InvalidatedAppMessageReason
  decryptedPayloadRef : Option String
deriving DecidableEq, Repr

structure DroppedMessage where
  messageId : String
  kind : MessageKind
  reason : DroppedMessageReason
  rejectionCategory : Option ProposalRejectionCategory
deriving DecidableEq, Repr

structure AlreadySeen where
  messageId : String
  kind : MessageKind
deriving DecidableEq, Repr

structure DeferredMessage where
  messageId : String
  kind : MessageKind
  reason : DeferredMessageReason
deriving DecidableEq, Repr

structure CanonicalizationResult where
  previousTip : UInt64
  selectedTip : Option UInt64
  selectedForkEpoch : Option UInt64
  selectedBranchId : Option String
  candidateCount : Nat
  eligibleCount : Nat
  convergenceStatus : ConvergenceStatus
  acceptedCommits : List String
  acceptedProposals : List String
  acceptedAppMessages : List String
  deferredMessages : List DeferredMessage
  invalidatedAppMessages : List InvalidatedAppMessage
  droppedMessages : List DroppedMessage
  alreadySeen : List AlreadySeen
  queuedOutboundIntents : List OutboundIntent
  publishableOutboundMessages : List OutboundIntent
  errors : List CanonicalizationError
  selectionTrace : Option BranchSelectionTrace
deriving DecidableEq, Repr

/-! ### The derived orders

Enumerations are ordered by constructor, records by their fields in turn. -/

instance : Ord MessageKind := ⟨compareOn MessageKind.ctorIdx⟩
instance : Ord InvalidatedAppMessageReason := ⟨compareOn InvalidatedAppMessageReason.ctorIdx⟩
instance : Ord DroppedMessageReason := ⟨compareOn DroppedMessageReason.ctorIdx⟩
instance : Ord DeferredMessageReason := ⟨compareOn DeferredMessageReason.ctorIdx⟩
instance : Ord ProposalRejectionCategory := ⟨compareOn ProposalRejectionCategory.ctorIdx⟩
instance : Ord CanonicalizationError := ⟨compareOn CanonicalizationError.ctorIdx⟩

instance : Std.TransOrd MessageKind :=
  inferInstanceAs (TransCmp (compareOn MessageKind.ctorIdx))

instance : Std.LawfulEqOrd MessageKind :=
  lawfulEqCmp_compareOn (f := MessageKind.ctorIdx) (by
    intro a b h
    cases a <;> cases b <;> first | rfl | cases h)

instance : Std.TransOrd InvalidatedAppMessageReason :=
  inferInstanceAs (TransCmp (compareOn InvalidatedAppMessageReason.ctorIdx))

instance : Std.LawfulEqOrd InvalidatedAppMessageReason :=
  lawfulEqCmp_compareOn (f := InvalidatedAppMessageReason.ctorIdx) (by
    intro a b h
    cases a <;> cases b <;> first | rfl | cases h)

instance : Std.TransOrd DroppedMessageReason :=
  inferInstanceAs (TransCmp (compareOn DroppedMessageReason.ctorIdx))

instance : Std.LawfulEqOrd DroppedMessageReason :=
  lawfulEqCmp_compareOn (f := DroppedMessageReason.ctorIdx) (by
    intro a b h
    cases a <;> cases b <;> first | rfl | cases h)

instance : Std.TransOrd DeferredMessageReason :=
  inferInstanceAs (TransCmp (compareOn DeferredMessageReason.ctorIdx))

instance : Std.LawfulEqOrd DeferredMessageReason :=
  lawfulEqCmp_compareOn (f := DeferredMessageReason.ctorIdx) (by
    intro a b h
    cases a <;> cases b <;> first | rfl | cases h)

instance : Std.TransOrd ProposalRejectionCategory :=
  inferInstanceAs (TransCmp (compareOn ProposalRejectionCategory.ctorIdx))

instance : Std.LawfulEqOrd ProposalRejectionCategory :=
  lawfulEqCmp_compareOn (f := ProposalRejectionCategory.ctorIdx) (by
    intro a b h
    cases a <;> cases b <;> first | rfl | cases h)

instance : Ord AlreadySeen :=
  ⟨fun a b => (compare a.messageId b.messageId).then (compare a.kind b.kind)⟩

instance : Ord DeferredMessage :=
  ⟨fun a b => (compare a.messageId b.messageId).then <| (compare a.kind b.kind).then <|
    compare a.reason b.reason⟩

instance : Ord DroppedMessage :=
  ⟨fun a b => (compare a.messageId b.messageId).then <| (compare a.kind b.kind).then <|
    (compare a.reason b.reason).then <| compare a.rejectionCategory b.rejectionCategory⟩

instance : Ord InvalidatedAppMessage :=
  ⟨fun a b => (compare a.messageId b.messageId).then <| (compare a.epoch b.epoch).then <|
    (compare a.reason b.reason).then <| compare a.decryptedPayloadRef b.decryptedPayloadRef⟩

/-- The text an intent carries. -/
def OutboundIntent.text : OutboundIntent → String
  | .sendAppMessage payload => payload
  | .createCommit change => change
  | .publishProposal proposal => proposal

instance : Ord OutboundIntent :=
  ⟨fun a b => (compare a.ctorIdx b.ctorIdx).then (compare a.text b.text)⟩

instance : Std.TransOrd AlreadySeen :=
  inferInstanceAs (TransCmp (compareLex (compareOn AlreadySeen.messageId)
    (compareOn AlreadySeen.kind)))

instance : Std.TransOrd DeferredMessage :=
  inferInstanceAs (TransCmp (compareLex (compareOn DeferredMessage.messageId)
    (compareLex (compareOn DeferredMessage.kind) (compareOn DeferredMessage.reason))))

instance : Std.TransOrd DroppedMessage :=
  inferInstanceAs (TransCmp (compareLex (compareOn DroppedMessage.messageId)
    (compareLex (compareOn DroppedMessage.kind)
    (compareLex (compareOn DroppedMessage.reason) (compareOn DroppedMessage.rejectionCategory)))))

instance : Std.TransOrd InvalidatedAppMessage :=
  inferInstanceAs (TransCmp (compareLex (compareOn InvalidatedAppMessage.messageId)
    (compareLex (compareOn InvalidatedAppMessage.epoch)
    (compareLex (compareOn InvalidatedAppMessage.reason)
      (compareOn InvalidatedAppMessage.decryptedPayloadRef)))))

instance : Std.LawfulEqOrd AlreadySeen where
  eq_of_compare {a b} h := by
    change (compare a.messageId b.messageId).then (compare a.kind b.kind) = .eq at h
    simp only [Ordering.then_eq_eq, Std.compare_eq_iff_eq] at h
    cases a
    cases b
    simpa using h

instance : Std.LawfulEqOrd DeferredMessage where
  eq_of_compare {a b} h := by
    change (compare a.messageId b.messageId).then ((compare a.kind b.kind).then
      (compare a.reason b.reason)) = .eq at h
    simp only [Ordering.then_eq_eq, Std.compare_eq_iff_eq] at h
    cases a
    cases b
    simpa using h

instance : Std.LawfulEqOrd DroppedMessage where
  eq_of_compare {a b} h := by
    change (compare a.messageId b.messageId).then ((compare a.kind b.kind).then
      ((compare a.reason b.reason).then
        (compare a.rejectionCategory b.rejectionCategory))) = .eq at h
    simp only [Ordering.then_eq_eq, Std.compare_eq_iff_eq] at h
    cases a
    cases b
    simpa using h

instance : Std.LawfulEqOrd InvalidatedAppMessage where
  eq_of_compare {a b} h := by
    change (compare a.messageId b.messageId).then ((compare a.epoch b.epoch).then
      ((compare a.reason b.reason).then
        (compare a.decryptedPayloadRef b.decryptedPayloadRef))) = .eq at h
    simp only [Ordering.then_eq_eq, Std.compare_eq_iff_eq] at h
    cases a
    cases b
    simpa using h

/-! ### Windows -/

def appMessageExpired (referenceTipEpoch : UInt64) (policy : CanonicalizationPolicy)
    (epoch : UInt64) : Bool :=
  decide (policy.appMessagePastEpochLimit < referenceTipEpoch.saturatingSub epoch)

def branchIneligibilityReason (input : CanonicalizationInput) (candidate : BranchCandidate) :
    Option DroppedMessageReason :=
  if candidate.forkEpoch < input.state.retainedAnchorEpoch then some .beyondAnchor
  else if !isBranchEligible input.state.currentTipEpoch candidate input.policy.convergence then
    some .beyondRollbackHorizon
  else none

/-! ### Deduplication -/

/-- An application message delivered by an earlier pass: it comes back to
witness its branch and is exempt from deduplication. -/
def PeeledMessage.readmittedWitness : Bool :=
  message.app?.any AppPayload.alreadyDelivered

structure Dedup where
  alreadySeen : List AlreadySeen := []
  batchObservedIds : ExtTreeSet String := ∅
  uniqueMessages : List PeeledMessage := []

/-- One round of the deduplication loop; `seen` holds the ids of the two base sets. -/
def dedupStep (seen : String → Bool) (d : Dedup) (message : PeeledMessage) : Dedup :=
  if message.readmittedWitness then
    { d with uniqueMessages := d.uniqueMessages ++ [message] }
  else if seen message.messageId || d.batchObservedIds.contains message.messageId then
    { d with alreadySeen := d.alreadySeen ++ [⟨message.messageId, message.kindName⟩] }
  else
    { d with
      batchObservedIds := d.batchObservedIds.insert message.messageId
      uniqueMessages := d.uniqueMessages ++ [message] }

def dedup (seen : String → Bool) (messages : List PeeledMessage) : Dedup :=
  messages.foldl (dedupStep seen) {}

/-- The shared set and the state's own set are one logical base. -/
def isSeen (input : CanonicalizationInput) (sharedSeenMessageIds : Option (ExtTreeSet String))
    (id : String) : Bool :=
  sharedSeenMessageIds.any (·.contains id) || input.state.seenMessageIds.contains id

end Mdk
