/-
The dispositions of a batch (`handle_commit`, `handle_proposal`,
`handle_app_message`, `classify_losing_materialized_candidate_commits` and
`canonicalize_internal` of `canonicalization.rs`).

In the source every handler pushes one entry at most onto one list of the result
it is given, and reads of that result only the selected branch id and the
selected tip, which no handler changes.  Here a handler returns the entry
(`Disposition`) and `CanonicalizationResult.push` puts it on its list.
-/
import Mdk.MaterializedGraph

open Std (ExtTreeMap ExtTreeSet TransCmp)
open Comparison

namespace Mdk

/-! ### Entries -/

variable (message : PeeledMessage)

def dropped (reason : DroppedMessageReason) : DroppedMessage :=
  ⟨message.messageId, message.kindName, reason, none⟩

def deferred (reason : DeferredMessageReason) : DeferredMessage :=
  ⟨message.messageId, message.kindName, reason⟩

def invalidatedApp (epoch : UInt64) (reason : InvalidatedAppMessageReason)
    (decryptedPayloadRef : Option String) : InvalidatedAppMessage :=
  ⟨message.messageId, epoch, reason, decryptedPayloadRef⟩

/-- An entry of one of the disposition lists. -/
inductive Disposition where
  | acceptCommit (id : String)
  | acceptProposal (id : String)
  | acceptApp (id : String)
  | defer (entry : DeferredMessage)
  | drop (entry : DroppedMessage)
  | invalidate (entry : InvalidatedAppMessage)
  | seen (entry : AlreadySeen)
deriving DecidableEq, Repr

def CanonicalizationResult.push (r : CanonicalizationResult) :
    Disposition → CanonicalizationResult
  | .acceptCommit id => { r with acceptedCommits := r.acceptedCommits ++ [id] }
  | .acceptProposal id => { r with acceptedProposals := r.acceptedProposals ++ [id] }
  | .acceptApp id => { r with acceptedAppMessages := r.acceptedAppMessages ++ [id] }
  | .defer entry => { r with deferredMessages := r.deferredMessages ++ [entry] }
  | .drop entry => { r with droppedMessages := r.droppedMessages ++ [entry] }
  | .invalidate entry => { r with invalidatedAppMessages := r.invalidatedAppMessages ++ [entry] }
  | .seen entry => { r with alreadySeen := r.alreadySeen ++ [entry] }

/-! ### Handlers -/

variable (selectedBranchId : Option String)

/-- A commit of the selected path is accepted with the path: no entry of its own. -/
def handleCommit (input : CanonicalizationInput) (message : PeeledMessage) (branchId : String)
    (forkEpoch : UInt64) (selectedCommitIds materializedBranchIds : ExtTreeSet String) :
    Option Disposition :=
  if forkEpoch < input.state.retainedAnchorEpoch then
    some (.drop (dropped message .beyondAnchor))
  else if input.policy.convergence.maxRewindCommits <
      input.state.currentTipEpoch.saturatingSub forkEpoch then
    some (.drop (dropped message .beyondRollbackHorizon))
  else if !selectedCommitIds.contains message.messageId then
    -- The branch id alone decides here: the parent and the epochs are not looked at.
    if some branchId = selectedBranchId then
      some (.acceptCommit message.messageId)
    else if materializedBranchIds.contains branchId && selectedBranchId.isSome then
      some (.defer (deferred message .nonSelectedEligibleBranch))
    else
      some (.defer (deferred message .missingCandidateParent))
  else none

structure ProposalDispositionContext where
  selectedConsumedProposalIds : ExtTreeSet String
  allConsumedProposalIds : ExtTreeSet String
  selectedBranchPath : ExtTreeSet String
  materializedBranchIds : ExtTreeSet String
  candidateBranches : List BranchCandidate

def handleProposal (selectedTip : Option UInt64) (input : CanonicalizationInput)
    (message : PeeledMessage) (branchId : String) (context : ProposalDispositionContext) :
    Disposition :=
  if message.sourceEpoch < input.state.retainedAnchorEpoch then
    .drop (dropped message .beyondAnchor)
  else if context.selectedConsumedProposalIds.contains message.messageId then
    .acceptProposal message.messageId
  -- Consumed by a commit of another branch, which a later pass may still select.
  else if context.allConsumedProposalIds.contains message.messageId
      && context.materializedBranchIds.contains branchId
      && !context.selectedBranchPath.contains branchId
      && selectedBranchId.isSome then
    match (context.candidateBranches.find? fun candidate => candidate.id == branchId).bind
        (branchIneligibilityReason input) with
    | some reason => .drop (dropped message reason)
    | none => .defer (deferred message .nonSelectedEligibleBranch)
  else if message.sourceEpoch < selectedTip.getD input.state.currentTipEpoch then
    -- An unconsumed proposal cannot cross an epoch boundary.
    .drop (dropped message .invalidAgainstCandidateState)
  else
    .defer (deferred message .awaitingCanonicalCommit)

/-- The selected branch is one the message decrypts on. -/
def selectedDecrypts (decryptsOnBranches : List String) : Bool :=
  selectedBranchId.any decryptsOnBranches.contains

variable (input : CanonicalizationInput)

/-- Some branch the message decrypts on can still be selected by a later pass. -/
def decryptsOnEligible (candidates : List BranchCandidate) (decryptsOnBranches : List String) :
    Bool :=
  (decryptsOnBranches.filterMap fun branchId =>
    candidates.find? fun candidate => candidate.id == branchId).any fun candidate =>
      (branchIneligibilityReason input candidate).isNone

def handleAppMessage (selectedBranchId : Option String) (selectedTip : Option UInt64)
    (input : CanonicalizationInput) (message : PeeledMessage) (app : AppPayload)
    (candidates : List BranchCandidate) : Disposition :=
  if app.alreadyDelivered then
    -- Never delivered again; withdrawn when the selected branch is not one of its own.
    if selectedBranchId.isSome
        && !selectedDecrypts selectedBranchId app.decryptsOnBranches
        && !app.decryptsOnBranches.isEmpty then
      .invalidate (invalidatedApp message app.epoch .losingBranch app.decryptedPayloadRef)
    else
      .seen ⟨message.messageId, message.kindName⟩
  else if app.epoch < input.state.retainedAnchorEpoch then
    .invalidate (invalidatedApp message app.epoch .beyondAnchor app.decryptedPayloadRef)
  -- Delivery measures the window from the canonical tip, witness counting from the branch's.
  else if appMessageExpired input.state.currentTipEpoch input.policy app.epoch then
    .invalidate (invalidatedApp message app.epoch .beyondAppRetention app.decryptedPayloadRef)
  else if selectedDecrypts selectedBranchId app.decryptsOnBranches then
    .acceptApp message.messageId
  else if app.decryptsOnBranches.isEmpty
      && decide (selectedTip.getD input.state.currentTipEpoch < app.epoch) then
    .defer (deferred message .futureEpoch)
  else if app.decryptsOnBranches.isEmpty then
    .invalidate (invalidatedApp message app.epoch .undecryptableInCanonicalState
      app.decryptedPayloadRef)
  else if decryptsOnEligible input candidates app.decryptsOnBranches then
    -- Parked like the commits of the branch it rode.
    .defer (deferred message .nonSelectedEligibleBranch)
  else
    .invalidate (invalidatedApp message app.epoch .losingBranch app.decryptedPayloadRef)

/-- One commit id of a losing materialized branch. -/
def classifyLosingCommit (candidate : Option BranchCandidate) (result : CanonicalizationResult)
    (messageId : String) : CanonicalizationResult :=
  if result.acceptedCommits.contains messageId
      || (result.deferredMessages.any fun deferred => deferred.messageId == messageId)
      || (result.droppedMessages.any fun dropped => dropped.messageId == messageId) then result
  else
    let ineligibilityReason := candidate.bind (branchIneligibilityReason input)
    -- A branch that is not among the candidates counts as beyond the horizon.
    if candidate.isSome && ineligibilityReason.isNone then
      result.push (.defer ⟨messageId, .commit, .nonSelectedEligibleBranch⟩)
    else
      result.push (.drop
        ⟨messageId, .commit, ineligibilityReason.getD .beyondRollbackHorizon, none⟩)

variable (result : CanonicalizationResult)

def classifyLosingMaterializedCandidateCommits (input : CanonicalizationInput)
    (candidates : List BranchCandidate)
    (materializedCommitIdsByBranch : ExtTreeMap String (ExtTreeSet String)) :
    CanonicalizationResult :=
  match result.selectedBranchId with
  | none => result
  | some selectedBranchId =>
    materializedCommitIdsByBranch.toList.foldl (fun result entry =>
      if entry.1 = selectedBranchId then result
      else
        entry.2.toList.foldl
          (classifyLosingCommit input (candidates.find? fun candidate => candidate.id == entry.1))
          result) result

/-! ### Status -/

def hasBlockingConvergenceError : Bool :=
  result.errors.any fun error =>
    error == .missingRetainedAnchor || error == .missingOwnCommitCheckpoint

/-- The ids of the seven disposition lists, list by list. -/
def CanonicalizationResult.resolvedIds : List String :=
  result.acceptedCommits ++ result.acceptedProposals ++ result.acceptedAppMessages ++
    result.deferredMessages.map DeferredMessage.messageId ++
    result.droppedMessages.map DroppedMessage.messageId ++
    result.invalidatedAppMessages.map InvalidatedAppMessage.messageId ++
    result.alreadySeen.map AlreadySeen.messageId

def convergenceStatusForResult (inputMessages : List PeeledMessage)
    (result : CanonicalizationResult) : ConvergenceStatus :=
  let elapsed := input.nowMs.saturatingSub input.state.lastConvergenceRelevantInputMs
  -- The window comes first: before it closes, nothing else about the result matters.
  if elapsed < input.policy.settlementQuiescenceMs then .syncing
  else if inputMessages.any fun message => !result.resolvedIds.contains message.messageId then
    .resolving
  else if hasBlockingConvergenceError result then .blocked
  else .settled

variable (r : CanonicalizationResult)

def CanonicalizationResult.sort : CanonicalizationResult :=
  -- The accepted commits keep the order in which they apply.
  { r with
    acceptedProposals := sortBy compare r.acceptedProposals
    acceptedAppMessages := sortBy compare r.acceptedAppMessages
    deferredMessages := sortBy compare r.deferredMessages
    invalidatedAppMessages := sortBy compare r.invalidatedAppMessages
    droppedMessages := sortBy compare r.droppedMessages
    alreadySeen := sortBy compare r.alreadySeen
    queuedOutboundIntents := sortBy compare r.queuedOutboundIntents
    publishableOutboundMessages := sortBy compare r.publishableOutboundMessages
    errors := sortBy compare r.errors }

/-! ### The whole call -/

/-- What the loop over the messages reads and does not change. -/
structure DispositionContext where
  input : CanonicalizationInput
  selectedBranchId : Option String
  selectedTip : Option UInt64
  selectedCommitIdSet : ExtTreeSet String
  branchIds : ExtTreeSet String
  proposals : ProposalDispositionContext
  candidates : List BranchCandidate

variable (ctx : DispositionContext)

def handleMessage (message : PeeledMessage) : Option Disposition :=
  match message.kind with
  | .commit edge =>
    handleCommit ctx.selectedBranchId ctx.input message edge.branchId edge.forkEpoch
      ctx.selectedCommitIdSet ctx.branchIds
  | .proposal branchId =>
    some (handleProposal ctx.selectedBranchId ctx.selectedTip ctx.input message branchId
      ctx.proposals)
  | .appMessage app =>
    some (handleAppMessage ctx.selectedBranchId ctx.selectedTip ctx.input message app
      ctx.candidates)

variable (messages : List PeeledMessage)

/-- The loop over the batch. -/
def handleMessages (result : CanonicalizationResult) : CanonicalizationResult :=
  messages.foldl (fun result message =>
    match handleMessage ctx message with
    | some entry => result.push entry
    | none => result) result

/-- The entries of a batch do not depend on each other. -/
theorem handleMessages_eq_foldl_push (result : CanonicalizationResult) :
    handleMessages ctx messages result =
      (messages.filterMap (handleMessage ctx)).foldl CanonicalizationResult.push result := by
  induction messages generalizing result with
  | nil => rfl
  | cons message messages ih =>
    rw [handleMessages, List.foldl_cons]
    cases h : handleMessage ctx message with
    | none =>
      rw [List.filterMap_cons_none h]
      exact ih result
    | some entry =>
      rw [List.filterMap_cons_some h, List.foldl_cons]
      exact ih (result.push entry)

/-- The graph with its witnesses, as selection sees it. -/
def witnessedGraph (uniqueMessages : List PeeledMessage)
    (materializedCandidates : List MaterializedCandidate) (admitAppWitnesses : Bool) :
    MaterializedGraph :=
  let graph := materializeCandidateGraph input uniqueMessages materializedCandidates
  if admitAppWitnesses then attachAppWitnesses graph uniqueMessages input.policy else graph

variable (graph : MaterializedGraph)

/-- The commits of the selected branch's path. -/
def selectedCommitIds (selectedBranchId : Option String) : List String :=
  (selectedBranchId.bind fun branchId => graph.commitPathByBranch[branchId]?).getD []

def dispositionContext (selectedBranchId : Option String) (selectedTip : Option UInt64) :
    DispositionContext where
  input := input
  selectedBranchId := selectedBranchId
  selectedTip := selectedTip
  selectedCommitIdSet := .ofList (selectedCommitIds graph selectedBranchId)
  branchIds := graph.branchIds
  proposals :=
    { selectedConsumedProposalIds :=
        (selectedBranchId.bind fun branchId => graph.consumedProposalIdsByBranch[branchId]?).getD ∅
      allConsumedProposalIds :=
        .ofList (graph.consumedProposalIdsByBranch.values.flatMap fun ids => ids.toList)
      selectedBranchPath :=
        (selectedBranchId.bind fun branchId => graph.branchPathByBranch[branchId]?).getD ∅
      materializedBranchIds := graph.branchIds
      candidateBranches := graph.candidates }
  candidates := graph.candidates

/-- The result before any message is handled. -/
def initialResult (alreadySeen : List AlreadySeen) : CanonicalizationResult :=
  let selectedBranch := selectCanonicalBranch input.state.currentTipEpoch graph.candidates
    input.policy.convergence
  let selectedBranchId := selectedBranch.map BranchCandidate.id
  { previousTip := input.state.currentTipEpoch
    selectedTip := selectedBranch.map BranchCandidate.tipEpoch
    selectedForkEpoch := selectedBranch.map BranchCandidate.forkEpoch
    selectedBranchId := selectedBranchId
    candidateCount := graph.candidates.length
    eligibleCount := (graph.candidates.filter fun candidate =>
      isBranchEligible input.state.currentTipEpoch candidate input.policy.convergence).length
    -- Provisional; `finishResult` computes it once every message is handled.
    convergenceStatus := .syncing
    acceptedCommits := selectedCommitIds graph selectedBranchId
    acceptedProposals := []
    acceptedAppMessages := []
    deferredMessages := []
    invalidatedAppMessages := []
    droppedMessages := []
    alreadySeen := alreadySeen
    queuedOutboundIntents := []
    publishableOutboundMessages := []
    errors := if selectedBranchId.isNone then [.candidateStateUnavailable] else []
    selectionTrace := some (selectCanonicalBranchTraced input.state.currentTipEpoch
      graph.candidates input.policy.convergence) }

/-- Status, outbound intents and sorting, once every message is handled. -/
def finishResult : CanonicalizationResult :=
  let status := convergenceStatusForResult input input.pendingMessages result
  let result := { result with convergenceStatus := status }
  let result :=
    if status = .settled then { result with publishableOutboundMessages := input.outboundIntents }
    else { result with queuedOutboundIntents := input.outboundIntents }
  result.sort

variable (materializedCandidates : List MaterializedCandidate)

def canonicalizeInternal (admitAppWitnesses : Bool)
    (sharedSeenMessageIds : Option (ExtTreeSet String)) : CanonicalizationResult :=
  let deduped := dedup (isSeen input sharedSeenMessageIds) input.pendingMessages
  let graph := witnessedGraph input deduped.uniqueMessages materializedCandidates admitAppWitnesses
  let initial := initialResult input graph deduped.alreadySeen
  let ctx := dispositionContext input graph initial.selectedBranchId initial.selectedTip
  let handled := handleMessages ctx deduped.uniqueMessages initial
  finishResult input (classifyLosingMaterializedCandidateCommits handled input graph.candidates
    graph.materializedCommitIdsByBranch)

def canonicalize : CanonicalizationResult :=
  canonicalizeInternal input [] true none

def canonicalizeWithMaterializedCandidates : CanonicalizationResult :=
  canonicalizeInternal input materializedCandidates true none

/-! ### What the handlers leave alone -/

/-- The part of a result that is fixed by the selection. -/
structure SelectionHead where
  previousTip : UInt64
  selectedTip : Option UInt64
  selectedForkEpoch : Option UInt64
  selectedBranchId : Option String
  candidateCount : Nat
  eligibleCount : Nat
  selectionTrace : Option BranchSelectionTrace

def CanonicalizationResult.head : SelectionHead :=
  ⟨r.previousTip, r.selectedTip, r.selectedForkEpoch, r.selectedBranchId, r.candidateCount,
    r.eligibleCount, r.selectionTrace⟩

@[simp] theorem head_push (d : Disposition) : (r.push d).head = r.head := by
  cases d <;> rfl

theorem head_handleMessages (r : CanonicalizationResult) :
    (handleMessages ctx messages r).head = r.head := by
  rw [handleMessages_eq_foldl_push]
  induction messages.filterMap (handleMessage ctx) generalizing r with
  | nil => rfl
  | cons d ds ih => rw [List.foldl_cons, ih, head_push]

theorem head_classifyLosingCommit (candidate : Option BranchCandidate) (r : CanonicalizationResult)
    (id : String) : (classifyLosingCommit input candidate r id).head = r.head := by
  simp only [classifyLosingCommit]
  split
  · rfl
  · split
    · exact head_push r _
    · exact head_push r _

theorem head_foldl {α : Type} {f : CanonicalizationResult → α → CanonicalizationResult}
    (hf : ∀ r a, (f r a).head = r.head) (l : List α) (r : CanonicalizationResult) :
    (l.foldl f r).head = r.head := by
  induction l generalizing r with
  | nil => rfl
  | cons a l ih => rw [List.foldl_cons, ih, hf]

theorem head_classifyLosing (input : CanonicalizationInput) (candidates : List BranchCandidate)
    (byBranch : ExtTreeMap String (ExtTreeSet String)) :
    (classifyLosingMaterializedCandidateCommits r input candidates byBranch).head = r.head := by
  rw [classifyLosingMaterializedCandidateCommits]
  split
  · rfl
  · refine head_foldl (fun r entry => ?_) _ r
    split
    · rfl
    · exact head_foldl (head_classifyLosingCommit input _) _ r

theorem head_finishResult : (finishResult input r).head = r.head := by
  simp only [finishResult]
  split <;> rfl

/-- The graph one call selects from. -/
def canonicalizationGraph (admitAppWitnesses : Bool)
    (sharedSeenMessageIds : Option (ExtTreeSet String)) : MaterializedGraph :=
  witnessedGraph input
    (dedup (isSeen input sharedSeenMessageIds) input.pendingMessages).uniqueMessages
    materializedCandidates admitAppWitnesses

variable (materialized : List MaterializedCandidate)

theorem canonicalizeInternal_head (admitted : Bool) (shared : Option (ExtTreeSet String)) :
    (canonicalizeInternal input materialized admitted shared).head =
      (initialResult input (canonicalizationGraph input materialized admitted shared) []).head := by
  rw [canonicalizeInternal]
  -- The already seen ids are no part of the head, so `[]` stands for them.
  simp only [head_finishResult, head_classifyLosing, head_handleMessages]
  rfl

open SelectionHead

/-- What one call selects. -/
theorem canonicalizeInternal_selected (admitted : Bool) (shared : Option (ExtTreeSet String)) :
    let selected := selectCanonicalBranch input.state.currentTipEpoch
      (canonicalizationGraph input materialized admitted shared).candidates input.policy.convergence
    (canonicalizeInternal input materialized admitted shared).selectedBranchId =
        selected.map BranchCandidate.id ∧
      (canonicalizeInternal input materialized admitted shared).selectedTip =
        selected.map BranchCandidate.tipEpoch ∧
      (canonicalizeInternal input materialized admitted shared).selectedForkEpoch =
        selected.map BranchCandidate.forkEpoch ∧
      (canonicalizeInternal input materialized admitted shared).selectionTrace =
        some (selectCanonicalBranchTraced input.state.currentTipEpoch
          (canonicalizationGraph input materialized admitted shared).candidates
          input.policy.convergence) := by
  have h := canonicalizeInternal_head input materialized admitted shared
  exact ⟨congrArg selectedBranchId h, congrArg selectedTip h,
    congrArg selectedForkEpoch h, congrArg selectionTrace h⟩

/-! ### Small batches

Concrete messages for the instances of later results: a group at epoch 10 that
keeps its history from epoch 5 on. -/

/-- A commit that leads from `source` to the epoch after it. -/
def commitMessage (id : String) (sender : UInt8) (source : UInt64) (branchId : String)
    (parentBranchId : Option String) : PeeledMessage :=
  ⟨id, "group", [sender], source,
    .commit ⟨branchId, parentBranchId, 10, source + 1, .ordinary, Vector.replicate 32 0, []⟩⟩

def appMessage (id : String) (sender : UInt8) (epoch : UInt64) (branches : List String)
    (alreadyDelivered : Bool) : PeeledMessage :=
  ⟨id, "group", [sender], epoch, .appMessage ⟨epoch, branches, none, alreadyDelivered⟩⟩

def batchInput : CanonicalizationInput where
  state := ⟨10, 5, 0, ∅⟩
  pendingMessages := messages
  outboundIntents := []
  candidateBranches := []
  policy := {}
  nowMs := 2000

end Mdk
