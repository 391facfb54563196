/-
Successive convergence passes over stored messages.

One pass reads the rows that may still contribute (`seed_stored_openmls_graph_inputs`),
goes back to the oldest unresolved commit if that lies below the live tip, searches the
candidate paths of the commits, projects the pending messages onto the candidates
(`project_pending_canonicalization_messages`), canonicalizes, reports the commits the
search has dropped or could not place, and rewrites the states of the rows
(`openmls_canonicalization_dispositions`).  What the rewriting leaves in a terminal
state no later pass reads.

MLS is the parameter `PassWorld`.  The state a replay starts from is given by the
commits that led to it.  The replay of the application messages on the completed paths
is taken to give the candidates of the search again; what it observes is `observe`.

Main results:
* `persist_identity` — a pass changes nothing but the states of the rows;
* `rows_of_result` — one that invalidates nothing leaves to the next pass every row
  that it does not drop.
-/
import Mdk.Dispositions
import Mdk.LiveCommits
import Mdk.StoredInputs

open Std (ExtTreeMap ExtTreeSet)
open Comparison

namespace Mdk

open MessageRecord List

/-! ### Dispositions of rows -/

def messageStateForDroppedReason : DroppedMessageReason → MessageState
  | .malformed | .unsupportedPolicy => .failed
  | .beyondRollbackHorizon | .beyondAnchor | .beyondAppRetention
  | .invalidAgainstCandidateState => .epochInvalidated

def messageStateForInvalidatedReason (reason : InvalidatedAppMessageReason)
    (messageEpoch resultingTip : UInt64) : MessageState :=
  match reason with
  | .undecryptableInCanonicalState =>
    if resultingTip < messageEpoch then .retryable else .epochInvalidated
  | .losingBranch | .beyondAnchor | .beyondAppRetention => .epochInvalidated

def droppedReasonText : DroppedMessageReason → String
  | .malformed => "canonicalization_dropped_malformed"
  | .unsupportedPolicy => "canonicalization_dropped_unsupported_policy"
  | .beyondRollbackHorizon => "canonicalization_dropped_beyond_rollback_horizon"
  | .beyondAnchor => "canonicalization_dropped_beyond_anchor"
  | .beyondAppRetention => "canonicalization_dropped_beyond_app_retention"
  | .invalidAgainstCandidateState => "canonicalization_dropped_invalid_candidate_state"

def invalidatedReasonText : InvalidatedAppMessageReason → String
  | .losingBranch => "canonicalization_invalidated_losing_branch"
  | .undecryptableInCanonicalState => "canonicalization_invalidated_undecryptable"
  | .beyondAnchor => "canonicalization_invalidated_beyond_anchor"
  | .beyondAppRetention => "canonicalization_invalidated_beyond_app_retention"

structure OpenMlsCanonicalizationDisposition where
  messageId : String
  state : MessageState
  reason : String
deriving DecidableEq, Repr

section Dispositions

variable (result : CanonicalizationResult)

/-- The epoch a pass settled on. -/
def CanonicalizationResult.resultingTip : UInt64 :=
  result.selectedTip.getD result.previousTip

/-- The writes of a result, in the order of the source: a later one replaces an
earlier one of the same id. -/
def dispositionWrites : List (String × (MessageState × String)) :=
  (result.droppedMessages.map fun dropped =>
    (dropped.messageId,
      (messageStateForDroppedReason dropped.reason, droppedReasonText dropped.reason))) ++
  (result.invalidatedAppMessages.map fun invalidated =>
    (invalidated.messageId,
      (messageStateForInvalidatedReason invalidated.reason invalidated.epoch result.resultingTip,
        invalidatedReasonText invalidated.reason))) ++
  (result.deferredMessages.map fun deferred =>
    (deferred.messageId, (.convergenceDeferred, "canonicalization_deferred"))) ++
  ((result.acceptedCommits ++ result.acceptedProposals ++ result.acceptedAppMessages).map
    fun accepted => (accepted, (.processed, "canonicalization_accepted")))

def openmlsCanonicalizationDispositions : List OpenMlsCanonicalizationDisposition :=
  ((dispositionWrites result).foldl (fun (states : ExtTreeMap String (MessageState × String))
    write => states.insert write.1 write.2) ∅).toList.map fun entry =>
      ⟨entry.1, entry.2.1, entry.2.2⟩

variable (rows : List MessageRecord) (disposition : OpenMlsCanonicalizationDisposition)

def updateMessageState : List MessageRecord :=
  rows.map fun record =>
    if record.id = disposition.messageId then { record with state := disposition.state }
    else record

def persistOpenmlsCanonicalizationDispositions (result : CanonicalizationResult) :
    List MessageRecord :=
  (openmlsCanonicalizationDispositions result).foldl updateMessageState rows

end Dispositions

/-! ### Projecting the pending messages -/

/-- What a candidate's replay has observed of an application message.  The device's
own messages have no payload reference. -/
structure AppObservation where
  sender : List UInt8
  decryptedPayloadRef : Option String
deriving DecidableEq, Repr

/-- MLS over the stored messages of one group, and the hash that names paths.  A
replay depends on the device's own commits and on the state it starts from; so does
what an application message is on a branch. -/
structure PassWorld where
  codec : WireCodec
  groupId : GroupId
  branchIdForPathDigests : List Digest → String
  prepare : List TransportMessage → List Digest → Except OpenMlsProjectionError Unit
  replay : PrevalidatedOwnCommits → (base : List Digest) → List TransportMessage → List Digest →
    Except OpenMlsProjectionError OpenMlsMaterializedCandidate
  proposalIdByRef : String → Option String
  observe : (base : List Digest) → String → TransportMessage → Option AppObservation

def PassWorld.oracle (world : PassWorld) (own : PrevalidatedOwnCommits) (base : List Digest) :
    ProbeOracle where
  projectKind bytes := (projectMlsMessage world.codec bytes).map (·.kind)
  branchIdForPathDigests := world.branchIdForPathDigests
  prepare := world.prepare
  replay := world.replay own base

structure AppMessageBranches where
  sender : List UInt8
  branchIds : ExtTreeSet String
  decryptedPayloadRef : Option String

variable (world : PassWorld) (base : List Digest) (materialized : List MaterializedCandidate)

/-- `app_messages_by_id` at one message: the branches it was observed on, with the
sender and the payload of the first. -/
def appMessageBranches (message : TransportMessage) : Option AppMessageBranches :=
  match materialized.filterMap fun candidate =>
      (world.observe base candidate.branch.id message).map fun observed =>
        (candidate.branch.id, observed) with
  | [] => none
  | (branchId, observed) :: rest =>
    some ⟨observed.sender, .ofList (branchId :: rest.map Prod.fst), observed.decryptedPayloadRef⟩

/-- `proposal_branch_by_id` at one message. -/
def proposalBranch (messageId : String) : Option String :=
  (materialized.find? fun candidate => candidate.consumedProposalIds.contains messageId).map
    fun candidate => candidate.branch.id

/-- One message of `project_pending_canonicalization_messages`. -/
def projectPendingMessage (alreadyDeliveredAppIds : ExtTreeSet String) (message : TransportMessage)
    : Except OpenMlsProjectionError (Option PeeledMessage) :=
  match projectMlsMessage world.codec message.payload with
  | .error err => .error err
  | .ok projection =>
    match projection.sourceEpoch with
    | none => .ok none
    | some sourceEpoch =>
      let observed := appMessageBranches world base materialized message
      let peeled (kind : PeeledMessageKind) : PeeledMessage :=
        ⟨message.id, hexEncode world.groupId,
          (observed.map AppMessageBranches.sender).getD message.source.toUTF8.toList,
          sourceEpoch, kind⟩
      match projection.kind with
      | .proposal =>
        .ok (some (peeled (.proposal ((proposalBranch materialized message.id).getD
          ("pending-proposal:" ++ toString sourceEpoch ++ ":" ++ message.id)))))
      | .application =>
        .ok (some (peeled (.appMessage
          { epoch := sourceEpoch
            decryptsOnBranches :=
              (observed.map fun observed => observed.branchIds.toList).getD []
            decryptedPayloadRef := observed.bind AppMessageBranches.decryptedPayloadRef
            alreadyDelivered := alreadyDeliveredAppIds.contains message.id })))
      | .commit | .welcome | .other => .ok none

def projectPendingCanonicalizationMessages (world : PassWorld) (base : List Digest)
    (materialized : List MaterializedCandidate) (alreadyDeliveredAppIds : ExtTreeSet String) :
    List TransportMessage → Except OpenMlsProjectionError (List PeeledMessage)
  | [] => .ok []
  | message :: messages =>
    match projectPendingMessage world base materialized alreadyDeliveredAppIds message with
    | .error err => .error err
    | .ok peeled =>
      match projectPendingCanonicalizationMessages world base materialized alreadyDeliveredAppIds
          messages with
      | .error err => .error err
      | .ok pending => .ok (peeled.toList ++ pending)

/-! ### What the search adds to a result -/

section Append

variable (result : CanonicalizationResult)

/-- A dropped message, in the entry it has already or in one of its own. -/
def noteDropped (noted : List DroppedMessage) (dropped : DroppedMessage) : List DroppedMessage :=
  match noted with
  | [] => [dropped]
  | existing :: rest =>
    if existing.messageId = dropped.messageId then
      { existing with
        rejectionCategory := existing.rejectionCategory.or dropped.rejectionCategory } :: rest
    else existing :: noteDropped rest dropped

def appendDroppedMessages (droppedMessages : List DroppedMessage) : CanonicalizationResult :=
  { result with
    droppedMessages := sortBy compare ((droppedMessages.filter fun dropped =>
      !(decide (dropped.kind = .proposal) &&
        result.acceptedProposals.contains dropped.messageId)).foldl noteDropped
          result.droppedMessages) }

def appendMissingParentDeferredCommits (messageIds : List String) : CanonicalizationResult :=
  { result with
    deferredMessages := sortBy compare (messageIds.foldl (fun deferred messageId =>
      if (deferred.any fun existing => decide (existing.messageId = messageId)) ||
          result.droppedMessages.any fun existing => decide (existing.messageId = messageId) then
        deferred
      else deferred ++ [⟨messageId, .commit, .missingCandidateParent⟩])
      result.deferredMessages) }

end Append

/-! ### Passes -/

/-- What storage and the live group are between two passes.  `applied` is the commits
that led to the live state, with their epochs. -/
structure PassState where
  rows : List MessageRecord
  currentTipEpoch : UInt64
  applied : List (UInt64 × Digest)
deriving DecidableEq, Repr

/-- The state at an epoch the group has been through. -/
def PassState.baseAt (state : PassState) (epoch : UInt64) : List Digest :=
  (state.applied.filter fun commit => decide (commit.1 < epoch)).map Prod.snd

/-- The start of a pass: what has arrived since the last one, the epochs whose state is
retained, and the clock. -/
structure PassArrival where
  arrived : List MessageRecord
  retainedAnchorEpoch : UInt64
  retainedAnchors : List UInt64
  lastConvergenceRelevantInputMs : UInt64
  outboundIntents : List OutboundIntent
  nowMs : UInt64
deriving DecidableEq, Repr

def candidateReplayBudgetSlack : ℕ := 4

def candidateReplayBudgetFloor : ℕ := 32

/-- The saturating steps of the source come to one cap at the end. -/
def ReplayBudget.forPass (commitCount : ℕ) (maxRewindCommits : UInt64) : ReplayBudget :=
  .new (.ofNat (min usizeMax (commitCount * (maxRewindCommits.toNat + 1) *
    candidateReplayBudgetSlack + candidateReplayBudgetFloor)))

def ReplayBudget.consumeAll (budget : ReplayBudget) :
    ℕ → Except OpenMlsProjectionError ReplayBudget
  | 0 => .ok budget
  | n + 1 =>
    match budget.consume with
    | .error err => .error err
    | .ok budget => budget.consumeAll n

variable (inputs : StoredOpenMlsGraphInputs)

def passBudget (policy : CanonicalizationPolicy) : ReplayBudget :=
  .forPass inputs.commitMessages.length policy.convergence.maxRewindCommits

/-- The search of a pass. -/
def passPaths (policy : CanonicalizationPolicy) :
    ReplayBudget × Except OpenMlsProjectionError StoredOpenMlsCandidatePathResult :=
  buildStoredOpenmlsCandidatePaths (world.oracle inputs.ownCommits base) inputs.commitMessages
    inputs.pendingMessages inputs.replayStartEpoch (passBudget inputs policy)

/-- `canonical_materialized_candidate_with_proposal_ids`. -/
def canonicalMaterializedCandidate (candidate : OpenMlsMaterializedCandidate) :
    MaterializedCandidate :=
  ⟨⟨candidate.branchId, candidate.forkEpoch, candidate.tipEpoch, candidate.tipPriority,
      candidate.tipCommitter, candidate.tipDigest, []⟩, candidate.commitMessageIds,
    candidate.consumedProposalRefs.map fun ref => (world.proposalIdByRef ref).getD ref⟩

/-- The candidates of a search, in the order of their branch ids. -/
def passCandidates (candidates : List OpenMlsMaterializedCandidate) : List MaterializedCandidate :=
  (sortBy (compareOn OpenMlsMaterializedCandidate.branchId) candidates).map
    (canonicalMaterializedCandidate world)

/-- What a pass canonicalizes. -/
structure PassBatch where
  materialized : List MaterializedCandidate
  pending : List PeeledMessage
deriving DecidableEq, Repr

def passBatch (budget : ReplayBudget) (paths : StoredOpenMlsCandidatePathResult) :
    Except OpenMlsProjectionError PassBatch :=
  match inputs.pendingMessages.anyM fun message =>
      (projectMlsMessage world.codec message.payload).map fun projection =>
        decide (projection.kind = .application) with
  | .error err => .error err
  | .ok hasPendingApps =>
    -- To observe application messages, every path is replayed once more.
    match budget.consumeAll (if hasPendingApps then paths.candidatePaths.length else 0) with
    | .error err => .error err
    | .ok _ =>
      let materialized := passCandidates world paths.materialized
      match projectPendingCanonicalizationMessages world base materialized
          inputs.alreadyDeliveredAppIds inputs.pendingMessages with
      | .error err => .error err
      | .ok pending => .ok ⟨materialized, pending⟩

/-- What a pass has read, searched and projected. -/
structure PassWork where
  inputs : StoredOpenMlsGraphInputs
  paths : StoredOpenMlsCandidatePathResult
  batch : PassBatch

/-- How far a pass gets before it canonicalizes. -/
inductive PassStage where
  | missing (inputs : StoredOpenMlsGraphInputs) (error : CanonicalizationError)
  | ready (work : PassWork)

variable (policy : CanonicalizationPolicy) (state : PassState) (arrival : PassArrival)

def passStage : Except OpenMlsProjectionError PassStage :=
  match seedStoredOpenmlsGraphInputs world.codec (state.rows ++ arrival.arrived) world.groupId
      state.currentTipEpoch arrival.retainedAnchorEpoch none with
  | .error err => .error err
  | .ok inputs =>
    if inputs.replayStartEpoch < inputs.currentEpoch ∧
        inputs.replayStartEpoch ∉ arrival.retainedAnchors then
      .ok (.missing inputs .missingRetainedAnchor)
    else
      let base := state.baseAt inputs.replayStartEpoch
      match passPaths world base inputs policy with
      | (_, .error .missingOwnCommitCheckpoint) =>
        .ok (.missing inputs .missingOwnCommitCheckpoint)
      | (_, .error err) => .error err
      | (budget, .ok paths) =>
        match passBatch world base inputs budget paths with
        | .error err => .error err
        | .ok batch => .ok (.ready ⟨inputs, paths, batch⟩)

def passInput (batch : PassBatch) : CanonicalizationInput where
  state := ⟨state.currentTipEpoch, arrival.retainedAnchorEpoch,
    arrival.lastConvergenceRelevantInputMs, ∅⟩
  pendingMessages := batch.pending
  outboundIntents := arrival.outboundIntents
  candidateBranches := []
  policy := policy
  nowMs := arrival.nowMs

def missingRequiredStateResult (error : CanonicalizationError) : CanonicalizationResult where
  previousTip := state.currentTipEpoch
  selectedTip := none
  selectedForkEpoch := none
  selectedBranchId := none
  candidateCount := 0
  eligibleCount := 0
  convergenceStatus :=
    if policy.settlementQuiescenceMs ≤
        arrival.nowMs.saturatingSub arrival.lastConvergenceRelevantInputMs then
      .blocked
    else .syncing
  acceptedCommits := []
  acceptedProposals := []
  acceptedAppMessages := []
  deferredMessages := []
  invalidatedAppMessages := []
  droppedMessages := []
  alreadySeen := []
  queuedOutboundIntents := arrival.outboundIntents
  publishableOutboundMessages := []
  errors := [error]
  selectionTrace := none

def PassWork.result (work : PassWork) : CanonicalizationResult :=
  let result := canonicalizeWithMaterializedCandidates (passInput policy state arrival work.batch)
    work.batch.materialized
  let result := appendDroppedMessages result work.paths.invalidCommitDrops
  let result := appendMissingParentDeferredCommits result work.paths.unmaterializedCommitIds
  appendDroppedMessages result work.inputs.staleCommitDrops

/-- The commits that have led to the selected state. -/
def PassWork.applied (work : PassWork) (selectedBranchId : Option String) :
    List (UInt64 × Digest) :=
  match work.paths.candidatePaths.find? fun path => selectedBranchId = some path.branchId with
  | none => state.applied
  | some path =>
    (state.applied.filter fun commit => decide (commit.1 < work.inputs.replayStartEpoch)) ++
      path.messages.filterMap fun message =>
        (work.inputs.commitMessages.find? fun commit => commit.message = message).map
          StoredCommitMessage.key

def runPass : Except OpenMlsProjectionError (CanonicalizationResult × PassState) :=
  let next (result : CanonicalizationResult) (applied : List (UInt64 × Digest)) :=
    (result, (⟨persistOpenmlsCanonicalizationDispositions (state.rows ++ arrival.arrived) result,
      result.resultingTip, applied⟩ : PassState))
  match passStage world policy state arrival with
  | .error err => .error err
  | .ok (.missing inputs error) =>
    .ok (next (appendDroppedMessages (missingRequiredStateResult policy state arrival error)
      inputs.staleCommitDrops) state.applied)
  | .ok (.ready work) =>
    let result := work.result policy state arrival
    .ok (next result (work.applied state result.selectedBranchId))

/-- A run: the results of its passes, and the state it ends in. -/
def runPasses (world : PassWorld) (policy : CanonicalizationPolicy) :
    PassState → List PassArrival →
      Except OpenMlsProjectionError (List CanonicalizationResult × PassState)
  | state, [] => .ok ([], state)
  | state, arrival :: arrivals =>
    match runPass world policy state arrival with
    | .error err => .error err
    | .ok (result, next) =>
      match runPasses world policy next arrivals with
      | .error err => .error err
      | .ok (results, final) => .ok (result :: results, final)

/-! ### What a pass does to the rows -/

variable (rows : List MessageRecord) (disposition : OpenMlsCanonicalizationDisposition)

/-- The row apart from its state. -/
def MessageRecord.identity (record : MessageRecord) : MessageRecord :=
  { record with state := .created }

theorem updateMessageState_identity :
    (updateMessageState rows disposition).map identity = rows.map identity := by
  rw [updateMessageState, map_map]
  refine map_congr_left fun record _ => ?_
  rw [Function.comp]
  split <;> rfl

theorem persist_identity (result : CanonicalizationResult) :
    (persistOpenmlsCanonicalizationDispositions rows result).map identity =
      rows.map identity := by
  refine foldlRecOn (motive := fun rows' => map identity rows' = _) _ _ rfl fun rows' ih d _ => ?_
  rw [updateMessageState_identity, ih]

theorem exists_write_of_getElem? {writes : List (String × (MessageState × String))}
    {states : ExtTreeMap String (MessageState × String)} {id : String}
    {value : MessageState × String}
    (h : (writes.foldl (fun states write => states.insert write.1 write.2) states)[id]? =
      some value) :
    states[id]? = some value ∨ (id, value) ∈ writes := by
  induction writes generalizing states with
  | nil => exact .inl h
  | cons write writes ih =>
    rcases ih h with hinsert | hmem
    · rw [ExtTreeMap.getElem?_insert] at hinsert
      split at hinsert
      · rename_i hid
        have hid : write.1 = id := Std.compare_eq_iff_eq.mp hid
        cases hinsert
        subst hid
        exact .inr mem_cons_self
      · exact .inl hinsert
    · exact .inr (mem_cons_of_mem _ hmem)

/-- Every disposition is one of the writes. -/
theorem exists_write_of_mem_dispositions {result : CanonicalizationResult}
    {disposition : OpenMlsCanonicalizationDisposition}
    (h : disposition ∈ openmlsCanonicalizationDispositions result) :
    ∃ write ∈ dispositionWrites result, disposition.messageId = write.1 ∧
      disposition.state = write.2.1 := by
  obtain ⟨⟨id, value⟩, hentry, rfl⟩ := mem_map.mp h
  rcases exists_write_of_getElem? (ExtTreeMap.mem_toList_iff_getElem?_eq_some.mp hentry) with
    hempty | hwrite
  · rw [ExtTreeMap.getElem?_empty] at hempty
    cases hempty
  · exact ⟨(id, value), hwrite, rfl, rfl⟩

/-- An update leaves a row as it is or gives it the state of its disposition. -/
theorem mem_updateMessageState {rows : List MessageRecord} {record : MessageRecord}
    {disposition : OpenMlsCanonicalizationDisposition}
    (h : record ∈ updateMessageState rows disposition) :
    ∃ old ∈ rows, ∃ state, record = { old with state := state } ∧
      (state = old.state ∨ state = disposition.state ∧ old.id = disposition.messageId) := by
  obtain ⟨old, hold, rfl⟩ := mem_map.mp h
  split
  · rename_i hid
    exact ⟨old, hold, disposition.state, rfl, .inr ⟨rfl, hid⟩⟩
  · exact ⟨old, hold, old.state, rfl, .inl rfl⟩

/-- A pass that invalidates nothing leaves to the next one every row it does not drop.
`Gone` says which rows are out of the game: those that are dropped, and perhaps some
that were so before. -/
theorem rows_of_result {rows : List MessageRecord} {result : CanonicalizationResult}
    {Gone : MessageRecord → Prop}
    (hgone : ∀ record state, Gone record → Gone { record with state := state })
    (hinvalidated : result.invalidatedAppMessages = [])
    (hdropped : ∀ record ∈ rows,
      record.id ∈ result.droppedMessages.map DroppedMessage.messageId → Gone record)
    (hrows : ∀ record ∈ rows,
      recordStateCanContributeToOpenmlsGraph record.state = true ∨ Gone record) :
    ∀ record ∈ persistOpenmlsCanonicalizationDispositions rows result,
      recordStateCanContributeToOpenmlsGraph record.state = true ∨ Gone record := by
  have hstates : ∀ disposition ∈ openmlsCanonicalizationDispositions result,
      recordStateCanContributeToOpenmlsGraph disposition.state = true ∨
        disposition.messageId ∈ result.droppedMessages.map DroppedMessage.messageId := by
    intro disposition hmem
    obtain ⟨write, hwrite, hid, hstate⟩ := exists_write_of_mem_dispositions hmem
    rw [dispositionWrites, hinvalidated, map_nil, append_nil, append_assoc] at hwrite
    rw [hid, hstate]
    rcases mem_append.mp hwrite with hwrite | hwrite
    · obtain ⟨dropped, hdropped, rfl⟩ := mem_map.mp hwrite
      exact .inr (mem_map_of_mem hdropped)
    · refine .inl ?_
      rcases mem_append.mp hwrite with hwrite | hwrite
      · obtain ⟨deferred, -, rfl⟩ := mem_map.mp hwrite
        rfl
      · obtain ⟨accepted, -, rfl⟩ := mem_map.mp hwrite
        rfl
  rw [persistOpenmlsCanonicalizationDispositions]
  generalize openmlsCanonicalizationDispositions result = dispositions at hstates
  induction dispositions generalizing rows with
  | nil => exact hrows
  | cons disposition dispositions ih =>
    refine ih ?_ ?_ fun d hd => hstates d (mem_cons_of_mem _ hd)
    · intro record hrecord hid
      obtain ⟨old, hold, state, rfl, -⟩ := mem_updateMessageState hrecord
      exact hgone old state (hdropped old hold hid)
    · intro record hrecord
      obtain ⟨old, hold, state, rfl, rfl | ⟨rfl, hid⟩⟩ := mem_updateMessageState hrecord
      · exact hrows old hold
      · refine (hstates disposition mem_cons_self).imp_right fun hmem => ?_
        exact hgone old _ (hdropped old hold (hid ▸ hmem))

theorem mem_noteDropped {noted : List DroppedMessage} {dropped : DroppedMessage} {id : String}
    (h : id ∈ (noteDropped noted dropped).map DroppedMessage.messageId) :
    id ∈ noted.map DroppedMessage.messageId ∨ id = dropped.messageId := by
  induction noted with
  | nil => exact .inr (mem_singleton.mp h)
  | cons existing rest ih =>
    rw [noteDropped] at h
    split at h
    · exact .inl h
    · rcases mem_cons.mp h with heq | h
      · exact .inl (mem_cons.mpr (.inl heq))
      · exact (ih h).imp_left (mem_cons_of_mem _)

/-- Only what is dropped is among the dropped messages. -/
theorem mem_appendDroppedMessages {result : CanonicalizationResult}
    {droppedMessages : List DroppedMessage} {id : String}
    (h : id ∈ (appendDroppedMessages result droppedMessages).droppedMessages.map
      DroppedMessage.messageId) :
    id ∈ result.droppedMessages.map DroppedMessage.messageId ∨
      id ∈ droppedMessages.map DroppedMessage.messageId := by
  rw [appendDroppedMessages, ((sortBy_perm _ _).map _).mem_iff] at h
  revert h
  refine foldlRecOn
    (motive := fun noted => id ∈ map DroppedMessage.messageId noted → _) _ _ .inl ?_
  intro noted ih dropped hdropped hmem
  rcases mem_noteDropped hmem with hmem | rfl
  · exact ih hmem
  · exact .inr (mem_map_of_mem (mem_of_mem_filter hdropped))

end Mdk
