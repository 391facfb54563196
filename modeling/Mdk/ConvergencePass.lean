/-
Durable convergence passes (`distributed_convergence.rs`, with the inputs of
`convergence_input.rs` and the record of `traits/src/convergence_pass.rs`).

A pass collects the stored messages that can take part in the next resolution.  It is
opened by a message that needs one, takes further messages until its cutoff, is frozen,
resolved and completed.  The cutoff lives in two clocks: monotonic deadlines schedule
the running process, wall deadlines are what a restart rebases them from.

What the operations read besides the pass is `GroupView`; it changes between
operations in any way.
-/
import Mdk.StoredInputs

open Std (ExtTreeMap ExtTreeSet)

namespace Mdk

/-! ### The record -/

inductive ConvergencePassPhase where
  | collecting
  | frozen
  | resolving
  | completed
deriving DecidableEq, Repr

def ConvergencePassPhase.isActive : ConvergencePassPhase → Bool
  | collecting | frozen | resolving => true
  | completed => false

inductive ConvergenceCutoffCause where
  | quiescence
  | absoluteDeadline
  | clockDiscontinuity
deriving DecidableEq, Repr

inductive ConvergencePassMemberRole where
  | commitEdge
  | proposalDependency
  | appWitnessCandidate
deriving DecidableEq, Repr

structure ConvergencePassMember where
  messageId : String
  payloadDigest : Digest
  role : ConvergencePassMemberRole
  sourceEpoch : UInt64
deriving DecidableEq, Repr

structure DurableConvergencePass where
  groupId : GroupId
  generation : UInt64
  phase : ConvergencePassPhase
  baseEpoch : EpochId
  clockInstanceId : UInt64
  openedMonotonicMs : UInt64
  quiescenceDeadlineMonotonicMs : UInt64
  absoluteDeadlineMonotonicMs : UInt64
  openedWallMs : UInt64
  quiescenceDeadlineWallMs : UInt64
  absoluteDeadlineWallMs : UInt64
  members : List ConvergencePassMember
  frozenAtWallMs : Option UInt64
  cutoffCause : Option ConvergenceCutoffCause
  fairnessSlotAvailable : Bool
deriving DecidableEq, Repr

variable (pass : DurableConvergencePass)

def DurableConvergencePass.isActive : Bool := pass.phase.isActive

def DurableConvergencePass.cutoffMonotonicMs : UInt64 :=
  min pass.quiescenceDeadlineMonotonicMs pass.absoluteDeadlineMonotonicMs

structure ConvergenceTime where
  monotonicMs : UInt64
  wallMs : UInt64
deriving DecidableEq, Repr

/-! ### Inputs -/

def roleForContentKind : OpenMlsContentKind → Option ConvergencePassMemberRole
  | .commit => some .commitEdge
  | .proposal => some .proposalDependency
  | .application => some .appWitnessCandidate
  | .welcome | .other => none

structure ClassifiedConvergenceInput where
  role : ConvergencePassMemberRole
  sourceEpoch : UInt64
  state : MessageState
  digest : Digest
deriving DecidableEq, Repr

def ClassifiedConvergenceInput.fromProjection (kind : OpenMlsContentKind) (sourceEpoch : UInt64)
    (state : MessageState) (digest : Digest) : Option ClassifiedConvergenceInput :=
  (roleForContentKind kind).map fun role => ⟨role, sourceEpoch, state, digest⟩

def passOpeningStates : List MessageState := [.sent, .created, .retryable]

def ClassifiedConvergenceInput.canStartPass (input : ClassifiedConvergenceInput) : Bool :=
  passOpeningStates.contains input.state

structure ConvergenceInputContext where
  commitEdgesBySourceEpoch : ExtTreeMap UInt64 (ExtTreeSet Digest) := ∅

namespace ConvergenceInputContext

variable (context : ConvergenceInputContext)

/-- `entry(source_epoch).or_default().insert(digest)` for a commit edge. -/
def add (role : ConvergencePassMemberRole) (sourceEpoch : UInt64) (digest : Digest) :
    ConvergenceInputContext :=
  if role = .commitEdge then
    { commitEdgesBySourceEpoch := context.commitEdgesBySourceEpoch.insert sourceEpoch
        ((context.commitEdgesBySourceEpoch[sourceEpoch]?.getD ∅).insert digest) }
  else context

def fromInputs (inputs : List ClassifiedConvergenceInput) : ConvergenceInputContext :=
  inputs.foldl (fun context input => context.add input.role input.sourceEpoch input.digest) {}

def fromPassMembers (members : List ConvergencePassMember) : ConvergenceInputContext :=
  members.foldl
    (fun context member => context.add member.role member.sourceEpoch member.payloadDigest) {}

def hasCompetingCommitBefore (sourceEpoch : UInt64) : Bool :=
  context.commitEdgesBySourceEpoch.toList.any fun edges =>
    decide (edges.1 < sourceEpoch) && decide (1 < edges.2.size)

def hasCommitAt (sourceEpoch : UInt64) : Bool :=
  context.commitEdgesBySourceEpoch[sourceEpoch]?.any fun edges => !edges.isEmpty

def isPotentiallySelectionRelevant (input : ClassifiedConvergenceInput) : Bool :=
  match input.role with
  | .commitEdge => true
  | .proposalDependency => context.hasCommitAt input.sourceEpoch
  | .appWitnessCandidate => context.hasCompetingCommitBefore input.sourceEpoch

def opensPass (input : ClassifiedConvergenceInput) : Bool :=
  input.canStartPass &&
    match input.role with
    | .commitEdge => true
    | .proposalDependency => false
    | .appWitnessCandidate => context.hasCompetingCommitBefore input.sourceEpoch

def activePassMemberGatesOutbound (member : ConvergencePassMember) : Bool :=
  match member.role with
  | .commitEdge => true
  | .proposalDependency => false
  | .appWitnessCandidate => context.hasCompetingCommitBefore member.sourceEpoch

end ConvergenceInputContext

/-- The scan for two commit edges of one epoch before `sourceEpoch`, with the first
digest seen of each epoch. -/
def scanCompeting (sourceEpoch : UInt64) :
    ExtTreeMap UInt64 Digest → List ConvergencePassMember → Bool
  | _, [] => false
  | firstDigestByEpoch, member :: members =>
    if member.role ≠ .commitEdge ∨ sourceEpoch ≤ member.sourceEpoch then
      scanCompeting sourceEpoch firstDigestByEpoch members
    else
      match firstDigestByEpoch[member.sourceEpoch]? with
      | none =>
        scanCompeting sourceEpoch
          (firstDigestByEpoch.insert member.sourceEpoch member.payloadDigest) members
      | some first =>
        if first ≠ member.payloadDigest then true
        else scanCompeting sourceEpoch firstDigestByEpoch members

def scanSelectionRelevance (members : List ConvergencePassMember)
    (input : ClassifiedConvergenceInput) : Bool :=
  match input.role with
  | .commitEdge => true
  | .proposalDependency => members.any fun member =>
      decide (member.role = .commitEdge) && decide (member.sourceEpoch = input.sourceEpoch)
  | .appWitnessCandidate => scanCompeting input.sourceEpoch ∅ members

def convergencePassGatesOutbound : Bool :=
  let context := ConvergenceInputContext.fromPassMembers pass.members
  pass.members.any context.activePassMemberGatesOutbound

/-! ### What the operations read besides the pass -/

structure DisbandCandidate where
  commitId : String
  contentCommitId : String
deriving DecidableEq, Repr

/-- The variants of `SendIntent`. -/
inductive SendIntent where
  | appMessage
  | invite
  | removeMembers
  | leave
  | selfUpdate
  | updateAppComponents
  | updateGroupData
  | enableDisbanding
  | disband
deriving DecidableEq, Repr

def isAdminGroupStateIntent : SendIntent → Bool
  | .invite | .removeMembers | .updateAppComponents | .updateGroupData | .enableDisbanding
  | .disband => true
  | .appMessage | .leave | .selfUpdate => false

/-- The rest of the engine and its storage, as far as it concerns one group. -/
structure GroupView where
  rows : List MessageRecord
  /-- Rows are stored under their ids. -/
  rows_nodup : (rows.map MessageRecord.id).Nodup
  epochState : Option EpochState
  groupEpoch : EpochId
  unrecoverable : Bool
  quarantined : Bool
  deferredPeelGeneration : Bool
  pendingCanonicalApplications : Bool
  disbandCandidates : List DisbandCandidate
  queuedOutboundIntents : List SendIntent

namespace GroupView

variable (view : GroupView)

/-- `convergence_tip_epoch`. -/
def tip : EpochId :=
  match view.epochState with
  | some state => state.epoch
  | none => view.groupEpoch

def admissionAllowed : Bool :=
  match view.epochState with
  | some (.stable _) => true
  | _ => false

/-- The early returns of `converge_stored_openmls_messages_with_deadline`. -/
def convergenceHeld : Bool :=
  view.quarantined || view.unrecoverable || view.deferredPeelGeneration

/-- `mark_group_unrecoverable_for_frozen_pass`. -/
def markUnrecoverable : GroupView :=
  { view with
    unrecoverable := true
    epochState := some (view.epochState.getD (.stable 0)).toUnrecoverable }

variable (codec : WireCodec) (groupId : GroupId) (retainedAnchorEpoch : UInt64)
  (record : MessageRecord)

/-- The row is a parked commit from before the retained window. -/
def isStaleDeferredCommit : Bool :=
  decide (record.groupId = groupId) && decide (record.state = .convergenceDeferred) &&
    match codec.decode record.payload with
    | .error _ => false
    | .ok payload =>
      match payload.asOpenmlsWire with
      | none => false
      | some message =>
        match projectMlsMessage codec message.payload with
        | .error _ => false
        | .ok projection =>
          match projection.sourceEpoch with
          | none => false
          | some sourceEpoch =>
            decide (projection.kind = .commit) && decide (sourceEpoch < retainedAnchorEpoch)

def retireRow : MessageRecord :=
  if isStaleDeferredCommit codec groupId retainedAnchorEpoch record then
    { record with state := .epochInvalidated }
  else record

theorem retireRow_id : (retireRow codec groupId retainedAnchorEpoch record).id = record.id := by
  rw [retireRow]
  split
  · rfl
  · rfl

def retireStaleConvergenceDeferredCommits (view : GroupView) (retainedAnchorEpoch : UInt64) :
    GroupView :=
  { view with
    rows := view.rows.map (retireRow codec groupId retainedAnchorEpoch)
    rows_nodup := by
      have hids : MessageRecord.id ∘ retireRow codec groupId retainedAnchorEpoch =
          MessageRecord.id := funext (retireRow_id codec groupId retainedAnchorEpoch)
      rw [List.map_map, hids]
      exact view.rows_nodup }

end GroupView

/-! ### Members -/

section Operations

variable (codec : WireCodec) (groupId : GroupId) (policy : CanonicalizationPolicy)

/-- The epochs around `baseEpoch` that a pass admits. -/
def withinHorizon (baseEpoch sourceEpoch : UInt64) : Bool :=
  decide (baseEpoch.saturatingSub policy.convergence.maxRewindCommits ≤ sourceEpoch) &&
    decide (sourceEpoch ≤ baseEpoch.saturatingAdd policy.convergence.maxRewindCommits)

/-- The member a stored record gives, with its classification: the common part of
seeding and of `convergence_pass_candidate`. -/
def convergencePassCandidate (record : MessageRecord) :
    Except OpenMlsProjectionError (Option (ConvergencePassMember × ClassifiedConvergenceInput)) :=
  match codec.decode record.payload with
  | .error err => .error (.serialize err)
  | .ok payload =>
    match payload.asOpenmlsWire with
    | none => .ok none
    | some message =>
      match projectMlsMessage codec message.payload with
      | .error err => .error err
      | .ok projection =>
        match projection.sourceEpoch with
        | none => .ok none
        | some sourceEpoch =>
          .ok ((ClassifiedConvergenceInput.fromProjection projection.kind sourceEpoch
            record.state projection.messageDigest).map fun input =>
              (⟨record.id, projection.messageDigest, input.role, sourceEpoch⟩, input))

/-- The rows of the window, projected in their order. -/
def projectWindow (baseEpoch : UInt64) :
    List MessageRecord →
      Except OpenMlsProjectionError (List (ConvergencePassMember × ClassifiedConvergenceInput))
  | [] => .ok []
  | record :: records =>
    match convergencePassCandidate codec record with
    | .error err => .error err
    | .ok candidate =>
      match projectWindow baseEpoch records with
      | .error err => .error err
      | .ok projected =>
        .ok ((candidate.toList.filter fun c => withinHorizon policy baseEpoch c.1.sourceEpoch) ++
          projected)

variable (view : GroupView)

def candidateIds : List String :=
  view.disbandCandidates.flatMap fun candidate => [candidate.commitId, candidate.contentCommitId]

def hasTrigger (projected : List (ConvergencePassMember × ClassifiedConvergenceInput)) : Bool :=
  let context := ConvergenceInputContext.fromInputs (projected.map Prod.snd)
  (projected.any fun c => (candidateIds view).contains c.1.messageId) ||
    projected.any fun c => context.opensPass c.2

def seedConvergencePassMembers (baseEpoch : EpochId) :
    GroupView × Except OpenMlsProjectionError (List ConvergencePassMember × Bool) :=
  let floor := baseEpoch.saturatingSub policy.convergence.maxRewindCommits
  let view := view.retireStaleConvergenceDeferredCommits codec groupId floor
  if (candidateIds view).isEmpty &&
      (listMessagesInStates view.rows groupId passOpeningStates floor).isEmpty then
    (view, .ok ([], false))
  else
    match projectWindow codec policy baseEpoch
        (listMessagesInStates view.rows groupId openmlsGraphInputStates floor) with
    | .error err => (view, .error err)
    | .ok projected => (view, .ok (projected.map Prod.fst, hasTrigger view projected))

/-! ### The operations -/

/-- The engine of one group: its pass, the clock instance of the process, and the
rest. -/
structure PassEngine where
  pass : Option DurableConvergencePass
  clockInstanceId : UInt64
  view : GroupView

/-- `normalize_convergence_pass_for_runtime`; the flag asks for a write. -/
def normalizeConvergencePassForRuntime (pass : DurableConvergencePass) (now : ConvergenceTime)
    (clockInstanceId : UInt64) : DurableConvergencePass × Bool :=
  if pass.phase ≠ .collecting ∨ pass.clockInstanceId = clockInstanceId then (pass, false)
  else
    -- A wall clock from before the opening makes the cutoff due at once.
    let backwards := decide (now.wallMs < pass.openedWallMs)
    let quiescenceRemaining :=
      if backwards then 0 else pass.quiescenceDeadlineWallMs.saturatingSub now.wallMs
    let absoluteRemaining :=
      if backwards then 0 else pass.absoluteDeadlineWallMs.saturatingSub now.wallMs
    ({ pass with
        clockInstanceId := clockInstanceId
        openedMonotonicMs :=
          now.monotonicMs.saturatingSub (now.wallMs.saturatingSub pass.openedWallMs)
        quiescenceDeadlineMonotonicMs := now.monotonicMs.saturatingAdd quiescenceRemaining
        absoluteDeadlineMonotonicMs := now.monotonicMs.saturatingAdd absoluteRemaining }, true)

/-- The record a pass is opened with. -/
def openedPass (clockInstanceId : UInt64) (generation : UInt64) (baseEpoch : EpochId)
    (now : ConvergenceTime) (members : List ConvergencePassMember) : DurableConvergencePass where
  groupId := groupId
  generation := generation
  phase := .collecting
  baseEpoch := baseEpoch
  clockInstanceId := clockInstanceId
  openedMonotonicMs := now.monotonicMs
  quiescenceDeadlineMonotonicMs := now.monotonicMs.saturatingAdd policy.settlementQuiescenceMs
  absoluteDeadlineMonotonicMs := now.monotonicMs.saturatingAdd policy.maxConvergencePassMs
  openedWallMs := now.wallMs
  quiescenceDeadlineWallMs := now.wallMs.saturatingAdd policy.settlementQuiescenceMs
  absoluteDeadlineWallMs := now.wallMs.saturatingAdd policy.maxConvergencePassMs
  members := members
  frozenAtWallMs := none
  cutoffCause := none
  fairnessSlotAvailable := false

namespace PassEngine

variable (engine : PassEngine)

/-- The end of `load_or_open_convergence_pass`: seed, and open if there is a trigger. -/
def openConvergencePass (previous : Option DurableConvergencePass) (baseEpoch : EpochId)
    (now : ConvergenceTime) :
    PassEngine × Except OpenMlsProjectionError (Option DurableConvergencePass × Bool) :=
  if !engine.view.admissionAllowed then (engine, .ok (none, false))
  else
    match seedConvergencePassMembers codec groupId policy engine.view baseEpoch with
    | (view, .error err) => ({ engine with view }, .error err)
    | (view, .ok (members, trigger)) =>
      if members.isEmpty || !trigger then ({ engine with view }, .ok (none, false))
      else
        let generation := match previous with
          | none => 0
          | some pass => pass.generation.saturatingAdd 1
        let pass :=
          openedPass groupId policy engine.clockInstanceId generation baseEpoch now members
        ({ engine with view, pass := some pass }, .ok (some pass, true))

def loadOrOpenConvergencePass (baseEpoch : EpochId) (now : ConvergenceTime) :
    PassEngine × Except OpenMlsProjectionError (Option DurableConvergencePass × Bool) :=
  match engine.pass with
  | none => engine.openConvergencePass codec groupId policy none baseEpoch now
  | some pass =>
    if pass.phase = .completed ∧ pass.fairnessSlotAvailable = true then
      if engine.view.queuedOutboundIntents.any isAdminGroupStateIntent then
        (engine, .ok (some pass, false))
      else
        let consumed := { pass with fairnessSlotAvailable := false }
        { engine with pass := some consumed }.openConvergencePass codec groupId policy (some pass)
          baseEpoch now
    else if pass.isActive then
      if pass.baseEpoch ≠ baseEpoch then
        -- `discard_stale_convergence_pass`
        { engine with pass := none }.openConvergencePass codec groupId policy (some pass)
          baseEpoch now
      else
        let (pass, rebased) :=
          normalizeConvergencePassForRuntime pass now engine.clockInstanceId
        (if rebased then { engine with pass := some pass } else engine, .ok (some pass, false))
    else engine.openConvergencePass codec groupId policy (some pass) baseEpoch now

/-- `prepare_convergence_cutoff_delay_ms`: the delay, and whether a pass was opened. -/
def prepareConvergenceCutoffDelayMs (now : ConvergenceTime) :
    PassEngine × Except OpenMlsProjectionError (Option UInt64 × Bool) :=
  if engine.view.quarantined then (engine, .ok (none, false))
  else
    match engine.loadOrOpenConvergencePass codec groupId policy engine.view.tip now with
    | (engine, .error err) => (engine, .error err)
    | (engine, .ok (pass, opened)) =>
      let idle := if engine.view.pendingCanonicalApplications then some 0 else none
      let delay := match pass with
        | some pass =>
          if pass.phase = .collecting then
            some (pass.cutoffMonotonicMs.saturatingSub now.monotonicMs)
          else if pass.isActive then some 0
          else idle
        | none => idle
      (engine, .ok (delay, opened))

end PassEngine

def freezeCollectingConvergencePass (pass : DurableConvergencePass) (now : ConvergenceTime) :
    DurableConvergencePass :=
  { pass with
    phase := .frozen
    frozenAtWallMs := some now.wallMs
    cutoffCause := some <|
      if now.wallMs < pass.openedWallMs then .clockDiscontinuity
      else if pass.absoluteDeadlineMonotonicMs ≤ pass.quiescenceDeadlineMonotonicMs then
        .absoluteDeadline
      else .quiescence }

/-- The stored record is what the member was admitted from. -/
def verifyFrozenPassMember (rows : List MessageRecord) (member : ConvergencePassMember) : Bool :=
  match getMessage rows member.messageId with
  | .error _ => false
  | .ok record =>
    match codec.decode record.payload with
    | .error _ => false
    | .ok payload =>
      match payload.asOpenmlsWire with
      | none => false
      | some message =>
        decide (codec.messageDigest message.payload = member.payloadDigest) &&
          match projectMlsMessage codec message.payload with
          | .error _ => false
          | .ok projection =>
            decide (roleForContentKind projection.kind = some member.role) &&
              decide (projection.sourceEpoch = some member.sourceEpoch)

def verifyFrozenPassMembers (rows : List MessageRecord) (pass : DurableConvergencePass) : Bool :=
  pass.members.all (verifyFrozenPassMember codec rows)

inductive ConvergenceAdmissionOutcome where
  | retained
  | admitted
  | frozen
  | frozenIntegrityFailure
deriving DecidableEq, Repr

/-- The pass after the admission of a member. -/
def admitMember (pass : DurableConvergencePass) (member : ConvergencePassMember)
    (input : ClassifiedConvergenceInput) (now : ConvergenceTime) : DurableConvergencePass :=
  let relevant := scanSelectionRelevance pass.members input
  let pass := { pass with members := pass.members ++ [member] }
  if relevant then
    { pass with
      quiescenceDeadlineMonotonicMs := now.monotonicMs.saturatingAdd policy.settlementQuiescenceMs
      quiescenceDeadlineWallMs := now.wallMs.saturatingAdd policy.settlementQuiescenceMs }
  else pass

namespace PassEngine

variable (engine : PassEngine)

/-- The part of an admission that follows the load of a collecting pass. -/
def admitToCollectingPass (pass : DurableConvergencePass) (messageId : String)
    (now : ConvergenceTime) :
    PassEngine × Except OpenMlsProjectionError ConvergenceAdmissionOutcome :=
  if pass.members.any fun member => decide (member.messageId = messageId) then
    (engine, .ok .retained)
  else if pass.cutoffMonotonicMs ≤ now.monotonicMs then
    let frozen := freezeCollectingConvergencePass pass now
    ({ engine with pass := some frozen },
      .ok (if verifyFrozenPassMembers codec engine.view.rows frozen then .frozen
        else .frozenIntegrityFailure))
  else
    match getMessage engine.view.rows messageId with
    | .error err => (engine, .error err)
    | .ok record =>
      match convergencePassCandidate codec record with
      | .error err => (engine, .error err)
      | .ok none => (engine, .ok .retained)
      | .ok (some (member, input)) =>
        if !withinHorizon policy pass.baseEpoch input.sourceEpoch then (engine, .ok .retained)
        else
          ({ engine with pass := some (admitMember policy pass member input now) },
            .ok .admitted)

def admitStoredMessageToConvergencePass (messageId : String) (now : ConvergenceTime) :
    PassEngine × Except OpenMlsProjectionError (ConvergenceAdmissionOutcome × Bool) :=
  if !engine.view.admissionAllowed then (engine, .ok (.retained, false))
  else if engine.view.quarantined then (engine, .error .missingGroup)
  else
    match engine.loadOrOpenConvergencePass codec groupId policy engine.view.tip now with
    | (engine, .error err) => (engine, .error err)
    | (engine, .ok (none, opened)) => (engine, .ok (.retained, opened))
    | (engine, .ok (some pass, opened)) =>
      if pass.phase ≠ .collecting then (engine, .ok (.retained, opened))
      else
        match engine.admitToCollectingPass codec policy pass messageId now with
        | (engine, .error err) => (engine, .error err)
        | (engine, .ok outcome) => (engine, .ok (outcome, opened))

/-- The transaction of `buffer_openmls_convergence_message_with_time` around an
admission: an error undoes it, an integrity failure halts the group. -/
def bufferConvergenceMessage (messageId : String) (now : ConvergenceTime) :
    PassEngine × Except OpenMlsProjectionError (ConvergenceAdmissionOutcome × Bool) :=
  match engine.admitStoredMessageToConvergencePass codec groupId policy messageId now with
  | (_, .error err) => (engine, .error err)
  | (admitted, .ok (outcome, opened)) =>
    (if outcome = .frozenIntegrityFailure then
        { admitted with view := admitted.view.markUnrecoverable }
      else admitted, .ok (outcome, opened))

end PassEngine

/-- How the resolution of a frozen batch ends.  What it does to the rows and to the tip
is a change of the view. -/
inductive Resolution where
  | sliceExhausted
  | failed (err : OpenMlsProjectionError)
  | missingRetainedState
  | blocked
  | applied
deriving DecidableEq, Repr

namespace PassEngine

variable (engine : PassEngine)

/-- `Frozen | Resolving` to `Completed`. -/
def resolveFrozenPass (pass : DurableConvergencePass) (resolution : Resolution) :
    PassEngine × Except OpenMlsProjectionError Unit :=
  let resolving := { pass with phase := .resolving }
  let engine := { engine with pass := some resolving }
  match resolution with
  | .sliceExhausted => (engine, .ok ())
  | .failed err => (engine, .error err)
  | .missingRetainedState => ({ engine with view := engine.view.markUnrecoverable }, .ok ())
  | .blocked =>
    ({ engine with
        pass := some { resolving with phase := .completed, fairnessSlotAvailable := false } },
      .ok ())
  | .applied =>
    ({ engine with
        pass := some { resolving with phase := .completed, fairnessSlotAvailable := true } },
      .ok ())

/-- The pass that `converge_stored_openmls_messages` has loaded, on its way through the
phases. -/
def advanceLoadedPass (pass : DurableConvergencePass) (now : ConvergenceTime)
    (resolution : Resolution) : PassEngine × Except OpenMlsProjectionError Unit :=
  match pass.phase with
  | .collecting =>
    if now.monotonicMs < pass.cutoffMonotonicMs then (engine, .ok ())
    else
      let frozen := freezeCollectingConvergencePass pass now
      -- The freeze is stored only if the members verify.
      if verifyFrozenPassMembers codec engine.view.rows frozen then
        { engine with pass := some frozen }.resolveFrozenPass frozen resolution
      else ({ engine with view := engine.view.markUnrecoverable }, .ok ())
  | .frozen | .resolving =>
    if verifyFrozenPassMembers codec engine.view.rows pass then
      engine.resolveFrozenPass pass resolution
    else ({ engine with view := engine.view.markUnrecoverable }, .ok ())
  | .completed => (engine, .ok ())

/-- `converge_stored_openmls_messages_with_deadline`, as far as the pass goes.  The
result says whether a pass was opened, and carries the error of the resolution. -/
def convergeStoredOpenmlsMessages (now : ConvergenceTime) (resolution : Resolution) :
    PassEngine × Except OpenMlsProjectionError (Bool × Except OpenMlsProjectionError Unit) :=
  if engine.view.convergenceHeld then (engine, .ok (false, .ok ()))
  else
    match engine.loadOrOpenConvergencePass codec groupId policy engine.view.tip now with
    | (engine, .error err) => (engine, .error err)
    | (engine, .ok (none, opened)) => (engine, .ok (opened, .ok ()))
    | (engine, .ok (some pass, opened)) =>
      let (engine, result) := engine.advanceLoadedPass codec pass now resolution
      (engine, .ok (opened, result))

/-- `consume_convergence_fairness_slot`. -/
def consumeConvergenceFairnessSlot : PassEngine :=
  { engine with pass := engine.pass.map fun pass => { pass with fairnessSlotAvailable := false } }

end PassEngine

end Operations

end Mdk
