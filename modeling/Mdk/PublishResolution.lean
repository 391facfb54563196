/-
Confirming and failing a publication, `crates/cgka-engine/src/publish.rs`.

A staged commit is merged only once the transport has accepted it.  Confirming makes
every durable change in one transaction, between two snapshots of the group, and moves
the in-memory state machine last; failing clears the staged commit and rewrites the
record the same way.  Where a fanout drives the publication, its MLS half is written
in the same transaction.

OpenMLS, the stored encodings and what follows the transition (replaying the buffered
messages) are the parameter `PublishEnv`.
-/
import Mdk.EngineStorage

namespace Mdk

open StoreProgram StoreProgram.Program EngineStorage

/-! ### Environment -/

/-- The errors of `EngineError` the publish paths return.  `loadConvergencePolicy` and
`retainAnchor` are backend errors, `serializeProjection` a serialization error, whose
text is built from the error they carry. -/
inductive PublishError where
  | engine (e : EngineError)
  | groupNotHydrated (groupId : GroupId)
  | storage (e : StorageError)
  | backend (text : String)
  | loadConvergencePolicy (e : OpenMlsProjectionError)
  | retainAnchor (e : OpenMlsProjectionError)
  | serialize (text : String)
  | serializeProjection (e : OpenMlsProjectionError)
  | invalidAccountIdentityProof (text : String)
  | other (text : String)
deriving DecidableEq, Repr

/-- What the engine reads off a leaf: the profile its identity proof names, its
capabilities and the identity of its credential. -/
structure LeafReading where
  profile : Except PublishError ProtocolProfile
  capabilities : GroupCapabilities
  identity : Except PublishError MemberId

/-- What the publish paths are given: the device's identity, OpenMLS over loaded groups
`G` and staged commits `C`, the stored encodings, and what runs after a transition. -/
structure PublishEnv (G C : Type) where
  selfId : MemberId
  maintenance : Bool
  -- OpenMLS
  epoch : G → EpochId
  epochAuthenticator : G → String
  pendingCommit : G → Option C
  mergePendingCommit : G → Except String G
  clearPendingCommit : G → Except String G
  clearPendingProposals : G → Except String G
  members : G → List Member
  ownLeaf : G → Option LeafReading
  protocolProfile : G → Except PublishError ProtocolProfile
  requiredExtensionTypes : G → Finset UInt16
  requiredProposalTypes : G → Finset UInt16
  requiredAppComponents : G → Option (Finset UInt16)
  groupProfile : G → Except String (Option (String × String))
  validateCurrentProfileGroupInvariants : G → Except PublishError Unit
  -- the reference of a message that the group accepts as a public proposal
  publicProposalRef : G → List UInt8 → Option (Except String String)
  addProposals : C → List LeafReading
  commitOrderingPriority : C → CommitOrderingPriority
  proposalRefs : C → Except String (List String)
  selfRemoveOnly : C → Bool
  -- stored encodings
  codec : WireCodec
  encode : StoredMessagePayload → Except String (List UInt8)
  hexDigest : Digest → String
  -- the rewind bound of the stored policy, or of the default one
  maxRewindCommits : Option (List UInt8) → Except OpenMlsProjectionError UInt64
  -- what runs once the state machine has moved
  replayBufferedMessages : GroupId → EngineProgram G PublishError Unit
  restoreSelfRemoveAutoCommitSchedules : GroupId → EpochId → EngineProgram G PublishError Unit
  merge_clears : ∀ {group merged : G}, mergePendingCommit group = .ok merged →
    pendingCommit merged = none

variable {G C : Type}

/-- A storage call inside an engine function. -/
def fromStorage {α : Type} (p : EngineProgram G StorageError α) : EngineProgram G PublishError α :=
  mapError .storage p

def ensureGroupLive (engine : Engine G) (groupId : GroupId) : Except PublishError Unit :=
  if groupId ∈ engine.quarantinedGroups then .error (.engine (.unknownGroup groupId))
  else if groupId ∈ engine.unhydratedGroups then .error (.groupNotHydrated groupId)
  else .ok ()

/-- The memory of the engine, read without a storage call. -/
def readEngine {ε : Type} : EngineProgram G ε (Engine G) := internal fun engine => (engine, engine)

/-! ### Retained anchors -/

def retainedAnchorSnapshotName (epoch : EpochId) : String :=
  "openmls-retained-anchor-" ++ toString epoch.toNat

/-- A decimal number of at most 64 bits, as `u64::from_str` reads it: a sign `+` is allowed. -/
def parseDecimal (text : List Char) : Option UInt64 :=
  let digits := if text.head? = some '+' then text.tail else text
  if digits.isEmpty then none
  else
    (digits.foldl (fun value digit => value.bind fun n =>
      if '0' ≤ digit ∧ digit ≤ '9' then some (n * 10 + (digit.toNat - '0'.toNat)) else none)
      (some 0)).bind fun n => if n < 2 ^ 64 then some (UInt64.ofNat n) else none

def retainedAnchorEpochFromSnapshotName (name : String) : Option UInt64 :=
  ("openmls-retained-anchor-".toList.isPrefixOf? name.toList).bind parseDecimal

def oldestRetainedEpoch (retainedEpoch : EpochId) (maxRetainedAnchorRewind : UInt64) : UInt64 :=
  retainedEpoch.saturatingSub maxRetainedAnchorRewind

/-- A release for which a missing row is as good as a released one. -/
def releaseTolerant (p : EngineProgram G StorageError Unit) :
    EngineProgram G OpenMlsProjectionError Unit := do
  match ← attempt p with
  | .ok _ => pure ()
  | .error (.snapshotMissing _) => pure ()
  | .error e => raise (.snapshot e.debugText)

def pruneRetainedAnchorSnapshots (groupId : GroupId) (oldestRetainedEpoch : UInt64) :
    EngineProgram G OpenMlsProjectionError Unit := do
  let snapshots ← mapError (fun e => .storage e.debugText)
    (EngineStorage.listGroupSnapshots groupId)
  snapshots.forM fun snapshot =>
    match retainedAnchorEpochFromSnapshotName snapshot with
    | none => pure ()
    | some epoch =>
      if oldestRetainedEpoch ≤ epoch then pure ()
      else releaseTolerant (EngineStorage.releaseGroupSnapshot groupId snapshot)

def pruneGroupStateCheckpoints (groupId : GroupId) (oldestRetainedEpoch : UInt64) :
    EngineProgram G OpenMlsProjectionError Unit := do
  let checkpoints ← mapError (fun e => .storage e.debugText)
    (listGroupStateCheckpoints groupId)
  checkpoints.forM fun checkpoint =>
    if oldestRetainedEpoch ≤ checkpoint.2 then pure ()
    else releaseTolerant (releaseGroupStateCheckpoint groupId checkpoint.1)

def retainCurrentGroupEpochSnapshot (groupId : GroupId) (maxRetainedAnchorRewind : UInt64) :
    EngineProgram G OpenMlsProjectionError Unit := do
  let group ← mapError (fun e => .storage e.debugText) (getGroup groupId)
  mapError (fun e => .snapshot e.debugText)
    (EngineStorage.createGroupStateSnapshot groupId (retainedAnchorSnapshotName group.epoch))
  let oldest := oldestRetainedEpoch group.epoch maxRetainedAnchorRewind
  pruneRetainedAnchorSnapshots groupId oldest
  pruneGroupStateCheckpoints groupId oldest

variable (env : PublishEnv G C) (groupId : GroupId)

/-- The rewind bound of the group's policy, for live groups. -/
def convergencePolicyForGroup :
    EngineProgram G PublishError UInt64 := do
  let engine ← readEngine
  match ensureGroupLive engine groupId with
  | .error (.engine (.unknownGroup _)) => raise (.engine (.unknownGroup groupId))
  | .error _ => raise (.loadConvergencePolicy
      (.storage "group not hydrated yet; retry after hydration"))
  | .ok _ => pure ()
  let bytes ← mapError (fun e => .loadConvergencePolicy (.storage e.debugText))
    (convergencePolicy groupId)
  ofExcept ((env.maxRewindCommits bytes).mapError .loadConvergencePolicy)

def retainCurrentEpochSnapshotForGroup :
    EngineProgram G PublishError Unit := do
  let maxRewindCommits ← convergencePolicyForGroup env groupId
  mapError .retainAnchor (retainCurrentGroupEpochSnapshot groupId maxRewindCommits)

/-! ### The Marmot record and the capability caches -/

variable (mlsGroup : G)

def requiredCapabilitiesFromGroup : GroupCapabilities where
  extensions := env.requiredExtensionTypes mlsGroup
  proposals := env.requiredProposalTypes mlsGroup
  appComponents := (env.requiredAppComponents mlsGroup).getD ∅

/-- Signed component state that cannot be read leaves the record as it is. -/
def mirrorAppComponentsIntoRecord (record : Group) : Group :=
  let record := match env.groupProfile mlsGroup with
    | .ok (some (name, description)) => { record with name := name, description := description }
    | .ok none => { record with name := "", description := "" }
    | .error _ => record
  match env.requiredAppComponents mlsGroup with
  | some components =>
    { record with
      requiredCapabilities := { record.requiredCapabilities with appComponents := components } }
  | none => record

/-- The record of the group as OpenMLS has it now. -/
def mirrorRecord (keepMembers : Bool) (mlsGroup : G) (record : Group) : Group :=
  mirrorAppComponentsIntoRecord env mlsGroup
    { record with
      epoch := env.epoch mlsGroup
      members := if keepMembers then record.members else env.members mlsGroup
      requiredCapabilities := requiredCapabilitiesFromGroup env mlsGroup }

def rewriteRecord (keepMembers : Bool) (groupId : GroupId) (mlsGroup : G) :
    EngineProgram G PublishError Unit := do
  let record ← fromStorage (getGroup groupId)
  fromStorage (putGroup groupId (mirrorRecord env keepMembers mlsGroup record))

def cacheFromStagedCommit (staged : C) :
    EngineProgram G PublishError Unit := do
  let record ← fromStorage (getGroup groupId)
  (env.addProposals staged).forM fun leaf => do
    let leafProfile ← ofExcept leaf.profile
    if leafProfile ≠ record.protocolProfile then
      raise (.invalidAccountIdentityProof "added leaf proof profile does not match group profile")
    let id ← ofExcept leaf.identity
    fromStorage (saveMemberCapabilities groupId id leaf.capabilities)

def cacheSelfCapabilities : EngineProgram G PublishError Unit :=
  match env.ownLeaf mlsGroup with
  | none => pure ()
  | some leaf => do
    let leafProfile ← ofExcept leaf.profile
    let groupProfile ← ofExcept (env.protocolProfile mlsGroup)
    if leafProfile ≠ groupProfile then
      raise (.invalidAccountIdentityProof "own leaf proof profile does not match group profile")
    let leafId ← ofExcept leaf.identity
    if leafId ≠ env.selfId then
      raise (.backend "own_leaf_node identity does not match engine self_id")
    fromStorage (saveMemberCapabilities groupId leafId leaf.capabilities)

/-! ### The own commit and its proposals -/

/-- The ordering stamp of a staged commit; checkpoint and authenticator come later. -/
def ownCommitStamp (staged : C) : Except PublishError OwnCommitConvergenceStamp :=
  match env.proposalRefs staged with
  | .error e => .error (.serialize e)
  | .ok refs => .ok ⟨env.selfId, env.commitOrderingPriority staged,
      (Comparison.sortBy compare refs).dedup, none, none⟩

variable (messageId : String)

def ownCommitCheckpointId :
    EngineProgram G PublishError String := do
  let record ← fromStorage (EngineStorage.getMessage messageId)
  let payload ← ofExcept ((env.codec.decode record.payload).mapError .serialize)
  match payload.asOpenmlsWire with
  | none => raise (.serialize "own commit record does not contain OpenMLS wire bytes")
  | some wire =>
    match projectMlsMessage env.codec wire.payload with
    | .error e => raise (.serializeProjection e)
    | .ok projection =>
      if projection.kind ≠ .commit then raise (.serialize "own commit record is not a commit")
      else pure ("openmls-own-commit-v1-" ++ env.hexDigest projection.messageDigest)

/-- The reference a stored row has as a proposal to the group before the merge. -/
def storedProposalRef (record : MessageRecord) : Option (Except String String) :=
  match env.codec.decode record.payload with
  | .error _ => none
  | .ok payload =>
    match payload.asOpenmlsWire with
    | none => none
    | some message => env.publicProposalRef mlsGroup message.payload

def markConsumedProposalRecordsProcessed (groupId : GroupId) (sourceEpoch : EpochId)
    (consumedProposalRefs : List String) : EngineProgram G PublishError Unit :=
  if consumedProposalRefs.isEmpty then pure ()
  else do
    let records ← fromStorage (listMessages groupId sourceEpoch)
    records.forM fun record =>
      if record.epoch ≠ sourceEpoch ∨ (record.state ≠ .created ∧ record.state ≠ .retryable) then
        pure ()
      else
        match storedProposalRef env mlsGroup record with
        | none => pure ()
        | some (.error e) => raise (.serialize e)
        | some (.ok ref) =>
          if ref ∈ consumedProposalRefs then
            fromStorage (EngineStorage.updateMessageState record.id .processed)
          else pure ()

variable (originCommitId : Option String)

/-- One stored Welcome beside a staged invite commit: promoted with its own commit, or
retired. -/
def transitionStagedInviteWelcome (state : MessageState) (record : MessageRecord) :
    EngineProgram G PublishError Unit := do
  let payload ← ofExcept ((env.codec.decode record.payload).mapError .serialize)
  match payload with
  | .rawTransport message =>
    if message.envelope.isWelcome then
      fromStorage (putMessage { record with state := .failed })
  | .stagedInviteWelcome message stagedOriginCommitId =>
    if message.envelope.isWelcome then
      if originCommitId.any (· ≠ stagedOriginCommitId) then
        fromStorage (putMessage { record with state := .failed })
      else do
        let bytes ← ofExcept ((env.encode (.outboundWelcome message)).mapError .serialize)
        fromStorage (putMessage { record with payload := bytes, state := state })
  | .outboundWelcome _ | .openMlsWire _ | .signedOpenMlsWire _ _ _ _ | .ownCommitWire _ _ =>
    pure ()

def transitionStagedInviteWelcomes (sourceEpoch : EpochId) (originCommitId : Option String)
    (state : MessageState) :
    EngineProgram G PublishError Unit := do
  let records ← fromStorage (listMessages groupId sourceEpoch)
  records.forM fun record =>
    if record.epoch ≠ sourceEpoch ∨ record.state ≠ .sent then pure ()
    else transitionStagedInviteWelcome env originCommitId state record

/-- The payload of an own commit with its stamp. -/
def StoredMessagePayload.withOwnCommitStamp (payload : StoredMessagePayload)
    (stamp : OwnCommitConvergenceStamp) : StoredMessagePayload :=
  match payload with
  | .openMlsWire message | .ownCommitWire message _ => .ownCommitWire message stamp
  | .signedOpenMlsWire exactMessage openmlsMessage _ ownApplicationStamp =>
    .signedOpenMlsWire exactMessage openmlsMessage (some stamp) ownApplicationStamp
  | .rawTransport _ | .outboundWelcome _ | .stagedInviteWelcome _ _ => payload

/-- Without a stamp only the state of the row is written. -/
def stampProcessedOwnCommitRecord :
    Option OwnCommitConvergenceStamp → EngineProgram G PublishError Unit
  | none => fromStorage (EngineStorage.updateMessageState messageId .processed)
  | some stamp => do
    let record ← fromStorage (EngineStorage.getMessage messageId)
    let payload ← ofExcept ((env.codec.decode record.payload).mapError .serialize)
    let bytes ← ofExcept ((env.encode (payload.withOwnCommitStamp stamp)).mapError .serialize)
    fromStorage (putMessage { record with state := .processed, payload := bytes })

def confirmGroupEvolution : EngineProgram G PublishError Unit :=
  if env.maintenance then do
    let evolutions ← fromStorage listGroupEvolutions
    match evolutions.find? fun evolution => evolution.signedMessageId = some messageId with
    | none => pure ()
    | some evolution =>
      fromStorage (putGroupEvolution { evolution with phase := .confirmed })
  else pure ()

/-! ### Confirming -/

/-- What a confirmation reads from memory before it changes anything. -/
structure Confirmation where
  groupId : GroupId
  kind : PendingKind
  originCommitId : Option String
  queuedIntent : Option (GroupId × String)
  confirmedFanout : Option OutboundFanout
deriving DecidableEq

variable (pending : PendingStateRef)

/-- The fanout as it is stored once its MLS half is confirmed. -/
def confirmedFanout :
    Option OutboundFanout → Except PublishError (Option OutboundFanout)
  | none => .ok none
  | some fanout =>
    if fanout.pendingRef ≠ some pending ∨ fanout.outcome.acceptedTargets = 0 then
      .error (.other "fanout does not contain an accepted matching pending publish")
    else
      match fanout.markMlsConfirmed with
      | .ok confirmed => .ok (some confirmed.1)
      | .error _ => .error (.other "fanout MLS confirmation transition failed")

variable (fanout : Option OutboundFanout)

def readConfirmation (engine : Engine G) :
    Except PublishError Confirmation := do
  let confirmed ← confirmedFanout pending fanout
  match engine.epochManager.pending[pending]? with
  | none => throw (.engine .unknownPending)
  | some entry =>
    pure ⟨entry.groupId, entry.kind, engine.pendingOriginCommits[pending]?,
      engine.queuedIntentByPending[pending]?, confirmed⟩

def loadMlsGroup : EngineProgram G PublishError G := do
  match ← mapError (fun e => .backend ("load: " ++ e.debugText))
      (loadOpenmlsValues groupId) with
  | some mlsGroup => pure mlsGroup
  | none => raise (.engine (.unknownGroup groupId))

/-- An OpenMLS operation that changes the stored group. -/
def changeMlsGroup (label : String) (groupId : GroupId) (changed : Except String G) :
    EngineProgram G PublishError G := do
  let mlsGroup ← ofExcept (changed.mapError fun e => .backend (label ++ e))
  mapError (fun e => .backend (label ++ e.debugText))
    (writeOpenmlsValues groupId mlsGroup)
  pure mlsGroup

/-- The stamp with the id of the checkpoint its state will be kept under. -/
def addCheckpointId (stamp : OwnCommitConvergenceStamp) :
    EngineProgram G PublishError OwnCommitConvergenceStamp :=
  match originCommitId with
  | none => pure stamp
  | some messageId => do
    let id ← ownCommitCheckpointId env messageId
    pure { stamp with checkpointId := some id }

/-- Merge the staged commit: what the merge consumes is retired, what waited for it is
promoted, and its stamp is returned with the merged group. -/
def mergeStagedCommit (c : Confirmation) (mlsGroup : G) (staged : C) :
    EngineProgram G PublishError (G × OwnCommitConvergenceStamp) := do
  cacheFromStagedCommit env c.groupId staged
  let stamp ← ofExcept (ownCommitStamp env staged)
  let stamp ← addCheckpointId env c.originCommitId stamp
  let sourceEpoch := env.epoch mlsGroup
  markConsumedProposalRecordsProcessed env mlsGroup c.groupId sourceEpoch
    stamp.consumedProposalRefs
  if c.kind = .groupEvolution ∧ c.originCommitId.isSome then
    transitionStagedInviteWelcomes env c.groupId sourceEpoch c.originCommitId .sent
  let merged ← changeMlsGroup "merge_pending: " c.groupId (env.mergePendingCommit mlsGroup)
  ofExcept (env.validateCurrentProfileGroupInvariants merged)
  pure (merged, { stamp with resultingEpochAuthenticator := some (env.epochAuthenticator merged) })

/-- Keep the state the own commit leads to under the id its stamp names. -/
def checkpointOwnCommit [DecidableEq G] (env : PublishEnv G C) (groupId : GroupId) (mlsGroup : G)
    (stamp : Option OwnCommitConvergenceStamp) : EngineProgram G PublishError Unit :=
  match stamp.bind fun stamp => stamp.checkpointId with
  | none => pure ()
  | some id =>
    fromStorage (createGroupStateCheckpoint groupId id (env.epoch mlsGroup))

def settleOriginCommit (stamp : Option OwnCommitConvergenceStamp) :
    EngineProgram G PublishError Unit :=
  match originCommitId with
  | none => pure ()
  | some messageId => do
    stampProcessedOwnCommitRecord env messageId stamp
    confirmGroupEvolution env messageId

def settleQueuedIntent (queuedIntent : Option (GroupId × String)) :
    EngineProgram G PublishError Unit :=
  match queuedIntent with
  | none => pure ()
  | some intent => fromStorage (deleteQueuedOutboundIntent intent.2)

def settleFanout : EngineProgram G PublishError Unit :=
  match fanout with
  | none => pure ()
  | some fanout => fromStorage (putOutboundFanout fanout)

/-- The writes that do not depend on how the group got to its epoch. -/
def settleConfirmation [DecidableEq G] (env : PublishEnv G C) (c : Confirmation) (mlsGroup : G)
    (stamp : Option OwnCommitConvergenceStamp) : EngineProgram G PublishError Unit := do
  -- A disbanded group keeps its members on record.
  rewriteRecord env (c.kind = .disband) c.groupId mlsGroup
  cacheSelfCapabilities env c.groupId mlsGroup
  checkpointOwnCommit env c.groupId mlsGroup stamp
  settleOriginCommit env c.originCommitId stamp
  settleQueuedIntent c.queuedIntent
  settleFanout c.confirmedFanout

/-- The durable unit of a confirmation. -/
def confirmWrites [DecidableEq G] (env : PublishEnv G C) (c : Confirmation) (mlsGroup : G) :
    EngineProgram G PublishError Unit :=
  match env.pendingCommit mlsGroup with
  | some staged => do
    let (merged, stamp) ← mergeStagedCommit env c mlsGroup staged
    settleConfirmation env c merged (some stamp)
  | none => settleConfirmation env c mlsGroup none

/-- An in-memory transition of the state machine. -/
def moveEpochManager {α : Type} (f : EpochManager → EpochManager × Except EngineError α) :
    EngineProgram G PublishError α := do
  let result ← internal fun engine : Engine G =>
    ((f engine.epochManager).2, { engine with epochManager := (f engine.epochManager).1 })
  ofExcept (result.mapError .engine)

/-- A confirmation up to and with the transition of the state machine. -/
def confirmTransition [DecidableEq G] (env : PublishEnv G C) (pending : PendingStateRef)
    (fanout : Option OutboundFanout) :
    EngineProgram G PublishError (Confirmation × GroupId × EpochId) := do
  let engine ← readEngine
  let c ← ofExcept (readConfirmation pending fanout engine)
  let mlsGroup ← loadMlsGroup c.groupId
  -- The pre-commit epoch is kept as an anchor, outside the transaction.
  if (env.pendingCommit mlsGroup).isSome then retainCurrentEpochSnapshotForGroup env c.groupId
  transaction .storage (confirmWrites env c mlsGroup)
  retainCurrentEpochSnapshotForGroup env c.groupId
  let resolved ← moveEpochManager (·.confirmPublish pending)
  pure (c, resolved)

inductive GroupEvent where
  | groupCreated (groupId : GroupId)
  | epochChanged (groupId : GroupId) (fromEpoch toEpoch : EpochId)
deriving DecidableEq, Repr

def schedulePendingConvergenceGroup {ε : Type} (groupId : GroupId) : EngineProgram G ε Unit :=
  internal fun engine => ((), { engine with
    pendingConvergenceGroups :=
      if groupId ∈ engine.pendingConvergenceGroups then engine.pendingConvergenceGroups
      else engine.pendingConvergenceGroups ++ [groupId] })

/-- A queue that cannot be read counts as one that is not empty. -/
def scheduleDrainForRetainedOutboundIntents {ε : Type} (groupId : GroupId) :
    EngineProgram G ε Unit := do
  match ← attempt (listQueuedOutboundIntents groupId) with
  | .ok [] => pure ()
  | _ => schedulePendingConvergenceGroup groupId

/-- What follows the transition: the handle's entries go, and buffered messages are
replayed unless the group was disbanded. -/
def afterConfirm (c : Confirmation) (groupId : GroupId) (newEpoch : EpochId) :
    EngineProgram G PublishError GroupEvent := do
  internal fun engine => ((), { engine with
    queuedIntentByPending := engine.queuedIntentByPending.erase pending
    pendingOriginCommits := engine.pendingOriginCommits.erase pending })
  scheduleDrainForRetainedOutboundIntents groupId
  match c.kind with
  | .createGroup => do
    env.replayBufferedMessages groupId
    pure (.groupCreated groupId)
  | .groupEvolution => do
    env.replayBufferedMessages groupId
    pure (.epochChanged groupId (newEpoch.saturatingSub 1) newEpoch)
  | .disband => do
    schedulePendingConvergenceGroup groupId
    pure (.epochChanged groupId (newEpoch.saturatingSub 1) newEpoch)

/-- The event, and the fanout as the caller has it afterwards. -/
def doConfirmPublishedWithFanout [DecidableEq G] (env : PublishEnv G C) (pending : PendingStateRef)
    (fanout : Option OutboundFanout) :
    EngineProgram G PublishError (GroupEvent × Option OutboundFanout) := do
  let (c, groupId, newEpoch) ← confirmTransition env pending fanout
  let event ← afterConfirm env pending c groupId newEpoch
  pure (event, c.confirmedFanout)

/-! ### Failing -/

/-- The fanout as it is stored once its MLS half is rolled back. -/
def rolledBackFanout :
    Option OutboundFanout → Except PublishError (Option OutboundFanout)
  | none => .ok none
  | some fanout =>
    if fanout.pendingRef ≠ some pending ∨ fanout.outcome.acceptedTargets ≠ 0 ∨
        fanout.outcome.fanoutComplete = false then
      .error (.other "fanout is not a complete all-failed matching pending publish")
    else
      match fanout.markMlsRolledBack with
      | .ok rolledBack => .ok (some rolledBack.1)
      | .error _ => .error (.other "fanout MLS rollback transition failed")

variable (kind : PendingKind)

/-- Discard the staged commit and what waits for it. -/
def clearStagedCommit (originCommitId : Option String) (mlsGroup : G) (staged : C) :
    EngineProgram G PublishError G := do
  if kind = .groupEvolution then
    transitionStagedInviteWelcomes env groupId (env.epoch mlsGroup) originCommitId .failed
  let cleared ← changeMlsGroup "clear_pending: " groupId (env.clearPendingCommit mlsGroup)
  if env.selfRemoveOnly staged then
    changeMlsGroup "clear_pending_proposals: " groupId (env.clearPendingProposals cleared)
  else pure cleared

def discardGroupEvolution : EngineProgram G PublishError Unit :=
  if env.maintenance then do
    let evolutions ← fromStorage (listGroupEvolutionsForGroup groupId)
    match evolutions.find? fun evolution => evolution.signedMessageId = some messageId with
    | none => pure ()
    | some evolution => fromStorage (deleteGroupEvolution evolution.id)
  else pure ()

/-- The durable unit of a failed publication. -/
def failWrites (originCommitId : Option String) (rolledBack : Option OutboundFanout) (mlsGroup : G)
    :
    EngineProgram G PublishError G := do
  match originCommitId with
  | none => pure ()
  | some id => fromStorage (deleteOwnCommitIntent id)
  let cleared ← match env.pendingCommit mlsGroup with
    | none => pure mlsGroup
    | some staged => clearStagedCommit env groupId kind originCommitId mlsGroup staged
  rewriteRecord env false groupId cleared
  settleFanout rolledBack
  match originCommitId with
  | none => pure ()
  | some id => discardGroupEvolution env groupId id
  if kind = .disband then
    fromStorage (clearDisbandCandidates groupId)
    match ← fromStorage (disbandRequest groupId) with
    | none => pure ()
    | some _ => fromStorage (putDisbandRequest groupId none)
  pure cleared

/-- What follows the transition back. -/
def afterFailed (groupId : GroupId) (priorEpoch : EpochId) :
    EngineProgram G PublishError Unit := do
  if kind = .disband then schedulePendingConvergenceGroup groupId
  let engine ← readEngine
  match engine.queuedIntentByPending[pending]? with
  | none => pure ()
  | some intent => schedulePendingConvergenceGroup intent.1
  internal fun engine => ((), { engine with
    queuedIntentByPending := engine.queuedIntentByPending.erase pending
    pendingOriginCommits := engine.pendingOriginCommits.erase pending })
  scheduleDrainForRetainedOutboundIntents groupId
  env.restoreSelfRemoveAutoCommitSchedules groupId priorEpoch
  env.replayBufferedMessages groupId

/-- The fanout as the caller has it afterwards. -/
def doPublishFailedWithFanout :
    EngineProgram G PublishError (Option OutboundFanout) := do
  let engine ← readEngine
  match engine.epochManager.pending[pending]? with
  | none => raise (.engine .unknownPending)
  | some entry => do
    let originCommitId := engine.pendingOriginCommits[pending]?
    let mlsGroup ← loadMlsGroup entry.groupId
    let rolledBack ← ofExcept (rolledBackFanout pending fanout)
    let _ ← transaction .storage
      (failWrites env entry.groupId entry.kind originCommitId rolledBack mlsGroup)
    let (groupId, priorEpoch) ← moveEpochManager (·.rollbackPublish pending)
    afterFailed env pending entry.kind groupId priorEpoch
    pure rolledBack

end Mdk
