/-
What a convergence pass reads from storage (`seed_stored_openmls_graph_inputs` of
`openmls_projection.rs`, with the stored payloads of `traits/src/message.rs`).

Every row of the group whose state may still contribute is decoded and projected;
commits, pending messages, the application messages that were delivered before and
the device's own stamped messages are collected, in the order of the rows.

Main result:
* `stamp_seed` — a digest counts as that of a confirmed own commit only if a stored
  row, processed or parked for convergence, carries that very stamp.
-/
import Mdk.CandidateSearch
import Mdk.EngineState

open Std (ExtTreeMap ExtTreeSet)

namespace Mdk

/-! ### Stored rows -/

structure OwnCommitConvergenceStamp where
  committer : List UInt8
  priority : CommitOrderingPriority
  consumedProposalRefs : List String
  checkpointId : Option String
  resultingEpochAuthenticator : Option String
deriving DecidableEq, Repr

structure OwnApplicationConvergenceStamp where
  sender : List UInt8
  sourceEpochAuthenticator : String
deriving DecidableEq, Repr

inductive StoredMessagePayload where
  | rawTransport (message : TransportMessage)
  | outboundWelcome (message : TransportMessage)
  | stagedInviteWelcome (message : TransportMessage) (originCommitId : String)
  | openMlsWire (message : TransportMessage)
  | signedOpenMlsWire (exactMessage openmlsMessage : TransportMessage)
      (stamp : Option OwnCommitConvergenceStamp)
      (ownApplicationStamp : Option OwnApplicationConvergenceStamp)
  | ownCommitWire (message : TransportMessage) (stamp : OwnCommitConvergenceStamp)
deriving DecidableEq, Repr

namespace StoredMessagePayload

def asOpenmlsWire : StoredMessagePayload → Option TransportMessage
  | rawTransport _ | outboundWelcome _ | stagedInviteWelcome _ _ => none
  | openMlsWire message | ownCommitWire message _ => some message
  | signedOpenMlsWire _ openmlsMessage _ _ => some openmlsMessage

def ownCommitStamp : StoredMessagePayload → Option OwnCommitConvergenceStamp
  | rawTransport _ | outboundWelcome _ | stagedInviteWelcome _ _ | openMlsWire _ => none
  | signedOpenMlsWire _ _ stamp _ => stamp
  | ownCommitWire _ stamp => some stamp

def ownApplicationStamp : StoredMessagePayload → Option OwnApplicationConvergenceStamp
  | signedOpenMlsWire _ _ _ stamp => stamp
  | rawTransport _ | outboundWelcome _ | stagedInviteWelcome _ _ | openMlsWire _
  | ownCommitWire _ _ => none

end StoredMessagePayload

structure MessageRecord where
  id : String
  groupId : GroupId
  epoch : EpochId
  state : MessageState
  payload : List UInt8
deriving DecidableEq, Repr

/-- What the header of an MLS protocol message says. -/
structure ProtocolMessage where
  contentType : OpenMlsContentKind
  epoch : UInt64
deriving DecidableEq, Repr

/-- Decoding of stored bytes: the payload envelope, the hash of the wire bytes, and
the MLS message in them (`none` for a Welcome). -/
structure WireCodec where
  decode : List UInt8 → Except String StoredMessagePayload
  messageDigest : List UInt8 → Digest
  parse : List UInt8 → Except OpenMlsProjectionError (Option ProtocolMessage)

structure OpenMlsMessageProjection where
  kind : OpenMlsContentKind
  sourceEpoch : Option UInt64
  messageDigest : Digest
deriving DecidableEq, Repr

variable (codec : WireCodec)

def projectProtocolMessage (bytes : List UInt8) :
    Except OpenMlsProjectionError (OpenMlsMessageProjection × Option ProtocolMessage) :=
  match codec.parse bytes with
  | .error err => .error err
  | .ok none => .ok (⟨.welcome, none, codec.messageDigest bytes⟩, none)
  | .ok (some protocol) =>
    .ok (⟨protocol.contentType, some protocol.epoch, codec.messageDigest bytes⟩, some protocol)

def projectMlsMessage (bytes : List UInt8) :
    Except OpenMlsProjectionError OpenMlsMessageProjection :=
  (projectProtocolMessage codec bytes).map (·.1)

theorem projectProtocolMessage_digest {codec : WireCodec} {bytes : List UInt8}
    {projection : OpenMlsMessageProjection} {protocol : Option ProtocolMessage}
    (h : projectProtocolMessage codec bytes = .ok (projection, protocol)) :
    projection.messageDigest = codec.messageDigest bytes := by
  unfold projectProtocolMessage at h
  split at h <;> cases h <;> rfl

theorem projectMlsMessage_digest {codec : WireCodec} {bytes : List UInt8}
    {projection : OpenMlsMessageProjection} (h : projectMlsMessage codec bytes = .ok projection) :
    projection.messageDigest = codec.messageDigest bytes := by
  unfold projectMlsMessage at h
  cases hproject : projectProtocolMessage codec bytes with
  | error err =>
    rw [hproject] at h
    cases h
  | ok result =>
    rw [hproject] at h
    cases h
    exact projectProtocolMessage_digest hproject

/-! ### The device's own messages -/

structure PrevalidatedOwnCommits where
  byDigest : ExtTreeMap Digest OwnCommitConvergenceStamp := ∅
  canonicalDigests : ExtTreeSet Digest := ∅
  applicationById : ExtTreeMap String OwnApplicationConvergenceStamp := ∅

namespace PrevalidatedOwnCommits

section

variable (own : PrevalidatedOwnCommits) (digest : Digest)

def insertCanonical : PrevalidatedOwnCommits :=
  { own with canonicalDigests := own.canonicalDigests.insert digest }

def insertStamped (stamp : OwnCommitConvergenceStamp) : PrevalidatedOwnCommits :=
  { own with byDigest := own.byDigest.insert digest stamp }

def stamp : Option OwnCommitConvergenceStamp :=
  own.byDigest[digest]?

def isCanonical : Bool :=
  own.canonicalDigests.contains digest

def insertApplication (messageId : String) (stamp : OwnApplicationConvergenceStamp) :
    PrevalidatedOwnCommits :=
  { own with applicationById := own.applicationById.insert messageId stamp }

def applicationStamp (messageId : String) : Option OwnApplicationConvergenceStamp :=
  own.applicationById[messageId]?

end

variable (own : PrevalidatedOwnCommits)

@[simp] theorem stamp_default (digest : Digest) :
    ({} : PrevalidatedOwnCommits).stamp digest = none := by
  simp [stamp]

@[simp] theorem stamp_insertCanonical (d digest : Digest) :
    (own.insertCanonical d).stamp digest = own.stamp digest := rfl

@[simp] theorem stamp_insertApplication (messageId : String)
    (st : OwnApplicationConvergenceStamp) (digest : Digest) :
    (own.insertApplication messageId st).stamp digest = own.stamp digest := rfl

theorem stamp_insertStamped (d : Digest) (st : OwnCommitConvergenceStamp) (digest : Digest) :
    (own.insertStamped d st).stamp digest = if d = digest then some st else own.stamp digest := by
  simp only [stamp, insertStamped, ExtTreeMap.getElem?_insert, Std.compare_eq_iff_eq]

end PrevalidatedOwnCommits

/-! ### Seeding -/

def openmlsGraphInputStates : List MessageState :=
  [.sent, .created, .retryable, .convergenceDeferred, .processed]

def recordStateCanContributeToOpenmlsGraph (state : MessageState) : Bool :=
  openmlsGraphInputStates.contains state

variable (rows : List MessageRecord) (groupId : GroupId)

def listMessagesInStates (states : List MessageState) (atOrAfterEpoch : EpochId) :
    List MessageRecord :=
  rows.filter fun record =>
    decide (record.groupId = groupId) && decide (atOrAfterEpoch ≤ record.epoch) &&
      states.contains record.state

def getMessage (id : String) : Except OpenMlsProjectionError MessageRecord :=
  match rows.find? fun record => record.id = id with
  | some record => .ok record
  | none => .error (.storage "NotFound")

/-- The rows a pass reads: the frozen batch, or everything that may contribute, state
by state.  Processed rows are read from the retained window on only. -/
def graphInputRecords (retainedAnchorEpoch : UInt64) :
    Option (List String) → Except OpenMlsProjectionError (List MessageRecord)
  | some ids => ids.mapM (getMessage rows)
  | none => .ok <| openmlsGraphInputStates.flatMap fun state =>
      listMessagesInStates rows groupId [state]
        (if state = .processed then retainedAnchorEpoch else 0)

/-- What the rows read so far have contributed. -/
structure GraphSeed where
  commitMessages : List StoredCommitMessage := []
  pendingMessages : List TransportMessage := []
  alreadyDeliveredAppIds : ExtTreeSet String := ∅
  ownCommits : PrevalidatedOwnCommits := {}
  staleCommitDrops : List DroppedMessage := []

variable (acc : GraphSeed)

/-- A commit row inside the retained window. -/
def GraphSeed.addCommit (state : MessageState) (stamp : Option OwnCommitConvergenceStamp)
    (message : TransportMessage) (sourceEpoch : UInt64) (digest : Digest) : GraphSeed :=
  let own := if state = .processed then acc.ownCommits.insertCanonical digest else acc.ownCommits
  let own := match stamp with
    | some stamp =>
      if state = .processed ∨ state = .convergenceDeferred then own.insertStamped digest stamp
      else own
    | none => own
  { acc with
    ownCommits := own
    commitMessages := acc.commitMessages ++ [⟨message, sourceEpoch, digest, state⟩] }

/-- An application row inside the retained window. -/
def GraphSeed.addApplication (state : MessageState) (stamp : Option OwnApplicationConvergenceStamp)
    (message : TransportMessage) : GraphSeed :=
  { acc with
    ownCommits := match stamp with
      | some stamp => acc.ownCommits.insertApplication message.id stamp
      | none => acc.ownCommits
    alreadyDeliveredAppIds :=
      if state = .processed then acc.alreadyDeliveredAppIds.insert message.id
      else acc.alreadyDeliveredAppIds
    pendingMessages := acc.pendingMessages ++ [message] }

def GraphSeed.addProjected (retainedAnchorEpoch : UInt64) (state : MessageState)
    (payload : StoredMessagePayload) (message : TransportMessage)
    (projection : OpenMlsMessageProjection) : GraphSeed :=
  match projection.sourceEpoch with
  | none => acc
  | some sourceEpoch =>
    match projection.kind with
    | .commit =>
      if sourceEpoch < retainedAnchorEpoch then
        if unresolvedCommitState state then
          { acc with staleCommitDrops := acc.staleCommitDrops ++
              [⟨message.id, .commit, .beyondAnchor, none⟩] }
        else acc
      else acc.addCommit state payload.ownCommitStamp message sourceEpoch projection.messageDigest
    | .proposal =>
      if retainedAnchorEpoch ≤ sourceEpoch then
        { acc with pendingMessages := acc.pendingMessages ++ [message] }
      else acc
    | .application =>
      if retainedAnchorEpoch ≤ sourceEpoch then
        acc.addApplication state payload.ownApplicationStamp message
      else acc
    | .welcome | .other => acc

/-- One row of the seeding loop. -/
def seedRecord (retainedAnchorEpoch : UInt64) (acc : GraphSeed) (record : MessageRecord) :
    Except OpenMlsProjectionError GraphSeed :=
  if record.groupId ≠ groupId then .ok acc
  else if !recordStateCanContributeToOpenmlsGraph record.state then .ok acc
  else
    match codec.decode record.payload with
    | .error err => .error (.serialize err)
    | .ok payload =>
      match payload.asOpenmlsWire with
      | none => .ok acc
      | some message =>
        match message.envelope with
        | .welcome _ => .ok acc
        | .groupMessage _ =>
          match projectMlsMessage codec message.payload with
          | .error err => .error err
          | .ok projection =>
            .ok (acc.addProjected retainedAnchorEpoch record.state payload message projection)

def seedRecords (codec : WireCodec) (groupId : GroupId) (retainedAnchorEpoch : UInt64) :
    GraphSeed → List MessageRecord → Except OpenMlsProjectionError GraphSeed
  | acc, [] => .ok acc
  | acc, record :: records =>
    match seedRecord codec groupId retainedAnchorEpoch acc record with
    | .error err => .error err
    | .ok acc => seedRecords codec groupId retainedAnchorEpoch acc records

structure StoredOpenMlsGraphInputs where
  commitMessages : List StoredCommitMessage
  pendingMessages : List TransportMessage
  alreadyDeliveredAppIds : ExtTreeSet String
  ownCommits : PrevalidatedOwnCommits
  staleCommitDrops : List DroppedMessage
  currentEpoch : UInt64
  replayStartEpoch : UInt64

def historicalReplayStartEpoch (commits : List StoredCommitMessage) (currentEpoch : UInt64) :
    Option UInt64 :=
  ((commits.filter fun commit =>
    unresolvedCommitState commit.state && decide (commit.sourceEpoch < currentEpoch)).map
      fun commit => commit.sourceEpoch).min?

/-- The end of seeding: without an unresolved commit below the live tip the replay
starts at the tip, and processed commits play no part. -/
def GraphSeed.finish (currentEpoch : UInt64) : StoredOpenMlsGraphInputs where
  commitMessages :=
    if (historicalReplayStartEpoch acc.commitMessages currentEpoch).isSome then acc.commitMessages
    else acc.commitMessages.filter fun commit => unresolvedCommitState commit.state
  pendingMessages := acc.pendingMessages
  alreadyDeliveredAppIds := acc.alreadyDeliveredAppIds
  ownCommits := acc.ownCommits
  staleCommitDrops := acc.staleCommitDrops
  currentEpoch := currentEpoch
  replayStartEpoch := (historicalReplayStartEpoch acc.commitMessages currentEpoch).getD currentEpoch

def seedStoredOpenmlsGraphInputs (currentEpoch retainedAnchorEpoch : UInt64)
    (admittedMessageIds : Option (List String)) :
    Except OpenMlsProjectionError StoredOpenMlsGraphInputs :=
  match graphInputRecords rows groupId retainedAnchorEpoch admittedMessageIds with
  | .error err => .error err
  | .ok records =>
    match seedRecords codec groupId retainedAnchorEpoch {} records with
    | .error err => .error err
    | .ok acc => .ok (acc.finish currentEpoch)

/-! ### Where the stamps come from -/

section Stamps

variable {codec : WireCodec} {groupId : GroupId} {retainedAnchorEpoch : UInt64}

/-- The row is a confirmed own commit with these wire bytes and this stamp. -/
structure StampedRow (codec : WireCodec) (record : MessageRecord) (digest : Digest)
    (stamp : OwnCommitConvergenceStamp) : Prop where
  live : record.state = .processed ∨ record.state = .convergenceDeferred
  wire : ∃ payload message, codec.decode record.payload = .ok payload ∧
    payload.asOpenmlsWire = some message ∧ payload.ownCommitStamp = some stamp ∧
    codec.messageDigest message.payload = digest

variable {stamp : OwnCommitConvergenceStamp}

theorem stamp_addCommit {acc : GraphSeed} {state : MessageState}
    {own : Option OwnCommitConvergenceStamp} {message : TransportMessage} {sourceEpoch : UInt64}
    {d digest : Digest}
    (h : (acc.addCommit state own message sourceEpoch d).ownCommits.stamp digest = some stamp) :
    acc.ownCommits.stamp digest = some stamp ∨
      (d = digest ∧ own = some stamp ∧ (state = .processed ∨ state = .convergenceDeferred)) := by
  have hcanonical : ∀ own' : PrevalidatedOwnCommits,
      (if state = .processed then own'.insertCanonical d else own').stamp digest =
        own'.stamp digest := by
    intro own'
    split <;> simp
  cases own with
  | none =>
    simp only [GraphSeed.addCommit, hcanonical] at h
    exact .inl h
  | some st =>
    simp only [GraphSeed.addCommit] at h
    split at h
    · rename_i hstate
      rw [PrevalidatedOwnCommits.stamp_insertStamped, hcanonical] at h
      split at h
      · rename_i hd
        exact .inr ⟨hd, h, hstate⟩
      · exact .inl h
    · rw [hcanonical] at h
      exact .inl h

variable {digest : Digest}

theorem stamp_addProjected {acc : GraphSeed} {state : MessageState} {payload : StoredMessagePayload}
    {message : TransportMessage} {projection : OpenMlsMessageProjection}
    (h : (acc.addProjected retainedAnchorEpoch state payload message projection).ownCommits.stamp
      digest = some stamp) :
    acc.ownCommits.stamp digest = some stamp ∨
      (projection.messageDigest = digest ∧ payload.ownCommitStamp = some stamp ∧
        (state = .processed ∨ state = .convergenceDeferred)) := by
  have happlication : ∀ own, (acc.addApplication state own message).ownCommits.stamp digest =
      acc.ownCommits.stamp digest := by
    intro own
    cases own <;> simp [GraphSeed.addApplication]
  unfold GraphSeed.addProjected at h
  split at h
  · exact .inl h
  · split at h
    · split at h
      · split at h <;> exact .inl h
      · exact stamp_addCommit h
    · split at h <;> exact .inl h
    · split at h
      · rw [happlication] at h
        exact .inl h
      · exact .inl h
    · exact .inl h
    · exact .inl h

variable {record : MessageRecord}

theorem stamp_seedRecord {acc acc' : GraphSeed}
    (hrecord : seedRecord codec groupId retainedAnchorEpoch acc record = .ok acc')
    (hstamp : acc'.ownCommits.stamp digest = some stamp) :
    acc.ownCommits.stamp digest = some stamp ∨ StampedRow codec record digest stamp := by
  unfold seedRecord at hrecord
  split at hrecord
  · cases hrecord
    exact .inl hstamp
  split at hrecord
  · cases hrecord
    exact .inl hstamp
  split at hrecord
  · cases hrecord
  rename_i payload hdecode
  split at hrecord
  · cases hrecord
    exact .inl hstamp
  rename_i message hwire
  split at hrecord
  · cases hrecord
    exact .inl hstamp
  split at hrecord
  · cases hrecord
  rename_i projection hproject
  cases hrecord
  -- Only a commit row inside the window can have added a stamp.
  rcases stamp_addProjected hstamp with hold | ⟨hdigest, hown, hstate⟩
  · exact .inl hold
  · refine .inr ⟨hstate, payload, message, hdecode, hwire, hown, ?_⟩
    rw [← projectMlsMessage_digest hproject, hdigest]

theorem stamp_seedRecords {records : List MessageRecord} {acc acc' : GraphSeed}
    (hrecords : seedRecords codec groupId retainedAnchorEpoch acc records = .ok acc')
    (hstamp : acc'.ownCommits.stamp digest = some stamp) :
    acc.ownCommits.stamp digest = some stamp ∨
      ∃ record ∈ records, StampedRow codec record digest stamp := by
  induction records generalizing acc with
  | nil =>
    cases hrecords
    exact .inl hstamp
  | cons record records ih =>
    rw [seedRecords] at hrecords
    split at hrecords
    · cases hrecords
    rename_i acc₁ hrecord
    rcases ih hrecords with hold | ⟨row, hmem, hrow⟩
    · rcases stamp_seedRecord hrecord hold with hold | hrow
      · exact .inl hold
      · exact .inr ⟨record, List.mem_cons_self, hrow⟩
    · exact .inr ⟨row, List.mem_cons_of_mem _ hmem, hrow⟩

theorem mem_of_getMessage {rows : List MessageRecord} {id : String}
    (h : getMessage rows id = .ok record) : record ∈ rows := by
  unfold getMessage at h
  split at h
  · rename_i found hfind
    cases h
    exact List.mem_of_find?_eq_some hfind
  · cases h

theorem mem_of_graphInputRecords {rows records : List MessageRecord}
    {admitted : Option (List String)}
    (h : graphInputRecords rows groupId retainedAnchorEpoch admitted = .ok records)
    (hmem : record ∈ records) : record ∈ rows := by
  cases admitted with
  | none =>
    cases h
    obtain ⟨state, -, hlisted⟩ := List.mem_flatMap.mp hmem
    exact (List.mem_filter.mp hlisted).1
  | some ids =>
    replace h : ids.mapM (getMessage rows) = .ok records := h
    induction ids generalizing records with
    | nil =>
      cases h
      cases hmem
    | cons id ids ih =>
      rw [List.mapM_cons] at h
      cases hget : getMessage rows id with
      | error err =>
        rw [hget] at h
        cases h
      | ok first =>
        rw [hget] at h
        cases hrest : ids.mapM (getMessage rows) with
        | error err =>
          rw [hrest] at h
          cases h
        | ok rest =>
          rw [hrest] at h
          cases h
          rcases List.mem_cons.mp hmem with rfl | hmem
          · exact mem_of_getMessage hget
          · exact ih hmem hrest

/-- Every stamp the pass works with is that of a stored row. -/
theorem stamp_seed {rows : List MessageRecord} {currentEpoch : UInt64}
    {admitted : Option (List String)} {inputs : StoredOpenMlsGraphInputs}
    (hseed : seedStoredOpenmlsGraphInputs codec rows groupId currentEpoch retainedAnchorEpoch
      admitted = .ok inputs) (hstamp : inputs.ownCommits.stamp digest = some stamp) :
    ∃ record ∈ rows, StampedRow codec record digest stamp := by
  unfold seedStoredOpenmlsGraphInputs at hseed
  split at hseed
  · cases hseed
  rename_i records hrecords
  split at hseed
  · cases hseed
  rename_i acc hacc
  cases hseed
  rcases stamp_seedRecords hacc hstamp with hempty | ⟨record, hmem, hrow⟩
  · rw [PrevalidatedOwnCommits.stamp_default] at hempty
    cases hempty
  · exact ⟨record, mem_of_graphInputRecords hrecords hmem, hrow⟩

end Stamps

end Mdk
