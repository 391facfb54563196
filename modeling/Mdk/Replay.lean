/-
Replay of a list of wire messages on a group state
(`process_openmls_messages_inner` of `openmls_projection.rs`).

MLS cannot process a commit this device made itself.  As long as the commits
replayed so far count as canonical, such a commit is realized from the checkpoint
taken when it was confirmed: the stored state replaces the replayed one, provided
the epochs fit.  Everything else goes through MLS, which is the parameter
`MlsReplay`.

Main result:
* `replayMessage_eq_ok` — what a message that is replayed successfully does: one of
  the four rules of `ReplayStep`.
-/
import Mdk.StoredInputs

open Std (ExtTreeMap)

namespace Mdk

/-! ### MLS -/

structure Member where
  id : List UInt8
  credential : List UInt8
deriving DecidableEq, Repr

inductive StorageError where
  | snapshotMissing (name : String)
  | other (text : String)
deriving DecidableEq, Repr

/-- What processing a protocol message leaves: the group, and what the message was.
`ignored` is a message with no effect on this state: an application message that
does not apply here, an external join, an own commit that is still pending, an own
private message, an Add in a legacy group. -/
inductive ProcessedContent (σ : Type) where
  | ignored (group : σ)
  | proposalStored (group : σ) (proposalRef : String)
  | commitMerged (group : σ) (priority : CommitOrderingPriority) (committer : List UInt8)
      (consumedProposalRefs : List String)
  | applicationProcessed (group : σ) (sender payload : List UInt8) (decryptedPayloadRef : String)

def ProcessedContent.merges {σ : Type} : ProcessedContent σ → Bool
  | commitMerged _ _ _ _ => true
  | ignored _ | proposalStored _ _ | applicationProcessed _ _ _ _ => false

def ProcessedContent.group {σ : Type} : ProcessedContent σ → σ
  | ignored group | proposalStored group _ | commitMerged group _ _ _
  | applicationProcessed group _ _ _ => group

/-- MLS over group states `σ`, and the checkpoints kept in storage.  `process`
stands for processing a message, validating it and, for a commit, merging it. -/
structure MlsReplay (σ : Type) where
  epoch : σ → UInt64
  epochAuthenticator : σ → String
  members : σ → List Member
  process : σ → OpenMlsContentKind → TransportMessage →
    Except OpenMlsProjectionError (ProcessedContent σ)
  restoreGroupStateCheckpoint : String → Except StorageError σ

/-! ### The replay loop -/

inductive OpenMlsReplayObservation where
  | proposalStored (messageId : String) (sourceEpoch : UInt64) (proposalRef : String)
  | commitStaged (messageId : String) (sourceEpoch resultingEpoch : UInt64)
      (priority : CommitOrderingPriority) (committer : List UInt8)
      (consumedProposalRefs : List String)
  | applicationProcessed (messageId : String) (sourceEpoch : UInt64) (sender payload : List UInt8)
      (decryptedPayloadRef : String)
  | ownApplicationSent (messageId : String) (sourceEpoch : UInt64) (sender : List UInt8)
      (sourceEpochAuthenticator : String)
  | ignored (messageId : String) (kind : OpenMlsContentKind)
deriving DecidableEq, Repr

structure OpenMlsReplayOutput where
  observations : List OpenMlsReplayObservation
  finalEpoch : UInt64
  finalMembers : List Member
  epochAuthenticators : ExtTreeMap UInt64 String

/-- The variables of the loop. -/
structure ReplayState (σ : Type) where
  group : σ
  prefixCanonical : Bool
  observations : List OpenMlsReplayObservation
  epochAuthenticators : ExtTreeMap UInt64 String

section Loop

variable {σ : Type} (codec : WireCodec) (mls : MlsReplay σ) (own : PrevalidatedOwnCommits)

def ReplayState.start (group : σ) : ReplayState σ where
  group := group
  prefixCanonical := true
  observations := []
  epochAuthenticators := .ofList [(mls.epoch group, mls.epochAuthenticator group)]

variable (state : ReplayState σ)

def ReplayState.observe (observation : OpenMlsReplayObservation) : ReplayState σ :=
  { state with observations := state.observations ++ [observation] }

/-- The group has moved on to another epoch. -/
def ReplayState.enter (group : σ) : ReplayState σ :=
  { state with
    group := group
    epochAuthenticators :=
      state.epochAuthenticators.insert (mls.epoch group) (mls.epochAuthenticator group) }

/-- How a protocol message is handled. -/
inductive ReplayRoute where
  | ownApplication (stamp : OwnApplicationConvergenceStamp)
  | ownCommit (stamp : OwnCommitConvergenceStamp)
  | process
deriving DecidableEq, Repr

def replayRoute (prefixCanonical : Bool) (message : TransportMessage)
    (projection : OpenMlsMessageProjection) : ReplayRoute :=
  match projection.kind with
  | .application =>
    match own.applicationStamp message.id with
    | some stamp => .ownApplication stamp
    | none => .process
  | .commit =>
    if prefixCanonical then
      match own.stamp projection.messageDigest with
      | some stamp => .ownCommit stamp
      | none => .process
    else .process
  | .proposal | .welcome | .other => .process

def verifyRestoredOwnCheckpoint (group : σ) (resultingEpoch : UInt64)
    (expectedAuthenticator : String) : Except OpenMlsProjectionError Unit :=
  if mls.epoch group = resultingEpoch ∧ mls.epochAuthenticator group = expectedAuthenticator then
    .ok ()
  else .error .checkpointStateMismatch

/-- The checkpoint of an own commit, restored and verified. -/
def restoreOwnCheckpoint (stamp : OwnCommitConvergenceStamp) (resultingEpoch : UInt64) :
    Except OpenMlsProjectionError σ :=
  match stamp.checkpointId, stamp.resultingEpochAuthenticator with
  | some checkpointId, some expectedAuthenticator =>
    match mls.restoreGroupStateCheckpoint checkpointId with
    | .error (.snapshotMissing _) => .error .missingOwnCommitCheckpoint
    | .error (.other text) => .error (.snapshot text)
    | .ok group =>
      match verifyRestoredOwnCheckpoint mls group resultingEpoch expectedAuthenticator with
      | .error err => .error err
      | .ok () => .ok group
  | _, _ => .error .missingOwnCommitCheckpoint

/-- The own commit branch.  It leaves `prefixCanonical` as it is, whether the commit
is canonical or only parked. -/
def realizeOwnCommit (messageId : String) (sourceEpoch : UInt64) (stamp : OwnCommitConvergenceStamp)
    : Except OpenMlsProjectionError (ReplayState σ) :=
  if mls.epoch state.group ≠ sourceEpoch then
    .error (.replay ("own commit source epoch " ++ toString sourceEpoch ++
      " does not match replay state " ++ toString (mls.epoch state.group)))
  else
    match restoreOwnCheckpoint mls stamp (sourceEpoch.saturatingAdd 1) with
    | .error err => .error err
    | .ok group =>
      .ok ((state.enter mls group).observe (.commitStaged messageId sourceEpoch
        (sourceEpoch.saturatingAdd 1) stamp.priority stamp.committer stamp.consumedProposalRefs))

/-- The loop's variables after MLS has processed a message. -/
def ReplayState.processed (messageId : String) (projection : OpenMlsMessageProjection)
    (sourceEpoch : UInt64) :
    ProcessedContent σ → ReplayState σ
  | .ignored group => { state with group }.observe (.ignored messageId projection.kind)
  | .proposalStored group proposalRef =>
    { state with group }.observe (.proposalStored messageId sourceEpoch proposalRef)
  | .commitMerged group priority committer consumedProposalRefs =>
    { state.enter mls group with
      prefixCanonical :=
        state.prefixCanonical && own.isCanonical projection.messageDigest }.observe
      (.commitStaged messageId sourceEpoch ((mls.epoch state.group).saturatingAdd 1) priority
        committer consumedProposalRefs)
  | .applicationProcessed group sender payload decryptedPayloadRef =>
    { state with group }.observe
      (.applicationProcessed messageId sourceEpoch sender payload decryptedPayloadRef)

/-- One message of the loop. -/
def replayMessage (message : TransportMessage) : Except OpenMlsProjectionError (ReplayState σ) :=
  match projectProtocolMessage codec message.payload with
  | .error err => .error err
  | .ok (projection, none) => .ok (state.observe (.ignored message.id projection.kind))
  | .ok (projection, some _) =>
    match projection.sourceEpoch with
    | none => .error (.unsupportedMessageKind projection.kind)
    | some sourceEpoch =>
      match replayRoute own state.prefixCanonical message projection with
      | .ownApplication stamp =>
        .ok (state.observe (.ownApplicationSent message.id sourceEpoch stamp.sender
          stamp.sourceEpochAuthenticator))
      | .ownCommit stamp => realizeOwnCommit mls state message.id sourceEpoch stamp
      | .process =>
        match mls.process state.group projection.kind message with
        | .error err => .error err
        | .ok content => .ok (state.processed mls own message.id projection sourceEpoch content)

def replayMessages : ReplayState σ → List TransportMessage →
    Except OpenMlsProjectionError (ReplayState σ)
  | state, [] => .ok state
  | state, message :: messages =>
    match replayMessage codec mls own state message with
    | .error err => .error err
    | .ok state => replayMessages state messages

def ReplayState.output : OpenMlsReplayOutput where
  observations := state.observations
  finalEpoch := mls.epoch state.group
  finalMembers := mls.members state.group
  epochAuthenticators := state.epochAuthenticators

/-- The whole function, from a loaded group. -/
def processOpenmlsMessagesInner (group : σ) (messages : List TransportMessage) :
    Except OpenMlsProjectionError OpenMlsReplayOutput :=
  match replayMessages codec mls own (.start mls group) messages with
  | .error err => .error err
  | .ok state => .ok (state.output mls)

end Loop

/-! ### What a replayed message does -/

section Step

variable {σ : Type} {codec : WireCodec} {mls : MlsReplay σ} {own : PrevalidatedOwnCommits}

/-- A protocol message with its projection and source epoch. -/
structure Projects (codec : WireCodec) (message : TransportMessage)
    (projection : OpenMlsMessageProjection) (sourceEpoch : UInt64) : Prop where
  protocol : ∃ header, projectProtocolMessage codec message.payload = .ok (projection, some header)
  epoch : projection.sourceEpoch = some sourceEpoch

variable {message : TransportMessage}

theorem Projects.digest {projection : OpenMlsMessageProjection} {sourceEpoch : UInt64}
    (h : Projects codec message projection sourceEpoch) :
    projection.messageDigest = codec.messageDigest message.payload := by
  obtain ⟨header, hprotocol⟩ := h.protocol
  exact projectProtocolMessage_digest hprotocol

/-- The four things a successfully replayed message can do. -/
inductive ReplayStep (codec : WireCodec) (mls : MlsReplay σ) (own : PrevalidatedOwnCommits)
    (state : ReplayState σ) (message : TransportMessage) : ReplayState σ → Prop
  | skip {projection : OpenMlsMessageProjection}
      (hproject : projectProtocolMessage codec message.payload = .ok (projection, none)) :
      ReplayStep codec mls own state message
        (state.observe (.ignored message.id projection.kind))
  | ownApplication {projection : OpenMlsMessageProjection} {sourceEpoch : UInt64}
      {stamp : OwnApplicationConvergenceStamp}
      (hproject : Projects codec message projection sourceEpoch)
      (hroute : replayRoute own state.prefixCanonical message projection =
        .ownApplication stamp) :
      ReplayStep codec mls own state message
        (state.observe (.ownApplicationSent message.id sourceEpoch stamp.sender
          stamp.sourceEpochAuthenticator))
  | ownCommit {projection : OpenMlsMessageProjection} {sourceEpoch : UInt64}
      {stamp : OwnCommitConvergenceStamp} {group : σ}
      (hproject : Projects codec message projection sourceEpoch)
      (hroute : replayRoute own state.prefixCanonical message projection = .ownCommit stamp)
      (hepoch : mls.epoch state.group = sourceEpoch)
      (hrestore : restoreOwnCheckpoint mls stamp (sourceEpoch.saturatingAdd 1) = .ok group) :
      ReplayStep codec mls own state message
        ((state.enter mls group).observe (.commitStaged message.id sourceEpoch
          (sourceEpoch.saturatingAdd 1) stamp.priority stamp.committer
          stamp.consumedProposalRefs))
  | process {projection : OpenMlsMessageProjection} {sourceEpoch : UInt64}
      {content : ProcessedContent σ}
      (hproject : Projects codec message projection sourceEpoch)
      (hroute : replayRoute own state.prefixCanonical message projection = .process)
      (hprocess : mls.process state.group projection.kind message = .ok content) :
      ReplayStep codec mls own state message
        (state.processed mls own message.id projection sourceEpoch content)

theorem replayRoute_eq_ownCommit {prefixCanonical : Bool} {projection : OpenMlsMessageProjection}
    {stamp : OwnCommitConvergenceStamp} :
    replayRoute own prefixCanonical message projection = .ownCommit stamp ↔
      prefixCanonical = true ∧ projection.kind = .commit ∧
        own.stamp projection.messageDigest = some stamp := by
  unfold replayRoute
  cases hkind : projection.kind with
  | application => cases own.applicationStamp message.id <;> simp
  | commit =>
    cases prefixCanonical with
    | false => simp
    | true => cases own.stamp projection.messageDigest <;> simp
  | proposal => simp
  | welcome => simp
  | other => simp

variable {state state' : ReplayState σ}

theorem realizeOwnCommit_eq_ok {messageId : String} {sourceEpoch : UInt64}
    {stamp : OwnCommitConvergenceStamp} :
    realizeOwnCommit mls state messageId sourceEpoch stamp = .ok state' ↔
      mls.epoch state.group = sourceEpoch ∧
      ∃ group, restoreOwnCheckpoint mls stamp (sourceEpoch.saturatingAdd 1) = .ok group ∧
        state' = (state.enter mls group).observe (.commitStaged messageId sourceEpoch
          (sourceEpoch.saturatingAdd 1) stamp.priority stamp.committer
          stamp.consumedProposalRefs) := by
  unfold realizeOwnCommit
  by_cases hepoch : mls.epoch state.group = sourceEpoch
  · rw [if_neg (not_not_intro hepoch)]
    cases restoreOwnCheckpoint mls stamp (sourceEpoch.saturatingAdd 1) with
    | error err => simp
    | ok group => simp [hepoch, eq_comm]
  · rw [if_pos hepoch]
    simp [hepoch]

/-- The loop body, as a relation. -/
theorem replayMessage_eq_ok :
    replayMessage codec mls own state message = .ok state' ↔
      ReplayStep codec mls own state message state' := by
  constructor
  · intro h
    unfold replayMessage at h
    split at h
    · cases h
    · rename_i projection hproject
      cases h
      exact .skip hproject
    · rename_i projection header hproject
      split at h
      · cases h
      rename_i sourceEpoch hepoch
      have hprojects : Projects codec message projection sourceEpoch :=
        ⟨⟨header, hproject⟩, hepoch⟩
      split at h
      · rename_i stamp hroute
        cases h
        exact .ownApplication hprojects hroute
      · rename_i stamp hroute
        obtain ⟨hfits, group, hrestore, rfl⟩ := realizeOwnCommit_eq_ok.mp h
        exact .ownCommit hprojects hroute hfits hrestore
      · rename_i hroute
        split at h
        · cases h
        · rename_i content hprocess
          cases h
          exact .process hprojects hroute hprocess
  · intro h
    cases h with
    | skip hproject => simp only [replayMessage, hproject]
    | ownApplication hproject hroute =>
      obtain ⟨⟨header, hprotocol⟩, hepoch⟩ := hproject
      simp only [replayMessage, hprotocol, hepoch, hroute]
    | ownCommit hproject hroute hfits hrestore =>
      obtain ⟨⟨header, hprotocol⟩, hepoch⟩ := hproject
      simp only [replayMessage, hprotocol, hepoch, hroute]
      exact realizeOwnCommit_eq_ok.mpr ⟨hfits, _, hrestore, rfl⟩
    | process hproject hroute hprocess =>
      obtain ⟨⟨header, hprotocol⟩, hepoch⟩ := hproject
      simp only [replayMessage, hprotocol, hepoch, hroute, hprocess]

variable {messages : List TransportMessage}

theorem processOpenmlsMessagesInner_eq_ok {group : σ} {output : OpenMlsReplayOutput} :
    processOpenmlsMessagesInner codec mls own group messages = .ok output ↔
      ∃ state, replayMessages codec mls own (.start mls group) messages = .ok state ∧
        state.output mls = output := by
  unfold processOpenmlsMessagesInner
  cases replayMessages codec mls own (.start mls group) messages with
  | error err => simp
  | ok state => simp

theorem replayMessages_cons_eq_ok :
    replayMessages codec mls own state (message :: messages) = .ok state' ↔
      ∃ next, ReplayStep codec mls own state message next ∧
        replayMessages codec mls own next messages = .ok state' := by
  simp only [← replayMessage_eq_ok]
  rw [replayMessages]
  cases replayMessage codec mls own state message with
  | error err => simp
  | ok next => simp

theorem replayMessages_append {state mid : ReplayState σ} {messages more : List TransportMessage}
    (h : replayMessages codec mls own state messages = .ok mid) :
    replayMessages codec mls own state (messages ++ more) =
      replayMessages codec mls own mid more := by
  induction messages generalizing state with
  | nil =>
    cases h
    rfl
  | cons message messages ih =>
    obtain ⟨next, hstep, hrest⟩ := replayMessages_cons_eq_ok.mp h
    rw [List.cons_append, replayMessages, replayMessage_eq_ok.mpr hstep]
    exact ih hrest

/-- What holds at the start and is kept by every replayed message holds at the end. -/
theorem replayMessages_induction {P : List TransportMessage → ReplayState σ → Prop}
    {start state : ReplayState σ} (hstart : P [] start)
    (hstep : ∀ before mid message next, P before mid → ReplayStep codec mls own mid message next →
      P (before ++ [message]) next) (h : replayMessages codec mls own start messages = .ok state) :
    P messages state := by
  -- The loop consumes messages at the front while `P` grows at the back.
  suffices hrun : ∀ (messages before : List TransportMessage) (mid : ReplayState σ),
      P before mid → replayMessages codec mls own mid messages = .ok state →
        P (before ++ messages) state from hrun messages [] start hstart h
  intro messages
  induction messages with
  | nil =>
    intro before mid hmid h
    cases h
    rwa [List.append_nil]
  | cons message messages ih =>
    intro before mid hmid h
    obtain ⟨next, hmessage, hrest⟩ := replayMessages_cons_eq_ok.mp h
    rw [List.append_cons]
    exact ih _ next (hstep before mid message next hmid hmessage) hrest

theorem replayMessages_snoc {state mid state' : ReplayState σ}
    (h : replayMessages codec mls own state messages = .ok mid)
    (hstep : ReplayStep codec mls own mid message state') :
    replayMessages codec mls own state (messages ++ [message]) = .ok state' := by
  rw [replayMessages_append h]
  exact replayMessages_cons_eq_ok.mpr ⟨state', hstep, rfl⟩

end Step

end Mdk
