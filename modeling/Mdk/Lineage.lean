/-
When a replayed candidate path is a genuine lineage.

A group state is identified by the commits that produced it, and every commit was
made on one state, its true parent.  MLS merges a commit on its true parent only, so
a commit that goes through MLS extends the lineage of the replayed state.  An own
commit is realized from its checkpoint instead, which holds the state after the
commit on its *true* parent, whatever state the replay has reached.  The replay
guards this with the epoch and with `prefixCanonical`, and neither sees that an own
commit replayed earlier was parked: a parked own commit and a later own commit made
on the other side of the fork replay one after the other.

Main results:
* `genuine_replays_iff` — **all replays from an anchor are genuine lineages exactly
  when no own commit starts at the epoch of a canonical lineage it was not made on**;
* `parked_commit_replays_under_its_rival` — the stored set on which they are not.
-/
import Mdk.Replay

namespace Mdk

open PrevalidatedOwnCommits List

/-! ### The true history -/

section History

variable {σ : Type} {codec : WireCodec} {mls : MlsReplay σ} {own : PrevalidatedOwnCommits}

/-- The commits that produced a state, and the state (as such a sequence) a commit was
made on. -/
structure History (σ : Type) where
  lineage : σ → List Digest
  parent : Digest → List Digest

/-- MLS and the stored checkpoints follow the history. -/
structure History.Sound (H : History σ) (codec : WireCodec) (mls : MlsReplay σ)
    (rows : List MessageRecord) : Prop where
  /-- A commit is merged on its true parent only. -/
  merge : ∀ {group kind message content}, mls.process group kind message = .ok content →
    content.merges = true →
      H.lineage group = H.parent (codec.messageDigest message.payload) ∧
      H.lineage content.group = H.lineage group ++ [codec.messageDigest message.payload]
  /-- No other message changes the lineage. -/
  keep : ∀ {group kind message content}, mls.process group kind message = .ok content →
    content.merges = false → H.lineage content.group = H.lineage group
  /-- The checkpoint of an own commit holds that commit on its true parent. -/
  checkpoint : ∀ {record digest stamp checkpointId group}, record ∈ rows →
    StampedRow codec record digest stamp → stamp.checkpointId = some checkpointId →
    mls.restoreGroupStateCheckpoint checkpointId = .ok group →
      H.lineage group = H.parent digest ++ [digest]

theorem History.Sound.of_subset {H : History σ} {rows rows' : List MessageRecord}
    (hsound : H.Sound codec mls rows) (hsubset : rows' ⊆ rows) : H.Sound codec mls rows' where
  merge := hsound.merge
  keep := hsound.keep
  checkpoint hrecord := hsound.checkpoint (hsubset hrecord)

/-- The digests of the messages the replay has observed as commits. -/
def stagedCommits (codec : WireCodec) (messages : List TransportMessage)
    (observations : List OpenMlsReplayObservation) : List Digest :=
  (messages.zip observations).filterMap fun (message, observation) =>
    match observation with
    | .commitStaged .. => some (codec.messageDigest message.payload)
    | _ => none

/-- In this state of the replay the message is an own commit, to be realized from its
checkpoint. -/
def Realizes (codec : WireCodec) (own : PrevalidatedOwnCommits) (state : ReplayState σ)
    (message : TransportMessage) : Prop :=
  ∃ projection sourceEpoch stamp, Projects codec message projection sourceEpoch ∧
    replayRoute own state.prefixCanonical message projection = .ownCommit stamp

/-- A replay that follows the true history: own commits are realized on their true
parents, and the final state is the one the replayed commits produce. -/
structure GenuineReplay (H : History σ) (codec : WireCodec) (mls : MlsReplay σ)
    (own : PrevalidatedOwnCommits) (anchor : σ) (messages : List TransportMessage)
    (state : ReplayState σ) : Prop where
  realized : ∀ before message after mid, messages = before ++ message :: after →
    replayMessages codec mls own (.start mls anchor) before = .ok mid →
    Realizes codec own mid message →
      H.parent (codec.messageDigest message.payload) = H.lineage mid.group
  final : H.lineage state.group =
    H.lineage anchor ++ stagedCommits codec messages state.observations

/-- Every message list that is replayed successfully is replayed genuinely. -/
def GenuineReplays (H : History σ) (codec : WireCodec) (mls : MlsReplay σ)
    (own : PrevalidatedOwnCommits) (anchor : σ) : Prop :=
  ∀ messages output, processOpenmlsMessagesInner codec mls own anchor messages = .ok output →
    ∃ state, replayMessages codec mls own (.start mls anchor) messages = .ok state ∧
      GenuineReplay H codec mls own anchor messages state

/-! ### Canonical lineages -/

/-- An own commit whose checkpoint can be restored, leading to `group`. -/
def OwnCommit (codec : WireCodec) (mls : MlsReplay σ) (own : PrevalidatedOwnCommits)
    (message : TransportMessage) (sourceEpoch : UInt64) (group : σ) : Prop :=
  ∃ projection stamp, Projects codec message projection sourceEpoch ∧
    projection.kind = .commit ∧ own.stamp projection.messageDigest = some stamp ∧
    restoreOwnCheckpoint mls stamp (sourceEpoch.saturatingAdd 1) = .ok group

/-- The states that canonical commits of others, and own commits on their true
parents, lead to from the anchor. -/
inductive CanonicalLineage (H : History σ) (codec : WireCodec) (mls : MlsReplay σ)
    (own : PrevalidatedOwnCommits) (anchor : σ) : σ → Prop
  | anchor : CanonicalLineage H codec mls own anchor anchor
  | process {group : σ} {message : TransportMessage} {projection : OpenMlsMessageProjection}
      {sourceEpoch : UInt64} {content : ProcessedContent σ}
      (hgroup : CanonicalLineage H codec mls own anchor group)
      (hproject : Projects codec message projection sourceEpoch)
      (hroute : replayRoute own true message projection = .process)
      (hprocess : mls.process group projection.kind message = .ok content)
      (hcanonical : content.merges = true → own.isCanonical projection.messageDigest = true) :
      CanonicalLineage H codec mls own anchor content.group
  | own {group next : σ} {message : TransportMessage} {sourceEpoch : UInt64}
      (hgroup : CanonicalLineage H codec mls own anchor group)
      (hown : OwnCommit codec mls own message sourceEpoch next)
      (hepoch : mls.epoch group = sourceEpoch)
      (hparent : H.parent (codec.messageDigest message.payload) = H.lineage group) :
      CanonicalLineage H codec mls own anchor next

/-- No own commit starts at the epoch of a canonical lineage it was not made on. -/
def OwnCommitsFit (H : History σ) (codec : WireCodec) (mls : MlsReplay σ)
    (own : PrevalidatedOwnCommits) (anchor : σ) : Prop :=
  ∀ group message sourceEpoch next, CanonicalLineage H codec mls own anchor group →
    OwnCommit codec mls own message sourceEpoch next → mls.epoch group = sourceEpoch →
      H.parent (codec.messageDigest message.payload) = H.lineage group

/-! ### The two directions -/

variable {messages : List TransportMessage}

theorem stagedCommits_snoc {observations : List OpenMlsReplayObservation}
    (message : TransportMessage) (observation : OpenMlsReplayObservation)
    (hlength : observations.length = messages.length) :
    stagedCommits codec (messages ++ [message]) (observations ++ [observation]) =
      stagedCommits codec messages observations ++
        stagedCommits codec [message] [observation] := by
  unfold stagedCommits
  rw [zip_append hlength.symm, filterMap_append]

theorem restoreOwnCheckpoint_eq_ok {stamp : OwnCommitConvergenceStamp} {resultingEpoch : UInt64}
    {group : σ} (h : restoreOwnCheckpoint mls stamp resultingEpoch = .ok group) :
    ∃ checkpointId, stamp.checkpointId = some checkpointId ∧
      mls.restoreGroupStateCheckpoint checkpointId = .ok group := by
  unfold restoreOwnCheckpoint at h
  split at h
  · rename_i checkpointId expectedAuthenticator hid hauthenticator
    split at h
    · cases h
    · cases h
    · rename_i restored hrestored
      split at h
      · cases h
      · cases h
        exact ⟨checkpointId, hid, hrestored⟩
  · cases h

variable {H : History σ} {anchor : σ}

/-- What the replay has reached after `messages`. -/
structure ReplayInv (H : History σ) (codec : WireCodec) (mls : MlsReplay σ)
    (own : PrevalidatedOwnCommits) (anchor : σ) (messages : List TransportMessage)
    (state : ReplayState σ) : Prop where
  canonical : state.prefixCanonical = true → CanonicalLineage H codec mls own anchor state.group
  lineage : H.lineage state.group =
    H.lineage anchor ++ stagedCommits codec messages state.observations
  length : state.observations.length = messages.length

variable {message : TransportMessage}

/-- One more message: what there is to show is how the group and the flag change. -/
theorem ReplayInv.snoc {state next : ReplayState σ} {observation : OpenMlsReplayObservation}
    (hinv : ReplayInv H codec mls own anchor messages state)
    (hobserved : next.observations = state.observations ++ [observation])
    (hcanonical : next.prefixCanonical = true → CanonicalLineage H codec mls own anchor next.group)
    (hlineage : H.lineage next.group =
      H.lineage state.group ++ stagedCommits codec [message] [observation]) :
    ReplayInv H codec mls own anchor (messages ++ [message]) next := by
  refine ⟨hcanonical, ?_, ?_⟩
  · rw [hlineage, hinv.lineage, hobserved, stagedCommits_snoc message observation hinv.length,
      append_assoc]
  · rw [hobserved, length_append, length_append, hinv.length]
    rfl

variable {rows : List MessageRecord}

theorem ReplayInv.processed (hsound : H.Sound codec mls rows) {state : ReplayState σ}
    {projection : OpenMlsMessageProjection} {sourceEpoch : UInt64} {content : ProcessedContent σ}
    (hinv : ReplayInv H codec mls own anchor messages state)
    (hproject : Projects codec message projection sourceEpoch)
    (hroute : replayRoute own state.prefixCanonical message projection = .process)
    (hprocess : mls.process state.group projection.kind message = .ok content) :
    ReplayInv H codec mls own anchor (messages ++ [message])
      (state.processed mls own message.id projection sourceEpoch content) := by
  have hcanonical : state.prefixCanonical = true →
      (content.merges = true → own.isCanonical projection.messageDigest = true) →
      CanonicalLineage H codec mls own anchor content.group := by
    intro hflag hmerges
    rw [hflag] at hroute
    exact .process (hinv.canonical hflag) hproject hroute hprocess hmerges
  have hkeep : content.merges = false → H.lineage content.group =
      H.lineage state.group ++ [] := by
    intro hmerges
    rw [hsound.keep hprocess hmerges, append_nil]
  cases content with
  | ignored group => exact hinv.snoc rfl (fun hflag => hcanonical hflag nofun) (hkeep rfl)
  | proposalStored group proposalRef =>
    exact hinv.snoc rfl (fun hflag => hcanonical hflag nofun) (hkeep rfl)
  | applicationProcessed group sender payload decryptedPayloadRef =>
    exact hinv.snoc rfl (fun hflag => hcanonical hflag nofun) (hkeep rfl)
  | commitMerged group priority committer consumedProposalRefs =>
    -- The flag survives a merged commit only if the commit is canonical itself.
    refine hinv.snoc rfl (fun hflag => ?_) (hsound.merge hprocess rfl).2
    obtain ⟨hbefore, hdigest⟩ := Bool.and_eq_true_iff.mp hflag
    exact hcanonical hbefore fun _ => hdigest

/-- The checkpoints of the own commits the replay knows hold them on their true
parents. -/
def CheckpointsTrue (H : History σ) (mls : MlsReplay σ) (own : PrevalidatedOwnCommits) : Prop :=
  ∀ digest stamp resultingEpoch group, own.stamp digest = some stamp →
    restoreOwnCheckpoint mls stamp resultingEpoch = .ok group →
      H.lineage group = H.parent digest ++ [digest]

theorem ReplayInv.step (hsound : H.Sound codec mls rows) (hcheckpoints : CheckpointsTrue H mls own)
    (hfit : OwnCommitsFit H codec mls own anchor) {state next : ReplayState σ}
    (hinv : ReplayInv H codec mls own anchor messages state)
    (hstep : ReplayStep codec mls own state message next) :
    ReplayInv H codec mls own anchor (messages ++ [message]) next := by
  cases hstep with
  | skip hproject => exact hinv.snoc rfl hinv.canonical (append_nil _).symm
  | ownApplication hproject hroute =>
    exact hinv.snoc rfl hinv.canonical (append_nil _).symm
  | process hproject hroute hprocess => exact hinv.processed hsound hproject hroute hprocess
  | @ownCommit projection sourceEpoch stamp group hproject hroute hepoch hrestore =>
    obtain ⟨hflag, hkind, hstamp⟩ := replayRoute_eq_ownCommit.mp hroute
    have hown : OwnCommit codec mls own message sourceEpoch group :=
      ⟨projection, stamp, hproject, hkind, hstamp, hrestore⟩
    -- The replay stands on a canonical lineage, so the commit was made on it.
    have hparent := hfit state.group message sourceEpoch group (hinv.canonical hflag) hown hepoch
    refine hinv.snoc rfl (fun _ => .own (hinv.canonical hflag) hown hepoch hparent) ?_
    show H.lineage group = H.lineage state.group ++ [codec.messageDigest message.payload]
    rw [hcheckpoints _ _ _ _ hstamp hrestore, hproject.digest, hparent]

theorem ReplayInv.run (hsound : H.Sound codec mls rows) (hcheckpoints : CheckpointsTrue H mls own)
    (hfit : OwnCommitsFit H codec mls own anchor) {state : ReplayState σ}
    (h : replayMessages codec mls own (.start mls anchor) messages = .ok state) :
    ReplayInv H codec mls own anchor messages state := by
  refine replayMessages_induction (P := ReplayInv H codec mls own anchor) ?_ ?_ h
  · exact ⟨fun _ => .anchor, (append_nil _).symm, rfl⟩
  · intro before mid message next hinv hstep
    exact hinv.step hsound hcheckpoints hfit hstep

theorem genuineReplays_of_fit (hsound : H.Sound codec mls rows)
    (hcheckpoints : CheckpointsTrue H mls own) (hfit : OwnCommitsFit H codec mls own anchor) :
    GenuineReplays H codec mls own anchor := by
  intro messages output houtput
  obtain ⟨state, hreplay, -⟩ := processOpenmlsMessagesInner_eq_ok.mp houtput
  refine ⟨state, hreplay, ?_, (ReplayInv.run hsound hcheckpoints hfit hreplay).lineage⟩
  rintro before message after mid rfl hbefore ⟨projection, sourceEpoch, stamp, hproject, hroute⟩
  -- The own commit is replayed from `mid`, so it fits its epoch and has a checkpoint.
  rw [replayMessages_append hbefore] at hreplay
  obtain ⟨next, hstep, -⟩ := replayMessages_cons_eq_ok.mp hreplay
  have hmessage := replayMessage_eq_ok.mpr hstep
  have hinv := ReplayInv.run hsound hcheckpoints hfit hbefore
  obtain ⟨hflag, hkind, hstamp⟩ := replayRoute_eq_ownCommit.mp hroute
  obtain ⟨⟨header, hprotocol⟩, hsource⟩ := hproject
  simp only [replayMessage, hprotocol, hsource, hroute] at hmessage
  obtain ⟨hepoch, group, hrestore, -⟩ := realizeOwnCommit_eq_ok.mp hmessage
  exact hfit mid.group message sourceEpoch group (hinv.canonical hflag)
    ⟨projection, stamp, ⟨⟨header, hprotocol⟩, hsource⟩, hkind, hstamp, hrestore⟩ hepoch

/-- A canonical lineage is what some list of messages replays to. -/
theorem CanonicalLineage.replayed {group : σ}
    (h : CanonicalLineage H codec mls own anchor group) :
    ∃ messages state, replayMessages codec mls own (.start mls anchor) messages = .ok state ∧
      state.group = group ∧ state.prefixCanonical = true := by
  induction h with
  | anchor => exact ⟨[], _, rfl, rfl, rfl⟩
  | @process group message projection sourceEpoch content hgroup hproject hroute hprocess
      hcanonical ih =>
    obtain ⟨messages, state, hreplay, rfl, hflag⟩ := ih
    have hstep : ReplayStep codec mls own state message
        (state.processed mls own message.id projection sourceEpoch content) :=
      .process hproject (by rw [hflag]; exact hroute) hprocess
    refine ⟨_, _, replayMessages_snoc hreplay hstep, ?_⟩
    cases content with
    | ignored group => exact ⟨rfl, hflag⟩
    | proposalStored group proposalRef => exact ⟨rfl, hflag⟩
    | applicationProcessed group sender payload decryptedPayloadRef => exact ⟨rfl, hflag⟩
    | commitMerged group priority committer consumedProposalRefs =>
      exact ⟨rfl, Bool.and_eq_true_iff.mpr ⟨hflag, hcanonical rfl⟩⟩
  | @own group next message sourceEpoch hgroup hown hepoch hparent ih =>
    obtain ⟨messages, state, hreplay, rfl, hflag⟩ := ih
    obtain ⟨projection, stamp, hproject, hkind, hstamp, hrestore⟩ := hown
    have hroute : replayRoute own state.prefixCanonical message projection = .ownCommit stamp :=
      replayRoute_eq_ownCommit.mpr ⟨hflag, hkind, hstamp⟩
    exact ⟨_, _, replayMessages_snoc hreplay (.ownCommit hproject hroute hepoch hrestore), rfl,
      hflag⟩

theorem fit_of_genuineReplays (hgenuine : GenuineReplays H codec mls own anchor) :
    OwnCommitsFit H codec mls own anchor := by
  rintro group message sourceEpoch next hgroup ⟨projection, stamp, hproject, hkind, hstamp,
    hrestore⟩ hepoch
  obtain ⟨messages, state, hreplay, rfl, hflag⟩ := hgroup.replayed
  have hroute : replayRoute own state.prefixCanonical message projection = .ownCommit stamp :=
    replayRoute_eq_ownCommit.mpr ⟨hflag, hkind, hstamp⟩
  have hsnoc := replayMessages_snoc hreplay (.ownCommit hproject hroute hepoch hrestore)
  obtain ⟨final, -, hgenuine⟩ :=
    hgenuine _ _ (processOpenmlsMessagesInner_eq_ok.mpr ⟨_, hsnoc, rfl⟩)
  exact hgenuine.realized messages message [] state rfl hreplay
    ⟨projection, sourceEpoch, stamp, hproject, hroute⟩

/-- **The replays from an anchor are genuine lineages, all of them, exactly when no
own commit starts at the epoch of a canonical lineage it was not made on.** -/
theorem genuine_replays_iff {rows : List MessageRecord} {groupId : GroupId}
    {currentEpoch retainedAnchorEpoch : UInt64} {admitted : Option (List String)}
    {inputs : StoredOpenMlsGraphInputs}
    (hseed : seedStoredOpenmlsGraphInputs codec rows groupId currentEpoch retainedAnchorEpoch
      admitted = .ok inputs)
    (hsound : H.Sound codec mls rows) :
    GenuineReplays H codec mls inputs.ownCommits anchor ↔
      OwnCommitsFit H codec mls inputs.ownCommits anchor := by
  refine ⟨fit_of_genuineReplays, genuineReplays_of_fit hsound ?_⟩
  intro digest stamp resultingEpoch group hstamp hrestore
  obtain ⟨record, hrecord, hrow⟩ := stamp_seed hseed hstamp
  obtain ⟨checkpointId, hid, hrestored⟩ := restoreOwnCheckpoint_eq_ok hrestore
  exact hsound.checkpoint hrecord hrow hid hrestored

end History

/-! ### A parked own commit beside its rival

At epoch 10 this device has confirmed a commit (byte 1), and the commit of another
member (byte 2) has won.  The own commit is parked.  Later this device has confirmed
one more commit (byte 3), on its rival. -/

namespace ParkedFork

def digest (byte : UInt8) : Digest := Vector.replicate 32 byte

def parked : TransportMessage := ⟨"parked", [1], "relay", .groupMessage [0]⟩

def rival : TransportMessage := ⟨"rival", [2], "relay", .groupMessage [0]⟩

def successor : TransportMessage := ⟨"successor", [3], "relay", .groupMessage [0]⟩

def stamp (checkpointId : String) : OwnCommitConvergenceStamp :=
  ⟨[7], .ordinary, [], some checkpointId, some "authenticator"⟩

def codec : WireCodec where
  decode
    | [1] => .ok (.ownCommitWire parked (stamp "after parked"))
    | [2] => .ok (.openMlsWire rival)
    | [3] => .ok (.ownCommitWire successor (stamp "after successor"))
    | _ => .error "unknown payload"
  messageDigest bytes := digest (bytes.headD 0)
  parse
    | [1] => .ok (some ⟨.commit, 10⟩)
    | [2] => .ok (some ⟨.commit, 10⟩)
    | [3] => .ok (some ⟨.commit, 11⟩)
    | _ => .error (.decode "unknown message")

def history : History (List Digest) where
  lineage group := group
  parent d := if d = digest 3 then [digest 2] else []

/-- The states are the sequences of commits from epoch 10 on. -/
def mls : MlsReplay (List Digest) where
  epoch
    | [] => 10
    | [_] => 11
    | _ => 12
  epochAuthenticator _ := "authenticator"
  members _ := []
  process group _ message :=
    if message.payload = [2] ∧ group = [] then .ok (.commitMerged [digest 2] .ordinary [9] [])
    else .error (.replay "process_message: the commit was made on another state")
  restoreGroupStateCheckpoint checkpointId :=
    if checkpointId = "after parked" then .ok [digest 1]
    else if checkpointId = "after successor" then .ok [digest 2, digest 3]
    else .error (.snapshotMissing checkpointId)

/-- The stored rows of the first two commits. -/
def forkRows : List MessageRecord :=
  [⟨"parked", [0], 10, .convergenceDeferred, [1]⟩, ⟨"rival", [0], 10, .processed, [2]⟩]

/-- The row of the commit this device has made on the rival. -/
def successorRow : MessageRecord := ⟨"successor", [0], 11, .processed, [3]⟩

theorem sound : history.Sound codec mls (forkRows ++ [successorRow]) where
  merge := by
    intro group kind message content hprocess hmerges
    simp only [mls] at hprocess
    split at hprocess
    · rename_i hmessage
      cases hprocess
      rw [hmessage.1, hmessage.2]
      exact ⟨by decide, rfl⟩
    · cases hprocess
  keep := by
    intro group kind message content hprocess hmerges
    simp only [mls] at hprocess
    split at hprocess
    · cases hprocess
      cases hmerges
    · cases hprocess
  checkpoint := by
    rintro record d st checkpointId group hrecord ⟨-, payload, message, hdecode, hwire, hown, rfl⟩
      hid hrestore
    simp only [forkRows, cons_append, nil_append, mem_cons, not_mem_nil,
      or_false] at hrecord
    rcases hrecord with rfl | rfl | rfl
    · cases hdecode
      cases hwire
      cases hown
      cases hid
      cases hrestore
      rfl
    · cases hdecode
      cases hown
    · cases hdecode
      cases hwire
      cases hown
      cases hid
      cases hrestore
      rfl

/-- The own commits of the fork without and with the successor. -/
def forkCommits : PrevalidatedOwnCommits :=
  (({} : PrevalidatedOwnCommits).insertStamped (digest 1) (stamp "after parked")).insertCanonical
    (digest 2)

def ownCommits : PrevalidatedOwnCommits :=
  (forkCommits.insertCanonical (digest 3)).insertStamped (digest 3) (stamp "after successor")

theorem stamp_parked : ownCommits.stamp (digest 1) = some (stamp "after parked") := by
  rw [ownCommits, stamp_insertStamped, if_neg (by decide)]
  rw [stamp_insertCanonical, forkCommits,
    stamp_insertCanonical, stamp_insertStamped,
    if_pos rfl]

theorem stamp_successor : ownCommits.stamp (digest 3) = some (stamp "after successor") := by
  rw [ownCommits, stamp_insertStamped, if_pos rfl]

theorem stamp_forkCommits {d : Digest} {st : OwnCommitConvergenceStamp}
    (h : forkCommits.stamp d = some st) : d = digest 1 := by
  rw [forkCommits, stamp_insertCanonical,
    stamp_insertStamped] at h
  split at h
  · rename_i hd
    exact hd.symm
  · rw [stamp_default] at h
    cases h

/-- Before the successor there is one own commit, and it starts at the anchor. -/
theorem fit_forkCommits : OwnCommitsFit history codec mls forkCommits [] := by
  rintro group message sourceEpoch next - ⟨projection, st, hproject, -, hstamp, -⟩ hepoch
  have hdigest : codec.messageDigest message.payload = digest 1 := by
    rw [← hproject.digest, stamp_forkCommits hstamp]
  obtain ⟨⟨header, hprotocol⟩, hsource⟩ := hproject
  have hstart : sourceEpoch = 10 := by
    simp only [projectProtocolMessage, codec] at hprotocol
    split at hprotocol
    · cases hprotocol
    · cases hprotocol
    · rename_i hparse
      split at hparse
      · cases hparse
        cases hprotocol
        cases hsource
        rfl
      · cases hparse
        cases hprotocol
        cases hsource
        rfl
      · rename_i hpayload
        rw [hpayload] at hdigest
        exact absurd hdigest (by decide)
      · cases hparse
  rw [hstart] at hepoch
  rw [hdigest]
  -- Only the anchor itself has epoch 10.
  match group, hepoch with
  | [], _ => rfl
  | [_], hepoch => exact absurd (show (11 : UInt64) = 10 from hepoch) (by decide)
  | _ :: _ :: _, hepoch => exact absurd (show (12 : UInt64) = 10 from hepoch) (by decide)

theorem genuine_replays_before_successor :
    ∃ inputs, seedStoredOpenmlsGraphInputs codec forkRows [0] 11 10 none = .ok inputs ∧
      history.Sound codec mls forkRows ∧
      GenuineReplays history codec mls inputs.ownCommits [] := by
  have hsound : history.Sound codec mls forkRows :=
    sound.of_subset (subset_append_left _ _)
  obtain ⟨inputs, hseed, hown⟩ : ∃ inputs,
      seedStoredOpenmlsGraphInputs codec forkRows [0] 11 10 none = .ok inputs ∧
        inputs.ownCommits = forkCommits := ⟨_, rfl, rfl⟩
  refine ⟨inputs, hseed, hsound, (genuine_replays_iff hseed hsound).mpr ?_⟩
  rw [hown]
  exact fit_forkCommits

def afterParked : ReplayState (List Digest) :=
  ((ReplayState.start mls []).enter mls [digest 1]).observe
    (.commitStaged "parked" 10 11 .ordinary [7] [])

def afterSuccessor : ReplayState (List Digest) :=
  (afterParked.enter mls [digest 2, digest 3]).observe
    (.commitStaged "successor" 11 12 .ordinary [7] [])

theorem replayed :
    replayMessages codec mls ownCommits (.start mls []) [parked, successor] =
      .ok afterSuccessor := by
  have hparked : ReplayStep codec mls ownCommits (.start mls []) parked afterParked := by
    have hproject : Projects codec parked ⟨.commit, some 10, digest 1⟩ 10 := ⟨⟨_, rfl⟩, rfl⟩
    have hrestore : restoreOwnCheckpoint mls (stamp "after parked")
        ((10 : UInt64).saturatingAdd 1) = .ok [digest 1] := rfl
    exact .ownCommit hproject (replayRoute_eq_ownCommit.mpr ⟨rfl, rfl, stamp_parked⟩) rfl hrestore
  have hsuccessor : ReplayStep codec mls ownCommits afterParked successor afterSuccessor := by
    have hproject : Projects codec successor ⟨.commit, some 11, digest 3⟩ 11 := ⟨⟨_, rfl⟩, rfl⟩
    have hrestore : restoreOwnCheckpoint mls (stamp "after successor")
        ((11 : UInt64).saturatingAdd 1) = .ok [digest 2, digest 3] := rfl
    -- The flag is still set, and the epoch is the one the successor starts at.
    exact .ownCommit hproject (replayRoute_eq_ownCommit.mpr ⟨rfl, rfl, stamp_successor⟩) rfl
      hrestore
  refine replayMessages_cons_eq_ok.mpr ⟨afterParked, hparked, ?_⟩
  exact replayMessages_cons_eq_ok.mpr ⟨afterSuccessor, hsuccessor, rfl⟩

/-- The two own commits replay one after the other, although the second was made on
the rival: the state they lead to is not the one they produce. -/
theorem parked_commit_replays_under_its_rival :
    ∃ inputs, seedStoredOpenmlsGraphInputs codec (forkRows ++ [successorRow]) [0] 12 10 none =
        .ok inputs ∧
      history.Sound codec mls (forkRows ++ [successorRow]) ∧
      ¬ GenuineReplays history codec mls inputs.ownCommits [] := by
  refine ⟨_, rfl, sound, ?_⟩
  show ¬ GenuineReplays history codec mls ownCommits []
  intro hgenuine
  obtain ⟨state, hreplay, hstate⟩ :=
    hgenuine _ _ (processOpenmlsMessagesInner_eq_ok.mpr ⟨_, replayed, rfl⟩)
  rw [replayed] at hreplay
  cases hreplay
  have hfinal : [digest 2, digest 3] = [digest 1, digest 3] := hstate.final
  exact absurd hfinal (by decide)

end ParkedFork

end Mdk
