/-
The batch of a pass, from its rows.

A pass lists the rows of the group state by state, reads and projects each, and sorts
them into commits, which the search is given, and application messages, which are
matched with the candidates it returns.  Over commits and application messages of the
group that are inside the retained window, nothing is skipped on this way: what the
pass reads are the rows that may contribute, in the order the storage lists them.

Main results:
* `passStage_ready` — what a pass that gets to canonicalize has read and searched;
* `appBatch_passInput` — its canonicalization input holds application messages only.
-/
import Mdk.CleanPass
import Mdk.Passes

open Std (ExtTreeMap ExtTreeSet)

namespace Mdk

open List

/-! ### Reading the rows -/

/-- A stored message as a pass reads it. -/
structure InputRow where
  message : TransportMessage
  kind : OpenMlsContentKind
  sourceEpoch : UInt64
  digest : Digest
deriving DecidableEq, Repr

variable (world : PassWorld) (record : MessageRecord)

/-- The message of a row of the group, if it can be read. -/
def readRow : Option InputRow :=
  match world.codec.decode record.payload with
  | .error _ => none
  | .ok payload =>
    match payload.asOpenmlsWire with
    | none => none
    | some message =>
      match message.envelope with
      | .welcome _ => none
      | .groupMessage _ =>
        match projectMlsMessage world.codec message.payload with
        | .error _ => none
        | .ok projection =>
          projection.sourceEpoch.map fun sourceEpoch =>
            ⟨message, projection.kind, sourceEpoch, projection.messageDigest⟩

/-- The row holds a commit or an application message of the group, under its own id. -/
def isGroupInput : Bool :=
  decide (record.groupId = world.groupId) &&
    (readRow world record).any fun row =>
      decide (row.message.id = record.id) &&
        (decide (row.kind = .commit) || decide (row.kind = .application))

/-- What the search reads of a commit row. -/
def commitRow? : Option (UInt64 × Digest) :=
  (readRow world record).bind fun row =>
    if row.kind = .commit then some (row.sourceEpoch, row.digest) else none

/-- MLS replays the commit on no path, from no state. -/
def PassWorld.Dead (digest : Digest) : Prop :=
  ∀ own base, (world.oracle own base).Dead [] digest

/-- The row holds a commit that MLS replays nowhere. -/
def DeadRow : Prop :=
  ∃ key, commitRow? world record = some key ∧ world.Dead key.2

/-- Commits and application messages of one group, with ids of their own, in states
that may contribute, apart from commits that MLS replays nowhere. -/
structure GroupInputs (world : PassWorld) (rows : List MessageRecord) : Prop where
  readable : ∀ record ∈ rows, isGroupInput world record = true
  contributes : ∀ record ∈ rows,
    recordStateCanContributeToOpenmlsGraph record.state = true ∨ DeadRow world record
  distinct : (rows.map MessageRecord.id).Nodup

/-- The rows a pass reads. -/
def retained (rows : List MessageRecord) : List MessageRecord :=
  rows.filter fun record => recordStateCanContributeToOpenmlsGraph record.state

def appRow? : Option InputRow :=
  (readRow world record).bind fun row => if row.kind = .application then some row else none

/-- The row lies inside the retained window. -/
def rowInWindow (retainedAnchorEpoch : UInt64) (record : MessageRecord) : Bool :=
  decide (retainedAnchorEpoch ≤ record.epoch) &&
    (readRow world record).all fun row => decide (retainedAnchorEpoch ≤ row.sourceEpoch)

section Read

variable {world : PassWorld} {record : MessageRecord}

theorem readRow_eq_some {row : InputRow} (h : readRow world record = some row) :
    ∃ payload transportGroupId, world.codec.decode record.payload = .ok payload ∧
      payload.asOpenmlsWire = some row.message ∧
      row.message.envelope = .groupMessage transportGroupId ∧
      projectMlsMessage world.codec row.message.payload =
        .ok ⟨row.kind, some row.sourceEpoch, row.digest⟩ := by
  unfold readRow at h
  split at h
  · cases h
  rename_i payload hdecode
  split at h
  · cases h
  rename_i message hwire
  split at h
  · cases h
  rename_i transportGroupId henvelope
  split at h
  · cases h
  rename_i projection hproject
  obtain ⟨kind, epoch?, digest⟩ := projection
  cases epoch? with
  | none => cases h
  | some sourceEpoch =>
    cases h
    exact ⟨payload, transportGroupId, hdecode, hwire, henvelope, hproject⟩

theorem exists_readRow (h : isGroupInput world record = true) :
    record.groupId = world.groupId ∧ ∃ row, readRow world record = some row ∧
      row.message.id = record.id ∧ (row.kind = .commit ∨ row.kind = .application) := by
  rw [isGroupInput, Bool.and_eq_true, decide_eq_true_eq] at h
  refine ⟨h.1, ?_⟩
  cases hread : readRow world record with
  | none =>
    rw [hread] at h
    cases h.2
  | some row =>
    rw [hread] at h
    simp only [Option.any_some, Bool.and_eq_true, Bool.or_eq_true, decide_eq_true_eq] at h
    exact ⟨row, rfl, h.2⟩

end Read

/-! ### The batch of a pass -/

/-- An application message on the candidates of a pass. -/
def peeledApp (base : List Digest) (materialized : List MaterializedCandidate)
    (alreadyDeliveredAppIds : ExtTreeSet String) (row : InputRow) : PeeledMessage :=
  let observed := appMessageBranches world base materialized row.message
  ⟨row.message.id, hexEncode world.groupId,
    (observed.map AppMessageBranches.sender).getD row.message.source.toUTF8.toList,
    row.sourceEpoch, .appMessage
      { epoch := row.sourceEpoch
        decryptsOnBranches := (observed.map fun observed => observed.branchIds.toList).getD []
        decryptedPayloadRef := observed.bind AppMessageBranches.decryptedPayloadRef
        alreadyDelivered := alreadyDeliveredAppIds.contains row.message.id }⟩

section Batch

variable {world : PassWorld} {anchor : UInt64}

/-- What the rows of `records` add to a seed. -/
structure Seeded (world : PassWorld) (records : List MessageRecord) (acc seed : GraphSeed) :
    Prop where
  commits : seed.commitMessages.map StoredCommitMessage.key =
    acc.commitMessages.map StoredCommitMessage.key ++ records.filterMap (commitRow? world)
  pending : seed.pendingMessages =
    acc.pendingMessages ++ (records.filterMap (appRow? world)).map InputRow.message
  stale : seed.staleCommitDrops = acc.staleCommitDrops

theorem seedRecord_of_input {record : MessageRecord} {acc acc' : GraphSeed}
    (hinput : isGroupInput world record = true)
    (hcontributes : recordStateCanContributeToOpenmlsGraph record.state = true)
    (hwindow : rowInWindow world anchor record = true)
    (h : seedRecord world.codec world.groupId anchor acc record = .ok acc') :
    Seeded world [record] acc acc' := by
  obtain ⟨hgroup, row, hread, -, hkind⟩ := exists_readRow hinput
  obtain ⟨payload, transportGroupId, hdecode, hwire, henvelope, hproject⟩ := readRow_eq_some hread
  have hepoch : anchor ≤ row.sourceEpoch := by
    rw [rowInWindow, hread, Bool.and_eq_true] at hwindow
    simpa using hwindow.2
  have hseed : seedRecord world.codec world.groupId anchor acc record =
      .ok (acc.addProjected anchor record.state payload row.message
        ⟨row.kind, some row.sourceEpoch, row.digest⟩) := by
    simp only [seedRecord, hgroup, hcontributes, hdecode, hwire, henvelope, hproject, ne_eq,
      not_true_eq_false, if_false, Bool.not_true, Bool.false_eq_true]
  rw [hseed] at h
  cases h
  rcases hkind with hcommit | happ
  · have hnot : ¬ row.sourceEpoch < anchor := UInt64.not_lt.mpr hepoch
    simp only [GraphSeed.addProjected, hcommit, hnot, if_false]
    constructor <;> simp [GraphSeed.addCommit, commitRow?, appRow?, hread, hcommit,
      StoredCommitMessage.key]
  · simp only [GraphSeed.addProjected, happ, hepoch, if_true]
    constructor <;> simp [GraphSeed.addApplication, commitRow?, appRow?, hread, happ]

theorem seedRecords_of_inputs {records : List MessageRecord} {acc seed : GraphSeed}
    (hinput : ∀ record ∈ records, isGroupInput world record = true)
    (hcontributes : ∀ record ∈ records,
      recordStateCanContributeToOpenmlsGraph record.state = true)
    (hwindow : ∀ record ∈ records, rowInWindow world anchor record = true)
    (h : seedRecords world.codec world.groupId anchor acc records = .ok seed) :
    Seeded world records acc seed := by
  induction records generalizing acc with
  | nil =>
    cases h
    exact ⟨(append_nil _).symm, (append_nil _).symm, rfl⟩
  | cons record records ih =>
    rw [seedRecords] at h
    split at h
    · cases h
    rename_i next hnext
    have hfirst := seedRecord_of_input (hinput record mem_cons_self)
      (hcontributes record mem_cons_self) (hwindow record mem_cons_self) hnext
    have hrest := ih (fun r hr => hinput r (mem_cons_of_mem _ hr))
      (fun r hr => hcontributes r (mem_cons_of_mem _ hr))
      (fun r hr => hwindow r (mem_cons_of_mem _ hr)) h
    have hcons : record :: records = [record] ++ records := rfl
    refine ⟨?_, ?_, hrest.stale.trans hfirst.stale⟩
    · rw [hrest.commits, hfirst.commits, hcons, filterMap_append, append_assoc]
    · rw [hrest.pending, hfirst.pending, hcons, filterMap_append, map_append, append_assoc]

/-- Listing by state reads every row once. -/
theorem flatMap_filter_perm {α β : Type} [DecidableEq β] (f : α → β) {keys : List β}
    (hnodup : keys.Nodup) (l : List α) :
    (keys.flatMap fun k => l.filter fun a => decide (f a = k)).Perm
      (l.filter fun a => decide (f a ∈ keys)) := by
  induction keys with
  | nil => simp
  | cons k keys ih =>
    rw [nodup_cons] at hnodup
    rw [flatMap_cons]
    refine ((ih hnodup.2).append_left _).trans ?_
    -- Split the rows of all keys by whether they have the first one.
    have hsplit := filter_append_perm (fun a => decide (f a = k))
      (l.filter fun a => decide (f a ∈ k :: keys))
    rw [filter_filter, filter_filter] at hsplit
    refine List.Perm.trans (List.Perm.of_eq ?_) hsplit
    congr 1
    · refine filter_congr fun a _ => ?_
      by_cases h : f a = k <;> simp [h]
    · refine filter_congr fun a _ => ?_
      by_cases h : f a = k
      · simp [h, hnodup.1]
      · simp [h]

theorem graphInputRecords_perm {rows records : List MessageRecord}
    (hinputs : ∀ record ∈ rows, isGroupInput world record = true)
    (hwindow : ∀ record ∈ rows, rowInWindow world anchor record = true)
    (h : graphInputRecords rows world.groupId anchor none = .ok records) :
    records.Perm (retained rows) := by
  cases h
  have hlisted : ∀ state, listMessagesInStates rows world.groupId [state]
      (if state = .processed then anchor else 0) =
        rows.filter fun record => decide (record.state = state) := by
    intro state
    refine filter_congr fun record hrecord => ?_
    have hgroup := (exists_readRow (hinputs record hrecord)).1
    have hepoch : anchor ≤ record.epoch := by
      have := hwindow record hrecord
      rw [rowInWindow, Bool.and_eq_true, decide_eq_true_eq] at this
      exact this.1
    have hfloor : (if state = .processed then anchor else 0) ≤ record.epoch := by
      split
      · exact hepoch
      · exact UInt64.zero_le
    simp [hgroup, hfloor]
  simp only [hlisted]
  refine (flatMap_filter_perm MessageRecord.state (by decide) rows).trans ?_
  refine List.Perm.of_eq (filter_congr fun record _ => ?_)
  rw [recordStateCanContributeToOpenmlsGraph, List.contains_eq_mem]

variable {base : List Digest} {materialized : List MaterializedCandidate}

theorem projectPending_of_apps {rows : List InputRow} {delivered : ExtTreeSet String}
    (hrows : ∀ row ∈ rows, ∃ digest, projectMlsMessage world.codec row.message.payload =
      .ok ⟨.application, some row.sourceEpoch, digest⟩) :
    projectPendingCanonicalizationMessages world base materialized delivered
        (rows.map InputRow.message) =
      .ok (rows.map (peeledApp world base materialized delivered)) := by
  induction rows with
  | nil => rfl
  | cons row rows ih =>
    obtain ⟨digest, hproject⟩ := hrows row mem_cons_self
    have hmessage : projectPendingMessage world base materialized delivered row.message =
        .ok (some (peeledApp world base materialized delivered row)) := by
      simp only [projectPendingMessage, hproject]
      rfl
    rw [map_cons, projectPendingCanonicalizationMessages, hmessage,
      ih fun r hr => hrows r (mem_cons_of_mem _ hr)]
    rfl

theorem appRow?_eq_some {record : MessageRecord} {row : InputRow}
    (h : appRow? world record = some row) :
    readRow world record = some row ∧ row.kind = .application := by
  rw [appRow?, Option.bind_eq_some_iff] at h
  obtain ⟨row', hread, hrow⟩ := h
  split at hrow
  · rename_i hkind
    cases hrow
    exact ⟨hread, hkind⟩
  · cases hrow

theorem exists_digest_of_mem_apps {records : List MessageRecord} {row : InputRow}
    (h : row ∈ records.filterMap (appRow? world)) : ∃ digest,
      projectMlsMessage world.codec row.message.payload =
        .ok ⟨.application, some row.sourceEpoch, digest⟩ := by
  obtain ⟨record, -, hread⟩ := mem_filterMap.mp h
  obtain ⟨hread, hkind⟩ := appRow?_eq_some hread
  obtain ⟨-, -, -, -, -, hproject⟩ := readRow_eq_some hread
  rw [hkind] at hproject
  exact ⟨_, hproject⟩

/-- Application messages are no proposals. -/
theorem pendingProposalMessages_of_apps {own : PrevalidatedOwnCommits} {rows : List InputRow}
    (hrows : ∀ row ∈ rows, ∃ digest, projectMlsMessage world.codec row.message.payload =
      .ok ⟨.application, some row.sourceEpoch, digest⟩) :
    pendingProposalMessages (world.oracle own base) (rows.map InputRow.message) = .ok [] := by
  induction rows with
  | nil => rfl
  | cons row rows ih =>
    obtain ⟨digest, hproject⟩ := hrows row mem_cons_self
    have hkind : (world.oracle own base).projectKind row.message.payload = .ok .application := by
      simp only [PassWorld.oracle, hproject, Except.map]
    rw [map_cons, pendingProposalMessages, hkind, ih fun r hr => hrows r (mem_cons_of_mem _ hr)]
    rfl

theorem passBatch_ok {inputs : StoredOpenMlsGraphInputs} {budget : ReplayBudget}
    {paths : StoredOpenMlsCandidatePathResult} {batch : PassBatch}
    (h : passBatch world base inputs budget paths = .ok batch) :
    batch.materialized = passCandidates world paths.materialized ∧
      projectPendingCanonicalizationMessages world base batch.materialized
        inputs.alreadyDeliveredAppIds inputs.pendingMessages = .ok batch.pending := by
  rw [passBatch] at h
  split at h
  · cases h
  split at h
  · cases h
  dsimp only at h
  split at h
  · cases h
  rename_i pending hpending
  cases h
  exact ⟨rfl, hpending⟩

/-- What a pass that gets to canonicalize has read, searched and projected. -/
theorem passStage_ready {policy : CanonicalizationPolicy} {state : PassState}
    {arrival : PassArrival} {work : PassWork}
    (h : passStage world policy state arrival = .ok (.ready work)) :
    ∃ records seed, graphInputRecords (state.rows ++ arrival.arrived) world.groupId
        arrival.retainedAnchorEpoch none = .ok records ∧
      seedRecords world.codec world.groupId arrival.retainedAnchorEpoch {} records = .ok seed ∧
      work.inputs = seed.finish state.currentTipEpoch ∧
      (∃ budget, passPaths world (state.baseAt work.inputs.replayStartEpoch) work.inputs policy =
        (budget, .ok work.paths)) ∧
      work.batch.materialized = passCandidates world work.paths.materialized ∧
      projectPendingCanonicalizationMessages world (state.baseAt work.inputs.replayStartEpoch)
        work.batch.materialized work.inputs.alreadyDeliveredAppIds work.inputs.pendingMessages =
          .ok work.batch.pending := by
  rw [passStage, seedStoredOpenmlsGraphInputs] at h
  split at h
  · cases h
  rename_i inputs hseed
  split at hseed
  · cases hseed
  rename_i records hrecords
  split at hseed
  · cases hseed
  rename_i seed hseeded
  cases hseed
  split at h
  · cases h
  dsimp only at h
  split at h
  · cases h
  · cases h
  rename_i budget paths hpaths
  split at h
  · cases h
  rename_i batch hbatch
  cases h
  refine ⟨records, seed, hrecords, hseeded, rfl, ⟨budget, hpaths⟩, ?_⟩
  exact passBatch_ok hbatch

theorem mem_branchIds {message : TransportMessage} {branches : AppMessageBranches}
    (h : appMessageBranches world base materialized message = some branches) {branchId : String}
    (hmem : branchId ∈ branches.branchIds.toList) : ∃ c ∈ materialized, c.branch.id = branchId := by
  unfold appMessageBranches at h
  split at h
  · cases h
  rename_i first observed rest hobserved
  cases h
  rw [ExtTreeSet.mem_toList, ExtTreeSet.mem_ofList, contains_iff_mem] at hmem
  -- The branch ids are those of the candidates the message was observed on.
  have hids : first :: rest.map Prod.fst = (materialized.filterMap fun candidate =>
      (world.observe base candidate.branch.id message).map fun observed =>
        (candidate.branch.id, observed)).map Prod.fst := by
    rw [hobserved]
    rfl
  rw [hids] at hmem
  obtain ⟨entry, hentry, rfl⟩ := mem_map.mp hmem
  obtain ⟨c, hc, hseen⟩ := mem_filterMap.mp hentry
  obtain ⟨observed', -, rfl⟩ := Option.map_eq_some_iff.mp hseen
  exact ⟨c, hc, rfl⟩

theorem mem_decryptsOnBranches {message : TransportMessage} {branchId : String}
    (h : branchId ∈ ((appMessageBranches world base materialized message).map fun observed =>
      observed.branchIds.toList).getD []) : ∃ c ∈ materialized, c.branch.id = branchId := by
  cases hobserved : appMessageBranches world base materialized message with
  | none =>
    rw [hobserved] at h
    cases h
  | some branches =>
    rw [hobserved] at h
    exact mem_branchIds hobserved h

theorem appBatch_passInput {records : List MessageRecord}
    (hreadable : ∀ record ∈ records, isGroupInput world record = true)
    (hdistinct : (records.map MessageRecord.id).Nodup) (policy : CanonicalizationPolicy)
    (state : PassState) (arrival : PassArrival) {batch : PassBatch}
    {delivered : ExtTreeSet String} (hpending : batch.pending =
      (records.filterMap (appRow? world)).map (peeledApp world base materialized delivered)) :
    AppBatch (passInput policy state arrival batch) where
  seeds := rfl
  unseen id := by
    show (false || (∅ : ExtTreeSet String).contains id) = false
    simp
  distinct := by
    show (batch.pending.map PeeledMessage.messageId).Nodup
    have hids : (records.filterMap (appRow? world)).map (fun row => row.message.id) =
        (records.filter fun r => (appRow? world r).isSome).map MessageRecord.id := by
      rw [map_filterMap, ← filterMap_eq_map, filterMap_filter]
      refine filterMap_congr fun record hrecord => ?_
      cases happ : appRow? world record with
      | none => rfl
      | some row =>
        obtain ⟨-, row', hread, hid, -⟩ := exists_readRow (hreadable record hrecord)
        obtain rfl : row' = row := Option.some.inj (hread.symm.trans (appRow?_eq_some happ).1)
        simp [hid]
    rw [hpending, map_map]
    refine List.Nodup.sublist ?_ hdistinct
    exact hids ▸ filter_sublist.map MessageRecord.id
  apps m hm := by
    replace hm : m ∈ batch.pending := hm
    rw [hpending] at hm
    obtain ⟨row, -, rfl⟩ := mem_map.mp hm
    exact ⟨_, rfl⟩

end Batch

end Mdk
