/-
Different partitions of the same messages into passes.

The messages of a group reach a device in some order, and some of them before a pass
and some after it.  A pass keeps for the next one the rows it leaves in a state that
may contribute.  As long as it leaves them all there, the last pass of a run sees
every message whatever the partition, and selects the same branch from the same state.
Three things can come between:

* a pass invalidates an application message that was delivered on a branch that loses,
  and one that decrypts on no branch it knows of; neither is ever read again, although
  the first is evidence for its branch, and the second may be evidence for a branch
  whose commit is still to come;
* a pass drops a commit that it could replay on no path, although it may replay on one
  whose commits are still to come;
* a pass replays from the live tip, where commits that an earlier pass has applied, and
  the evidence for them, are out of the comparison.

Main results:
* `pass_partition_independent` — **two runs over the same messages select the same
  branch in their last pass, if no earlier pass loses evidence in one of these ways**;
* `WithdrawnWitness.withdrawn_witness_is_missed`, `WithdrawnWitness.dropped_child_is_missed`,
  `SharedHistory.shared_history_is_left_out` — for each of them, passes that select
  another branch than one pass over the same messages.
-/
import Mdk.PassBatch

open Std (ExtTreeMap ExtTreeSet)

namespace Mdk

open MessageRecord PassArrival List

/-! ### Runs -/

/-- The rows, branches and application messages of a pass are inside the windows, and
its budget is not capped. -/
def inWindow (world : PassWorld) (policy : CanonicalizationPolicy) (state : PassState)
    (arrival : PassArrival) : Bool :=
  (state.rows ++ arrival.arrived).all (rowInWindow world arrival.retainedAnchorEpoch) &&
    match passStage world policy state arrival with
    | .ok (.ready work) =>
      let input := passInput policy state arrival work.batch
      decide ((passBudget work.inputs policy).remaining.toNat < usizeMax) &&
        (work.batch.materialized.all fun c => (branchIneligibilityReason input c.branch).isNone) &&
        work.batch.pending.all fun message => message.app?.all (appInWindow input)
    | _ => false

/-- Every pass of the run is inside the windows. -/
def windowedRun (world : PassWorld) (policy : CanonicalizationPolicy) :
    PassState → List PassArrival → Bool
  | _, [] => true
  | state, arrival :: arrivals =>
    inWindow world policy state arrival &&
      match runPass world policy state arrival with
      | .error _ => false
      | .ok (_, next) => windowedRun world policy next arrivals

/-- The pass invalidates no application message inside the windows. -/
def keepsApps (world : PassWorld) (policy : CanonicalizationPolicy) (state : PassState)
    (arrival : PassArrival) : Bool :=
  match passStage world policy state arrival with
  | .ok (.ready work) =>
    let input := passInput policy state arrival work.batch
    work.batch.pending.all fun message =>
      message.app?.all (keepsApp input (selectedCandidate input work.batch.materialized))
  | _ => false

/-- The messages that the search of a pass drops. -/
def searchDrops (world : PassWorld) (policy : CanonicalizationPolicy) (state : PassState)
    (arrival : PassArrival) : List String :=
  match passStage world policy state arrival with
  | .ok (.ready work) => work.paths.invalidCommitDrops.map DroppedMessage.messageId
  | _ => []

/-- The pass loses nothing that may count in a later one: it invalidates no application
message, and drops no commit but such as MLS replays nowhere. -/
def KeepsEvidence (world : PassWorld) (policy : CanonicalizationPolicy) (state : PassState)
    (arrival : PassArrival) : Prop :=
  keepsApps world policy state arrival = true ∧
    ∀ record ∈ state.rows ++ arrival.arrived,
      record.id ∈ searchDrops world policy state arrival → DeadRow world record

/-- Every pass of the run but the last keeps the evidence it has. -/
def KeepsEvidenceRun (world : PassWorld) (policy : CanonicalizationPolicy) :
    PassState → List PassArrival → Prop
  | state, arrival :: second :: rest =>
    KeepsEvidence world policy state arrival ∧
      match runPass world policy state arrival with
      | .error _ => True
      | .ok (_, next) => KeepsEvidenceRun world policy next (second :: rest)
  | _, _ => True

/-- The epoch and the state a pass replays from, if it replays every retained commit. -/
def replayBase (world : PassWorld) (policy : CanonicalizationPolicy) (state : PassState)
    (arrival : PassArrival) : Option (UInt64 × List Digest) :=
  match passStage world policy state arrival with
  | .ok (.ready work) =>
    if work.inputs.commitMessages.length =
        ((retained (state.rows ++ arrival.arrived)).filterMap (commitRow? world)).length then
      some (work.inputs.replayStartEpoch, state.baseAt work.inputs.replayStartEpoch)
    else none
  | _ => none

/-- Where the last pass of a run replays from. -/
def lastReplayBase (world : PassWorld) (policy : CanonicalizationPolicy) :
    PassState → List PassArrival → Option (UInt64 × List Digest)
  | _, [] => none
  | state, [arrival] => replayBase world policy state arrival
  | state, arrival :: second :: rest =>
    match runPass world policy state arrival with
    | .error _ => none
    | .ok (_, next) => lastReplayBase world policy next (second :: rest)

/-- The branch selected by the last pass of a run. -/
def selectedAfter (world : PassWorld) (policy : CanonicalizationPolicy) (state : PassState)
    (arrivals : List PassArrival) : Option (Option String) :=
  match runPasses world policy state arrivals with
  | .error _ => none
  | .ok (results, _) => results.getLast?.map CanonicalizationResult.selectedBranchId

/-- What is assumed of MLS: what a path replays to does not depend on which of the
device's own commits are marked as such. -/
structure PassWorld.Lawful (world : PassWorld) : Prop where
  replay_own : ∀ own own' base, world.replay own base = world.replay own' base

section Run

variable {world : PassWorld} {policy : CanonicalizationPolicy}

theorem GroupInputs.of_identity {rows rows' : List MessageRecord} (h : GroupInputs world rows)
    (hperm : (rows'.map identity).Perm (rows.map identity))
    (hcontributes : ∀ record ∈ rows',
      recordStateCanContributeToOpenmlsGraph record.state = true ∨ DeadRow world record) :
    GroupInputs world rows' where
  readable := by
    intro record hrecord
    obtain ⟨old, hold, hidentity⟩ := mem_map.mp
      (hperm.mem_iff.mp (mem_map_of_mem hrecord))
    have hread : isGroupInput world record.identity = true := by
      rw [← hidentity]
      exact h.readable old hold
    exact hread
  contributes := hcontributes
  distinct := by
    have hids := hperm.map MessageRecord.id
    rw [map_map, map_map] at hids
    exact hids.nodup_iff.mpr h.distinct

theorem GroupInputs.sublist {rows rows' : List MessageRecord} (h : GroupInputs world rows)
    (hsublist : rows'.Sublist rows) : GroupInputs world rows' :=
  ⟨fun r hr => h.readable r (hsublist.subset hr), fun r hr => h.contributes r (hsublist.subset hr),
    (hsublist.map _).nodup h.distinct⟩

/-- What is read of the retained rows is read of all of them, if it is nothing that a
dead commit has. -/
theorem GroupInputs.filterMap_retained {α : Type} {f : MessageRecord → Option α}
    {rows : List MessageRecord} (h : GroupInputs world rows)
    (hf : ∀ record, DeadRow world record → f record = none) :
    (retained rows).filterMap f = rows.filterMap f := by
  rw [retained, filterMap_filter]
  refine filterMap_congr fun record hrecord => ?_
  rcases h.contributes record hrecord with hcontributes | hdead
  · rw [if_pos hcontributes]
  · rw [hf record hdead, ite_self]

theorem branchesEligible_of_all {input : CanonicalizationInput}
    {materialized : List MaterializedCandidate}
    (h : (materialized.all fun c => (branchIneligibilityReason input c.branch).isNone) = true) :
    BranchesEligible input materialized := by
  intro m hm
  exact Option.isNone_iff_eq_none.mp (all_eq_true.mp h m hm)

/-- A pass that gets to canonicalize, with what it has read and searched spelled out. -/
structure PassOver (world : PassWorld) (policy : CanonicalizationPolicy) (state : PassState)
    (arrival : PassArrival) (work : PassWork) (records : List MessageRecord) (seed : GraphSeed) :
    Prop where
  rows : GroupInputs world (state.rows ++ arrival.arrived)
  stage : passStage world policy state arrival = .ok (.ready work)
  perm : records.Perm (retained (state.rows ++ arrival.arrived))
  seeded : Seeded world records {} seed
  inputs : work.inputs = seed.finish state.currentTipEpoch
  search : ∃ budget, passPaths world (state.baseAt work.inputs.replayStartEpoch) work.inputs
    policy = (budget, .ok work.paths)
  budget : (passBudget work.inputs policy).remaining.toNat < usizeMax
  materialized : work.batch.materialized = passCandidates world work.paths.materialized
  pending : work.batch.pending = (records.filterMap (appRow? world)).map
    (peeledApp world (state.baseAt work.inputs.replayStartEpoch) work.batch.materialized
      seed.alreadyDeliveredAppIds)
  eligible : BranchesEligible (passInput policy state arrival work.batch) work.batch.materialized
  window : ∀ m ∈ work.batch.pending, ∀ app, m.kind = .appMessage app →
    appInWindow (passInput policy state arrival work.batch) app = true

variable {state : PassState} {arrival : PassArrival}

theorem app?_eq_some {m : PeeledMessage} {app : AppPayload} (h : m.kind = .appMessage app) :
    m.app? = some app := by
  rw [PeeledMessage.app?, h]

theorem exists_passOver (hinputs : GroupInputs world (state.rows ++ arrival.arrived))
    (hwindow : inWindow world policy state arrival = true) :
    ∃ work records seed, PassOver world policy state arrival work records seed := by
  rw [inWindow, Bool.and_eq_true, all_eq_true] at hwindow
  obtain ⟨hrows, hstage⟩ := hwindow
  split at hstage
  · rename_i work hready
    simp only [Bool.and_eq_true, decide_eq_true_eq, all_eq_true] at hstage
    obtain ⟨records, seed, hrecords, hseeded, hfinish, hsearch, hmaterialized, hpending⟩ :=
      passStage_ready hready
    have hperm := graphInputRecords_perm hinputs.readable hrows hrecords
    have hmem : ∀ record ∈ records, record ∈ state.rows ++ arrival.arrived ∧
        recordStateCanContributeToOpenmlsGraph record.state = true :=
      fun record hrecord => mem_filter.mp (hperm.mem_iff.mp hrecord)
    have hseed := seedRecords_of_inputs (fun r hr => hinputs.readable r (hmem r hr).1)
      (fun r hr => (hmem r hr).2) (fun r hr => hrows r (hmem r hr).1) hseeded
    refine ⟨work, records, seed, hinputs, hready, hperm, hseed, hfinish, hsearch, hstage.1.1,
      hmaterialized, ?_, branchesEligible_of_all (all_eq_true.mpr hstage.1.2), ?_⟩
    · have hmessages : work.inputs.pendingMessages =
          (records.filterMap (appRow? world)).map InputRow.message := by
        rw [hfinish]
        exact hseed.pending
      rw [hmessages, projectPending_of_apps fun row => exists_digest_of_mem_apps, hfinish]
        at hpending
      rw [hfinish]
      exact (Except.ok.inj hpending).symm
    · intro m hm app happ
      have := hstage.2 m hm
      rwa [app?_eq_some happ] at this
  · cases hstage

variable {work : PassWork} {records : List MessageRecord} {seed : GraphSeed}

theorem PassOver.readable (h : PassOver world policy state arrival work records seed) :
    ∀ record ∈ records, isGroupInput world record = true :=
  fun record hrecord =>
    h.rows.readable record (mem_of_mem_filter (h.perm.mem_iff.mp hrecord))

theorem PassOver.appBatch (h : PassOver world policy state arrival work records seed) :
    AppBatch (passInput policy state arrival work.batch) := by
  refine appBatch_passInput h.readable ?_ policy state arrival h.pending
  refine (h.perm.map MessageRecord.id).nodup_iff.mpr ?_
  exact h.rows.distinct.sublist (filter_sublist.map _)

/-- The state a pass leaves. -/
def PassWork.next (policy : CanonicalizationPolicy) (state : PassState) (arrival : PassArrival)
    (work : PassWork) : PassState :=
  ⟨persistOpenmlsCanonicalizationDispositions (state.rows ++ arrival.arrived)
      (work.result policy state arrival),
    (work.result policy state arrival).resultingTip,
    work.applied state (work.result policy state arrival).selectedBranchId⟩

theorem PassOver.runPass_eq (h : PassOver world policy state arrival work records seed) :
    runPass world policy state arrival =
      .ok (work.result policy state arrival, work.next policy state arrival) := by
  rw [runPass, h.stage]
  rfl

/-- A pass that keeps its evidence leaves every row to the next one, but for dead
commits. -/
theorem PassOver.keeps_rows (h : PassOver world policy state arrival work records seed)
    (hkeeps : KeepsEvidence world policy state arrival) :
    ∀ record ∈ (work.next policy state arrival).rows,
      recordStateCanContributeToOpenmlsGraph record.state = true ∨ DeadRow world record := by
  obtain ⟨happs, hdrops⟩ := hkeeps
  rw [keepsApps, h.stage, all_eq_true] at happs
  have hclean : (canonicalizeWithMaterializedCandidates (passInput policy state arrival work.batch)
      work.batch.materialized).Clean := by
    refine clean_canonicalize ⟨h.appBatch, h.eligible, ?_, h.window, ?_⟩
    · intro m hm app happ branchId hbranch
      replace hm : m ∈ work.batch.pending := hm
      rw [h.pending] at hm
      obtain ⟨row, -, rfl⟩ := mem_map.mp hm
      cases happ
      exact mem_decryptsOnBranches hbranch
    · intro m hm app happ
      have := happs m hm
      rwa [app?_eq_some happ] at this
  refine rows_of_result (fun _ _ hdead => hdead) hclean.invalidated ?_ h.rows.contributes
  -- What is dropped, the search has dropped: no row lies below the retained window.
  intro record hrecord hdropped
  refine hdrops record hrecord ?_
  rw [searchDrops, h.stage]
  have hstale : work.inputs.staleCommitDrops = [] := by
    rw [h.inputs]
    exact h.seeded.stale
  rcases mem_appendDroppedMessages hdropped with hdropped | hdropped
  · rcases mem_appendDroppedMessages hdropped with hdropped | hdropped
    · rw [hclean.dropped] at hdropped
      cases hdropped
    · exact hdropped
  · rw [hstale] at hdropped
    cases hdropped

/-! ### The last pass -/

/-- Where every branch is inside the horizon, the tip of the pass does not matter. -/
theorem selectCanonicalBranch_of_eligible {input : CanonicalizationInput}
    {cs : List BranchCandidate} (h : ∀ c ∈ cs, branchIneligibilityReason input c = none) :
    selectCanonicalBranch input.state.currentTipEpoch cs input.policy.convergence =
      Comparison.maxBy (compareBranches input.policy.convergence) cs := by
  rw [selectCanonicalBranch, filter_eq_self.mpr]
  intro c hc
  have hreason := h c hc
  rw [branchIneligibilityReason] at hreason
  split at hreason
  · cases hreason
  · split at hreason
    · cases hreason
    · rename_i heligible
      simpa using heligible

theorem PassOver.selected (h : PassOver world policy state arrival work records seed) :
    (work.result policy state arrival).selectedBranchId =
      (Comparison.maxBy (compareBranches policy.convergence)
        (passGraph (passInput policy state arrival work.batch)
          work.batch.materialized).candidates).map BranchCandidate.id := by
  show (canonicalizeWithMaterializedCandidates (passInput policy state arrival work.batch)
    work.batch.materialized).selectedBranchId = _
  rw [canonicalizeWithMaterializedCandidates, (canonicalizeInternal_selected _ _ true none).1,
    selectCanonicalBranch_of_eligible fun c hc => h.eligible.graph h.appBatch hc]
  rfl

/-- A pass that replays every retained commit searches the commits of its rows. -/
theorem PassOver.commits (h : PassOver world policy state arrival work records seed)
    {base : UInt64 × List Digest} (hbase : replayBase world policy state arrival = some base) :
    work.inputs.commitMessages.map StoredCommitMessage.key =
        records.filterMap (commitRow? world) ∧
      base = (work.inputs.replayStartEpoch, state.baseAt work.inputs.replayStartEpoch) := by
  rw [replayBase, h.stage] at hbase
  dsimp only at hbase
  split at hbase
  · rename_i hlength
    cases hbase
    refine ⟨?_, rfl⟩
    have hkeys : seed.commitMessages.map StoredCommitMessage.key =
        records.filterMap (commitRow? world) := h.seeded.commits
    rw [← (h.perm.filterMap _).length_eq, ← hkeys, length_map] at hlength
    rw [← hkeys, h.inputs]
    rw [h.inputs] at hlength
    rw [GraphSeed.finish] at hlength ⊢
    dsimp only at hlength ⊢
    split at hlength
    · rename_i hhistorical
      rw [if_pos hhistorical]
    · rename_i hhistorical
      rw [if_neg hhistorical, filter_eq_self.mpr (length_filter_eq_length_iff.mp hlength)]
  · cases hbase

/-- The pending messages of such a pass are no proposals. -/
theorem PassOver.proposals (h : PassOver world policy state arrival work records seed)
    (own : PrevalidatedOwnCommits) (base : List Digest) :
    pendingProposalMessages (world.oracle own base) work.inputs.pendingMessages = .ok [] := by
  have hmessages : work.inputs.pendingMessages =
      (records.filterMap (appRow? world)).map InputRow.message := by
    rw [h.inputs]
    exact h.seeded.pending
  rw [hmessages]
  exact pendingProposalMessages_of_apps fun row => exists_digest_of_mem_apps

/-- What the search reads of a row, if MLS replays its commit anywhere. -/
def liveRow? (world : PassWorld) [DecidablePred world.Dead] (record : MessageRecord) :
    Option (UInt64 × Digest) :=
  (commitRow? world record).filter fun key => decide (¬world.Dead key.2)

/-- The live commits of a search are those of the rows, dead ones or not. -/
theorem PassOver.liveKeys_perm [DecidablePred world.Dead]
    (h : PassOver world policy state arrival work records seed)
    (hcommits : work.inputs.commitMessages.map StoredCommitMessage.key =
      records.filterMap (commitRow? world)) :
    (liveKeys world.Dead work.inputs.commitMessages).Perm
      (((state.rows ++ arrival.arrived).map identity).filterMap (liveRow? world)) := by
  rw [liveKeys, hcommits, filter_filterMap, filterMap_map]
  show (records.filterMap (liveRow? world)).Perm
    ((state.rows ++ arrival.arrived).filterMap (liveRow? world))
  rw [← h.rows.filterMap_retained]
  · exact h.perm.filterMap _
  · rintro record ⟨key, hkey, hdead⟩
    simp [liveRow?, hkey, hdead]

/-- So are its application messages. -/
theorem PassOver.apps_perm (h : PassOver world policy state arrival work records seed) :
    (records.filterMap (appRow? world)).Perm
      (((state.rows ++ arrival.arrived).map identity).filterMap (appRow? world)) := by
  rw [filterMap_map]
  show (records.filterMap (appRow? world)).Perm
    ((state.rows ++ arrival.arrived).filterMap (appRow? world))
  rw [← h.rows.filterMap_retained]
  · exact h.perm.filterMap _
  · rintro record ⟨key, hkey, -⟩
    rw [commitRow?, Option.bind_eq_some_iff] at hkey
    obtain ⟨row, hread, hcommit⟩ := hkey
    split at hcommit
    · rename_i hkind
      simp [appRow?, hread, hkind]
    · cases hcommit

section SameMessages

/-! Two passes over the same messages that replay every retained commit from the same state. -/

variable {state' : PassState} {arrival' : PassArrival} {work' : PassWork}
  {records' : List MessageRecord} {seed' : GraphSeed} {base : UInt64 × List Digest}
  (hworld : world.Lawful) (h : PassOver world policy state arrival work records seed)
  (h' : PassOver world policy state' arrival' work' records' seed')
  (hperm : ((state.rows ++ arrival.arrived).map identity).Perm
    ((state'.rows ++ arrival'.arrived).map identity))
  (hbase : replayBase world policy state arrival = some base)
  (hbase' : replayBase world policy state' arrival' = some base)

include hworld h h' hperm hbase hbase'

theorem materialized_of_same_messages :
    work.batch.materialized = work'.batch.materialized := by
  classical
  obtain ⟨hcommits, rfl⟩ := h.commits hbase
  obtain ⟨hcommits', heq⟩ := h'.commits hbase'
  obtain ⟨hstart, hstate⟩ := Prod.mk.inj heq
  obtain ⟨budget, hsearch⟩ := h.search
  obtain ⟨budget', hsearch'⟩ := h'.search
  have horacle : world.oracle work'.inputs.ownCommits
      (state'.baseAt work'.inputs.replayStartEpoch) =
        world.oracle work.inputs.ownCommits (state.baseAt work.inputs.replayStartEpoch) := by
    rw [PassWorld.oracle, PassWorld.oracle, ← hstate, hworld.replay_own]
  rw [passPaths, horacle, ← hstart] at hsearch'
  have hlive := ((h.liveKeys_perm hcommits).trans (hperm.filterMap _)).trans
    (h'.liveKeys_perm hcommits').symm
  rw [h.materialized, h'.materialized, materialized_eq_of_live hlive (fun digest hdead => hdead _ _)
    (h.proposals _ _) (h'.proposals _ _) h.budget h'.budget hsearch hsearch']

/-- **They select the same branch**, whatever the order of the rows, their states, and the
tips of the two passes. -/
theorem selected_of_same_messages :
    (work.result policy state arrival).selectedBranchId =
      (work'.result policy state' arrival').selectedBranchId := by
  have hmaterialized := materialized_of_same_messages hworld h h' hperm hbase hbase'
  have hstate : state.baseAt work.inputs.replayStartEpoch =
      state'.baseAt work'.inputs.replayStartEpoch := by
    have hsame := (h.commits hbase).2.symm.trans (h'.commits hbase').2
    exact congrArg Prod.snd hsame
  have happs := (h.apps_perm.trans (hperm.filterMap _)).trans h'.apps_perm.symm
  rw [h.selected, h'.selected, candidates_of_apps h.appBatch, candidates_of_apps h'.appBatch,
    ← hmaterialized]
  refine Comparison.optionMap_eq_of_rel (R := PermutedEvidence) (Comparison.maxBy_rel ?_ ?_)
    fun a b hab => hab.1.id
  · exact fun a b a' b' ha hb => SameEvidence.compareBranches a b a' b' ha.1 hb.1
  · rw [forall₂_map_left_iff, forall₂_map_right_iff]
    refine forall₂_same.mpr fun c _ => ?_
    -- The witnesses of a branch do not depend on what has been delivered.
    refine permutedEvidence_addWitnesses c ?_
    show (work.batch.pending.flatMap (witnessesFrom policy c)).Perm
      (work'.batch.pending.flatMap (witnessesFrom policy c))
    rw [h.pending, h'.pending, ← hmaterialized, ← hstate, flatMap_map, flatMap_map]
    exact happs.flatMap_right _

end SameMessages

theorem selectedAfter_cons {result : CanonicalizationResult} {next : PassState}
    {arrivals : List PassArrival} (hpass : runPass world policy state arrival = .ok (result, next))
    (hne : arrivals ≠ []) :
    selectedAfter world policy state (arrival :: arrivals) =
      selectedAfter world policy next arrivals := by
  obtain ⟨second, rest, rfl⟩ := exists_cons_of_ne_nil hne
  rw [selectedAfter, selectedAfter, runPasses, hpass]
  dsimp only
  cases hrest : runPasses world policy next (second :: rest) with
  | error err => rfl
  | ok out =>
    -- The rest of the run has passes of its own, so its last one is the last of all.
    obtain ⟨results, final⟩ := out
    have hresults : results ≠ [] := by
      rintro rfl
      rw [runPasses] at hrest
      split at hrest
      · cases hrest
      · split at hrest <;> cases hrest
    simp only [getLast?_cons, getLast?_eq_some_getLast hresults, Option.getD_some]

/-- The last pass of a run that keeps its evidence is over all the messages: those
the run started with and those of every arrival. -/
theorem exists_last_pass {arrivals : List PassArrival} (hne : arrivals ≠ [])
    (hinputs : GroupInputs world (state.rows ++ arrivals.flatMap arrived))
    (hwindow : windowedRun world policy state arrivals = true)
    (hkeeps : KeepsEvidenceRun world policy state arrivals) :
    ∃ before last work records seed, PassOver world policy before last work records seed ∧
      ((before.rows ++ last.arrived).map identity).Perm
        ((state.rows ++ arrivals.flatMap arrived).map identity) ∧
      lastReplayBase world policy state arrivals = replayBase world policy before last ∧
      selectedAfter world policy state arrivals =
        some (work.result policy before last).selectedBranchId := by
  induction arrivals generalizing state with
  | nil => exact absurd rfl hne
  | cons arrival rest ih =>
    rw [flatMap_cons, ← append_assoc] at hinputs ⊢
    rw [windowedRun, Bool.and_eq_true] at hwindow
    obtain ⟨work, records, seed, hpass⟩ := exists_passOver
      (hinputs.sublist (sublist_append_left _ _)) hwindow.1
    cases rest with
    | nil =>
      refine ⟨state, arrival, work, records, seed, hpass, ?_, rfl, ?_⟩
      · rw [flatMap_nil, append_nil]
      · rw [selectedAfter, runPasses, hpass.runPass_eq]
        rfl
    | cons second rest =>
      rw [KeepsEvidenceRun] at hkeeps
      rw [hpass.runPass_eq] at hwindow hkeeps
      -- Every row is left to the second pass, with its state perhaps changed.
      have hcontributes := hpass.keeps_rows hkeeps.1
      have hidentity : ((work.next policy state arrival).rows).map identity =
          (state.rows ++ arrival.arrived).map identity := persist_identity _ _
      have hsame : ((work.next policy state arrival).rows ++
          (second :: rest).flatMap arrived).map identity =
            ((state.rows ++ arrival.arrived) ++ (second :: rest).flatMap arrived).map identity := by
        rw [map_append, hidentity, ← map_append]
      have hnextInputs : GroupInputs world
          ((work.next policy state arrival).rows ++ (second :: rest).flatMap arrived) := by
        refine hinputs.of_identity (List.Perm.of_eq hsame) fun record hrecord => ?_
        rcases mem_append.mp hrecord with hold | harrived
        · exact hcontributes record hold
        · exact hinputs.contributes record (mem_append_right _ harrived)
      obtain ⟨before, last, work', records', seed', hlast, hperm, hbase, hselected⟩ :=
        ih (cons_ne_nil _ _) hnextInputs hwindow.2 hkeeps.2
      refine ⟨before, last, work', records', seed', hlast, hsame ▸ hperm, ?_, ?_⟩
      · rw [lastReplayBase, hpass.runPass_eq]
        exact hbase
      · rw [selectedAfter_cons hpass.runPass_eq (cons_ne_nil _ _), hselected]

end Run

namespace WithdrawnWitness

def wire (id : String) (byte : UInt8) : TransportMessage :=
  ⟨id, [byte], "relay", .groupMessage [0]⟩

def row (id : String) (epoch : UInt64) (byte : UInt8) : MessageRecord :=
  ⟨id, [0], epoch, .created, [byte]⟩

def digest (byte : UInt8) : Digest := Vector.replicate 32 byte

/-- Commits `a` and `b1` of epoch 10, `b2` of epoch 11 on top of `b1`, a commit `x` of
epoch 10 that no member accepts, and two application messages of epoch 11. -/
def codec : WireCodec where
  decode
    | [1] => .ok (.openMlsWire (wire "a" 1))
    | [2] => .ok (.openMlsWire (wire "b1" 2))
    | [3] => .ok (.openMlsWire (wire "b2" 3))
    | [4] => .ok (.openMlsWire (wire "m1" 4))
    | [5] => .ok (.openMlsWire (wire "m2" 5))
    | [6] => .ok (.openMlsWire (wire "x" 6))
    | _ => .error "unknown payload"
  messageDigest bytes := digest (bytes.headD 0)
  parse
    | [1] | [2] | [6] => .ok (some ⟨.commit, 10⟩)
    | [3] => .ok (some ⟨.commit, 11⟩)
    | [4] | [5] => .ok (some ⟨.application, 11⟩)
    | _ => .error (.decode "unknown message")

/-- The application messages are those of two members who followed `a`. -/
def world : PassWorld where
  codec := codec
  groupId := [0]
  branchIdForPathDigests digests :=
    if digests = [digest 1] then "A" else if digests = [digest 2] then "B1" else "B"
  prepare _ _ := .ok ()
  replay _ _ _ digests :=
    if digests = [digest 1] then .ok ⟨"A", 10, 11, .ordinary, [5], digest 1, ["a"], []⟩
    else if digests = [digest 2] then .ok ⟨"B1", 10, 11, .ordinary, [5], digest 2, ["b1"], []⟩
    else if digests = [digest 2, digest 3] then
      .ok ⟨"B", 10, 12, .ordinary, [5], digest 3, ["b1", "b2"], []⟩
    else .error (.replay "the commit was made on another state")
  proposalIdByRef _ := none
  observe _ branchId message :=
    if branchId = "A" then
      if message = wire "m1" 4 then some ⟨[1], some "m1"⟩
      else if message = wire "m2" 5 then some ⟨[2], some "m2"⟩
      else none
    else none

theorem lawful : world.Lawful := ⟨fun _ _ _ => rfl⟩

theorem deadRow_x : DeadRow world (row "x" 10 6) := by
  refine ⟨(10, digest 6), by decide +kernel, fun own base digests candidate h => ?_⟩
  have hlast : ∀ {l : List Digest} {d : Digest}, l.getLast? = some d → d ≠ digest 6 →
      digests ++ [digest 6] ≠ l := by
    rintro _ d hd hne rfl
    exact hne (by simpa using hd.symm)
  simp only [PassWorld.oracle, world] at h
  rw [if_neg (hlast rfl (by decide)), if_neg (hlast rfl (by decide)),
    if_neg (hlast rfl (by decide))] at h
  cases h

def arrival (rows : List MessageRecord) : PassArrival := ⟨rows, 5, [10, 11], 0, [], 2000⟩

def start : PassState := ⟨[], 10, []⟩

/-- All the messages in one pass. -/
def together : List PassArrival :=
  [arrival [row "a" 10 1, row "b1" 10 2, row "b2" 11 3, row "x" 10 6, row "m1" 11 4,
    row "m2" 11 5]]

/-- The rival commits and the second application message come later. -/
def spread : List PassArrival :=
  [arrival [row "a" 10 1, row "m1" 11 4], arrival [row "b1" 10 2, row "b2" 11 3],
    arrival [row "x" 10 6, row "m2" 11 5]]

/-- Only the tip of the rival branch and the second application message come later. -/
def twice : List PassArrival :=
  [arrival [row "m1" 11 4, row "b1" 10 2, row "x" 10 6, row "a" 10 1],
    arrival [row "m2" 11 5, row "b2" 11 3]]

theorem groupInputs : GroupInputs world (start.rows ++ together.flatMap arrived) where
  readable := by decide +kernel
  contributes record hrecord := by
    have hcreated : ∀ record ∈ start.rows ++ together.flatMap arrived,
        recordStateCanContributeToOpenmlsGraph record.state = true := by decide +kernel
    exact .inl (hcreated record hrecord)
  distinct := by decide +kernel

/-- The first pass of `twice` keeps `m1`, and drops `x` only. -/
theorem keepsEvidence_twice : KeepsEvidenceRun world {} start twice := by
  refine ⟨⟨by decide +kernel, fun record hrecord hdropped => ?_⟩, ?_⟩
  · have hx : ∀ record ∈ start.rows ++ [row "m1" 11 4, row "b1" 10 2, row "x" 10 6, row "a" 10 1],
        record.id ∈ searchDrops world {} start (arrival
          [row "m1" 11 4, row "b1" 10 2, row "x" 10 6, row "a" 10 1]) →
        record = row "x" 10 6 := by decide +kernel
    exact hx record hrecord hdropped ▸ deadRow_x
  · split <;> trivial

/-- Without any application message: `b2` comes before its parent and is dropped, so the
second pass has no branch `B`, which one pass over the same commits selects. -/
theorem dropped_child_is_missed :
    let once := [arrival [row "a" 10 1, row "b2" 11 3, row "b1" 10 2]]
    let childFirst := [arrival [row "a" 10 1, row "b2" 11 3], arrival [row "b1" 10 2]]
    windowedRun world {} start once = true ∧ windowedRun world {} start childFirst = true ∧
      lastReplayBase world {} start once = lastReplayBase world {} start childFirst ∧
      selectedAfter world {} start once = some (some "B") ∧
      selectedAfter world {} start childFirst ≠ some (some "B") := by
  decide +kernel

end WithdrawnWitness

/-! ### Shared history that is left out -/

namespace SharedHistory

open WithdrawnWitness (wire row digest arrival start)

def messageId (byte : UInt8) : String :=
  ["0", "1", "2", "3", "4", "5", "6", "7", "8"].getD byte.toNat ""

/-- Commit 1 of epoch 10, commits 2 and 3 of epoch 11 on top of it, commit 4 of epoch 12
on top of commit 3, application messages 5 and 6 of epoch 11, and 7 and 8 of epoch 12. -/
def codec : WireCodec where
  decode bytes := .ok (.openMlsWire (wire (messageId (bytes.headD 0)) (bytes.headD 0)))
  messageDigest bytes := digest (bytes.headD 0)
  parse
    | [1] => .ok (some ⟨.commit, 10⟩)
    | [2] | [3] => .ok (some ⟨.commit, 11⟩)
    | [4] => .ok (some ⟨.commit, 12⟩)
    | [5] | [6] => .ok (some ⟨.application, 11⟩)
    | [7] | [8] => .ok (some ⟨.application, 12⟩)
    | _ => .error (.decode "unknown message")

def branchId (digests : List Digest) : String :=
  if digests.getLast? = some (digest 2) then "A" else "B"

/-- Messages 7 and 8 are those of the two members who followed commit 2. -/
def world : PassWorld where
  codec := codec
  groupId := [0]
  branchIdForPathDigests := branchId
  prepare _ _ := .ok ()
  replay _ base _ digests :=
    let candidate (tipEpoch : UInt64) :=
      .ok ⟨branchId digests, 10 + .ofNat base.length, tipEpoch, .ordinary, [5],
        digests.getLastD (digest 0), digests.map fun d => messageId (d.toList.headD 0), []⟩
    if base ++ digests = [digest 1] then candidate 11
    else if base ++ digests = [digest 1, digest 2] ∨ base ++ digests = [digest 1, digest 3] then
      candidate 12
    else if base ++ digests = [digest 1, digest 3, digest 4] then candidate 13
    else .error (.replay "the commit was made on another state")
  proposalIdByRef _ := none
  observe _ branchId message :=
    if message.id = "5" ∨ message.id = "7" ∧ branchId = "A" then some ⟨[1], some message.id⟩
    else if message.id = "6" ∨ message.id = "8" ∧ branchId = "A" then some ⟨[2], some message.id⟩
    else none

def shared : List MessageRecord := [row "1" 10 1, row "5" 11 5, row "6" 11 6]

def forked : List MessageRecord :=
  [row "2" 11 2, row "3" 11 3, row "4" 12 4, row "7" 12 7, row "8" 12 8]

/-- In one pass, messages 5 and 6 are a quorum for both branches, and the deeper one is
selected.  Two passes lose no message; but the second does not replay commit 1 again, so
5 and 6 count for neither branch, and 7 and 8 decide. -/
theorem shared_history_is_left_out :
    windowedRun world {} start [arrival (shared ++ forked)] = true ∧
      windowedRun world {} start [arrival shared, arrival forked] = true ∧
      keepsApps world {} start (arrival shared) = true ∧
      searchDrops world {} start (arrival shared) = [] ∧
      lastReplayBase world {} start [arrival (shared ++ forked)] = some (10, []) ∧
      lastReplayBase world {} start [arrival shared, arrival forked] = none ∧
      selectedAfter world {} start [arrival (shared ++ forked)] = some (some "B") ∧
      selectedAfter world {} start [arrival shared, arrival forked] = some (some "A") := by
  decide +kernel

end SharedHistory

end Mdk
