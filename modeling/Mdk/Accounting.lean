/-
Every pending message is accounted for exactly once.

A message is listed as seen by the deduplication, or it is on the selected path
and accepted with it, or its handler makes one entry for it.  The path holds
every one of its ids once (`PathsSound`), so nothing is skipped and nothing is
reported twice.

* `inputs_accounted_once` — the ids of the seven lists are the ids of the pending
  messages; the status is never `resolving`, and the outbound intents go where
  the status sends them.
-/
import Mdk.OrderIndependence

open Std (ExtTreeMap ExtTreeSet TransCmp)
open Comparison

namespace Mdk

open PeeledMessage List

/-! ### Deduplication -/

theorem dedup_accounts (seen : String → Bool) (messages : List PeeledMessage) :
    ((dedup seen messages).uniqueMessages.map PeeledMessage.messageId ++
        (dedup seen messages).alreadySeen.map AlreadySeen.messageId).Perm
      (messages.map PeeledMessage.messageId) := by
  have hfold : ∀ (l : List PeeledMessage) (d : Dedup),
      ((l.foldl (dedupStep seen) d).uniqueMessages.map PeeledMessage.messageId ++
          (l.foldl (dedupStep seen) d).alreadySeen.map AlreadySeen.messageId).Perm
        (d.uniqueMessages.map PeeledMessage.messageId ++
          d.alreadySeen.map AlreadySeen.messageId ++ l.map PeeledMessage.messageId) := by
    intro l
    induction l with
    | nil =>
      intro d
      simp
    | cons m l ih =>
      intro d
      refine (ih (dedupStep seen d m)).trans ?_
      rw [map_cons, ← singleton_append, ← append_assoc]
      refine List.Perm.append_right _ ?_
      -- The message joins one of the two lists.
      have hunique : (d.uniqueMessages.map PeeledMessage.messageId ++ [m.messageId] ++
          d.alreadySeen.map AlreadySeen.messageId).Perm
          (d.uniqueMessages.map PeeledMessage.messageId ++
            d.alreadySeen.map AlreadySeen.messageId ++ [m.messageId]) := by
        rw [append_assoc, append_assoc]
        exact perm_append_comm.append_left _
      rw [dedupStep]
      split
      · simpa using hunique
      · split
        · simp
        · simpa using hunique
  simpa [dedup] using hfold messages {}

/-- Messages that are not re-admitted come through deduplication with ids of
their own. -/
structure Dedup.Distinct (d : Dedup) : Prop where
  nodup : ((d.uniqueMessages.filter fun m => !m.readmittedWitness).map
    PeeledMessage.messageId).Nodup
  observed : ∀ m ∈ d.uniqueMessages, m.readmittedWitness = false →
    m.messageId ∈ d.batchObservedIds

theorem dedupStep_distinct {seen : String → Bool} {d : Dedup} (h : d.Distinct)
    (message : PeeledMessage) : (dedupStep seen d message).Distinct := by
  rw [dedupStep]
  by_cases hread : message.readmittedWitness = true
  · -- A re-admitted message is exempt, and keeps nothing else out.
    rw [if_pos hread]
    constructor
    · simpa [filter_append, hread] using h.nodup
    · intro m hm hmr
      rcases mem_append.mp hm with hm | hm
      · exact h.observed m hm hmr
      · rw [mem_singleton.mp hm, hread] at hmr
        cases hmr
  · rw [if_neg hread]
    rw [Bool.not_eq_true] at hread
    split
    · exact ⟨h.nodup, h.observed⟩
    · rename_i hnew
      simp only [Bool.or_eq_true, not_or] at hnew
      constructor
      · simp only [filter_append, map_append]
        refine nodup_append.mpr ⟨h.nodup, by simp [hread], ?_⟩
        -- An id among the earlier ones would have been observed.
        intro id hid id' hid' heq
        obtain ⟨m, hm, rfl⟩ := mem_map.mp hid
        obtain ⟨hmem, hmr⟩ := mem_filter.mp hm
        have hid'eq : id' = message.messageId := by simpa [hread] using hid'
        have hobs := h.observed m hmem (by simpa using hmr)
        rw [heq, hid'eq] at hobs
        exact hnew.2 (ExtTreeSet.mem_iff_contains.mp hobs)
      · intro m hm hmr
        rw [ExtTreeSet.mem_insert]
        rcases mem_append.mp hm with hm | hm
        · exact Or.inr (h.observed m hm hmr)
        · rw [mem_singleton.mp hm]
          exact Or.inl Std.compare_self

theorem dedup_distinct (seen : String → Bool) (messages : List PeeledMessage) :
    (dedup seen messages).Distinct := by
  have hfold : ∀ (l : List PeeledMessage) (d : Dedup), d.Distinct →
      (l.foldl (dedupStep seen) d).Distinct := by
    intro l
    induction l with
    | nil => exact fun d h => h
    | cons m l ih => exact fun d h => ih _ (dedupStep_distinct h m)
  refine hfold messages {} ⟨by simp, ?_⟩
  intro m hm
  cases hm

/-! ### Paths of the graph -/

/-- Every path lists materialized commits of the batch, each of them once. -/
def PathsSound (input : CanonicalizationInput) (commits : List PeeledMessage) (g : GraphState) :
    Prop :=
  ∀ (branchId : String) path, g.commitPathByBranch[branchId]? = some path →
    path.Nodup ∧ ∀ id ∈ path, id ∈ g.materializedCommitIds ∧
      ∃ m ∈ commits, ∃ edge, m.commit? = some edge ∧ m.messageId = id ∧
        commitInWindow input edge.forkEpoch = true

variable {input : CanonicalizationInput}

theorem PathsSound.parent {commits : List PeeledMessage} {g : GraphState}
    (h : PathsSound input commits g) {parentBranchId : Option String} {forkEpoch : UInt64}
    {parent : ResolvedParent} (hparent : resolveParent parentBranchId forkEpoch g = some parent) :
    parent.commitPath.Nodup ∧ ∀ id ∈ parent.commitPath, id ∈ g.materializedCommitIds ∧
      ∃ m ∈ commits, ∃ edge, m.commit? = some edge ∧ m.messageId = id ∧
        commitInWindow input edge.forkEpoch = true := by
  cases parentBranchId with
  | none =>
    simp only [resolveParent, Option.some.injEq] at hparent
    subst hparent
    simp
  | some parentId =>
    simp only [resolveParent] at hparent
    split at hparent
    · cases hparent
    · obtain rfl := Option.some.inj hparent
      cases hpath : g.commitPathByBranch[parentId]? with
      | none => simp
      | some path => exact h parentId path hpath

variable {message : PeeledMessage}

theorem PathsSound.addCommit {commits : List PeeledMessage} {g : GraphState}
    (h : PathsSound input commits g) {edge : CommitEdge} {parent : ResolvedParent}
    (hmem : message ∈ commits) (hadds : Adds input g message edge parent) :
    PathsSound input commits (g.addCommit message edge parent) := by
  intro branchId path hpath
  have hids : ∀ id, id ∈ (g.addCommit message edge parent).materializedCommitIds ↔
      message.messageId = id ∨ id ∈ g.materializedCommitIds := by
    intro id
    simp [GraphState.addCommit, ExtTreeSet.mem_insert]
  simp only [GraphState.addCommit, ExtTreeMap.getElem?_insert] at hpath
  split at hpath
  · -- The new path: the parent's, and the message at its end.
    obtain rfl := Option.some.inj hpath
    obtain ⟨hnodup, hsound⟩ := h.parent hadds.resolved
    constructor
    · refine nodup_append.mpr ⟨hnodup, nodup_singleton _, ?_⟩
      intro id hid id' hid' heq
      rw [mem_singleton.mp hid'] at heq
      subst heq
      exact hadds.newId (hsound _ hid).1
    · intro id hid
      rcases mem_append.mp hid with hid | hid
      · exact ⟨(hids id).mpr (Or.inr (hsound id hid).1), (hsound id hid).2⟩
      · rw [mem_singleton] at hid
        subst hid
        exact ⟨(hids _).mpr (Or.inl rfl), message, hmem, edge, hadds.commit, rfl, hadds.inWindow⟩
  · -- The other paths are as they were.
    obtain ⟨hnodup, hsound⟩ := h branchId path hpath
    exact ⟨hnodup, fun id hid => ⟨(hids id).mpr (Or.inr (hsound id hid).1), (hsound id hid).2⟩⟩

/-- Seeds without commits: the caller's branches have empty paths. -/
theorem pathsSound_seedGraph (commits : List PeeledMessage) :
    PathsSound input commits (seedGraph input []) := by
  have hfold : ∀ (cs : List BranchCandidate) (g : GraphState), PathsSound input commits g →
      PathsSound input commits (cs.foldl seedCandidateBranch g) := by
    intro cs
    induction cs with
    | nil => exact fun g h => h
    | cons c cs ih =>
      intro g h
      refine ih _ fun branchId path hpath => ?_
      simp only [seedCandidateBranch, ExtTreeMap.getElem?_insert] at hpath
      split at hpath
      · obtain rfl := Option.some.inj hpath
        simp
      · exact h branchId path hpath
  refine hfold _ _ fun branchId path hpath => ?_
  simp at hpath

/-! ### Entries -/

/-- The id an entry is about. -/
def Disposition.messageId : Disposition → String
  | .acceptCommit id | .acceptProposal id | .acceptApp id => id
  | .defer entry => entry.messageId
  | .drop entry => entry.messageId
  | .invalidate entry => entry.messageId
  | .seen entry => entry.messageId

variable (r : CanonicalizationResult)

theorem resolvedIds_push (d : Disposition) :
    (r.push d).resolvedIds.Perm (d.messageId :: r.resolvedIds) := by
  -- Each list counts for itself, so the position of the entry does not matter.
  rw [perm_iff_count]
  intro id
  cases d <;>
    simp only [CanonicalizationResult.push, CanonicalizationResult.resolvedIds,
      Disposition.messageId, map_append, count_append, count_cons, map_cons,
      map_nil, count_nil] <;> omega

theorem resolvedIds_foldl_push (ds : List Disposition) (r : CanonicalizationResult) :
    (ds.foldl CanonicalizationResult.push r).resolvedIds.Perm
      (ds.map Disposition.messageId ++ r.resolvedIds) := by
  induction ds generalizing r with
  | nil => exact List.Perm.refl _
  | cons d ds ih =>
    rw [foldl_cons, map_cons, cons_append]
    refine (ih (r.push d)).trans ?_
    refine ((resolvedIds_push r d).append_left _).trans ?_
    exact perm_middle

/-- No entry touches the outbound intents. -/
theorem outbound_foldl_push (ds : List Disposition) (r : CanonicalizationResult) :
    (ds.foldl CanonicalizationResult.push r).queuedOutboundIntents = r.queuedOutboundIntents ∧
      (ds.foldl CanonicalizationResult.push r).publishableOutboundMessages =
        r.publishableOutboundMessages := by
  induction ds generalizing r with
  | nil => exact ⟨rfl, rfl⟩
  | cons d ds ih =>
    rw [foldl_cons, (ih (r.push d)).1, (ih (r.push d)).2]
    cases d <;> exact ⟨rfl, rfl⟩

theorem handleCommit_messageId {selectedBranchId : Option String} {branchId : String}
    {forkEpoch : UInt64} {selectedCommitIds branchIds : ExtTreeSet String} {d : Disposition}
    (h : handleCommit selectedBranchId input message branchId forkEpoch selectedCommitIds
      branchIds = some d) : d.messageId = message.messageId := by
  unfold handleCommit at h
  split at h
  · cases h; rfl
  split at h
  · cases h; rfl
  split at h
  · split at h
    · cases h; rfl
    split at h
    · cases h; rfl
    · cases h; rfl
  · cases h

variable (selectedBranchId : Option String) {selectedTip : Option UInt64}

theorem handleProposal_messageId (branchId : String) (context : ProposalDispositionContext) :
    (handleProposal selectedBranchId selectedTip input message branchId context).messageId =
      message.messageId := by
  unfold handleProposal
  split
  · rfl
  split
  · rfl
  split
  · split <;> rfl
  split <;> rfl

variable {candidates : List BranchCandidate}

theorem handleAppMessage_messageId (app : AppPayload) :
    (handleAppMessage selectedBranchId selectedTip input message app candidates).messageId =
      message.messageId := by
  unfold handleAppMessage
  split
  · split <;> rfl
  split
  · rfl
  split
  · rfl
  split
  · rfl
  split
  · rfl
  split
  · rfl
  split <;> rfl

/-- Every entry is about the message it is made for. -/
theorem handleMessage_messageId {ctx : DispositionContext} {d : Disposition}
    (h : handleMessage ctx message = some d) : d.messageId = message.messageId := by
  rw [handleMessage] at h
  split at h
  · exact handleCommit_messageId h
  · cases h
    exact handleProposal_messageId _ _ _
  · cases h
    exact handleAppMessage_messageId _ _

/-- Only a commit of the selected path has no entry of its own. -/
theorem handleMessage_eq_none {ctx : DispositionContext} :
    handleMessage ctx message = none ↔
      ∃ edge, message.commit? = some edge ∧ commitInWindow ctx.input edge.forkEpoch = true ∧
        message.messageId ∈ ctx.selectedCommitIdSet := by
  rw [handleMessage, commit?]
  cases message.kind with
  | proposal branchId => simp
  | appMessage app => simp
  | commit edge =>
    simp only [Option.some.injEq, exists_eq_left', commitInWindow, handleCommit,
      ExtTreeSet.mem_iff_contains]
    by_cases h₁ : edge.forkEpoch < ctx.input.state.retainedAnchorEpoch
    · simp [h₁]
    by_cases h₂ : ctx.input.policy.convergence.maxRewindCommits <
        ctx.input.state.currentTipEpoch.saturatingSub edge.forkEpoch
    · simp [h₁, h₂]
    cases h₃ : ctx.selectedCommitIdSet.contains message.messageId with
    | true => simp [h₁, h₂]
    | false =>
      simp only [h₁, h₂, if_false, Bool.not_false, if_true, decide_false, Bool.and_self,
        Bool.false_eq_true, and_false, iff_false]
      split
      · simp
      · split <;> simp

/-! ### The batch -/

theorem map_messageId_filterMap_handleMessage (ctx : DispositionContext)
    (messages : List PeeledMessage) :
    (messages.filterMap (handleMessage ctx)).map Disposition.messageId =
      (messages.filter fun m => (handleMessage ctx m).isSome).map PeeledMessage.messageId := by
  induction messages with
  | nil => rfl
  | cons m messages ih =>
    cases h : handleMessage ctx m with
    | none => rw [filterMap_cons_none h, filter_cons_of_neg (by simp [h]), ih]
    | some d =>
      rw [filterMap_cons_some h, filter_cons_of_pos (by simp [h]), map_cons,
        map_cons, ih, handleMessage_messageId h]

variable {admitted : Bool} {unique : List PeeledMessage}

theorem witnessedGraph_commitPath (materialized : List MaterializedCandidate) :
    (witnessedGraph input unique materialized admitted).commitPathByBranch =
      (materializeLoop input (sortedCommits unique)
        (seedGraph input materialized)).commitPathByBranch := by
  cases admitted <;> rfl

/-- The selected path lists commits of the batch that are in the window, each once. -/
theorem selectedPath_sound (selectedBranchId : Option String) :
    (selectedCommitIds (witnessedGraph input unique [] admitted) selectedBranchId).Nodup ∧
      ∀ id ∈ selectedCommitIds (witnessedGraph input unique [] admitted) selectedBranchId,
        ∃ m ∈ unique, ∃ edge, m.commit? = some edge ∧ m.messageId = id ∧
          commitInWindow input edge.forkEpoch = true := by
  have hsound : PathsSound input (sortedCommits unique)
      (materializeLoop input (sortedCommits unique) (seedGraph input [])) :=
    graph_induction (pathsSound_seedGraph _) fun _ _ _ _ hm h hadds => h.addCommit hm hadds
  rw [selectedCommitIds, witnessedGraph_commitPath]
  cases selectedBranchId with
  | none => simp
  | some branchId =>
    cases hpath : (materializeLoop input (sortedCommits unique)
        (seedGraph input [])).commitPathByBranch[branchId]? with
    | none => simp [hpath]
    | some path =>
      obtain ⟨hnodup, hids⟩ := hsound branchId path hpath
      simp only [Option.bind_some, hpath, Option.getD_some]
      refine ⟨hnodup, fun id hid => ?_⟩
      obtain ⟨-, m, hm, hrest⟩ := hids id hid
      exact ⟨m, mem_of_mem_filter (mem_sortBy.mp hm), hrest⟩

theorem readmittedWitness_of_commit {m : PeeledMessage} {edge : CommitEdge}
    (h : m.commit? = some edge) : m.readmittedWitness = false := by
  rw [commit?] at h
  rw [readmittedWitness, app?]
  cases hkind : m.kind with
  | commit e => rfl
  | proposal b => rfl
  | appMessage a => rw [hkind] at h; cases h

/-- The path and the entries together account for the messages that were not seen. -/
theorem path_and_entries_perm (input : CanonicalizationInput) {unique : List PeeledMessage}
    (hdistinct : ((unique.filter fun m => !m.readmittedWitness).map
      PeeledMessage.messageId).Nodup)
    (admitted : Bool) (selectedBranchId : Option String) (selectedTip : Option UInt64) :
    let graph := witnessedGraph input unique [] admitted
    let ctx := dispositionContext input graph selectedBranchId selectedTip
    ((unique.filterMap (handleMessage ctx)).map Disposition.messageId ++
      selectedCommitIds graph selectedBranchId).Perm (unique.map PeeledMessage.messageId) := by
  intro graph ctx
  obtain ⟨hnodup, hsound⟩ := selectedPath_sound selectedBranchId
  -- The messages without an entry are the commits of the path.
  have hpath : (selectedCommitIds graph selectedBranchId).Perm
      ((unique.filter fun m => !(handleMessage ctx m).isSome).map PeeledMessage.messageId) := by
    have hnone : ∀ m, (!(handleMessage ctx m).isSome) = true ↔
        ∃ edge, m.commit? = some edge ∧ commitInWindow input edge.forkEpoch = true ∧
          m.messageId ∈ selectedCommitIds graph selectedBranchId := by
      intro m
      rw [Bool.not_eq_true', Option.isSome_eq_false_iff, Option.isNone_iff_eq_none,
        handleMessage_eq_none]
      simp only [ctx, dispositionContext, ExtTreeSet.mem_ofList, contains_iff_mem]
    have hsub : ((unique.filter fun m => !(handleMessage ctx m).isSome).map
        PeeledMessage.messageId).Nodup := by
      refine hdistinct.sublist (List.Sublist.map _ ?_)
      refine monotone_filter_right unique fun m hm => ?_
      obtain ⟨edge, hcommit, -⟩ := (hnone m).mp hm
      simp [readmittedWitness_of_commit hcommit]
    -- Both lists are without duplicates, so it is enough that they have the same ids.
    rw [perm_ext_iff_of_nodup hnodup hsub]
    intro id
    constructor
    · intro hid
      obtain ⟨m, hm, edge, hcommit, rfl, hwindow⟩ := hsound id hid
      exact mem_map.mpr ⟨m, mem_filter.mpr
        ⟨hm, (hnone m).mpr ⟨edge, hcommit, hwindow, hid⟩⟩, rfl⟩
    · intro hid
      obtain ⟨m, hm, rfl⟩ := mem_map.mp hid
      obtain ⟨-, -, -, hmem⟩ := (hnone m).mp (mem_filter.mp hm).2
      exact hmem
  rw [map_messageId_filterMap_handleMessage]
  refine (hpath.append_left _).trans ?_
  rw [← map_append]
  exact (filter_append_perm (fun m => (handleMessage ctx m).isSome) unique).map _

theorem materializedCommitIdsByBranch_empty (input : CanonicalizationInput)
    (unique : List PeeledMessage) (admitted : Bool) :
    (witnessedGraph input unique [] admitted).materializedCommitIdsByBranch = ∅ := by
  have hseed : ∀ (cs : List BranchCandidate) (g : GraphState),
      g.materializedCommitIdsByBranch = ∅ →
      (cs.foldl seedCandidateBranch g).materializedCommitIdsByBranch = ∅ := by
    intro cs
    induction cs with
    | nil => exact fun g h => h
    | cons c cs ih => exact fun g h => ih _ h
  have hloop : (materializeLoop input (sortedCommits unique)
      (seedGraph input [])).materializedCommitIdsByBranch = ∅ :=
    graph_induction (I := fun g => g.materializedCommitIdsByBranch = ∅)
      (hseed _ _ rfl) fun _ _ _ _ _ h _ => h
  cases admitted <;> exact hloop

theorem classifyLosing_empty :
    classifyLosingMaterializedCandidateCommits r input candidates ∅ = r := by
  rw [classifyLosingMaterializedCandidateCommits]
  cases r.selectedBranchId <;> rfl

variable {shared : Option (ExtTreeSet String)}

/-- Without caller-supplied materialized candidates the call ends with the
handling of its messages. -/
theorem canonicalizeInternal_eq_finishResult :
    let deduped := dedup (isSeen input shared) input.pendingMessages
    let initial := initialResult input (canonicalizationGraph input [] admitted shared)
      deduped.alreadySeen
    canonicalizeInternal input [] admitted shared = finishResult input
      (handleMessages (dispositionContext input (canonicalizationGraph input [] admitted shared)
        initial.selectedBranchId initial.selectedTip) deduped.uniqueMessages initial) := by
  have hgraph := materializedCommitIdsByBranch_empty input
    (dedup (isSeen input shared) input.pendingMessages).uniqueMessages admitted
  simp only [canonicalizeInternal, hgraph, classifyLosing_empty, canonicalizationGraph]

/-- The result before it is finished, and its accounting. -/
theorem handled_accounts :
    ∃ handled, canonicalizeInternal input [] admitted shared = finishResult input handled ∧
      handled.resolvedIds.Perm (input.pendingMessages.map PeeledMessage.messageId) ∧
      handled.queuedOutboundIntents = [] ∧ handled.publishableOutboundMessages = [] := by
  have hdistinct := (dedup_distinct (isSeen input shared) input.pendingMessages).nodup
  have haccounts := dedup_accounts (isSeen input shared) input.pendingMessages
  refine ⟨_, canonicalizeInternal_eq_finishResult, ?_, ?_⟩
  · rw [handleMessages_eq_foldl_push]
    refine (resolvedIds_foldl_push _ _).trans (List.Perm.trans ?_ haccounts)
    have hperm := path_and_entries_perm input hdistinct admitted
      (initialResult input (canonicalizationGraph input [] admitted shared) []).selectedBranchId
      (initialResult input (canonicalizationGraph input [] admitted shared) []).selectedTip
    refine List.Perm.trans ?_ (hperm.append_right _)
    -- Before the first entry only the path and the seen messages are listed.
    simp only [initialResult, CanonicalizationResult.resolvedIds, map_nil, append_nil]
    rw [append_assoc]
    exact List.Perm.refl _
  · rw [handleMessages_eq_foldl_push]
    exact outbound_foldl_push _ _

theorem resolvedIds_sort : r.sort.resolvedIds.Perm r.resolvedIds := by
  refine List.Perm.append (List.Perm.append (List.Perm.append (List.Perm.append
    (List.Perm.append (List.Perm.append (List.Perm.refl _) ?_) ?_) ?_) ?_) ?_) ?_
  · exact sortBy_perm _ _
  · exact sortBy_perm _ _
  · exact (sortBy_perm _ _).map _
  · exact (sortBy_perm _ _).map _
  · exact (sortBy_perm _ _).map _
  · exact (sortBy_perm _ _).map _

/-- A message that is accounted for does not keep the result unresolved. -/
theorem convergenceStatus_ne_resolving {r : CanonicalizationResult}
    (h : ∀ m ∈ input.pendingMessages, m.messageId ∈ r.resolvedIds) :
    convergenceStatusForResult input input.pendingMessages r ≠ .resolving := by
  have hnone : (input.pendingMessages.any fun m => !r.resolvedIds.contains m.messageId) =
      false := by
    rw [any_eq_false]
    intro m hm
    simp [h m hm]
  rw [convergenceStatusForResult, hnone]
  by_cases hquiet : input.nowMs.saturatingSub input.state.lastConvergenceRelevantInputMs <
      input.policy.settlementQuiescenceMs
  · simp [hquiet]
  · cases hblocked : hasBlockingConvergenceError r <;> simp [hquiet]

/-- **Every pending message is accounted for exactly once.**  Over the seven
disposition lists the ids are, as a multiset, those of the pending messages.  So
the status is never `resolving`, and the outbound intents are all publishable
when it is `settled` and all queued otherwise. -/
theorem inputs_accounted_once (input : CanonicalizationInput) :
    let result := canonicalize input
    result.resolvedIds.Perm (input.pendingMessages.map PeeledMessage.messageId) ∧
      result.convergenceStatus ≠ .resolving ∧
      (if result.convergenceStatus = .settled then
        result.publishableOutboundMessages.Perm input.outboundIntents ∧
          result.queuedOutboundIntents = []
      else
        result.queuedOutboundIntents.Perm input.outboundIntents ∧
          result.publishableOutboundMessages = []) := by
  obtain ⟨handled, hresult, hids, hqueued, hpublishable⟩ := handled_accounts
  intro result
  have hresult : result = finishResult input handled := hresult
  have hstatus : convergenceStatusForResult input input.pendingMessages handled ≠ .resolving :=
    convergenceStatus_ne_resolving fun m hm =>
      hids.symm.subset (mem_map_of_mem hm)
  rw [hresult, finishResult]
  -- The intents go to one of the two lists before everything is sorted.
  by_cases hsettled : convergenceStatusForResult input input.pendingMessages handled = .settled
  · simp only [if_pos hsettled]
    refine ⟨(resolvedIds_sort _).trans hids, hstatus, ?_⟩
    rw [if_pos (by exact hsettled)]
    refine ⟨sortBy_perm _ _, ?_⟩
    simp [CanonicalizationResult.sort, hqueued, sortBy]
  · simp only [if_neg hsettled]
    refine ⟨(resolvedIds_sort _).trans hids, hstatus, ?_⟩
    rw [if_neg (by exact hsettled)]
    refine ⟨sortBy_perm _ _, ?_⟩
    simp [CanonicalizationResult.sort, hpublishable, sortBy]

end Mdk
