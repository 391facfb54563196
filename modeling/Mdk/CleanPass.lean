/-
A canonicalization over materialized candidates that loses nothing.

The batch of a stored pass holds application messages and the candidates that MLS
materialized; there are no commits to add to the graph.  Then the graph is the
seeded one, branch by branch with the witnesses of the batch.  If every branch is
inside the horizon, the commits of the losing branches are deferred, and an
application message is invalidated only by one of two rules: it was delivered and
decrypts on losing branches only, or it decrypts nowhere although the selected tip
has reached its epoch.

Main results:
* `candidates_of_apps` — the branches the selection sees;
* `clean_canonicalize` — where neither rule applies, nothing is dropped or invalidated.
-/
import Mdk.OrderIndependence

open Std (ExtTreeMap ExtTreeSet)

namespace Mdk

open GraphState List BranchCandidate PeeledMessage

/-! ### The batch -/

theorem dedup_eq_self {seen : String → Bool} {messages : List PeeledMessage}
    (hseen : ∀ id, seen id = false) (hnodup : (messages.map messageId).Nodup) :
    (dedup seen messages).uniqueMessages = messages := by
  have hfold : ∀ (l : List PeeledMessage) (d : Dedup), (l.map messageId).Nodup →
      (∀ m ∈ l, m.messageId ∉ d.batchObservedIds) →
        (l.foldl (dedupStep seen) d).uniqueMessages = d.uniqueMessages ++ l := by
    intro l
    induction l with
    | nil => exact fun d _ _ => (append_nil _).symm
    | cons m l ih =>
      intro d hnodup hfresh
      rw [map_cons, nodup_cons] at hnodup
      have hunique : (dedupStep seen d m).uniqueMessages = d.uniqueMessages ++ [m] := by
        have hnew : d.batchObservedIds.contains m.messageId = false := by
          rw [← Bool.not_eq_true, ← ExtTreeSet.mem_iff_contains]
          exact hfresh m mem_cons_self
        rw [dedupStep, hseen, hnew]
        split <;> rfl
      have hlater : ∀ m' ∈ l, m'.messageId ∉ (dedupStep seen d m).batchObservedIds := by
        intro m' hm' hobserved
        have hne : m.messageId ≠ m'.messageId := fun h =>
          hnodup.1 (mem_map.mpr ⟨m', hm', h.symm⟩)
        refine hfresh m' (mem_cons_of_mem _ hm') ?_
        rw [dedupStep] at hobserved
        split at hobserved
        · exact hobserved
        · split at hobserved
          · exact hobserved
          · simpa [ExtTreeSet.mem_insert, hne] using hobserved
      rw [foldl_cons, ih _ hnodup.2 hlater, hunique, append_assoc]
      rfl
  exact hfold messages {} hnodup fun _ _ => ExtTreeSet.not_mem_empty

/-! ### The seeded graph -/

/-- What seeding with the candidates `l` adds to a graph. -/
theorem foldl_seedMaterialized (l : List MaterializedCandidate) (g : GraphState) :
    (∀ k c, (l.foldl seedMaterializedCandidate g).candidates[k]? = some c →
        g.candidates[k]? = some c ∨ ∃ m ∈ l, m.branch = c ∧ m.branch.id = k) ∧
      (∀ k, k ∈ g.candidates ∨ (∃ m ∈ l, m.branch.id = k) →
        k ∈ (l.foldl seedMaterializedCandidate g).candidates) ∧
      (∀ k, k ∈ (l.foldl seedMaterializedCandidate g).materializedCommitIdsByBranch →
        k ∈ g.materializedCommitIdsByBranch ∨ ∃ m ∈ l, m.branch.id = k) := by
  induction l generalizing g with
  | nil => exact ⟨fun k c h => .inl h, fun k h => by simpa using h, fun k h => .inl h⟩
  | cons m l ih =>
    obtain ⟨hfrom, hhas, hmat⟩ := ih (seedMaterializedCandidate g m)
    refine ⟨fun k c h => ?_, fun k h => hhas k ?_, fun k h => ?_⟩
    · rcases hfrom k c h with hseeded | ⟨m', hm', hbranch⟩
      · rw [seedMaterializedCandidate, ExtTreeMap.getElem?_insert] at hseeded
        split at hseeded
        · rename_i hk
          cases hseeded
          exact .inr ⟨m, mem_cons_self, rfl, Std.compare_eq_iff_eq.mp hk⟩
        · exact .inl hseeded
      · exact .inr ⟨m', mem_cons_of_mem _ hm', hbranch⟩
    · rw [seedMaterializedCandidate, ExtTreeMap.mem_insert, Std.compare_eq_iff_eq]
      rcases h with hold | ⟨m', hm', hk⟩
      · exact .inl (.inr hold)
      · rcases mem_cons.mp hm' with rfl | hm'
        · exact .inl (.inl hk)
        · exact .inr ⟨m', hm', hk⟩
    · rcases hmat k h with hseeded | ⟨m', hm', hk⟩
      · rw [seedMaterializedCandidate, ExtTreeMap.mem_insert, Std.compare_eq_iff_eq] at hseeded
        rcases hseeded with hk | hold
        · exact .inr ⟨m, mem_cons_self, hk⟩
        · exact .inl hold
      · exact .inr ⟨m', mem_cons_of_mem _ hm', hk⟩

variable {input : CanonicalizationInput}

/-- Without commits in the batch the graph loop has nothing to do. -/
theorem materializeCandidateGraph_of_apps {messages : List PeeledMessage}
    (happs : ∀ m ∈ messages, m.commit? = none) (materialized : List MaterializedCandidate) :
    materializeCandidateGraph input messages materialized =
      (seedGraph input materialized).toGraph := by
  have hcommits : sortedCommits messages = [] := by
    have hfilter : (messages.filter fun m => m.commit?.isSome) = [] := by
      rw [filter_eq_nil_iff]
      intro m hm
      rw [happs m hm]
      simp
    rw [sortedCommits, hfilter]
    rfl
  rw [materializeCandidateGraph, hcommits]
  rfl

/-- The graph of a pass. -/
abbrev passGraph (input : CanonicalizationInput) (materialized : List MaterializedCandidate) :
    MaterializedGraph :=
  canonicalizationGraph input materialized true none

/-- A batch of application messages over materialized candidates. -/
structure AppBatch (input : CanonicalizationInput) : Prop where
  seeds : input.candidateBranches = []
  unseen : ∀ id, isSeen input none id = false
  distinct : (input.pendingMessages.map messageId).Nodup
  apps : ∀ m ∈ input.pendingMessages, ∃ app, m.kind = .appMessage app

theorem AppBatch.commit?_eq_none (h : AppBatch input) {m : PeeledMessage}
    (hm : m ∈ input.pendingMessages) : m.commit? = none := by
  obtain ⟨app, happ⟩ := h.apps m hm
  rw [commit?, happ]

/-- The branches a pass selects from: the materialized ones, with the witnesses of
the batch. -/
theorem candidates_of_apps (h : AppBatch input) (materialized : List MaterializedCandidate) :
    (passGraph input materialized).candidates =
      (seedGraph input materialized).toGraph.candidates.map fun c =>
        c.addWitnesses (input.pendingMessages.flatMap (witnessesFrom input.policy c)) := by
  rw [passGraph, canonicalizationGraph, dedup_eq_self h.unseen h.distinct, witnessedGraph]
  simp only [if_true, attachAppWitnesses]
  rw [materializeCandidateGraph_of_apps fun m hm => h.commit?_eq_none hm]
  refine foldl_attachAppWitness_eq_map _ ?_
  exact nodup_toGraph_ids (keyed_seedGraph input materialized)

variable {materialized : List MaterializedCandidate}

theorem mem_seed_candidates (hseeds : input.candidateBranches = []) {c : BranchCandidate}
    (hc : c ∈ (seedGraph input materialized).toGraph.candidates) :
    ∃ m ∈ materialized, m.branch = c := by
  rw [mem_toGraph_candidates (keyed_seedGraph input materialized), seedGraph, hseeds]
    at hc
  rcases (foldl_seedMaterialized materialized _).1 _ _ hc with hempty | ⟨m, hm, hbranch, -⟩
  · simp at hempty
  · exact ⟨m, hm, hbranch⟩

section Graph

variable {input : CanonicalizationInput} (h : AppBatch input)
  {materialized : List MaterializedCandidate}
include h

/-- Every branch of the graph is a materialized one, up to its witnesses. -/
theorem AppBatch.exists_of_mem {c : BranchCandidate}
    (hc : c ∈ (passGraph input materialized).candidates) :
    ∃ m ∈ materialized, c.forkEpoch = m.branch.forkEpoch := by
  rw [candidates_of_apps h] at hc
  obtain ⟨c₀, hc₀, rfl⟩ := mem_map.mp hc
  obtain ⟨m, hm, rfl⟩ := mem_seed_candidates h.seeds hc₀
  exact ⟨m, hm, rfl⟩

/-- Every materialized branch can be found in the graph. -/
theorem AppBatch.exists_find? {m : MaterializedCandidate} (hm : m ∈ materialized) :
    ∃ c ∈ (passGraph input materialized).candidates,
      ((passGraph input materialized).candidates.find?
        fun candidate => candidate.id == m.branch.id) = some c := by
  have hkey : m.branch.id ∈ (seedGraph input materialized).candidates :=
    (foldl_seedMaterialized materialized _).2.1 _ (.inr ⟨m, hm, rfl⟩)
  obtain ⟨c₀, hc₀⟩ := Option.isSome_iff_exists.mp
    (ExtTreeMap.mem_iff_isSome_getElem?.mp hkey)
  have hkeyed := keyed_seedGraph input materialized
  have hid : c₀.id = m.branch.id := hkeyed _ _ hc₀
  have hmem : c₀ ∈ (seedGraph input materialized).toGraph.candidates := by
    rw [mem_toGraph_candidates hkeyed, hid]
    exact hc₀
  have hgraph : c₀.addWitnesses (input.pendingMessages.flatMap (witnessesFrom input.policy c₀)) ∈
      (passGraph input materialized).candidates := by
    rw [candidates_of_apps h]
    exact mem_map.mpr ⟨c₀, hmem, rfl⟩
  have hfound : ((passGraph input materialized).candidates.find?
      fun candidate => candidate.id == m.branch.id).isSome = true := by
    rw [find?_isSome]
    exact ⟨_, hgraph, by simpa [addWitnesses] using hid⟩
  obtain ⟨c, hc⟩ := Option.isSome_iff_exists.mp hfound
  exact ⟨c, mem_of_find?_eq_some hc, hc⟩

theorem AppBatch.materializedCommitIdsByBranch {branchId : String}
    (hmem : branchId ∈ (passGraph input materialized).materializedCommitIdsByBranch) :
    ∃ m ∈ materialized, m.branch.id = branchId := by
  rw [passGraph, canonicalizationGraph, dedup_eq_self h.unseen h.distinct, witnessedGraph] at hmem
  simp only [if_true, attachAppWitnesses] at hmem
  rw [materializeCandidateGraph_of_apps fun m hm => h.commit?_eq_none hm] at hmem
  rw [toGraph, seedGraph, h.seeds] at hmem
  rcases (foldl_seedMaterialized materialized _).2.2 _ hmem with hempty | hfound
  · simp at hempty
  · exact hfound

end Graph

/-! ### Nothing is lost -/

/-- The branches are inside the horizon. -/
def BranchesEligible (input : CanonicalizationInput) (materialized : List MaterializedCandidate) :
    Prop :=
  ∀ m ∈ materialized, branchIneligibilityReason input m.branch = none

theorem branchIneligibilityReason_forkEpoch {a b : BranchCandidate} (h : a.forkEpoch = b.forkEpoch)
    : branchIneligibilityReason input a = branchIneligibilityReason input b := by
  rw [branchIneligibilityReason, branchIneligibilityReason, isBranchEligible, isBranchEligible, h]

theorem BranchesEligible.graph (h : AppBatch input)
    (heligible : BranchesEligible input materialized) {c : BranchCandidate}
    (hc : c ∈ (passGraph input materialized).candidates) :
    branchIneligibilityReason input c = none := by
  obtain ⟨m, hm, hfork⟩ := h.exists_of_mem hc
  rw [branchIneligibilityReason_forkEpoch hfork]
  exact heligible m hm

/-- The branch a pass selects. -/
def selectedCandidate (input : CanonicalizationInput)
    (materialized : List MaterializedCandidate) : Option BranchCandidate :=
  selectCanonicalBranch input.state.currentTipEpoch
    (canonicalizationGraph input materialized true none).candidates input.policy.convergence

/-- Neither of the two rules that invalidate an application message inside the
windows applies: it is not delivered on losing branches only, and it does not decrypt
nowhere at an epoch that the selected tip has reached. -/
def keepsApp (input : CanonicalizationInput) (selected : Option BranchCandidate)
    (app : AppPayload) : Bool :=
  if app.alreadyDelivered then
    selected.isNone || selectedDecrypts (selected.map BranchCandidate.id) app.decryptsOnBranches ||
      app.decryptsOnBranches.isEmpty
  else
    !app.decryptsOnBranches.isEmpty ||
      decide ((selected.map tipEpoch).getD input.state.currentTipEpoch < app.epoch)

/-- The application message is inside the retained window. -/
def appInWindow (input : CanonicalizationInput) (app : AppPayload) : Bool :=
  !decide (app.epoch < input.state.retainedAnchorEpoch) &&
    !appMessageExpired input.state.currentTipEpoch input.policy app.epoch

/-- A disposition that neither drops nor invalidates. -/
def Disposition.clean : Disposition → Bool
  | .drop _ | .invalidate _ => false
  | .acceptCommit _ | .acceptProposal _ | .acceptApp _ | .defer _ | .seen _ => true

theorem clean_handleAppMessage {selected : Option BranchCandidate} {message : PeeledMessage}
    {app : AppPayload} {candidates : List BranchCandidate} (hwindow : appInWindow input app = true)
    (hkeeps : keepsApp input selected app = true)
    (heligible : app.decryptsOnBranches ≠ [] →
      decryptsOnEligible input candidates app.decryptsOnBranches = true) :
    (handleAppMessage (selected.map BranchCandidate.id) (selected.map tipEpoch)
      input message app candidates).clean = true := by
  rw [appInWindow, Bool.and_eq_true, Bool.not_eq_true', Bool.not_eq_true',
    decide_eq_false_iff_not] at hwindow
  rw [keepsApp] at hkeeps
  rw [handleAppMessage]
  by_cases hdelivered : app.alreadyDelivered = true
  · rw [if_pos hdelivered] at hkeeps ⊢
    split
    · rename_i hlosing
      simp only [Bool.and_eq_true, Bool.not_eq_true', Option.isSome_map] at hlosing
      simp only [hlosing.1.2, hlosing.2, Bool.or_false, Option.isNone_iff_eq_none] at hkeeps
      rw [hkeeps] at hlosing
      simp at hlosing
    · rfl
  · rw [if_neg hdelivered] at hkeeps ⊢
    rw [if_neg hwindow.1, if_neg (by rw [hwindow.2]; exact Bool.false_ne_true)]
    split
    · rfl
    split
    · rfl
    rename_i hfuture
    by_cases hempty : app.decryptsOnBranches = []
    · -- It decrypts nowhere, so it lies beyond the selected tip.
      simp only [hempty, isEmpty_nil, Bool.not_true, Bool.false_or] at hkeeps
      simp only [hempty, isEmpty_nil, Bool.true_and] at hfuture
      exact absurd hkeeps hfuture
    · rw [if_neg (by simpa using hempty), if_pos (heligible hempty)]
      rfl

/-- Nothing has been dropped or invalidated. -/
structure CanonicalizationResult.Clean (r : CanonicalizationResult) : Prop where
  dropped : r.droppedMessages = []
  invalidated : r.invalidatedAppMessages = []

variable {r : CanonicalizationResult}

theorem CanonicalizationResult.Clean.push (h : r.Clean) {d : Disposition} (hd : d.clean = true) :
    (r.push d).Clean := by
  cases d with
  | drop entry => cases hd
  | invalidate entry => cases hd
  | acceptCommit id => exact ⟨h.dropped, h.invalidated⟩
  | acceptProposal id => exact ⟨h.dropped, h.invalidated⟩
  | acceptApp id => exact ⟨h.dropped, h.invalidated⟩
  | defer entry => exact ⟨h.dropped, h.invalidated⟩
  | seen entry => exact ⟨h.dropped, h.invalidated⟩

theorem CanonicalizationResult.Clean.foldl {α : Type}
    {f : CanonicalizationResult → α → CanonicalizationResult} {l : List α}
    (hf : ∀ r, ∀ a ∈ l, r.Clean → (f r a).Clean) (h : r.Clean) : (l.foldl f r).Clean :=
  foldlRecOn l f h fun r hr a ha => hf r a ha hr

/-- The commits of the losing branches are deferred: every branch can be reconsidered. -/
theorem clean_classifyLosing (h : AppBatch input) (heligible : BranchesEligible input materialized)
    (hr : r.Clean) :
    (classifyLosingMaterializedCandidateCommits r input (passGraph input materialized).candidates
      (passGraph input materialized).materializedCommitIdsByBranch).Clean := by
  rw [classifyLosingMaterializedCandidateCommits]
  split
  · exact hr
  rename_i selectedBranchId hselected
  refine hr.foldl fun r entry hentry hr => ?_
  split
  · exact hr
  -- The losing branch is in the graph, and inside the horizon.
  have hbranch : entry.1 ∈ (passGraph input materialized).materializedCommitIdsByBranch := by
    rw [ExtTreeMap.mem_iff_isSome_getElem?,
      ExtTreeMap.mem_toList_iff_getElem?_eq_some.mp hentry]
    rfl
  obtain ⟨m, hm, hid⟩ := h.materializedCommitIdsByBranch hbranch
  obtain ⟨c, hc, hfind⟩ := h.exists_find? hm
  rw [hid] at hfind
  rw [hfind]
  refine hr.foldl fun r messageId _ hr => ?_
  rw [classifyLosingCommit]
  split
  · exact hr
  · have hreason : branchIneligibilityReason input c = none := heligible.graph h hc
    simp only [Option.bind_some, hreason, Option.isSome_some, Option.isNone_none, Bool.and_self,
      if_true]
    exact hr.push rfl

theorem clean_finishResult (hr : r.Clean) : (finishResult input r).Clean := by
  have hsort : ∀ r : CanonicalizationResult, r.Clean → r.sort.Clean := by
    intro r hr
    refine ⟨?_, ?_⟩
    · show Comparison.sortBy compare r.droppedMessages = []
      rw [hr.dropped]
      rfl
    · show Comparison.sortBy compare r.invalidatedAppMessages = []
      rw [hr.invalidated]
      rfl
  simp only [finishResult]
  split
  · exact hsort _ ⟨hr.dropped, hr.invalidated⟩
  · exact hsort _ ⟨hr.dropped, hr.invalidated⟩

/-- Some branch the message decrypts on can still be selected. -/
theorem decryptsOnEligible_of_materialized (h : AppBatch input)
    (heligible : BranchesEligible input materialized) {branches : List String}
    (hbranches : ∀ b ∈ branches, ∃ m ∈ materialized, m.branch.id = b) (hne : branches ≠ []) :
    decryptsOnEligible input (passGraph input materialized).candidates branches = true := by
  obtain ⟨branchId, rest, rfl⟩ := exists_cons_of_ne_nil hne
  obtain ⟨m, hm, hid⟩ := hbranches branchId mem_cons_self
  obtain ⟨c, hc, hfind⟩ := h.exists_find? hm
  rw [hid] at hfind
  rw [decryptsOnEligible, any_eq_true]
  refine ⟨c, ?_, ?_⟩
  · exact mem_filterMap.mpr ⟨branchId, mem_cons_self, hfind⟩
  · rw [heligible.graph h hc]
    rfl

/-- The conditions under which a batch loses nothing. -/
structure LosesNothing (input : CanonicalizationInput)
    (materialized : List MaterializedCandidate) : Prop where
  batch : AppBatch input
  eligible : BranchesEligible input materialized
  branches : ∀ m ∈ input.pendingMessages, ∀ app, m.kind = .appMessage app →
    ∀ b ∈ app.decryptsOnBranches, ∃ c ∈ materialized, c.branch.id = b
  window : ∀ m ∈ input.pendingMessages, ∀ app, m.kind = .appMessage app →
    appInWindow input app = true
  keeps : ∀ m ∈ input.pendingMessages, ∀ app, m.kind = .appMessage app →
    keepsApp input (selectedCandidate input materialized) app = true

/-- **A pass whose batch loses nothing drops nothing and invalidates nothing.** -/
theorem clean_canonicalize (h : LosesNothing input materialized) :
    (canonicalizeWithMaterializedCandidates input materialized).Clean := by
  rw [canonicalizeWithMaterializedCandidates, canonicalizeInternal]
  refine clean_finishResult (clean_classifyLosing h.batch h.eligible ?_)
  rw [handleMessages]
  refine CanonicalizationResult.Clean.foldl (fun r m hm hr => ?_) ⟨rfl, rfl⟩
  rw [dedup_eq_self h.batch.unseen h.batch.distinct] at hm
  obtain ⟨app, happ⟩ := h.batch.apps m hm
  simp only [handleMessage, happ]
  refine hr.push (clean_handleAppMessage (h.window m hm app happ) (h.keeps m hm app happ) ?_)
  exact decryptsOnEligible_of_materialized h.batch h.eligible (h.branches m hm app happ)

end Mdk
