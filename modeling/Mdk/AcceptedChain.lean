/-
The accepted commits of a call without caller-supplied candidates.

The list starts with the path of the selected branch, which is a chain of commits
of the batch in application order (`GraphState.Chained`).  `handle_commit` then
appends every other commit in the window that carries the selected branch id,
whether or not it could have been applied.

* `accepted_commits_chain_iff` — the list is the chain of the selected branch, in
  application order, exactly when no second commit of the batch carries the
  selected branch id; then it does not depend on the order of arrival either;
* `accepted_commit_never_applies` — a batch where it is not.
-/
import Mdk.Accounting

open Std (ExtTreeMap ExtTreeSet TransCmp)
open Comparison

namespace Mdk

open PeeledMessage List PeeledMessage

section

variable (input : CanonicalizationInput)

/-- The messages of the batch that deduplication lets through. -/
def admittedMessages : List PeeledMessage :=
  (dedup (isSeen input none) input.pendingMessages).uniqueMessages

/-- `b` is the commit after `a`. -/
def Follows (a b : PeeledMessage) : Prop :=
  ∃ ea eb, a.commit? = some ea ∧ b.commit? = some eb ∧
    eb.parentBranchId = some ea.branchId ∧ b.sourceEpoch = ea.resultingEpoch

/-- The checks of a commit that do not look at the graph. -/
def ChecksAlone (m : PeeledMessage) : Prop :=
  ∃ edge, m.commit? = some edge ∧ commitInWindow input edge.forkEpoch = true ∧
    m.sourceEpoch < edge.resultingEpoch

/-- `chain` leads from `forkEpoch` to `tipEpoch`, one commit of `pool` after the other. -/
structure AppliedChain (input : CanonicalizationInput) (pool chain : List PeeledMessage)
    (forkEpoch tipEpoch : UInt64) : Prop where
  pending : ∀ m ∈ chain, m ∈ pool
  checked : ∀ m ∈ chain, ChecksAlone input m
  first : chain.head?.map sourceEpoch = some forkEpoch
  ordered : chain.IsChain Follows
  last : (chain.getLast?.bind commit?).map CommitEdge.resultingEpoch = some tipEpoch

/-- The accepted commits are a chain of commits of `pool` from the selected fork
epoch to the selected tip; there are none when nothing is selected. -/
def AcceptsSelectedChain (pool : List PeeledMessage) : Prop :=
  match (canonicalize input).selectedForkEpoch, (canonicalize input).selectedTip with
  | some forkEpoch, some tipEpoch =>
    ∃ chain, chain.map messageId = (canonicalize input).acceptedCommits ∧
      AppliedChain input pool chain forkEpoch tipEpoch
  | _, _ => (canonicalize input).acceptedCommits = []

/-- `m` is a commit in the window that names `branchId`. -/
def CommitsTo (branchId : String) (m : PeeledMessage) : Prop :=
  ∃ edge, m.commit? = some edge ∧ edge.branchId = branchId ∧
    commitInWindow input edge.forkEpoch = true

/-- The branch a call without materialized candidates selects. -/
def selectedBranch : Option BranchCandidate :=
  selectCanonicalBranch input.state.currentTipEpoch
    (canonicalizationGraph input [] true none).candidates input.policy.convergence

/-- The branch that selection picks is carried by one commit of the batch only. -/
def SoleCommit : Prop :=
  ∀ winner, selectedBranch input = some winner →
    ∀ m ∈ admittedMessages input, ∀ m' ∈ admittedMessages input,
      CommitsTo input winner.id m → CommitsTo input winner.id m' → m.messageId = m'.messageId

end

/-! ### Chains -/

variable {input : CanonicalizationInput} {pool chain : List PeeledMessage}
  {forkEpoch tipEpoch : UInt64}

theorem AppliedChain.append (h : AppliedChain input pool chain forkEpoch tipEpoch)
    {last m : PeeledMessage} {lastEdge edge : CommitEdge} (hlast : chain.getLast? = some last)
    (hlastEdge : last.commit? = some lastEdge) (hm : m ∈ pool) (hedge : m.commit? = some edge)
    (hwindow : commitInWindow input edge.forkEpoch = true)
    (hadvances : m.sourceEpoch < edge.resultingEpoch)
    (hparent : edge.parentBranchId = some lastEdge.branchId) (hsource : m.sourceEpoch = tipEpoch) :
    AppliedChain input pool (chain ++ [m]) forkEpoch edge.resultingEpoch := by
  have htip : lastEdge.resultingEpoch = tipEpoch := by
    have := h.last
    rw [hlast, Option.bind_some, hlastEdge] at this
    exact Option.some.inj this
  constructor
  · intro m' hm'
    rcases mem_append.mp hm' with hm' | hm'
    · exact h.pending m' hm'
    · rw [mem_singleton.mp hm']
      exact hm
  · intro m' hm'
    rcases mem_append.mp hm' with hm' | hm'
    · exact h.checked m' hm'
    · rw [mem_singleton.mp hm']
      exact ⟨edge, hedge, hwindow, hadvances⟩
  · have hfirst := h.first
    cases hhead : chain.head? with
    | none => simp [hhead] at hfirst
    | some c => simpa [head?_append, hhead] using hfirst
  · refine isChain_append.mpr ⟨h.ordered, isChain_singleton _, ?_⟩
    intro a ha b hb
    rw [hlast] at ha
    cases ha
    cases hb
    exact ⟨lastEdge, edge, hlastEdge, hedge, hparent, hsource.trans htip.symm⟩
  · simp [hedge]

variable {edge : CommitEdge} {m : PeeledMessage}

theorem AppliedChain.singleton {pool : List PeeledMessage} (hm : m ∈ pool)
    (hedge : m.commit? = some edge) (hwindow : commitInWindow input edge.forkEpoch = true)
    (hadvances : m.sourceEpoch < edge.resultingEpoch) :
    AppliedChain input pool [m] m.sourceEpoch edge.resultingEpoch := by
  constructor
  · intro m' hm'
    rw [mem_singleton.mp hm']
    exact hm
  · intro m' hm'
    rw [mem_singleton.mp hm']
    exact ⟨edge, hedge, hwindow, hadvances⟩
  · rfl
  · exact isChain_singleton _
  · simp [hedge]

/-- The commit `b` leads to a later epoch than `a`. -/
def LeadsFurther (a b : PeeledMessage) : Prop :=
  ∃ ea eb, a.commit? = some ea ∧ b.commit? = some eb ∧ ea.resultingEpoch < eb.resultingEpoch

instance : Trans LeadsFurther LeadsFurther LeadsFurther where
  trans := by
    rintro a b c ⟨ea, eb, ha, hb, hab⟩ ⟨eb', ec, hb', hc, hbc⟩
    rw [hb] at hb'
    cases hb'
    exact ⟨ea, ec, ha, hc, UInt64.lt_trans hab hbc⟩

/-- Epochs grow along a chain. -/
theorem AppliedChain.pairwise (h : AppliedChain input pool chain forkEpoch tipEpoch) :
    chain.Pairwise LeadsFurther := by
  rw [← isChain_iff_pairwise]
  refine h.ordered.imp_of_mem_imp fun a b _ hb hab => ?_
  obtain ⟨ea, eb, ha, hbe, -, hsource⟩ := hab
  obtain ⟨eb', hbe', -, hadvances⟩ := h.checked b hb
  rw [hbe] at hbe'
  cases hbe'
  rw [hsource] at hadvances
  exact ⟨ea, eb, ha, hbe, hadvances⟩

/-- A commit of a chain that leads to the tip is the last one. -/
theorem AppliedChain.getLast?_of_tip (h : AppliedChain input pool chain forkEpoch tipEpoch)
    (hm : m ∈ chain) (hedge : m.commit? = some edge) (htip : edge.resultingEpoch = tipEpoch) :
    chain.getLast? = some m := by
  obtain ⟨before, after, rfl⟩ := append_of_mem hm
  rcases eq_nil_or_concat after with rfl | ⟨middle, l, rfl⟩
  · simp
  · -- A later last commit would lead past the tip.
    have hlast := h.last
    have hpair := h.pairwise
    rw [pairwise_append] at hpair
    obtain ⟨em, el, hem, hel, hlt⟩ :=
      (pairwise_cons.mp hpair.2.1).1 l (by simp)
    rw [hedge] at hem
    cases hem
    have hl : (before ++ m :: middle.concat l).getLast? = some l := by
      simp [getLast?_append, getLast?_cons]
    rw [hl, Option.bind_some, hel] at hlast
    have htip' : el.resultingEpoch = tipEpoch := Option.some.inj hlast
    rw [htip, htip'] at hlt
    exact absurd hlt (UInt64.lt_irrefl _)

/-! ### The paths of the graph are chains -/

/-- The branch of the commit `m` is in the graph, with `m`'s epoch as its tip. -/
def GraphState.HasBranchOf (g : GraphState) (m : PeeledMessage) : Prop :=
  ∃ edge c, m.commit? = some edge ∧ g.candidates[edge.branchId]? = some c ∧
    c.tipEpoch = edge.resultingEpoch

/-- Every branch has a chain of commits as its path, and its own commit at the end. -/
def GraphState.Chained (input : CanonicalizationInput) (commits : List PeeledMessage)
    (g : GraphState) : Prop :=
  ∀ (branchId : String) candidate, g.candidates[branchId]? = some candidate →
    ∃ chain last edge, g.commitPathByBranch[branchId]? = some (chain.map messageId) ∧
      AppliedChain input commits chain candidate.forkEpoch candidate.tipEpoch ∧
      (∀ m ∈ chain, g.HasBranchOf m) ∧
      chain.getLast? = some last ∧ last.commit? = some edge ∧ edge.branchId = branchId

theorem GraphState.HasBranchOf.addCommit {g : GraphState} {m message : PeeledMessage}
    {parent : ResolvedParent} (h : g.HasBranchOf m) (hadds : Adds input g message edge parent) :
    (g.addCommit message edge parent).HasBranchOf m := by
  obtain ⟨e, c, he, hc, htip⟩ := h
  -- A commit adds a branch under a new id only.
  have hne : edge.branchId ≠ e.branchId := by
    intro heq
    refine hadds.newBranch ?_
    rw [heq, ExtTreeMap.mem_iff_isSome_getElem?, hc]
    rfl
  refine ⟨e, c, he, ?_, htip⟩
  simp [GraphState.addCommit, ExtTreeMap.getElem?_insert, hne, hc]

theorem GraphState.Chained.addCommit {commits : List PeeledMessage} {g : GraphState}
    (h : g.Chained input commits) {parent : ResolvedParent} (hm : m ∈ commits)
    (hadds : Adds input g m edge parent) : (g.addCommit m edge parent).Chained input commits := by
  intro branchId candidate hc
  have hkept : ∀ {chain : List PeeledMessage}, (∀ m' ∈ chain, g.HasBranchOf m') →
      ∀ m' ∈ chain, (g.addCommit m edge parent).HasBranchOf m' :=
    fun hchain m' hm' => (hchain m' hm').addCommit hadds
  have hnew : (g.addCommit m edge parent).HasBranchOf m :=
    ⟨edge, addedCandidate m edge parent, hadds.commit, by simp [GraphState.addCommit], rfl⟩
  have hcandidate : (g.addCommit m edge parent).candidates[branchId]? =
      if edge.branchId = branchId then some (addedCandidate m edge parent)
      else g.candidates[branchId]? := by
    simp [GraphState.addCommit, ExtTreeMap.getElem?_insert]
  have hpath : (g.addCommit m edge parent).commitPathByBranch[branchId]? =
      if edge.branchId = branchId then some (parent.commitPath ++ [m.messageId])
      else g.commitPathByBranch[branchId]? := by
    simp [GraphState.addCommit, ExtTreeMap.getElem?_insert]
  rw [hcandidate] at hc
  rw [hpath]
  by_cases hbranch : edge.branchId = branchId
  · rw [if_pos hbranch] at hc ⊢
    obtain rfl := Option.some.inj hc
    have hresolved := hadds.resolved
    have hmatches := hadds.matchesParent
    cases hparent : edge.parentBranchId with
    | none =>
      -- A root commit starts a chain at its own epoch.
      rw [hparent] at hresolved hmatches
      have hsource : m.sourceEpoch = edge.forkEpoch := by
        simpa [sourceEpochMatchesParent] using hmatches
      refine ⟨[m], m, edge, ?_, ?_, ?_, rfl, hadds.commit, hbranch⟩
      · rw [← Option.some.inj hresolved]
        rfl
      · rw [← Option.some.inj hresolved]
        show AppliedChain input commits [m] edge.forkEpoch edge.resultingEpoch
        rw [← hsource]
        exact AppliedChain.singleton hm hadds.commit hadds.inWindow hadds.advances
      · intro m' hm'
        rw [mem_singleton.mp hm']
        exact hnew
    | some parentId =>
      -- Any other commit extends the chain of its parent.
      rw [hparent] at hresolved hmatches
      simp only [resolveParent] at hresolved
      cases hpc : g.candidates[parentId]? with
      | none => simp [hpc] at hresolved
      | some pc =>
        simp only [hpc, Option.some.injEq] at hresolved
        obtain ⟨chain, last, lastEdge, hparentPath, hchain, hhas, hlast, hlastEdge, hid⟩ :=
          h parentId pc hpc
        have hsource : m.sourceEpoch = pc.tipEpoch := by
          simp only [sourceEpochMatchesParent, hpc, Option.any_some, beq_iff_eq] at hmatches
          exact hmatches.symm
        refine ⟨chain ++ [m], m, edge, ?_, ?_, ?_, by simp, hadds.commit, hbranch⟩
        · simp [← hresolved, hparentPath]
        · rw [← hresolved]
          refine hchain.append hlast hlastEdge hm hadds.commit hadds.inWindow hadds.advances ?_
            hsource
          rw [hparent, hid]
        · intro m' hm'
          rcases mem_append.mp hm' with hm' | hm'
          · exact hkept hhas m' hm'
          · rw [mem_singleton.mp hm']
            exact hnew
  · rw [if_neg hbranch] at hc ⊢
    obtain ⟨chain, last, lastEdge, hrest, hchain, hhas, hlast⟩ := h branchId candidate hc
    exact ⟨chain, last, lastEdge, hrest, hchain, hkept hhas, hlast⟩

theorem chained_materializeLoop (hseed : input.candidateBranches = [])
    (commits : List PeeledMessage) :
    (materializeLoop input commits (seedGraph input [])).Chained input commits := by
  refine graph_induction ?_ fun _ _ _ _ hm h hadds => h.addCommit hm hadds
  intro branchId candidate hc
  simp [seedGraph, hseed] at hc

/-- Attaching witnesses changes no branch's epochs. -/
theorem exists_of_mem_witnessedGraph {messages : List PeeledMessage}
    {materialized : List MaterializedCandidate} {admitted : Bool} {c : BranchCandidate}
    (hc : c ∈ (witnessedGraph input messages materialized admitted).candidates) :
    ∃ c', (materializeLoop input (sortedCommits messages)
        (seedGraph input materialized)).candidates[c.id]? = some c' ∧
      c'.forkEpoch = c.forkEpoch ∧ c'.tipEpoch = c.tipEpoch := by
  have hkeyed : (materializeLoop input (sortedCommits messages)
      (seedGraph input materialized)).Keyed :=
    keyed_materializeLoop (keyed_seedGraph input materialized)
  cases admitted with
  | false => exact ⟨c, (GraphState.mem_toGraph_candidates hkeyed).mp hc, rfl, rfl⟩
  | true =>
    simp only [witnessedGraph, if_true, attachAppWitnesses] at hc
    rw [foldl_attachAppWitness_eq_map messages (nodup_graph_ids input messages materialized)] at hc
    obtain ⟨c', hc', rfl⟩ := mem_map.mp hc
    exact ⟨c', (GraphState.mem_toGraph_candidates hkeyed).mp hc', rfl, rfl⟩

/-- The selected branch's path is a chain of the batch, and the only commit on it
that carries the branch's id is the last one. -/
theorem selectedPath_chain (hseed : input.candidateBranches = []) {winner : BranchCandidate}
    (hwinner : selectedBranch input = some winner) :
    ∃ chain last edge,
      selectedCommitIds (canonicalizationGraph input [] true none) (some winner.id) =
        chain.map messageId ∧
      AppliedChain input (admittedMessages input) chain winner.forkEpoch winner.tipEpoch ∧
      (∀ m ∈ chain, CommitsTo input winner.id m → m = last) ∧
      chain.getLast? = some last ∧ last.commit? = some edge ∧ edge.branchId = winner.id := by
  have hmem := (selectCanonicalBranch_mem hwinner).1
  obtain ⟨c, hc, hfork, htip⟩ := exists_of_mem_witnessedGraph hmem
  obtain ⟨chain, last, edge, hpath, hchain, hhas, hlast⟩ := chained_materializeLoop hseed _ _ _ hc
  refine ⟨chain, last, edge, ?_, ?_, ?_, hlast⟩
  · rw [selectedCommitIds, canonicalizationGraph, witnessedGraph_commitPath]
    simp [hpath]
  · rw [hfork, htip] at hchain
    exact { hchain with
      pending := fun m hm => mem_of_mem_filter (mem_sortBy.mp (hchain.pending m hm)) }
  · -- Such a commit leads to the tip of the branch.
    rintro m hm ⟨e, he, hid, -⟩
    obtain ⟨e', c', he', hc', htip'⟩ := hhas m hm
    rw [he] at he'
    cases he'
    rw [hid, hc] at hc'
    cases hc'
    have hm' := hchain.getLast?_of_tip hm he htip'.symm
    rw [hlast.1] at hm'
    exact (Option.some.inj hm').symm

/-! ### The accepted list -/

/-- What the handlers read in a call without materialized candidates. -/
def batchContext (input : CanonicalizationInput) : DispositionContext :=
  dispositionContext input (canonicalizationGraph input [] true none)
    ((selectedBranch input).map BranchCandidate.id)
    ((selectedBranch input).map BranchCandidate.tipEpoch)

/-- `handle_commit` accepts the message for its branch id. -/
def acceptedByBranchId (ctx : DispositionContext) (message : PeeledMessage) : Bool :=
  decide (handleMessage ctx message = some (.acceptCommit message.messageId))

theorem acceptedByBranchId_iff {ctx : DispositionContext} {message : PeeledMessage} :
    acceptedByBranchId ctx message = true ↔
      ∃ edge, message.commit? = some edge ∧ commitInWindow ctx.input edge.forkEpoch = true ∧
        message.messageId ∉ ctx.selectedCommitIdSet ∧
          ctx.selectedBranchId = some edge.branchId := by
  rw [acceptedByBranchId, decide_eq_true_eq, handleMessage, commit?]
  cases message.kind with
  | proposal branchId =>
    -- No branch of the handler of a proposal accepts a commit, and so below.
    simp only [Option.some.injEq, reduceCtorEq, false_and, exists_false, iff_false]
    unfold handleProposal
    repeat' split
    all_goals simp
  | appMessage app =>
    simp only [Option.some.injEq, reduceCtorEq, false_and, exists_false, iff_false]
    unfold handleAppMessage
    repeat' split
    all_goals simp
  | commit edge =>
    simp only [Option.some.injEq, exists_eq_left', commitInWindow, handleCommit,
      ExtTreeSet.mem_iff_contains]
    by_cases h₁ : edge.forkEpoch < ctx.input.state.retainedAnchorEpoch
    · simp [h₁]
    by_cases h₂ : ctx.input.policy.convergence.maxRewindCommits <
        ctx.input.state.currentTipEpoch.saturatingSub edge.forkEpoch
    · simp [h₁, h₂]
    by_cases h₃ : ctx.selectedCommitIdSet.contains message.messageId = true
    · simp [h₃, h₁, h₂]
    by_cases h₄ : some edge.branchId = ctx.selectedBranchId
    · simp [h₁, h₂, h₃, ← h₄]
    · have h₄' : ctx.selectedBranchId ≠ some edge.branchId := fun h => h₄ h.symm
      simp only [h₁, h₂, h₃, h₄, h₄', if_false, Bool.not_false, if_true, and_false, iff_false]
      split <;> simp

theorem acceptedCommits_foldl_push (ctx : DispositionContext) (messages : List PeeledMessage)
    (r : CanonicalizationResult) :
    (handleMessages ctx messages r).acceptedCommits =
      r.acceptedCommits ++
        (messages.filter (acceptedByBranchId ctx)).map messageId := by
  induction messages generalizing r with
  | nil => simp [handleMessages]
  | cons m messages ih =>
    rw [handleMessages, foldl_cons]
    rw [← handleMessages, ih]
    cases h : handleMessage ctx m with
    | none =>
      have hm : acceptedByBranchId ctx m = false := by simp [acceptedByBranchId, h]
      rw [filter_cons_of_neg (by simp [hm])]
    | some d =>
      have hid := handleMessage_messageId h
      cases d with
      | acceptCommit id =>
        obtain rfl : id = m.messageId := hid
        have hm : acceptedByBranchId ctx m = true := by simp [acceptedByBranchId, h]
        rw [filter_cons_of_pos hm]
        simp [CanonicalizationResult.push]
      | _ =>
        have hm : acceptedByBranchId ctx m = false := by simp [acceptedByBranchId, h]
        rw [filter_cons_of_neg (by simp [hm])]
        rfl

/-- The accepted commits: the selected path, then what its branch id brings. -/
theorem acceptedCommits_canonicalize (input : CanonicalizationInput) :
    (canonicalize input).acceptedCommits =
      selectedCommitIds (canonicalizationGraph input [] true none)
          ((selectedBranch input).map BranchCandidate.id) ++
        ((admittedMessages input).filter (acceptedByBranchId (batchContext input))).map
          messageId := by
  have hfinish : ∀ r, (finishResult input r).acceptedCommits = r.acceptedCommits := by
    intro r
    rw [finishResult]
    split <;> rfl
  rw [canonicalize, canonicalizeInternal_eq_finishResult, hfinish, acceptedCommits_foldl_push]
  rfl

/-- Commits that come through deduplication have ids of their own. -/
theorem admitted_commit_eq {m m' : PeeledMessage} {edge edge' : CommitEdge}
    (hm : m ∈ admittedMessages input) (hedge : m.commit? = some edge)
    (hm' : m' ∈ admittedMessages input) (hedge' : m'.commit? = some edge')
    (hid : m.messageId = m'.messageId) : m = m' := by
  have hnodup := (dedup_distinct (isSeen input none) input.pendingMessages).nodup
  refine inj_on_of_nodup_map hnodup (mem_filter.mpr ⟨hm, ?_⟩)
    (mem_filter.mpr ⟨hm', ?_⟩) hid
  · simp [readmittedWitness_of_commit hedge]
  · simp [readmittedWitness_of_commit hedge']

section Selected

variable {input : CanonicalizationInput} {winner : BranchCandidate}

theorem mem_acceptedByBranchId (hwinner : selectedBranch input = some winner) {m : PeeledMessage} :
    m ∈ (admittedMessages input).filter (acceptedByBranchId (batchContext input)) ↔
      m ∈ admittedMessages input ∧ CommitsTo input winner.id m ∧ m.messageId ∉
        selectedCommitIds (canonicalizationGraph input [] true none) (some winner.id) := by
  rw [mem_filter, acceptedByBranchId_iff]
  simp only [batchContext, dispositionContext, hwinner, Option.map_some, Option.some.injEq,
    ExtTreeSet.mem_ofList, contains_iff_mem, CommitsTo]
  constructor
  · rintro ⟨hm, edge, hedge, hwindow, hnew, hbranch⟩
    exact ⟨hm, ⟨edge, hedge, hbranch.symm, hwindow⟩, hnew⟩
  · rintro ⟨hm, ⟨edge, hedge, hbranch, hwindow⟩, hnew⟩
    exact ⟨hm, edge, hedge, hwindow, hnew, hbranch.symm⟩

/-- With one commit for the selected branch, its id brings nothing. -/
theorem SoleCommit.acceptedByBranchId_nil (h : SoleCommit input)
    (hseed : input.candidateBranches = []) :
    (admittedMessages input).filter (acceptedByBranchId (batchContext input)) = [] := by
  cases hwinner : selectedBranch input with
  | none =>
    rw [filter_eq_nil_iff]
    intro m _ hm
    obtain ⟨edge, -, -, -, hbranch⟩ := acceptedByBranchId_iff.mp hm
    simp [batchContext, dispositionContext, hwinner] at hbranch
  | some winner =>
    rw [eq_nil_iff_forall_not_mem]
    intro m hm
    obtain ⟨hadmitted, hcommits, hnew⟩ := (mem_acceptedByBranchId hwinner).mp hm
    obtain ⟨chain, last, edge, hpath, hchain, -, hlast, hedge, hbranch⟩ :=
      selectedPath_chain hseed hwinner
    -- The last commit of the path carries the id too, so it is the same message.
    have hmem := mem_of_getLast? hlast
    obtain ⟨edge', hedge', hwindow, -⟩ := hchain.checked last hmem
    rw [hedge] at hedge'
    cases hedge'
    have hid := h winner hwinner m hadmitted last (hchain.pending last hmem) hcommits
      ⟨edge, hedge, hbranch, hwindow⟩
    rw [hpath, hid] at hnew
    exact hnew (mem_map_of_mem hmem)

/-- When the accepted list is a chain, its last commit is the path's. -/
theorem acceptedByBranchId_nil_of_chain (hseed : input.candidateBranches = [])
    (hwinner : selectedBranch input = some winner) {chain : List PeeledMessage}
    (hids : chain.map messageId = (canonicalize input).acceptedCommits)
    (hchain : AppliedChain input (admittedMessages input) chain winner.forkEpoch winner.tipEpoch) :
    (admittedMessages input).filter (acceptedByBranchId (batchContext input)) = [] := by
  obtain ⟨path, last, edge, hpath, hpathChain, -, hlast, hedge, hbranch⟩ :=
    selectedPath_chain hseed hwinner
  rw [acceptedCommits_canonicalize, hwinner, Option.map_some] at hids
  have hmem := mem_of_getLast? hlast
  have htip : edge.resultingEpoch = winner.tipEpoch := by
    have := hpathChain.last
    rw [hlast, Option.bind_some, hedge] at this
    exact Option.some.inj this
  -- The path's last commit is on the chain, and leads to the tip.
  have hlastIn : last ∈ chain := by
    have hid : last.messageId ∈ chain.map messageId := by
      rw [hids, hpath]
      exact mem_append_left _ (mem_map_of_mem hmem)
    obtain ⟨m, hm, hmid⟩ := mem_map.mp hid
    obtain ⟨edge', hedge', -⟩ := hchain.checked m hm
    rw [← admitted_commit_eq (hchain.pending m hm) hedge' (hpathChain.pending last hmem) hedge
      hmid]
    exact hm
  have hchainLast := hchain.getLast?_of_tip hlastIn hedge htip
  rcases eq_nil_or_concat
    ((admittedMessages input).filter (acceptedByBranchId (batchContext input))) with hnil |
    ⟨extras, x, hextras⟩
  · exact hnil
  · -- Otherwise the list ends with a commit that is not on the path.
    have hx : x ∈ (admittedMessages input).filter (acceptedByBranchId (batchContext input)) := by
      rw [hextras]
      simp
    have hlastId : (chain.map messageId).getLast? = some x.messageId := by
      rw [hids, hextras]
      simp
    rw [getLast?_map, hchainLast] at hlastId
    have hid : last.messageId = x.messageId := Option.some.inj hlastId
    refine absurd ?_ ((mem_acceptedByBranchId hwinner).mp hx).2.2
    rw [hpath, ← hid]
    exact mem_map_of_mem hmem

/-- When the branch id brings nothing, one commit carries it. -/
theorem soleCommit_of_acceptedByBranchId_nil (hseed : input.candidateBranches = [])
    (hnil : (admittedMessages input).filter (acceptedByBranchId (batchContext input)) = []) :
    SoleCommit input := by
  intro winner hwinner
  obtain ⟨chain, last, edge, hpath, hchain, honly, -⟩ := selectedPath_chain hseed hwinner
  have hlast : ∀ m ∈ admittedMessages input, CommitsTo input winner.id m → m = last := by
    intro m hm hcommits
    by_cases hid : m.messageId ∈
        selectedCommitIds (canonicalizationGraph input [] true none) (some winner.id)
    · -- On the path only the last commit carries the id; off it, none is left.
      rw [hpath] at hid
      obtain ⟨m', hm', hid'⟩ := mem_map.mp hid
      obtain ⟨e', he', -⟩ := hchain.checked m' hm'
      obtain ⟨e, he, -⟩ := id hcommits
      have heq := admitted_commit_eq (hchain.pending m' hm') he' hm he hid'
      rw [← heq] at hcommits ⊢
      exact honly m' hm' hcommits
    · have hin := (mem_acceptedByBranchId hwinner).mpr ⟨hm, hcommits, hid⟩
      rw [hnil] at hin
      cases hin
  intro m hm m' hm' hcommits hcommits'
  rw [hlast m hm hcommits, hlast m' hm' hcommits']

end Selected

/-! ### The accepted commits are the selected chain -/

theorem acceptsSelectedChain_iff (pool : List PeeledMessage) :
    AcceptsSelectedChain input pool ↔
      match selectedBranch input with
      | some winner =>
        ∃ chain, chain.map messageId = (canonicalize input).acceptedCommits ∧
          AppliedChain input pool chain winner.forkEpoch winner.tipEpoch
      | none => (canonicalize input).acceptedCommits = [] := by
  obtain ⟨-, htip, hfork, -⟩ := canonicalizeInternal_selected input [] true none
  rw [AcceptsSelectedChain, canonicalize, hfork, htip, ← selectedBranch]
  cases selectedBranch input <;> exact Iff.rfl

/-- The order of arrival shows in the accepted list only through what the branch
id brings. -/
theorem acceptedCommits_perm {pending : List PeeledMessage}
    (hids : IdsIdentify input.pendingMessages) (hperm : input.pendingMessages.Perm pending)
    (hnil : (admittedMessages input).filter (acceptedByBranchId (batchContext input)) = []) :
    (canonicalize (input.withPending pending)).acceptedCommits =
      (canonicalize input).acceptedCommits := by
  have hdedup := dedup_perm (isSeen input none) hperm hids
  have hunique : IdsIdentify (admittedMessages input) :=
    fun a ha b hb => hids a (mem_of_mem_uniqueMessages ha) b (mem_of_mem_uniqueMessages hb)
  have hgraph : (canonicalizationGraph input [] true none).Same
      (canonicalizationGraph (input.withPending pending) [] true none) :=
    witnessedGraph_perm input hdedup.unique hunique [] true
  have hselected := selectCanonicalBranch_rel (fun a b hab => And.left hab) hgraph.candidates
    input.state.currentTipEpoch input.policy.convergence
  have hid : (selectedBranch input).map BranchCandidate.id =
      (selectedBranch (input.withPending pending)).map BranchCandidate.id :=
    optionMap_eq_of_rel hselected fun a b hab => hab.1.id
  have htip : (selectedBranch input).map BranchCandidate.tipEpoch =
      (selectedBranch (input.withPending pending)).map BranchCandidate.tipEpoch :=
    optionMap_eq_of_rel hselected fun a b hab => hab.1.tipEpoch
  have haccepted : acceptedByBranchId (batchContext (input.withPending pending)) =
      acceptedByBranchId (batchContext input) := by
    funext m
    refine decide_eq_decide.mpr ?_
    rw [batchContext, batchContext, ← hid, ← htip, ← handleMessage_congr hgraph input pending]
  have hnil' : (admittedMessages (input.withPending pending)).filter
      (acceptedByBranchId (batchContext (input.withPending pending))) = [] := by
    rw [haccepted, ← perm_nil, ← hnil]
    exact (hdedup.unique.filter _).symm
  rw [acceptedCommits_canonicalize, acceptedCommits_canonicalize, hnil, hnil', ← hid,
    selectedCommitIds, selectedCommitIds, hgraph.commitPath]

/-- **The accepted commits are the selected branch's chain, in application order,
exactly when one commit of the batch carries the selected branch id.**  Then, as
long as ids identify messages, the list is the same for every order of arrival. -/
theorem accepted_commits_chain_iff (input : CanonicalizationInput)
    (hseed : input.candidateBranches = []) :
    (AcceptsSelectedChain input (admittedMessages input) ↔ SoleCommit input) ∧
      (SoleCommit input → IdsIdentify input.pendingMessages →
        ∀ pending, input.pendingMessages.Perm pending →
          (canonicalize (input.withPending pending)).acceptedCommits =
            (canonicalize input).acceptedCommits) := by
  refine ⟨⟨fun h => ?_, fun h => ?_⟩, fun h hids pending hperm =>
    acceptedCommits_perm hids hperm (h.acceptedByBranchId_nil hseed)⟩
  · rw [acceptsSelectedChain_iff] at h
    cases hwinner : selectedBranch input with
    | none =>
      intro winner hw
      rw [hwinner] at hw
      cases hw
    | some winner =>
      rw [hwinner] at h
      obtain ⟨chain, hids, hchain⟩ := h
      exact soleCommit_of_acceptedByBranchId_nil hseed
        (acceptedByBranchId_nil_of_chain hseed hwinner hids hchain)
  · rw [acceptsSelectedChain_iff, acceptedCommits_canonicalize, h.acceptedByBranchId_nil hseed]
    cases hwinner : selectedBranch input with
    | none => rfl
    | some winner =>
      obtain ⟨chain, last, edge, hpath, hchain, -⟩ := selectedPath_chain hseed hwinner
      refine ⟨chain, ?_, hchain⟩
      simp [hpath]

/-- A child commit that arrives before its parent, and a losing sibling. -/
def forkedBatch : CanonicalizationInput :=
  batchInput [commitMessage "m2" 1 11 "b2" (some "b1"), commitMessage "m1" 1 10 "b1" none,
    commitMessage "m3" 1 10 "b3" none]

theorem accepted_commits_chain_forked :
    forkedBatch.candidateBranches = [] ∧
      AcceptsSelectedChain forkedBatch (admittedMessages forkedBatch) := by
  refine ⟨rfl, (accepted_commits_chain_iff forkedBatch rfl).1.mpr ?_⟩
  have hselected : (selectedBranch forkedBatch).map BranchCandidate.id = some "b2" := by decide
  have hadmitted : admittedMessages forkedBatch = forkedBatch.pendingMessages := by decide
  have honly : ∀ m ∈ forkedBatch.pendingMessages,
      (m.commit?.map CommitEdge.branchId) = some "b2" → m.messageId = "m2" := by decide
  intro winner hwinner m hm m' hm' hcommits hcommits'
  have hid : winner.id = "b2" := by
    rw [hwinner] at hselected
    exact Option.some.inj hselected
  rw [hadmitted] at hm hm'
  obtain ⟨edge, hedge, hbranch, -⟩ := hcommits
  obtain ⟨edge', hedge', hbranch', -⟩ := hcommits'
  rw [honly m hm (by rw [hedge, Option.map_some, hbranch, hid]),
    honly m' hm' (by rw [hedge', Option.map_some, hbranch', hid])]

/-- One commit that applies, and two more that name its branch, with epochs long
past and a parent that does not exist. -/
def reusedBranchBatch : CanonicalizationInput :=
  batchInput [commitMessage "m1" 1 10 "b1" none, commitMessage "m2" 1 3 "b1" (some "zz"),
    commitMessage "m3" 1 4 "b1" (some "zz")]

/-- Commits that name the selected branch are accepted although they cannot be
applied, and in the order they arrive. -/
theorem accepted_commit_never_applies :
    reusedBranchBatch.candidateBranches = [] ∧
      (canonicalize reusedBranchBatch).acceptedCommits = ["m1", "m2", "m3"] ∧
      (canonicalize (reusedBranchBatch.withPending
        reusedBranchBatch.pendingMessages.reverse)).acceptedCommits = ["m1", "m3", "m2"] ∧
      ¬ AcceptsSelectedChain reusedBranchBatch reusedBranchBatch.pendingMessages := by
  refine ⟨rfl, by decide, by decide, ?_⟩
  have haccepted : (canonicalize reusedBranchBatch).acceptedCommits = ["m1", "m2", "m3"] := by
    decide
  have hfork : (canonicalize reusedBranchBatch).selectedForkEpoch = some 10 := by decide
  have htip : (canonicalize reusedBranchBatch).selectedTip = some 11 := by decide
  rw [AcceptsSelectedChain, hfork, htip, haccepted]
  rintro ⟨chain, hids, hchain⟩
  have honly : ∀ m ∈ reusedBranchBatch.pendingMessages, m.messageId = "m3" →
      m.commit?.map CommitEdge.resultingEpoch ≠ some 11 := by decide
  -- The list ends with `m3`, which leads to epoch 5.
  have hlast : (chain.map messageId).getLast? = some "m3" := by
    rw [hids]
    rfl
  rw [getLast?_map] at hlast
  obtain ⟨m, hm, hid⟩ := Option.map_eq_some_iff.mp hlast
  refine honly m (hchain.pending m (mem_of_getLast? hm)) hid ?_
  have htip := hchain.last
  rwa [hm, Option.bind_some] at htip

end Mdk
